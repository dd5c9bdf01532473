import FixCli.SessionRules

/-! The rules by which a property is carried through the other inputs of the loop
and through the spawn: commands, the timer and the ways a connection ends. -/
namespace FixCli.Session
open Lib Codec Store

def surviving : Halt → Bool
  | .fail error => !error.isFatal
  | .panic | .crash => false

def survives (Kept Failed : World → Prop) (halt : Halt) (w : World) : Prop :=
  Failed w ∧ (surviving halt = true → Kept w)

def handedWire : Event → Option Bytes
  | .wrote _ wire _ => some wire
  | _ => none

theorem framesSince {view : Event → Option Bytes} {new old trace : List Event} (wires : List Bytes)
    (grown : trace = new ++ old) (whole : trace.filterMap view = wires ++ old.filterMap view) :
    new.filterMap view = wires := by
  rw [grown,List.filterMap_append] at whole
  exact List.append_cancel_right whole

section

variable {c : Ctx}

open Prog

def fatal (halt : Halt) : Prop := surviving halt = false

def quits (halt : Halt) : Prop := halt = .crash ∨ ∃ error, halt = .fail error ∧ error.isFatal = true

theorem quitsFatal (halt : Halt) (h : quits halt) : fatal halt := by
  rcases h with rfl | ⟨error,rfl,fatal⟩
  · rfl
  · simp [Session.fatal,surviving,fatal]

theorem quitsStore (op : StoreOp) : StopsOnly quits (storeApply c op) := by
  intro w _
  split
  · trivial
  · rename_i bad
    rcases storeFailed bad with rfl | ⟨_,rfl⟩
    · exact .inl rfl
    · exact .inr ⟨_,rfl,rfl⟩

theorem quitsWrite (path : SendPath) (wire : Bytes) : StopsOnly quits (socketWrite c path wire) := by
  intro w _
  unfold socketWrite
  cases c.env.ioFault w.tick with
  | none => trivial
  | refused _ | lost _ => exact .inr ⟨_,rfl,rfl⟩
  | crashBefore | crashAfter => exact .inl rfl

theorem quitsWire (path : SendPath) (wire : Bytes) : StopsOnly quits (writeWire c path wire) :=
  .bind (.change _) fun _ => .bind (quitsWrite _ _) fun _ => .bind (fun _ _ => trivial) fun _ => .change _

theorem fatalEncode (fields : List Field) : FailsOnly fatal (inSession (encodeOutbound c fields)) := by
  unfold encodeOutbound
  cases encodeMessage c.config.beginString fields with
  | ok wire => exact .ok _
  | error e => exact .error rfl

theorem fatalAdmin (send : AdminSend) (after : Act Unit) (h : StopsOnly fatal after) :
    StopsOnly fatal (sendAdmin c send after) := by
  have stores (op : StoreOp) : StopsOnly fatal (storeApply c op) := (quitsStore op).weaken quitsFatal
  refine .bind .state fun w => .bind (stores _) fun reply => ?_
  split
  · exact .bind ((quitsWire _ _).weaken quitsFatal) fun _ => .bind h fun _ => .bind (stores _) fun _ => .change _
  · exact .stop rfl

def commitSubmit (c : Ctx) (request : ApplicationRequest) (nextOut : Nat) (wire : Bytes) : Act CommandRecord := do
  let reply ← storeApply c (.commitOutbound
    ⟨request.requestId,request.fingerprint,request.clOrdId,nextOut,wire⟩)
  match reply with
  | .command command =>
    if command.msgSeqNum < nextOut then pure command
    else if command.msgSeqNum ≠ nextOut then
      fail (.store (ascii "store returned future outbound sequence " ++ decimal command.msgSeqNum))
    else do
      writeWire c .application wire
      let reply ← storeApply c (.markOutboundWritten ⟨request.requestId,command.msgSeqNum⟩)
      match reply with
      | .command command => do
        Prog.change fun w => {w with nextOut := command.msgSeqNum + 1}
        pure command
      | _ => fail (.store (ascii "mark written returned an inbound record"))
  | _ => fail (.store (ascii "outbound commit returned an inbound record"))

theorem quitsCommit (request : ApplicationRequest) (nextOut : Nat) (wire : Bytes) :
    StopsOnly quits (commitSubmit c request nextOut wire) := by
  have protests (text : Bytes) : StopsOnly quits (fail (.store text) : Act CommandRecord) := .stop (.inr ⟨_,rfl,rfl⟩)
  refine .bind (quitsStore _) fun reply => ?_
  split
  · split
    · exact .pure _
    split
    · exact protests _
    · refine .bind (quitsWire _ _) fun _ => .bind (quitsStore _) fun reply => ?_
      split
      · exact .bind (.change _) fun _ => .pure _
      · exact protests _
  · exact protests _

theorem submitRun {request : ApplicationRequest} {w v : World} (established : w.phase = .established) (valid : validateSubmit request = .ok ())
    {fields : List Field} (prepared : submitFields c request w = (.ok fields,v)) :
    submitApplication c request w = (do
      let wire ← Prog.ofExcept (inSession (encodeOutbound c fields))
      commitSubmit c request w.nextOut wire : Act CommandRecord) v := by
  unfold submitApplication
  rw [bindReturns (stateRun w),iteRun,if_neg (by simp [established]),valid]
  exact bindReturns prepared

def loggingOut (v : World) : World :=
  {v with phase := .logoutSent, trace := .phaseChanged .logoutSent :: v.trace}

theorem logoutCases (text : Option Bytes) (w : World) :
    (mayLogout w.phase = false ∧ sendLogout c text w = (.error (.fail .notEstablished),w)) ∨
    (mayLogout w.phase = true ∧ ∃ v, Sends [.logout] w v ∧
      ((∃ halt, fatal halt ∧ sendLogout c text w = (.error halt,v)) ∨
        sendLogout c text w = (.ok (),loggingOut v))) := by
  cases may : mayLogout w.phase with
  | false =>
    refine .inl ⟨rfl,?_⟩
    simp only [sendLogout,bindRun,stateRun,iteRun,may]
    rfl
  | true =>
    let body : Act Unit := do
      let header ← standardHeader c (ascii "5")
      let wire ← Prog.ofExcept (inSession (encodeOutbound c
        (header ++ (text.map (fun text => (⟨58,text⟩ : Field))).toList)))
      let w ← Prog.state
      sendAdmin c
        ⟨.logout,adminKey (ascii "logout") w.nextOut w.nextEvent,ascii "admin:5:" ++ decimal w.nextOut,
          wire,wire,"Logout commit returned the wrong record type"⟩ (pure ())
    have moves : Moves (Sends [.logout]) body :=
      Moves.bind (sendsHeader _) fun _ => Moves.bind (Moves.ofExcept _) fun _ =>
        Moves.bind Moves.state fun _ => sendsAdmin (by simp) (adminKeySession _ _ _) (Moves.pure _)
    have stops : StopsOnly fatal body :=
      .bind (.bind (fun _ _ => trivial) fun _ => .bind .state fun _ => .pure _) fun _ =>
        .bind (.ofExcept (fatalEncode _)) fun _ => .bind .state fun _ => fatalAdmin _ _ (.pure _)
    have shape : sendLogout c text w = (body >>= fun _ => setPhase .logoutSent) w := by
      simp only [body,sendLogout,bind_assoc]
      rw [bindRun]
      simp only [stateRun,iteRun,may]
      rfl
    refine .inr ⟨rfl,(body w).2,moves w,?_⟩
    have halts := stops w trivial
    rcases run : body w with ⟨halt | _,v⟩
    · rw [run] at halts
      exact .inl ⟨halt,halts,by rw [shape,bindStops run]⟩
    · exact .inr (by rw [shape,bindReturns run]; rfl)

end

def expectations (trace : List Event) : List Nat :=
  trace.filterMap fun event => match event with
    | .expecting nextIn => some nextIn
    | _ => none

theorem expectationsAppend (new past : List Event) :
    expectations (new ++ past) = expectations new ++ expectations past := List.filterMap_append

structure Steady (w v : World) : Prop where
  nextIn : v.nextIn = w.nextIn
  gapBuffer : v.gapBuffer = w.gapBuffer
  phase : v.phase = w.phase ∨ v.phase ≠ .logonSent
  trace : ∃ new, v.trace = new ++ w.trace ∧ expectations new = []

namespace Steady

instance : Std.Refl Steady := ⟨fun _ => ⟨rfl,rfl,.inl rfl,[],rfl,rfl⟩⟩

instance : IsTrans World Steady where
  trans := by
    intro a b c h g
    obtain ⟨first,hfirst,quietFirst⟩ := h.trace
    obtain ⟨second,hsecond,quietSecond⟩ := g.trace
    refine ⟨g.nextIn.trans h.nextIn,g.gapBuffer.trans h.gapBuffer,?_,second ++ first,
      by rw [hsecond,hfirst,List.append_assoc],by rw [expectationsAppend,quietFirst,quietSecond]; rfl⟩
    rcases g.phase with same | left
    · rw [same]; exact h.phase
    · exact .inr left

theorem sends {p : List SendPath} {w v : World} (h : Sends p w v) : Steady w v := by
  obtain ⟨new,trace,sent⟩ := h.trace
  refine ⟨h.nextIn,h.gapBuffer,.inl h.phase,new,trace,List.filterMap_eq_nil_iff.mpr ?_⟩
  intro event mem
  have here := sent event mem
  cases event <;> first | rfl | cases here

theorem phased (w : World) {phase : SessionPhase} (other : phase ≠ .logonSent) :
    Steady w {w with phase := phase, trace := .phaseChanged phase :: w.trace} :=
  ⟨rfl,rfl,.inr other,[_],rfl,rfl⟩

end Steady

section

variable {c : Ctx} {α : Type}

open Prog

theorem steadySends {p : List SendPath} {m : Act α} (h : Moves (Sends p) m) : Moves Steady m :=
  h.weaken fun _ _ => Steady.sends

theorem steadyLogout (text : Option Bytes) : Moves Steady (sendLogout c text) := by
  intro w
  rcases logoutCases (c := c) text w with ⟨-,refused⟩ | ⟨-,v,sent,⟨halt,-,failed⟩ | done⟩
  · rw [refused]; exact Std.Refl.refl w
  · rw [failed]; exact .sends sent
  · rw [done]; exact IsTrans.trans w v _ (.sends sent) (.phased v (by decide))

def afterLogon (c : Ctx) (m : ParsedMessage) (e : Expected) : Act Unit := do
  testRequestAnswered m e.msgType
  logoutReceived c e.msgType
  answerResendRequest c e.requestedResend
  answerTestRequest c e.heartbeatResponse

theorem steadyAfterLogon (m : ParsedMessage) (e : Expected) : Moves Steady (afterLogon c m e) := by
  have answer : Moves Steady (answerLogout c) := by
    refine Moves.bind Moves.state fun w => ?_
    split
    · exact steadyLogout none
    · exact Moves.pure _
  have logout : Moves Steady (logoutReceived c e.msgType) := by
    unfold logoutReceived
    split
    · exact Moves.bind (steadySends (p := []) (sendsInfo _)) fun _ => Moves.bind answer fun _ =>
        Moves.change fun w => .phased w (by decide)
    · exact Moves.pure _
  exact Moves.bind (steadySends (p := []) (sendsTestRequestAnswered _ _)) fun _ =>
    Moves.bind logout fun _ => steadySends (sendsAnswers e)

theorem steadyLogonReceived (msgType : Bytes) : Moves Steady (logonReceived msgType) := by
  refine Moves.bind Moves.state fun w => ?_
  split
  · exact Moves.bind (steadySends (p := []) (sendsInfo _)) fun _ =>
      Moves.change fun w => .phased w (by decide)
  · exact Moves.pure _

theorem steadyAfterCommit (m : ParsedMessage) (e : Expected) : Moves Steady (afterCommit c m e) :=
  Moves.bind (steadyLogonReceived _) fun _ => steadyAfterLogon m e

end

def counted (expected : Expected) (v : World) : World :=
  {v with
    nextIn := expected.nextInAfter
    nextEvent := v.nextEvent + 1
    trace := .expecting expected.nextInAfter :: v.trace}

theorem commitCheckedRun (c : Ctx) (m : ParsedMessage) (n : Nat) (f : Bytes) (e : Expected) (w : World) :
    commitChecked c m n f e w = match storeApply c (.commitInbound (inboundCommit w n f e)) w with
      | (.ok _, v) => afterCommit c m e (counted e v)
      | (.error halt, v) => (.error halt,v) := by
  rcases run : storeApply c (.commitInbound (inboundCommit w n f e)) w with ⟨_ | _,v⟩ <;>
  · simp only [commitChecked,Prog.bindRun,Prog.stateRun,run,setNextIn,Prog.changeRun,counted]

theorem storeTrace (c : Ctx) (op : StoreOp) (w : World) :
    (storeApply c op w).2.toActor = w.toActor ∧
      ((storeApply c op w).2.trace = w.trace ∨
        ∃ answer, (storeApply c op w).2.trace = .stored op answer :: w.trace) := by
  unfold storeApply
  cases c.env.storeFault w.tick with
  | none => cases (apply w.journal op).1 <;> exact ⟨rfl,.inr ⟨_,rfl⟩⟩
  | refused text => exact ⟨rfl,.inr ⟨_,rfl⟩⟩
  | lost text => exact ⟨rfl,.inr ⟨_,rfl⟩⟩
  | crashBefore => exact ⟨rfl,.inl rfl⟩
  | crashAfter => exact ⟨rfl,.inr ⟨_,rfl⟩⟩

def realignEvent (msgSeqNum : Nat) : Event → Prop
  | .logged _ => True
  | .stored (.resyncInbound _) _ => True
  | .expecting nextIn => nextIn = msgSeqNum
  | _ => False

structure Realigns (msgSeqNum : Nat) (w v : World) : Prop where
  phase : v.phase = w.phase
  gapBuffer : v.gapBuffer = w.gapBuffer
  trace : ∃ new, v.trace = new ++ w.trace ∧ ∀ event ∈ new, realignEvent msgSeqNum event

theorem realignRefused {c : Ctx} {msgSeqNum : Nat} {w : World} (phase : w.phase ≠ .logonSent) :
    realign c msgSeqNum w = (.error (.fail (unexpectedSequence w.nextIn msgSeqNum)),w) := by
  simp only [realign,Prog.bindRun,Prog.stateRun,Prog.iteRun,if_neg phase]
  rfl

theorem realignMoves (c : Ctx) (msgSeqNum : Nat) : Prog.Moves (Realigns msgSeqNum) (realign c msgSeqNum) := by
  intro w
  by_cases phase : w.phase = .logonSent
  · rw [realignRun phase]
    obtain ⟨actor,trace⟩ := storeTrace c (.resyncInbound (resyncCommit w msgSeqNum)) (desynced w msgSeqNum)
    have logged : realignEvent msgSeqNum (.logged (.info (desyncText w.nextIn msgSeqNum))) := trivial
    rcases run : storeApply c (.resyncInbound (resyncCommit w msgSeqNum)) (desynced w msgSeqNum) with ⟨_ | _,v⟩
    all_goals
      rw [run] at actor trace
      have samePhase : v.phase = w.phase := congrArg Actor.phase actor
      have sameBuffer : v.gapBuffer = w.gapBuffer := congrArg Actor.gapBuffer actor
    · rcases trace with same | ⟨answer,trace⟩
      · exact ⟨samePhase,sameBuffer,[_],same,by simpa using logged⟩
      · exact ⟨samePhase,sameBuffer,[_, _],trace,by simp [realignEvent]⟩
    · rcases trace with same | ⟨answer,trace⟩
      · exact ⟨samePhase,sameBuffer,[.expecting msgSeqNum, _],congrArg (_ :: ·) same,by simp [realignEvent]⟩
      · exact ⟨samePhase,sameBuffer,[.expecting msgSeqNum, _, _],congrArg (_ :: ·) trace,by simp [realignEvent]⟩
  · rw [realignRefused phase]
    exact ⟨rfl,rfl,[],rfl,by simp⟩

theorem realignReturns (c : Ctx) (msgSeqNum : Nat) : Prog.Meets (fun _ => True) (realign c msgSeqNum)
    (fun _ w => w.nextIn = msgSeqNum) (fun _ _ => True) := by
  intro w _
  split
  · rename_i u v run
    by_cases phase : w.phase = .logonSent
    · rw [realignRun phase] at run
      split at run <;> cases run
      rfl
    · rw [realignRefused phase] at run
      cases run
  · trivial

theorem resyncStored {c : Ctx} {msgSeqNum : Nat} {w v : World} {reply : StoreReply}
    (ok : storeApply c (.resyncInbound (resyncCommit w msgSeqNum)) (desynced w msgSeqNum) = (.ok reply,v)) :
    c.env.storeFault w.tick = .none ∧ msgSeqNum ≠ 0 ∧ w.nextEvent = w.journal.nextEvent ∧
      v.nextOut = w.nextOut ∧ v.journal.nextEvent = w.journal.nextEvent + 1 := by
  obtain ⟨healthy,answer,rfl⟩ := storeReturned ok
  obtain ⟨positive,synced,-,after⟩ := resyncInboundSource answer
  refine ⟨healthy,positive,synced,rfl,?_⟩
  exact congrArg Journal.nextEvent after

theorem resyncStores {c : Ctx} {msgSeqNum : Nat} {w : World} (healthy : c.env.storeFault w.tick = .none) (positive : msgSeqNum ≠ 0)
    (synced : w.nextEvent = w.journal.nextEvent) :
    storeApply c (.resyncInbound (resyncCommit w msgSeqNum)) (desynced w msgSeqNum) =
      (.ok (.resyncedInbound msgSeqNum),
        applied (.resyncInbound (resyncCommit w msgSeqNum)) (desynced w msgSeqNum)) := by
  refine storeReturns healthy ?_
  exact congrArg Prod.fst (resyncInboundStores (resyncCommit w msgSeqNum) positive synced)

theorem acceptLow {c : Ctx} {frame : Bytes} {message : ParsedMessage} {msgSeqNum : Nat} {w : World} (phase : w.phase = .logonSent) (low : msgSeqNum < w.nextIn) :
    acceptFrame c message msgSeqNum frame w =
      match storeApply c (.resyncInbound (resyncCommit w msgSeqNum)) (desynced w msgSeqNum) with
      | (.ok _, v) => (do commitExpected c message frame; drainBuffer c; endRecovery : Act Unit)
          (realigned msgSeqNum v)
      | (.error halt, v) => (.error halt,v) := by
  have first : realignIfLow c msgSeqNum w = realign c msgSeqNum w := by
    simp only [realignIfLow,Prog.bindRun,Prog.stateRun,Prog.iteRun,if_pos low]
  rw [acceptFrame,Prog.bindRun,first,realignRun phase]
  rcases storeApply c (.resyncInbound (resyncCommit w msgSeqNum)) (desynced w msgSeqNum) with ⟨_ | _,v⟩ <;> rfl

structure LoopRules (c : Ctx) (Kept Failed : World → Prop) : Prop where
  quiet : ∀ w v, Quiet w v → Kept w → Kept v
  fails : ∀ w, Kept w → Failed w
  logout : ∀ text, Prog.Meets Kept (sendLogout c text) (fun _ => Kept) (survives Kept Failed)
  heartbeat : Prog.Meets (fun w => Kept w ∧ w.phase = .established) (sendHeartbeat c)
    (fun _ => Kept) (fun _ => Failed)
  testRequest : ∀ timeout, Prog.Meets (fun w => Kept w ∧ w.phase = .established) (sendTestRequest c timeout)
    (fun _ => Kept) (fun _ => Failed)
  replies : ∀ reply w, Failed w → Failed (replied reply w)
  blocks : ∀ error w, Failed w → Failed (announceBlocked error w)
  leaves : ∀ w, Failed w → Failed (leave w).world
  hangsUp : ∀ w, Failed w → Failed (hangUp w)

def Holds (Kept Failed : World → Prop) (conn : Conn) : Prop :=
  Failed conn.world ∧ (conn.live = true → Kept conn.world)

namespace LoopRules

variable {c : Ctx} {Kept Failed : World → Prop}

open Prog

theorem quietly (rules : LoopRules c Kept Failed) {α : Type} {m : Act α} (moves : Moves Quiet m) :
    Meets Kept m (fun _ => Kept) (survives Kept Failed) := by
  intro w kept
  have here := rules.quiet w _ (moves w) kept
  split
  · rename_i run
    rwa [run] at here
  · rename_i run
    rw [run] at here
    exact ⟨rules.fails _ here,fun _ => here⟩

theorem answers (rules : LoopRules c Kept Failed) {w : World} (kept : Kept w) (command : ActorCommand)
    (submits : ∀ request, command = .submit request →
      Meets (· = w) (submitApplication c request) (fun _ => Kept) (survives Kept Failed)) :
    Meets (· = w) (commandResult c command) (fun _ => Kept) (survives Kept Failed) := by
  have pinned {α : Type} {m : Act α} (meets : Meets Kept m (fun _ => Kept) (survives Kept Failed)) :
      Meets (· = w) m (fun _ => Kept) (survives Kept Failed) :=
    Meets.weaken meets (fun _ same => same ▸ kept) (fun _ _ h => h) fun _ _ h => h
  cases command with
  | status => exact pinned (rules.quietly (Moves.bind Moves.state fun _ => Moves.pure _))
  | lookupCommand requestId =>
    refine pinned (rules.quietly (Moves.bind (Moves.bind (quietLookup rfl) fun reply => ?_) fun _ => Moves.pure _))
    split
    · exact Moves.pure _
    · exact Moves.stop _
  | submit request => exact Meets.bind (submits request rfl) fun _ => Meets.pure fun _ h => h
  | logout text => exact pinned (Meets.bind (rules.logout text) fun _ => Meets.pure fun _ h => h)

theorem commands (rules : LoopRules c Kept Failed) {w : World} (kept : Kept w) (command : ActorCommand)
    (submits : ∀ request, command = .submit request →
      Meets (· = w) (submitApplication c request) (fun _ => Kept) (survives Kept Failed)) :
    Meets (· = w) (handleCommand c command) (fun _ => Kept) (fun _ => Failed) := by
  rintro _ rfl
  have answered := rules.answers kept command submits _ rfl
  have quietReply (reply : Except SessionError ActorReply) (v : World) : Quiet v (replied reply v) :=
    .event v _ _ trivial
  rw [handleCommandRun]
  rcases run : commandResult c command _ with ⟨_ | reply,v⟩
  · rename_i halt
    rw [run] at answered
    cases halt with
    | panic | crash => exact answered.1
    | fail error =>
      cases fatal : error.isFatal with
      | true =>
        simp only [fatal,if_true]
        exact rules.replies _ v answered.1
      | false =>
        simp only [fatal]
        exact rules.quiet _ _ (quietReply _ v) (answered.2 (by simp [surviving,fatal]))
  · rw [run] at answered
    exact rules.quiet _ _ (quietReply _ v) answered

theorem timers (rules : LoopRules c Kept Failed) :
    Meets Kept (heartbeatDue c) (fun _ => Kept) (fun _ => Failed) := by
  have clock : Meets Kept (now c) (fun _ => Kept) (fun _ => Failed) := fun w h => rules.quiet w _ (.tick w _) h
  have beats : Meets Kept (heartbeatIfEstablished c) (fun _ => Kept) (fun _ => Failed) := by
    intro w kept
    simp only [heartbeatIfEstablished,bindRun,stateRun,iteRun]
    by_cases established : w.phase = .established
    · rw [if_pos established]
      exact rules.heartbeat w ⟨kept,established⟩
    · rw [if_neg established]
      exact kept
  have logsOut : Meets Kept (sendLogout c (some testRequestTimeout)) (fun _ => Kept) (fun _ => Failed) :=
    Meets.weaken (rules.logout _) (fun _ h => h) (fun _ _ h => h) fun _ _ h => h.1
  have asks : Meets Kept (testRequestDue c) (fun _ => Kept) (fun _ => Failed) := by
    refine Meets.bind (Q := fun v w => Kept w ∧ v = w) (Meets.state fun _ h => ⟨h,rfl⟩) fun v => ?_
    split
    · refine Meets.bind (Q := fun _ => Kept) (fun w h => clock w h.1) fun at' => ?_
      split
      · exact Meets.bind logsOut fun _ => Meets.stop fun w h => rules.fails w h
      · exact Meets.pure fun _ h => h
    · split
      · rename_i established
        refine Meets.bind (Q := fun _ w => Kept w ∧ w.phase = .established) ?_ fun at' => ?_
        · rintro w ⟨h,rfl⟩
          exact ⟨clock v h,established⟩
        · split
          · exact rules.testRequest _
          · exact Meets.pure fun _ h => h.1
      · exact Meets.pure fun _ h => h.1
  refine Meets.bind (Q := fun _ => Kept) (Meets.state fun _ h => h) fun v => Meets.bind clock fun woken => ?_
  split
  · exact Meets.pure fun _ h => h
  · exact Meets.bind beats fun _ => asks

theorem settled (rules : LoopRules c Kept Failed) {m : Act Unit} {w : World} {Before : World → Prop}
    (meets : Meets Before m (fun _ => Kept) (fun _ => Failed)) (before : Before w) :
    Holds Kept Failed (settle (m w)) := by
  have here := meets w before
  split at here
  · rename_i run
    rw [run]
    exact ⟨rules.fails _ here,fun _ => here⟩
  · rename_i halt v run
    rw [run]
    cases halt with
    | fail error => exact ⟨rules.blocks error v here,fun live => by cases live⟩
    | panic | crash => exact ⟨here,fun live => by cases live⟩

theorem steps (rules : LoopRules c Kept Failed) {conn : Conn} {input : Input}
    (submits : ∀ request, input = .command (.submit request) → conn.live = true →
      Meets (· = conn.world) (submitApplication c request) (fun _ => Kept) (survives Kept Failed))
    (frames : ∀ wire, input = .frame wire → conn.live = true →
      Meets (· = conn.world) (handleFrame c wire) (fun _ => Kept) (fun _ => Failed))
    (holds : Holds Kept Failed conn) : Holds Kept Failed (step c conn input) := by
  unfold step
  cases live : conn.live with
  | false => simpa using holds
  | true =>
    have kept := holds.2 live
    have failed := holds.1
    rw [if_pos rfl]
    cases input with
    | command command =>
      refine rules.settled (rules.commands kept command fun request same => ?_) rfl
      exact submits request (by rw [same]) live
    | handlesDropped => exact ⟨rules.leaves _ failed,fun live => nomatch live⟩
    | endOfStream => exact ⟨rules.leaves _ (rules.hangsUp _ failed),fun live => nomatch live⟩
    | readFailed text => exact ⟨rules.blocks _ _ failed,fun live => nomatch live⟩
    | decodeFailed stop =>
      cases stop with
      | error error => exact ⟨rules.blocks _ _ failed,fun live => nomatch live⟩
      | panic => exact ⟨failed,fun live => nomatch live⟩
    | timer => exact rules.settled rules.timers kept
    | frame wire => exact rules.settled (frames wire rfl live) rfl

theorem spawns (rules : LoopRules c Kept Failed) {s : Shared} (entered : Failed (entering c s))
    (unread : ∀ text, Failed (unrecovered c s text))
    (logs : Meets (· = entering c s) (logon c) (fun _ => Kept) (fun _ => Failed)) :
    Holds Kept Failed (spawn c s) := by
  unfold spawn
  split
  · exact rules.settled logs rfl
  · exact ⟨unread _,fun live => nomatch live⟩
  · exact ⟨unread _,fun live => nomatch live⟩
  · exact ⟨entered,fun live => nomatch live⟩
  · exact ⟨entered,fun live => nomatch live⟩

end LoopRules

def Buffered (c : Ctx) (w : World) : Prop :=
  ∀ k frame, w.gapBuffer[k]? = some frame → ∃ message, Sequenced c frame message k

theorem settleBuffer (r : Except Halt Unit × World) : (settle r).world.gapBuffer = r.2.gapBuffer := by
  obtain ⟨halt | _,w⟩ := r
  · cases halt <;> rfl
  · rfl

theorem spawnEmpty (c : Ctx) (s : Shared) : (spawn c s).world.gapBuffer = ∅ := by
  have logs : (logon c (entering c s)).2.gapBuffer = ∅ := by
    have same : Prog.Moves (fun w v : World => v.gapBuffer = w.gapBuffer) (sendLogon c) :=
      opensLogon.weaken fun _ _ => Opens.gapBuffer
    have here := same (entering c s)
    simp only [logon,Prog.bindRun]
    split
    · rename_i run; rw [run] at here; exact here
    · rename_i run; rw [run] at here; exact here
  unfold spawn
  cases c.env.storeFault s.tick with
  | none => rw [settleBuffer]; exact logs
  | refused _ | lost _ | crashBefore | crashAfter => rfl

theorem spawnBuffered (c : Ctx) (s : Shared) : Buffered c (spawn c s).world := by
  intro k frame found
  rw [spawnEmpty] at found
  simp at found

namespace Buffered

variable {c : Ctx} {w v : World}

theorem smaller (h : Buffered c w)
    (inside : ∀ (k : Nat) (frame : Bytes), v.gapBuffer[k]? = some frame → w.gapBuffer[k]? = some frame) :
    Buffered c v :=
  fun k frame found => h k frame (inside k frame found)

theorem same (h : Buffered c w) (gapBuffer : v.gapBuffer = w.gapBuffer) : Buffered c v :=
  h.smaller fun _ _ found => gapBuffer ▸ found

theorem skip (h : Buffered c w) (keep : Nat → Bool) :
    Buffered c {w with gapBuffer := w.gapBuffer.keepKeys keep} := h.smaller fun k frame found => by
  rw [Table.keepKeysGet] at found
  split at found
  · exact found
  · cases found

theorem erase (h : Buffered c w) (n : Nat) : Buffered c {w with gapBuffer := w.gapBuffer.erase n} :=
  h.smaller fun k frame found => by
    simp only [Std.ExtTreeMap.getElem?_erase] at found
    split at found
    · cases found
    · exact found

theorem insert (h : Buffered c w) {n : Nat} {frame : Bytes} {message : ParsedMessage}
    (sequenced : Sequenced c frame message n) :
    Buffered c {w with gapBuffer := w.gapBuffer.insertIfNew n frame} := by
  intro k f found
  simp only [Std.ExtTreeMap.getElem?_insertIfNew] at found
  split at found
  · rename_i fresh
    cases found
    have same : n = k := by simpa using fresh.1
    exact ⟨message,same ▸ sequenced⟩
  · exact h k f found

end Buffered
end FixCli.Session