import FixCli.Lib.Trace
import FixCli.SessionLoop

/-! What a Logout settles. Once one was written or committed, the phase stays
closed and no application message goes out, as long as no frame ahead of the
expected number arrives: such a frame starts a recovery in any phase. -/
namespace FixCli.Session
open Lib Codec Store

def logsOut : Event → Bool
  | .wrote .logout _ _ => true
  | .stored (.commitInbound commit) (.ok _) => decide (commit.msgType = ascii "5")
  | _ => false

def loggedOut (trace : List Event) : Prop := ∃ event ∈ trace, logsOut event = true

instance (trace : List Event) : Decidable (loggedOut trace) := by unfold loggedOut; infer_instance

def reopens : Event → Bool
  | .phaseChanged .recovering | .phaseChanged .established => true
  | .wrote .application _ _ => true
  | _ => false

def LogoutFinal (trace : List Event) : Prop :=
  Always (fun event past => loggedOut past → reopens event = false) trace

instance (trace : List Event) : Decidable (LogoutFinal trace) := by unfold LogoutFinal; infer_instance

def closed : SessionPhase → Bool
  | .logoutSent | .disconnected | .blocked => true
  | .connecting | .logonSent | .synchronizing | .established | .recovering => false

def NotAheadAfterLogout (c : Ctx) (conn : Conn) (input : Input) : Prop :=
  ∀ wire message msgSeqNum, input = .frame wire → Sequenced c wire message msgSeqNum →
    loggedOut conn.world.trace → conn.world.nextIn < msgSeqNum →
      gapBufferLimit ≤ conn.world.gapBuffer.size

theorem loggedOutAppend (new past : List Event) :
    loggedOut (new ++ past) ↔ loggedOut new ∨ loggedOut past := by
  simp [loggedOut,or_and_right,exists_or]

theorem finalQuiet {past : List Event} (new : List Event) (final : LogoutFinal past)
    (quiet : ∀ event ∈ new, reopens event = false) : LogoutFinal (new ++ past) :=
  alwaysAppend final fun newer event older split _ => quiet event (by simp [split])

theorem finalOpen {past : List Event} (new : List Event) (final : LogoutFinal past) (opened : ¬ loggedOut past)
    (kept : ∀ event ∈ new, logsOut event = false) : LogoutFinal (new ++ past) ∧ ¬ loggedOut (new ++ past) := by
  have none (events : List Event) (inside : ∀ event ∈ events, event ∈ new) : ¬ loggedOut (events ++ past) := by
    rw [loggedOutAppend]
    rintro (⟨event,mem,out⟩ | before)
    · rw [kept event (inside event mem)] at out
      cases out
    · exact opened before
  refine ⟨alwaysAppend final fun newer event older split out => ?_,none new fun _ h => h⟩
  exact absurd out (none older fun e mem => by simp [split,mem])

theorem sentNotOut {p : List SendPath} (inside : SendPath.logout ∉ p) {event : Event}
    (sent : sentEvent p event) : logsOut event = false := by
  cases event with
  | stored op answer =>
    cases op <;> first | rfl | cases sent
  | wrote path wire journal =>
    cases path <;> first | rfl | exact absurd sent inside
  | logged _ | replied _ | phaseChanged _ | transportClosed | protocolError _ | expecting _ => rfl

theorem sentNotReopening {p : List SendPath} (inside : SendPath.application ∉ p) {event : Event}
    (sent : sentEvent p event) : reopens event = false := by
  cases event with
  | wrote path wire journal =>
    cases path <;> first | rfl | exact absurd sent inside
  | phaseChanged _ => cases sent
  | stored _ _ | logged _ | replied _ | transportClosed | protocolError _ | expecting _ => rfl

theorem sendsLoggedOut {p : List SendPath} {w v : World} (h : Sends p w v)
    (inside : SendPath.logout ∉ p) : loggedOut v.trace ↔ loggedOut w.trace := by
  obtain ⟨new,trace,sent⟩ := h.trace
  rw [trace,loggedOutAppend]
  constructor
  · rintro (⟨event,mem,out⟩ | before)
    · rw [sentNotOut inside (sent event mem)] at out
      cases out
    · exact before
  · exact .inr

theorem sendsFinal {p : List SendPath} {w v : World} (h : Sends p w v)
    (inside : SendPath.application ∉ p) (final : LogoutFinal w.trace) : LogoutFinal v.trace := by
  obtain ⟨new,trace,sent⟩ := h.trace
  rw [trace]
  exact finalQuiet _ final fun event mem => sentNotReopening inside (sent event mem)

structure Closing (c : Ctx) (w : World) : Prop where
  final : LogoutFinal w.trace
  phase : loggedOut w.trace → closed w.phase = true
  buffered : Buffered c w

abbrev Final (w : World) : Prop := LogoutFinal w.trace

namespace Closing

variable {c : Ctx} {w v : World}

theorem sends {p : List SendPath} (h : Closing c w) (sent : Sends p w v)
    (application : SendPath.application ∉ p) (logout : SendPath.logout ∉ p) : Closing c v :=
  ⟨sendsFinal sent application h.final,
    fun out => by rw [sent.phase]; exact h.phase ((sendsLoggedOut sent logout).mp out),
    h.buffered.same sent.gapBuffer⟩

theorem quiet (h : Closing c w) (moved : Quiet w v) : Closing c v :=
  h.sends (p := []) moved.sends (by simp) (by simp)

theorem shut (final : LogoutFinal w.trace) (buffered : Buffered c w) {phase : SessionPhase}
    (isClosed : closed phase = true) :
    Closing c {w with phase := phase, trace := .phaseChanged phase :: w.trace} := by
  refine ⟨⟨fun _ => ?_,final⟩,fun _ => isClosed,buffered⟩
  cases phase <;> first | rfl | cases isClosed

theorem change (h : Closing c w) (opened : ¬ loggedOut w.trace) (phase : SessionPhase) :
    Closing c {w with phase := phase, trace := .phaseChanged phase :: w.trace} := by
  have after := finalOpen [.phaseChanged phase] h.final opened (by simp [logsOut])
  exact ⟨after.1,fun out => absurd out after.2,h.buffered⟩

end Closing

section

variable {c : Ctx}

open Prog

theorem closingLogout (text : Option Bytes) :
    Meets (Closing c) (sendLogout c text) (fun _ => Closing c) (survives (Closing c) Final) := by
  intro w h
  rcases logoutCases (c := c) text w with ⟨-,refused⟩ | ⟨-,v,sent,⟨halt,dead,failed⟩ | sends⟩
  · rw [refused]
    exact ⟨h.final,fun _ => h⟩
  · rw [failed]
    exact ⟨sendsFinal sent (by simp) h.final,fun live => by rw [dead] at live; cases live⟩
  · rw [sends]
    exact .shut (sendsFinal sent (by simp) h.final) (h.buffered.same sent.gapBuffer) rfl

theorem closingSubmit (request : ApplicationRequest) :
    Meets (Closing c) (submitApplication c request) (fun _ => Closing c) (survives (Closing c) Final) := by
  intro w h
  by_cases established : w.phase = .established
  · have opened : ¬ loggedOut w.trace := fun out => by
      have shut := h.phase out
      rw [established] at shut
      cases shut
    have sent := sendsSubmit (c := c) request w
    have after : Closing c (submitApplication c request w).2 := by
      obtain ⟨new,trace,each⟩ := sent.trace
      have both := finalOpen _ h.final opened fun event mem => sentNotOut (by simp) (each event mem)
      rw [← trace] at both
      exact ⟨both.1,fun out => absurd out both.2,h.buffered.same sent.gapBuffer⟩
    exact Meets.outcome after fun _ _ h => ⟨h.final,fun _ => h⟩
  · have refused : submitApplication c request w = (.error (.fail .notEstablished),w) := by
      simp only [submitApplication,bindRun,stateRun,iteRun,ne_eq,established,not_false_eq_true,if_true]
      rfl
    rw [refused]
    exact ⟨h.final,fun _ => h⟩

theorem closingSend {p : List SendPath} {α : Type} {m : Act α} {P : World → Prop}
    (moves : Moves (Sends p) m) (application : SendPath.application ∉ p)
    (logout : SendPath.logout ∉ p) (pre : ∀ w, P w → Closing c w) :
    Meets P m (fun _ => Closing c) (fun _ => Final) :=
  Meets.ofMoves moves (fun w _ sent h => (pre w h).sends sent application logout) fun _ h => h.final

theorem closingLoop : LoopRules c (Closing c) Final where
  quiet := fun _ _ moved h => h.quiet moved
  fails := fun _ h => h.final
  logout := closingLogout
  heartbeat := closingSend (sendsHeartbeatResponse none) (by simp) (by simp) fun _ h => h.1
  testRequest := fun timeout => closingSend (sendsTestRequest timeout) (by simp) (by simp) fun _ h => h.1
  replies := fun _ _ h => finalQuiet [_] h (by simp [reopens])
  blocks := fun _ _ h => finalQuiet [_, _, _, _] h (by simp [reopens])
  leaves := fun _ h => finalQuiet [_] h (by simp [reopens])
  hangsUp := fun _ h => finalQuiet [_, _] h (by simp [reopens])

theorem closingAhead {frame : Bytes} {message : ParsedMessage} {msgSeqNum : Nat}
    (sequenced : Sequenced c frame message msgSeqNum) :
    Meets (fun w => Closing c w ∧ (loggedOut w.trace → gapBufferLimit ≤ w.gapBuffer.size))
      (bufferGap c msgSeqNum frame) (fun _ => Closing c) (fun _ => Final) := by
  rintro w ⟨h,full⟩
  simp only [bufferGap,bindRun,stateRun,iteRun]
  by_cases limit : gapBufferLimit ≤ w.gapBuffer.size
  · rw [if_pos limit]
    exact h.final
  · have opened : ¬ loggedOut w.trace := fun out => limit (full out)
    rw [if_neg limit]
    set u : World := {w with gapBuffer := w.gapBuffer.insertIfNew msgSeqNum frame}
    have hu : Closing c u := ⟨h.final,h.phase,h.buffered.insert sequenced⟩
    simp only [changeRun]
    by_cases recovering : w.phase ≠ .recovering
    · rw [if_pos recovering]
      have asks : Meets (fun v => Closing c v ∧ ¬ loggedOut v.trace) (sendResendRequest c w.nextIn)
          (fun _ v => Closing c v ∧ ¬ loggedOut v.trace) (fun _ => Final) :=
        Meets.ofMoves (sendsResendRequest _) (fun v x sent hv => ⟨hv.1.sends sent (by simp) (by simp),
          fun out => hv.2 ((sendsLoggedOut sent (by simp)).mp out)⟩) fun _ hv => hv.1.final
      exact Meets.bind asks (fun _ => Meets.change fun v hv => hv.1.change hv.2 .recovering) u ⟨hu,opened⟩
    · rw [if_neg recovering]
      exact hu

theorem closingRealign (msgSeqNum : Nat) :
    Meets (Closing c) (realign c msgSeqNum) (fun _ w => Closing c w ∧ w.nextIn = msgSeqNum) (fun _ => Final) := by
  have moved : Meets (Closing c) (realign c msgSeqNum) (fun _ => Closing c) (fun _ => Final) := by
    refine Meets.ofMoves (realignMoves c msgSeqNum) ?_ fun _ h => h.final
    intro w v moves h
    obtain ⟨new,trace,each⟩ := moves.trace
    have plain : ∀ event ∈ new, logsOut event = false ∧ reopens event = false := by
      intro event mem
      have here := each event mem
      cases event with
      | stored op answer => cases op <;> first | exact ⟨rfl,rfl⟩ | cases here
      | logged _ | expecting _ => exact ⟨rfl,rfl⟩
      | wrote _ _ _ | phaseChanged _ | transportClosed | protocolError _ | replied _ => cases here
    refine ⟨by rw [trace]; exact finalQuiet _ h.final fun e mem => (plain e mem).2,fun out => ?_,
      h.buffered.same moves.gapBuffer⟩
    rw [moves.phase]
    rw [trace,loggedOutAppend] at out
    rcases out with ⟨event,mem,isOut⟩ | before
    · rw [(plain event mem).1] at isOut
      cases isOut
    · exact h.phase before
  have both := Meets.both moved (Meets.weaken (realignReturns c msgSeqNum) (fun _ _ => trivial)
    (fun _ _ h => h) fun _ _ h => h)
  exact Meets.weaken both (fun _ h => h) (fun _ _ h => h) fun _ _ h => h.1

theorem closingLogonReceived (msgType : Bytes) :
    Meets (Closing c) (logonReceived msgType) (fun _ => Closing c) (fun _ => Final) := by
  intro w h
  simp only [logonReceived,bindRun,stateRun,iteRun]
  by_cases answered : msgType = ascii "A" ∧ w.phase = .logonSent
  · have opened : ¬ loggedOut w.trace := fun out => by
      have shut := h.phase out
      rw [answered.2] at shut
      cases shut
    rw [if_pos answered]
    exact (h.quiet (.event w _ (.logged (.info (ascii "Received logon response"))) trivial)).change
      (fun out => opened (by simpa [loggedOut,logsOut] using out)) .established
  · rw [if_neg answered]
    exact h

theorem closingLogoutReceived :
    Meets (fun w => LogoutFinal w.trace ∧ Buffered c w) (logoutReceived c (ascii "5"))
      (fun _ => Closing c) (fun _ => Final) := by
  have logs : Meets (fun w => LogoutFinal w.trace ∧ Buffered c w) (info (ascii "Received logout request"))
      (fun _ w => LogoutFinal w.trace ∧ Buffered c w) (fun _ => Final) :=
    Meets.change fun w h => ⟨finalQuiet [_] h.1 (by simp [reopens]),h.2⟩
  have answers : Meets (fun w => LogoutFinal w.trace ∧ Buffered c w) (answerLogout c)
      (fun _ w => LogoutFinal w.trace ∧ Buffered c w) (fun _ => Final) := by
    rintro w ⟨final,buffered⟩
    simp only [answerLogout,bindRun,stateRun,iteRun]
    by_cases sent : w.phase ≠ .logoutSent
    · rw [if_pos sent]
      rcases logoutCases (c := c) none w with ⟨-,refused⟩ | ⟨-,v,sends,⟨halt,-,failed⟩ | done⟩
      · rw [refused]; exact final
      · rw [failed]; exact sendsFinal sends (by simp) final
      · rw [done]
        exact ⟨finalQuiet [_] (sendsFinal sends (by simp) final) (by simp [reopens]),
          buffered.same sends.gapBuffer⟩
    · rw [if_neg sent]
      exact ⟨final,buffered⟩
  unfold logoutReceived
  rw [if_pos rfl]
  exact Meets.bind logs fun _ => Meets.bind answers fun _ =>
    Meets.change fun w h => Closing.shut h.1 h.2 rfl

theorem closingAfterCommit (m : ParsedMessage) (e : Expected) :
    Meets (fun w => LogoutFinal w.trace ∧ Buffered c w ∧
        (loggedOut w.trace → closed w.phase = true ∨ e.msgType = ascii "5"))
      (afterCommit c m e) (fun _ => Closing c) (fun _ => Final) := by
  have answers : Meets (Closing c) (do
      answerResendRequest c e.requestedResend
      answerTestRequest c e.heartbeatResponse) (fun _ => Closing c) (fun _ => Final) :=
    closingSend (sendsAnswers e) (by simp) (by simp) fun _ h => h
  by_cases logout : e.msgType = ascii "5"
  · have noLogon : Meets (fun w => LogoutFinal w.trace ∧ Buffered c w) (logonReceived e.msgType)
        (fun _ w => LogoutFinal w.trace ∧ Buffered c w) (fun _ => Final) := by
      intro w h
      simp only [logonReceived,bindRun,stateRun,iteRun,logout]
      rw [if_neg (by simp [show ¬ ascii "5" = ascii "A" by decide])]
      exact h
    have tested : Meets (fun w => LogoutFinal w.trace ∧ Buffered c w) (testRequestAnswered m e.msgType)
        (fun _ w => LogoutFinal w.trace ∧ Buffered c w) (fun _ => Final) :=
      Meets.ofMoves (sendsTestRequestAnswered (p := []) m e.msgType)
        (fun w v sent h => ⟨sendsFinal sent (by simp) h.1,h.2.same sent.gapBuffer⟩) fun _ h => h.1
    refine Meets.bind (fun w h => noLogon w ⟨h.1,h.2.1⟩) fun _ => Meets.bind tested fun _ =>
      Meets.bind (Q := fun _ => Closing c) ?_ fun _ => answers
    rw [logout]
    exact closingLogoutReceived
  · have opening : ∀ w, (LogoutFinal w.trace ∧ Buffered c w ∧
        (loggedOut w.trace → closed w.phase = true ∨ e.msgType = ascii "5")) → Closing c w :=
      fun w h => ⟨h.1,fun out => (h.2.2 out).resolve_right logout,h.2.1⟩
    have noLogout : logoutReceived c e.msgType = pure () := by rw [logoutReceived,if_neg logout]
    refine Meets.bind (fun w h => closingLogonReceived e.msgType w (opening w h)) fun _ =>
      Meets.bind (closingSend (sendsTestRequestAnswered (p := []) m e.msgType) (by simp) (by simp)
        fun _ h => h) fun _ => Meets.bind (Q := fun _ => Closing c) ?_ fun _ => answers
    rw [noLogout]
    exact Meets.pure fun _ h => h

theorem closingCommit (f : Bytes) (m : ParsedMessage) (n : Nat) (e : Expected) :
    Meets (Closing c) (commitChecked c m n f e) (fun _ => Closing c) (fun _ => Final) := by
  intro w h
  rw [commitCheckedRun]
  obtain ⟨actor,trace⟩ := storeTrace c (.commitInbound (inboundCommit w n f e)) w
  rcases run : storeApply c (.commitInbound (inboundCommit w n f e)) w with ⟨halt | reply,v⟩
  · rw [run] at trace
    change LogoutFinal v.trace
    rcases trace with same | ⟨answer,same⟩
    · rw [same]; exact h.final
    · rw [same]; exact finalQuiet [_] h.final (by simp [reopens])
  · rw [run] at actor trace
    refine closingAfterCommit m e (counted e v) ?_
    have phase : v.phase = w.phase := congrArg Actor.phase actor
    have buffer : v.gapBuffer = w.gapBuffer := congrArg Actor.gapBuffer actor
    rcases trace with same | ⟨answer,same⟩
    · have added : (counted e v).trace = [.expecting e.nextInAfter] ++ w.trace := congrArg (_ :: ·) same
      refine ⟨by rw [added]; exact finalQuiet _ h.final (by simp [reopens]),h.buffered.same buffer,fun out => ?_⟩
      rw [added,loggedOutAppend] at out
      rw [show (counted e v).phase = w.phase from phase]
      exact .inl (h.phase (out.resolve_left (by simp [loggedOut,logsOut])))
    · have added : (counted e v).trace =
          [.expecting e.nextInAfter,.stored (.commitInbound (inboundCommit w n f e)) answer] ++ w.trace :=
        congrArg (_ :: ·) same
      refine ⟨by rw [added]; exact finalQuiet _ h.final (by simp [reopens]),h.buffered.same buffer,fun out => ?_⟩
      rw [added,loggedOutAppend] at out
      rw [show (counted e v).phase = w.phase from phase]
      rcases out with ⟨event,mem,isOut⟩ | before
      · simp only [List.mem_cons,List.not_mem_nil,or_false] at mem
        rcases mem with rfl | rfl
        · cases isOut
        · right
          cases answer with
          | error error => cases isOut
          | ok reply => exact of_decide_eq_true isOut
      · exact .inl (h.phase before)

theorem closingFrame {frame : Bytes} : InboundRules c frame
    (fun w => Closing c w ∧ ∀ message msgSeqNum, Sequenced c frame message msgSeqNum → loggedOut w.trace →
      w.nextIn < msgSeqNum → gapBufferLimit ≤ w.gapBuffer.size)
    (Closing c) (Closing c) Final (fun _ _ n w => Closing c w ∧ w.nextIn = n) where
  quiet := fun w v moved h => ⟨h.1.quiet moved,fun message n sequenced out => by
    rw [moved.nextIn,moved.gapBuffer]
    exact h.2 message n sequenced ((sendsLoggedOut (p := []) moved.sends (by simp)).mp out)⟩
  beforeFails := fun _ h => h.1.final
  headFails := fun _ h => h.final
  headAfter := fun _ h => h
  readyFails := fun _ _ _ _ h => h.1.final
  replayed := fun _ _ _ _ h _ _ => h.1
  ahead := fun message n sequenced w h => closingAhead sequenced w
    ⟨h.1.1,fun out => h.1.2 message n sequenced out h.2⟩
  behind := fun _ n _ _ w h => closingRealign n w h.1.1
  expected := fun _ _ _ _ h same => ⟨h.1,same⟩
  awaited := fun _ _ _ _ h => h.2
  commit := fun f m n e _ w h => closingCommit f m n e w h.1.1
  skip := fun w h => ⟨h.final,h.phase,h.buffered.skip _⟩
  take := fun w f h found => by
    obtain ⟨m,sequenced⟩ := h.buffered _ f found
    exact ⟨m,sequenced,⟨h.final,h.phase,h.buffered.erase _⟩,rfl⟩
  recovered := fun w h phase _ => h.change (fun out => by
    have shut := h.phase out
    rw [phase] at shut
    cases shut) .established

theorem closingStep {conn : Conn} {input : Input} (calm : NotAheadAfterLogout c conn input)
    (holds : Holds (Closing c) Final conn) : Holds (Closing c) Final (step c conn input) :=
  closingLoop.steps
    (fun request _ live => fun _ pinned => by
      subst pinned
      exact closingSubmit request _ (holds.2 live))
    (fun wire same live => fun _ pinned => by
      subst pinned
      exact closingFrame.frames conn.world ⟨holds.2 live,fun message n sequenced =>
        calm wire message n same sequenced⟩) holds

theorem openedQuiet {w v : World} (h : Opens w v) (fresh : w.trace = []) :
    LogoutFinal v.trace ∧ ¬ loggedOut v.trace := by
  obtain ⟨new,trace,opens⟩ := h.trace
  have plain : ∀ event ∈ new, logsOut event = false := by
    intro event mem
    have here := opens event mem
    cases event with
    | stored op answer => cases op <;> first | rfl | cases here
    | wrote path _ _ => cases path <;> first | rfl | simp [openingEvent,sentEvent] at here
    | logged _ | replied _ | phaseChanged _ | transportClosed | protocolError _ | expecting _ => rfl
  rw [trace,fresh]
  exact finalOpen _ trivial (by simp [loggedOut]) plain

theorem closingSpawn (journal : Journal) (tick : Nat) :
    Holds (Closing c) Final (spawn c ⟨journal,[],tick⟩) := by
  have empty : Buffered c (entering c ⟨journal,[],tick⟩) := fun k f found => by
    simp [entering] at found
  refine closingLoop.spawns trivial (fun text => ?_) ?_
  · exact finalQuiet [_, _] (show LogoutFinal [] from trivial) (by simp [reopens])
  refine Meets.bind (Q := fun _ w => Closing c w ∧ ¬ loggedOut w.trace)
    (Meets.ofMoves opensLogon ?_ fun _ h => h.1.final) fun _ => Meets.change fun w h => h.1.change h.2 .logonSent
  rintro w v opens rfl
  have after := openedQuiet opens rfl
  exact ⟨⟨after.1,fun out => absurd out after.2,empty.same opens.gapBuffer⟩,after.2⟩

/-- A Logout is final in every run in which no frame ahead of the expected number
is handled behind it: nothing reopens the session in the trace, and while the
connection lives its phase stays closed. -/
theorem logoutIsFinal (c : Ctx) (journal : Journal) (tick : Nat) (inputs : List Input)
    (calm : Along (step c) (NotAheadAfterLogout c) (spawn c ⟨journal,[],tick⟩) inputs) :
    let conn := run c (spawn c ⟨journal,[],tick⟩) inputs
    LogoutFinal conn.world.trace ∧
      (conn.live = true → loggedOut conn.world.trace → closed conn.world.phase = true) := by
  have holds : Holds (Closing c) Final (run c (spawn c ⟨journal,[],tick⟩) inputs) :=
    foldInvariant (fun _ _ calm holds => closingStep calm holds) (closingSpawn journal tick) calm
  exact ⟨holds.1,fun live => (holds.2 live).phase⟩

def answeredLogout : List Input :=
  [.frame (venueLogon 1),.command (.logout none),.frame (venueFrame "5" 2 [])]

theorem logoutIsFinalAnswered :
    let conn := run venueCtx (spawn venueCtx ⟨.empty,[],0⟩) answeredLogout
    LogoutFinal conn.world.trace ∧
      (conn.live = true → loggedOut conn.world.trace → closed conn.world.phase = true) := by
  refine logoutIsFinal venueCtx .empty 0 answeredLogout ⟨?_,?_,?_,trivial⟩
  · intro wire message n same sequenced out
    exact absurd out (by decide +kernel)
  · intro wire message n same
    cases same
  · intro wire message n same sequenced out ahead
    cases same
    have shape : Sequenced venueCtx (venueFrame "5" 2 []) (parsedOf (venueFrame "5" 2 [])) 2 :=
      ⟨by decide +kernel,by decide +kernel⟩
    rw [(shape.unique sequenced).2] at ahead
    exact absurd ahead (by decide +kernel)

def overtakenLogout : List Input :=
  [.frame (venueLogon 1),.command (.logout none),.frame (venueFrame "0" 3 [])]

theorem logoutReopened : ¬ LogoutFinal (venueConn fresh overtakenLogout).world.trace := by decide +kernel

end
end FixCli.Session
