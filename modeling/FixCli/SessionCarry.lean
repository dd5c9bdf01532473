import FixCli.AdminKeys
import FixCli.HeaderNumber

/-! Carrying an invariant of the actor's books through whatever it does. `Idle` is
what touches none of them, and `Mute` what puts nothing on the socket besides;
`Conveys` says what is owed at the few places where the books move or a frame goes out,
and the walk through sends, frames and the loop is made once. Where the frames do not
matter, `Carries` asks for less. -/
namespace FixCli.Session
open Lib Codec Store

def mismatch : StoreError → Bool
  | .outboundSequenceMismatch _ _ | .inboundSequenceMismatch _ _ | .eventSequenceMismatch _ _ => true
  | _ => false

def matched : Event → Bool
  | .stored _ (.error error) => !mismatch error
  | _ => true

def Matched (w : World) : Prop := ∀ event ∈ w.trace, matched event = true

structure Still (w v : World) : Prop where
  nextOut : v.nextOut = w.nextOut
  nextIn : v.nextIn = w.nextIn
  nextEvent : v.nextEvent = w.nextEvent
  gapBuffer : v.gapBuffer = w.gapBuffer
  inbound : v.journal.nextIn = w.journal.nextIn ∧ v.journal.nextEvent = w.journal.nextEvent
  outbound : v.journal.nextOut = w.journal.nextOut ∧ v.journal.commands = w.journal.commands ∧
    v.journal.outbound = w.journal.outbound
  clean : Matched w → Matched v

def asideOp (op : StoreOp) : Prop := replayOp op = true ∨ lookupOp op = true

def idleEvent : Event → Prop
  | .stored op answer => asideOp op ∧ ∀ error, answer = .error error → mismatch error = false
  | .expecting _ => False
  | _ => True

structure Idle (w v : World) : Prop extends Still w v where
  trace : ∃ new, v.trace = new ++ w.trace ∧ ∀ event ∈ new, idleEvent event

theorem idleMatched {event : Event} (idle : idleEvent event) : matched event = true := by
  cases event with
  | stored op answer =>
    cases answer with
    | ok reply => rfl
    | error error => simp [matched,idle.2 error rfl]
  | _ => rfl

namespace Idle

theorem of {w v : World} (counters : v.nextOut = w.nextOut ∧ v.nextIn = w.nextIn ∧ v.nextEvent = w.nextEvent)
    (gapBuffer : v.gapBuffer = w.gapBuffer)
    (inbound : v.journal.nextIn = w.journal.nextIn ∧ v.journal.nextEvent = w.journal.nextEvent)
    (outbound : v.journal.nextOut = w.journal.nextOut ∧ v.journal.commands = w.journal.commands ∧
      v.journal.outbound = w.journal.outbound)
    (new : List Event) (trace : v.trace = new ++ w.trace) (idle : ∀ event ∈ new, idleEvent event) : Idle w v := by
  refine ⟨⟨counters.1,counters.2.1,counters.2.2,gapBuffer,inbound,outbound,fun clean event mem => ?_⟩,new,trace,idle⟩
  rw [trace] at mem
  rcases List.mem_append.mp mem with newer | older
  · exact idleMatched (idle event newer)
  · exact clean event older

theorem same {w v : World} (counters : v.nextOut = w.nextOut ∧ v.nextIn = w.nextIn ∧ v.nextEvent = w.nextEvent)
    (gapBuffer : v.gapBuffer = w.gapBuffer) (journal : v.journal = w.journal) (new : List Event)
    (trace : v.trace = new ++ w.trace) (idle : ∀ event ∈ new, idleEvent event) : Idle w v :=
  .of counters gapBuffer (by rw [journal]; exact ⟨rfl,rfl⟩) (by rw [journal]; exact ⟨rfl,rfl,rfl⟩) new trace idle

instance : Std.Refl Idle := ⟨fun _ => .same ⟨rfl,rfl,rfl⟩ rfl rfl [] rfl (by simp)⟩

instance : IsTrans World Idle where
  trans := by
    intro a b c h g
    obtain ⟨first,hfirst,idleFirst⟩ := h.trace
    obtain ⟨second,hsecond,idleSecond⟩ := g.trace
    refine .of ⟨g.nextOut.trans h.nextOut,g.nextIn.trans h.nextIn,g.nextEvent.trans h.nextEvent⟩
      (g.gapBuffer.trans h.gapBuffer) ⟨g.inbound.1.trans h.inbound.1,g.inbound.2.trans h.inbound.2⟩
      ⟨g.outbound.1.trans h.outbound.1,g.outbound.2.1.trans h.outbound.2.1,
        g.outbound.2.2.trans h.outbound.2.2⟩ (second ++ first) ?_ ?_
    · rw [hsecond,hfirst,List.append_assoc]
    · intro event mem
      rcases List.mem_append.mp mem with newer | older
      · exact idleSecond event newer
      · exact idleFirst event older

theorem event (w : World) (tick : Nat) (event : Event) (idle : idleEvent event) :
    Idle w {w with trace := event :: w.trace, tick := tick} :=
  .same ⟨rfl,rfl,rfl⟩ rfl rfl [event] rfl (by simpa using idle)

theorem phased (w : World) (phase : SessionPhase) :
    Idle w {w with phase := phase, trace := .phaseChanged phase :: w.trace} :=
  .same ⟨rfl,rfl,rfl⟩ rfl rfl [_] rfl (by simp [idleEvent])

theorem clocks (w : World) (tick lastOutbound lastInbound : Nat) (testRequest : Option TestRequestOutstanding) :
    Idle w {w with
      tick := tick, lastOutbound := lastOutbound, lastInbound := lastInbound, testRequest := testRequest} :=
  .same ⟨rfl,rfl,rfl⟩ rfl rfl [] rfl (by simp)

end Idle

section

variable {c : Ctx} {α : Type}

open Prog

theorem idleLogs (record : LogRecord) : Moves Idle (emit (.logged record)) :=
  Moves.change fun w => .event w _ _ trivial

theorem idleOp {op : StoreOp} (aside : asideOp op) : Moves Idle (storeApply c op) := by
  intro w
  have answered : ∀ error, (apply w.journal op).1 = .error error → mismatch error = false := by
    intro error bad
    cases op with
    | markTransmissionWritten mark =>
      simp only [apply,markTransmissionWritten] at bad
      split at bad <;> cases bad
      rfl
    | commitOutbound _ | markOutboundWritten _ | commitInbound _ | resyncInbound _ | resetSequences =>
      rcases aside with aside | aside <;> cases aside
    | commitTransmission _ | loadCommand _ | loadOutboundRange _ | loadInbound _ | loadTransmission _ => cases bad
  have after : Idle w (applied op w) := by
    refine .of ⟨rfl,rfl,rfl⟩ rfl ?_ ?_ [_] rfl (by simpa [idleEvent] using ⟨aside,answered⟩) <;>
      cases op with
      | markTransmissionWritten mark =>
        simp only [applied,apply,markTransmissionWritten]
        split <;> simp
      | commitOutbound _ | markOutboundWritten _ | commitInbound _ | resyncInbound _ | resetSequences =>
        rcases aside with aside | aside <;> cases aside
      | commitTransmission _ | loadCommand _ | loadOutboundRange _ | loadInbound _ | loadTransmission _ =>
        simp [applied,apply,commitTransmission,loadOutboundRange]
  have refused (text : Bytes) : idleEvent (.stored op (.error (.backend text))) :=
    ⟨aside,fun _ same => by cases same; rfl⟩
  unfold storeApply
  cases c.env.storeFault w.tick with
  | none => cases (apply w.journal op).1 <;> exact after
  | refused text => exact .event w _ _ (refused text)
  | lost text => exact after
  | crashBefore => exact .clocks w ..
  | crashAfter => exact after

theorem idleDoes : Does c Idle (fun _ => True) asideOp where
  logs := idleLogs
  ticks := fun w _ => .clocks w ..
  writes := by
    intro path wire _ w
    have written : Idle w (handed path wire w) := .event w _ (.wrote path wire _) trivial
    have untouched : Idle w {w with tick := w.tick + 1} := .clocks w ..
    unfold socketWrite
    cases c.env.ioFault w.tick <;> assumption
  sent := fun w _ => .clocks w ..
  stores := fun _ aside => idleOp aside

theorem Quiet.idle {w v : World} (h : Quiet w v) : Idle w v := by
  obtain ⟨new,trace,quiet⟩ := h.trace
  refine .same ⟨h.nextOut,h.nextIn,h.nextEvent⟩ h.gapBuffer h.journal new trace fun event mem => ?_
  have here := quiet event mem
  cases event with
  | stored op answer =>
    refine ⟨.inr here.1,fun error bad => ?_⟩
    obtain ⟨text,rfl⟩ := here.2 error bad
    rfl
  | logged _ | replied _ => trivial
  | wrote _ _ _ | phaseChanged _ | transportClosed | protocolError _ | expecting _ => cases here

structure Mute (w v : World) : Prop extends Idle w v where
  silent : ∃ new, v.trace = new ++ w.trace ∧ ∀ event ∈ new, unwritten event

namespace Mute

theorem of {w v : World} (idle : Idle w v) (new : List Event) (trace : v.trace = new ++ w.trace)
    (silent : ∀ event ∈ new, unwritten event) : Mute w v := ⟨idle,new,trace,silent⟩

theorem same {w v : World} (kept : v.nextOut = w.nextOut ∧ v.nextIn = w.nextIn ∧ v.nextEvent = w.nextEvent ∧
      v.gapBuffer = w.gapBuffer ∧ v.journal = w.journal) (new : List Event) (trace : v.trace = new ++ w.trace)
    (idle : ∀ event ∈ new, idleEvent event ∧ unwritten event) : Mute w v :=
  .of (.same ⟨kept.1,kept.2.1,kept.2.2.1⟩ kept.2.2.2.1 kept.2.2.2.2 new trace fun event mem => (idle event mem).1)
    new trace fun event mem => (idle event mem).2

instance : Std.Refl Mute := ⟨fun w => .of (Std.Refl.refl w) [] rfl (by simp)⟩

instance : IsTrans World Mute where
  trans := by
    intro a b c h g
    obtain ⟨first,hfirst,silentFirst⟩ := h.silent
    obtain ⟨second,hsecond,silentSecond⟩ := g.silent
    refine .of (IsTrans.trans a b c h.toIdle g.toIdle) (second ++ first)
      (by rw [hsecond,hfirst,List.append_assoc]) fun event mem => ?_
    rcases List.mem_append.mp mem with newer | older
    · exact silentSecond event newer
    · exact silentFirst event older

theorem event (w : World) (tick : Nat) (event : Event) (idle : idleEvent event) (silent : unwritten event) :
    Mute w {w with trace := event :: w.trace, tick := tick} :=
  .of (.event w tick event idle) [event] rfl (by simpa using silent)

theorem phased (w : World) (phase : SessionPhase) :
    Mute w {w with phase := phase, trace := .phaseChanged phase :: w.trace} :=
  .of (.phased w phase) [_] rfl (by simp [unwritten])

theorem clocks (w : World) (tick lastOutbound lastInbound : Nat) (testRequest : Option TestRequestOutstanding) :
    Mute w {w with
      tick := tick, lastOutbound := lastOutbound, lastInbound := lastInbound, testRequest := testRequest} :=
  .of (.clocks w ..) [] rfl (by simp)

end Mute

theorem Quiet.mute {w v : World} (h : Quiet w v) : Mute w v := by
  obtain ⟨new,trace,quiet⟩ := h.trace
  refine .of h.idle new trace fun event mem => ?_
  have here := quiet event mem
  cases event <;> trivial

theorem muteLogs (record : LogRecord) : Moves Mute (emit (.logged record)) :=
  Moves.change fun w => .event w _ _ trivial trivial

theorem muteDoes : Does c Mute (fun _ => False) (fun op => lookupOp op = true) where
  logs := muteLogs
  ticks := fun w _ => .clocks w ..
  writes := fun _ _ none => none.elim
  sent := fun w _ => .clocks w ..
  stores := fun _ lookup => (quietLookup lookup).weaken fun _ _ => Quiet.mute

end

/-- What is owed to carry `Live`, held between the moves of the books, along with
`Dead`, which a failure may leave behind. `Owed path wire requestId n` is held by a send
about to write, whose command is on record with the number `n`, and `Due requestId n`
behind its write. -/
structure Conveys (c : Ctx) (Live Dead : World → Prop) (Owed : SendPath → Bytes → Bytes → Nat → World → Prop)
    (Due : Bytes → Nat → World → Prop) : Prop where
  fails : ∀ w, Live w → Dead w
  owedFails : ∀ path wire requestId n w, Owed path wire requestId n w → Dead w
  dueFails : ∀ requestId n w, Due requestId n w → Dead w
  mute : ∀ w v, Mute w v → Live w → Live v
  dueMute : ∀ requestId n w v, Mute w v → Due requestId n w → Due requestId n v
  ends : ∀ w v, Mute w v → Dead w → Dead v
  buffered : ∀ w, Live w → Buffered c w
  buffers : ∀ (w : World) gapBuffer, Live w → Buffered c {w with gapBuffer := gapBuffer} →
    Live {w with gapBuffer := gapBuffer}
  admin : ∀ (send : AdminSend) o e, AdminPair send.requestId send.fingerprint o e →
    Copied c send.path o send.journalWire send.wire → send.path ∉ replayPaths →
    Prog.Meets (fun w => Live w ∧ w.nextOut = o ∧ w.nextEvent = e)
      (storeApply c (.commitOutbound ⟨send.requestId,send.fingerprint,[],o,send.journalWire⟩))
      (fun reply w => ∃ command, reply = .command command ∧
        Owed send.path send.wire send.requestId command.msgSeqNum w) (fun _ => Dead)
  writes : ∀ path wire requestId n, Prog.Meets (Owed path wire requestId n) (writeWire c path wire)
    (fun _ => Due requestId n) (fun _ => Dead)
  marks : ∀ requestId n, Prog.Meets (Due requestId n) (storeApply c (.markOutboundWritten ⟨requestId,n⟩))
    (fun reply w => (∃ command, reply = .command command ∧ command.msgSeqNum = n) ∧
      Live {w with nextOut := n + 1}) (fun _ => Dead)
  replays : ∀ beginSeqNum endSeqNum, Prog.Meets Live (replayValidatedRange c beginSeqNum endSeqNum)
    (fun _ => Live) (fun _ => Dead)
  realign : ∀ n, Prog.Meets Live (realign c n) (fun _ w => Live w ∧ w.nextIn = n) (fun _ => Dead)
  commit : ∀ w f m e, Sequenced c f m w.nextIn → inboundChecks c w.nextOut w.nextIn w.nextIn m = .ok e → Live w →
    match storeApply c (.commitInbound (inboundCommit w w.nextIn f e)) w with
    | (.ok _, v) => Live (counted e v)
    | (.error _, v) => Dead v

namespace Conveys

variable {c : Ctx} {Live Dead : World → Prop} {Owed : SendPath → Bytes → Bytes → Nat → World → Prop}
  {Due : Bytes → Nat → World → Prop} {α : Type}

open Prog

section

variable (conveys : Conveys c Live Dead Owed Due)
include conveys

theorem mutes {m : Act α} (moves : Moves Mute m) : Meets Live m (fun _ => Live) (fun _ => Dead) :=
  Meets.ofMoves moves (fun w v moved h => conveys.mute w v moved h) conveys.fails

theorem dueMutes {requestId : Bytes} {n : Nat} {m : Act α} (moves : Moves Mute m) :
    Meets (Due requestId n) m (fun _ => Due requestId n) (fun _ => Dead) :=
  Meets.ofMoves moves (fun w v moved h => conveys.dueMute requestId n w v moved h) (conveys.dueFails requestId n)

theorem sends {send : AdminSend} {o e : Nat} {after : Act Unit}
    (pair : AdminPair send.requestId send.fingerprint o e) (copied : Copied c send.path o send.journalWire send.wire)
    (original : send.path ∉ replayPaths) (mute : Moves Mute after) :
    Meets (fun w => Live w ∧ w.nextOut = o ∧ w.nextEvent = e) (sendAdmin c send after)
      (fun _ => Live) (fun _ => Dead) := by
  rintro u ⟨live,rfl,rfl⟩
  have commits := conveys.admin send _ _ pair copied original
  refine Meets.bind commits (fun reply => ?_) u ⟨live,rfl,rfl⟩
  rintro w ⟨command,rfl,owed⟩
  refine Meets.bind (conveys.writes _ _ _ _) (fun _ => Meets.bind (conveys.dueMutes mute)
    fun _ => Meets.bind (conveys.marks _ _) fun _ => Meets.change fun v h => h.2) w owed

theorem heads {msgType : Bytes} {o e : Nat} :
    Meets (fun w => Live w ∧ w.nextOut = o ∧ w.nextEvent = e) (standardHeader c msgType)
      (fun header w => (∃ time, header = headerFields msgType c.config.senderCompId c.config.targetCompId o time) ∧
        Live w ∧ w.nextOut = o ∧ w.nextEvent = e) (fun _ => Dead) := by
  rintro w ⟨live,rfl,rfl⟩
  exact ⟨⟨_,rfl⟩,conveys.mute w _ (.clocks w ..) live,rfl,rfl⟩

theorem prepared {Q : World → Prop} {msgType : Bytes} {body : List Field} {rest : Bytes → Act Unit} {o e : Nat}
    (plain : SOH ∉ msgType) (sends : ∀ wire, Carried c o wire →
      Meets (fun w => Live w ∧ w.nextOut = o ∧ w.nextEvent = e) (rest wire) (fun _ => Q) (fun _ => Dead)) :
    Meets (fun w => Live w ∧ w.nextOut = o ∧ w.nextEvent = e) (do
        let header ← standardHeader c msgType
        let wire ← Prog.ofExcept (inSession (encodeOutbound c (header ++ body)))
        rest wire) (fun _ => Q) (fun _ => Dead) := by
  refine Meets.bind conveys.heads fun header => Meets.bind (Q := fun wire w => Carried c o wire ∧
      Live w ∧ w.nextOut = o ∧ w.nextEvent = e)
    (Meets.ofExcept ?_ fun _ _ w h => conveys.fails w h.2.1) fun wire w h => sends wire h.1 w h.2
  rintro wire ok w ⟨⟨time,rfl⟩,at'⟩
  exact ⟨⟨_,headedHeader body plain,inSessionOk ok⟩,at'⟩

theorem resendRequest (beginSeqNum : Nat) :
    Meets Live (sendResendRequest c beginSeqNum) (fun _ => Live) (fun _ => Dead) :=
  fun w h => conveys.prepared (by decide) (fun wire carried v at' => conveys.sends (.resendRequest ..)
    (at'.2.1 ▸ carried.copied (by simp)) (by simp) (Moves.pure _) v ⟨at'.1,rfl,rfl⟩) w ⟨h,rfl,rfl⟩

theorem heartbeat (testRequestId : Option Bytes) :
    Meets Live (sendHeartbeatResponse c testRequestId) (fun _ => Live) (fun _ => Dead) :=
  fun w h => conveys.prepared (by decide) (fun wire carried v at' => conveys.sends (.heartbeat ..)
    (at'.2.1 ▸ carried.copied (by simp)) (by simp) (Moves.pure _) v ⟨at'.1,rfl,rfl⟩) w ⟨h,rfl,rfl⟩

theorem testRequest (responseTimeout : Nat) :
    Meets Live (sendTestRequest c responseTimeout) (fun _ => Live) (fun _ => Dead) := by
  intro u h
  unfold sendTestRequest
  rw [bindReturns (stateRun u)]
  refine conveys.prepared (o := u.nextOut) (e := u.nextEvent) (by decide) (fun wire carried =>
    Meets.bind (conveys.sends (.testRequest u.nextOut u.nextEvent) (carried.copied (by simp)) (by simp)
      (Moves.pure _)) fun _ => Meets.bind (conveys.mutes muteDoes.now) fun _ => conveys.mutes ?_) u ⟨h,rfl,rfl⟩
  exact Moves.change fun x => .clocks x ..

theorem logout (text : Option Bytes) : Meets Live (sendLogout c text) (fun _ => Live) (survives Live Dead) := by
  intro w h
  have sends : Meets Live (do
      let header ← standardHeader c (ascii "5")
      let wire ← Prog.ofExcept (inSession (encodeOutbound c
        (header ++ (text.map (fun text => (⟨58,text⟩ : Field))).toList)))
      let w ← Prog.state
      sendAdmin c
        ⟨.logout,adminKey (ascii "logout") w.nextOut w.nextEvent,ascii "admin:5:" ++ decimal w.nextOut,
          wire,wire,"Logout commit returned the wrong record type"⟩ (pure ())
      setPhase .logoutSent) (fun _ => Live) (fun _ => Dead) :=
    fun w h => conveys.prepared (by decide) (fun wire carried v at' => Meets.bind (Q := fun _ => Live) (P := (· = v))
      (fun x same => by
        subst same
        exact conveys.sends (.logout ..) (at'.2.1 ▸ carried.copied (by simp)) (by simp) (Moves.pure _) x
          ⟨at'.1,rfl,rfl⟩)
      (fun _ => conveys.mutes (Moves.change fun v => .phased v _)) v rfl) w ⟨h,rfl,rfl⟩
  rcases logoutCases (c := c) text w with ⟨-,refused⟩ | ⟨may,v,-,ends⟩
  · rw [refused]
    exact ⟨conveys.fails w h,fun _ => h⟩
  · have after := sends w h
    have shape : sendLogout c text w = (do
        let header ← standardHeader c (ascii "5")
        let wire ← Prog.ofExcept (inSession (encodeOutbound c
          (header ++ (text.map (fun text => (⟨58,text⟩ : Field))).toList)))
        let w ← Prog.state
        sendAdmin c
          ⟨.logout,adminKey (ascii "logout") w.nextOut w.nextEvent,ascii "admin:5:" ++ decimal w.nextOut,
            wire,wire,"Logout commit returned the wrong record type"⟩ (pure ())
        setPhase .logoutSent : Act Unit) w := by
      simp only [sendLogout]
      rw [bindRun]
      simp only [stateRun,iteRun,may]
      rfl
    rw [← shape] at after
    rcases ends with ⟨halt,dead,failed⟩ | done
    · rw [failed] at after ⊢
      exact ⟨after,fun live => by rw [dead] at live; cases live⟩
    · rw [done] at after ⊢
      exact after

theorem loop : LoopRules c Live Dead where
  quiet := fun w v moved h => conveys.mute w v moved.mute h
  fails := conveys.fails
  logout := conveys.logout
  heartbeat := Meets.weaken (conveys.heartbeat none) (fun _ h => h.1) (fun _ _ h => h) fun _ _ h => h
  testRequest := fun timeout =>
    Meets.weaken (conveys.testRequest timeout) (fun _ h => h.1) (fun _ _ h => h) fun _ _ h => h
  replies := fun reply w h => conveys.ends w _ (.event w _ (.replied reply) trivial trivial) h
  blocks := fun error w h => conveys.ends w _ (.same ⟨rfl,rfl,rfl,rfl,rfl⟩ [.protocolError error.text, .phaseChanged .blocked,
    .logged (.error error.text), .logged (.info (ascii "Disconnecting"))] rfl (by simp [idleEvent,unwritten])) h
  leaves := fun w h => conveys.ends w _ (.event w _ (.logged (.info (ascii "Disconnecting"))) trivial trivial) h
  hangsUp := fun w h => conveys.ends w _ (.same ⟨rfl,rfl,rfl,rfl,rfl⟩ [.transportClosed, .phaseChanged .disconnected] rfl
    (by simp [idleEvent,unwritten])) h

theorem ahead {frame : Bytes} {message : ParsedMessage} {n : Nat} (sequenced : Sequenced c frame message n) :
    Meets Live (bufferGap c n frame) (fun _ => Live) (fun _ => Dead) := by
  have inserts : Meets Live
      (Prog.change fun w => {w with gapBuffer := w.gapBuffer.insertIfNew n frame} : Act Unit)
      (fun _ => Live) (fun _ => Dead) :=
    Meets.change fun w h => conveys.buffers w _ h ((conveys.buffered w h).insert sequenced)
  refine Meets.bind (Meets.state fun _ h => h) fun w => ?_
  split
  · exact Meets.stop conveys.fails
  · refine Meets.bind inserts fun _ => Meets.bind (Meets.state fun _ h => h) fun w => ?_
    split
    · exact Meets.bind (conveys.resendRequest _) fun _ => conveys.mutes (Moves.change fun w => .phased w _)
    · exact Meets.pure fun _ h => h

theorem afterCommit (m : ParsedMessage) (e : Expected) :
    Meets Live (afterCommit c m e) (fun _ => Live) (fun _ => Dead) := by
  have logon : Moves Mute (logonReceived e.msgType) := by
    refine Moves.bind Moves.state fun w => ?_
    split
    · exact Moves.bind (muteLogs _) fun _ => Moves.change fun w => .phased w _
    · exact Moves.pure _
  have test : Moves Mute (testRequestAnswered m e.msgType) := by
    refine Moves.change fun w => ?_
    repeat' split
    all_goals exact .clocks w ..
  have answersLogout : Meets Live (answerLogout c) (fun _ => Live) (fun _ => Dead) := by
    refine Meets.bind (Meets.state fun _ h => h) fun w => ?_
    split
    · exact Meets.weaken (conveys.logout none) (fun _ h => h) (fun _ _ h => h) fun _ _ h => h.1
    · exact Meets.pure fun _ h => h
  have logout : Meets Live (logoutReceived c e.msgType) (fun _ => Live) (fun _ => Dead) := by
    unfold logoutReceived
    split
    · exact Meets.bind (conveys.mutes (muteLogs _)) fun _ => Meets.bind answersLogout fun _ =>
        conveys.mutes (Moves.change fun w => .phased w _)
    · exact Meets.pure fun _ h => h
  refine Meets.bind (conveys.mutes logon) fun _ => Meets.bind (conveys.mutes test) fun _ =>
    Meets.bind logout fun _ => Meets.bind (Q := fun _ => Live) ?_ fun _ => ?_
  · cases e.requestedResend with
    | none => exact Meets.pure fun _ h => h
    | some range => exact conveys.replays _ _
  · cases e.heartbeatResponse with
    | none => exact Meets.pure fun _ h => h
    | some id => exact conveys.heartbeat _

theorem commits {f : Bytes} {m : ParsedMessage} {n : Nat} (sequenced : Sequenced c f m n) (e : Expected) :
    Meets (fun w => (Live w ∧ w.nextIn = n) ∧ inboundChecks c w.nextOut n n m = .ok e) (commitChecked c m n f e)
      (fun _ => Live) (fun _ => Dead) := by
  rintro w ⟨⟨h,rfl⟩,checks⟩
  have stored := conveys.commit w f m e sequenced checks h
  rw [commitCheckedRun]
  rcases run : storeApply c (.commitInbound (inboundCommit w w.nextIn f e)) w with ⟨halt | reply,v⟩
  · rw [run] at stored
    exact stored
  · rw [run] at stored
    exact conveys.afterCommit m e _ stored

theorem inbound {frame : Bytes} : InboundRules c frame Live Live Live Dead
    (fun _ _ n w => Live w ∧ w.nextIn = n) where
  quiet := fun w v moved h => conveys.mute w v moved.mute h
  beforeFails := conveys.fails
  headFails := conveys.fails
  headAfter := fun _ h => h
  readyFails := fun _ _ _ w h => conveys.fails w h.1
  replayed := fun _ _ _ _ h _ _ => h
  ahead := fun _ _ sequenced w h => conveys.ahead sequenced w h.1
  behind := fun _ n _ _ w h => conveys.realign n w h.1
  expected := fun _ _ _ _ h same => ⟨h,same⟩
  awaited := fun _ _ _ _ h => h.2
  commit := fun _ _ _ e sequenced => conveys.commits sequenced e
  skip := fun w h => conveys.buffers w _ h ((conveys.buffered w h).skip _)
  take := fun w f h found => by
    obtain ⟨m,sequenced⟩ := conveys.buffered w h _ f found
    exact ⟨m,sequenced,conveys.buffers w _ h ((conveys.buffered w h).erase _),rfl⟩
  recovered := fun w h _ _ => conveys.mute w _ (.phased w _) h

theorem refuses {u : World} {request : ApplicationRequest} (live : Live u) (phase : u.phase ≠ .established) :
    Meets (· = u) (submitApplication c request) (fun _ => Live) (survives Live Dead) := by
  rintro v rfl
  have refused : submitApplication c request v = (.error (.fail .notEstablished),v) := by
    simp only [submitApplication,bindRun,stateRun,iteRun,if_pos phase]
    rfl
  rw [refused]
  exact ⟨conveys.fails v live,fun _ => live⟩

omit conveys in
theorem fatally {P : World → Prop} {Q : α → World → Prop} {m : Act α} (meets : Meets P m Q (fun _ => Dead))
    (dead : StopsOnly fatal m) : Meets P m Q (survives Live Dead) := by
  intro w h
  have here := meets w h
  have halts := dead w trivial
  split
  · rename_i run
    rwa [run] at here
  · rename_i run
    rw [run] at here halts
    refine ⟨here,fun live => ?_⟩
    have ends : surviving _ = false := halts
    rw [ends] at live
    cases live

theorem writesMarked {requestId : Bytes} (wire : Bytes) (n : Nat) : Meets (Owed .application wire requestId n) (do
    writeWire c .application wire
    let reply ← storeApply c (.markOutboundWritten ⟨requestId,n⟩)
    match reply with
    | .command command => do
      Prog.change fun w => {w with nextOut := command.msgSeqNum + 1}
      pure command
    | _ => fail (.store (ascii "mark written returned an inbound record")) : Act CommandRecord)
    (fun _ => Live) (fun _ => Dead) := by
  refine Meets.bind (Q := fun _ => Due requestId n) (conveys.writes _ _ _ _)
    fun _ => Meets.bind (conveys.marks _ _) fun reply => ?_
  rintro w ⟨⟨command,rfl,rfl⟩,marked⟩
  exact marked

theorem submits {request : ApplicationRequest} {u : World} (live : Live u)
    (commits : u.phase = .established → ∀ wire, Carried c u.nextOut wire →
      Meets (fun w => Live w ∧ Mute u w)
        (storeApply c (.commitOutbound ⟨request.requestId,request.fingerprint,request.clOrdId,u.nextOut,wire⟩))
        (fun reply w => ∃ command, reply = .command command ∧
          (Live w ∧ command.msgSeqNum < u.nextOut ∨
            Owed .application wire request.requestId command.msgSeqNum w ∧ ¬ command.msgSeqNum < u.nextOut))
        (fun _ => Dead)) :
    Meets (· = u) (submitApplication c request) (fun _ => Live) (survives Live Dead) := by
  by_cases phase : u.phase ≠ .established
  · exact conveys.refuses live phase
  let Early (w : World) : Prop := Live w ∧ Mute u w
  have survive {halt : Halt} {w : World} (h : Early w) : survives Live Dead halt w :=
    ⟨conveys.fails w h.1,fun _ => h.1⟩
  have composes : Meets (fun w => Early w ∧ validateSubmit request = .ok ()) (submitFields c request)
      (fun fields w => Early w ∧ Headed c u.nextOut fields) (survives Live Dead) := by
    rintro w ⟨early,valid⟩
    have moved : Mute w (submitFields c request w).2 := muteDoes.submitFields request w
    have later : Early (submitFields c request w).2 := ⟨conveys.mute w _ moved early.1,IsTrans.trans u w _ early.2 moved⟩
    rcases run : submitFields c request w with ⟨halt | fields,v⟩
    · rw [run] at later
      exact survive later
    · rw [run] at later
      exact ⟨later,early.2.nextOut ▸ submitHeaded valid run⟩
  refine Meets.bind (Q := fun x v => x = u ∧ v = u) (Meets.state fun v same => ⟨same,same⟩) fun x => ?_
  rintro v ⟨rfl,rfl⟩
  rw [if_neg phase]
  refine Meets.bind (Q := fun _ w => Early w ∧ validateSubmit request = .ok ())
    (Meets.ofExcept (fun _ ok w h => ⟨h,inSessionOk ok⟩) fun _ _ w h => survive h) (fun _ => Meets.bind composes
      fun fields => Meets.bind (Q := fun wire w => Early w ∧ Carried c v.nextOut wire)
        (Meets.ofExcept (fun wire ok w h => ⟨h.1,fields,h.2,inSessionOk ok⟩) fun _ _ w h => survive h.1)
        fun wire => fatally ?_ ?_) v ⟨live,Std.Refl.refl v⟩
  · rintro w ⟨early,carried⟩
    refine Meets.bind (commits (Classical.not_not.mp phase) wire carried) (fun reply => ?_) w early
    rintro w ⟨command,rfl,⟨kept,old⟩ | ⟨owed,late⟩⟩
    · simp only [if_pos old]
      exact kept
    · simp only [if_neg late]
      by_cases last : command.msgSeqNum ≠ v.nextOut
      · simp only [if_pos last]
        exact conveys.owedFails _ _ _ _ _ owed
      · simp only [if_neg last]
        exact conveys.writesMarked wire command.msgSeqNum w owed
  · exact (quitsCommit request v.nextOut wire).weaken quitsFatal

theorem steps {conn : Conn} {input : Input}
    (submitted : ∀ request, input = .command (.submit request) → conn.live = true →
      Meets (· = conn.world) (submitApplication c request) (fun _ => Live) (survives Live Dead))
    (holds : Holds Live Dead conn) : Holds Live Dead (step c conn input) :=
  conveys.loop.steps submitted (fun wire _ live => fun w pinned => by
    subst pinned
    exact conveys.inbound.frames _ (holds.2 live)) holds

theorem logs : Meets Live (do
    let header ← standardHeader c (ascii "A")
    let wire ← Prog.ofExcept (inSession (encodeOutbound c (header ++ logonBody c)))
    let journalWire ← Prog.ofExcept (inSession (encodeOutbound c ((header ++ logonBody c).map (redacted c))))
    let w ← Prog.state
    sendAdmin c
      ⟨.logon,adminKey (ascii "logon") w.nextOut w.nextEvent,ascii "admin:A:" ++ decimal w.nextOut,
        journalWire,wire,"outbound commit returned an inbound record"⟩
      (info (ascii "Sent logon request"))) (fun _ => Live) (fun _ => Dead) := by
  intro u live
  let At (w : World) : Prop := Live w ∧ w.nextOut = u.nextOut ∧ w.nextEvent = u.nextEvent
  refine Meets.bind conveys.heads (fun header => Meets.bind (Q := fun wire w => (Headed c u.nextOut
      (header ++ logonBody c) ∧ encodeOutbound c (header ++ logonBody c) = .ok wire) ∧ At w)
    (Meets.ofExcept ?_ fun _ _ w h => conveys.fails w h.2.1) fun wire => Meets.bind
      (Q := fun journalWire w => Copied c .logon u.nextOut journalWire wire ∧ At w)
      (Meets.ofExcept ?_ fun _ _ w h => conveys.fails w h.2.1) fun journalWire => ?_) u ⟨live,rfl,rfl⟩
  · rintro wire ok w ⟨⟨time,rfl⟩,at'⟩
    exact ⟨⟨headedHeader _ (by decide),inSessionOk ok⟩,at'⟩
  · rintro journalWire ok w ⟨⟨headed,encodes⟩,at'⟩
    exact ⟨⟨_,headed,encodes,inSessionOk ok⟩,at'⟩
  · rintro w ⟨copied,at'⟩
    exact conveys.sends (.logon ..) (at'.2.1 ▸ copied) (by simp) (muteLogs _) w ⟨at'.1,rfl,rfl⟩

theorem spawns {s : Shared} (entered : Dead (entering c s))
    (resets : Meets (· = entering c s) (resetIfConfigured c) (fun _ => Live) (fun _ => Dead)) :
    Holds Live Dead (spawn c s) := by
  have unread (text : Bytes) : Mute (entering c s) (unrecovered c s text) :=
    .same ⟨rfl,rfl,rfl,rfl,rfl⟩ [.protocolError (StoreError.backend text).text, .phaseChanged .blocked] rfl
      (by simp [idleEvent,unwritten])
  refine conveys.loop.spawns entered (fun text => conveys.ends _ _ (unread text) entered) ?_
  have validates : Meets (· = entering c s) (Prog.ofExcept (inSession (validateCustomLogonFields c.logonFields [])))
      (fun _ => (· = entering c s)) (fun _ => Dead) :=
    Meets.ofExcept (fun _ _ _ same => same) fun _ _ _ same => same ▸ entered
  exact Meets.bind (Meets.bind validates fun _ => Meets.bind resets fun _ => conveys.logs) fun _ =>
    conveys.mutes (Moves.change fun w => .phased w _)

end

end Conveys

structure Carries (c : Ctx) (Live Dead : World → Prop) (Owed : Bytes → Nat → World → Prop) : Prop where
  fails : ∀ w, Live w → Dead w
  owedFails : ∀ requestId n w, Owed requestId n w → Dead w
  idle : ∀ w v, Idle w v → Live w → Live v
  owedIdle : ∀ requestId n w v, Idle w v → Owed requestId n w → Owed requestId n v
  ends : ∀ w v, Idle w v → Dead w → Dead v
  buffered : ∀ w, Live w → Buffered c w
  buffers : ∀ (w : World) gapBuffer, Live w → Buffered c {w with gapBuffer := gapBuffer} →
    Live {w with gapBuffer := gapBuffer}
  admin : ∀ requestId fingerprint o e wire, AdminPair requestId fingerprint o e →
    Prog.Meets (fun w => Live w ∧ w.nextOut = o ∧ w.nextEvent = e)
      (storeApply c (.commitOutbound ⟨requestId,fingerprint,[],o,wire⟩))
      (fun reply w => ∃ command, reply = .command command ∧ Owed requestId command.msgSeqNum w) (fun _ => Dead)
  marks : ∀ requestId n, Prog.Meets (Owed requestId n) (storeApply c (.markOutboundWritten ⟨requestId,n⟩))
    (fun reply w => (∃ command, reply = .command command ∧ command.msgSeqNum = n) ∧
      Live {w with nextOut := n + 1}) (fun _ => Dead)
  realign : ∀ n, Prog.Meets Live (realign c n) (fun _ w => Live w ∧ w.nextIn = n) (fun _ => Dead)
  commit : ∀ w f m e, Sequenced c f m w.nextIn → inboundChecks c w.nextOut w.nextIn w.nextIn m = .ok e → Live w →
    match storeApply c (.commitInbound (inboundCommit w w.nextIn f e)) w with
    | (.ok _, v) => Live (counted e v)
    | (.error _, v) => Dead v

namespace Carries

variable {c : Ctx} {Live Dead : World → Prop} {Owed : Bytes → Nat → World → Prop} {α : Type}

open Prog

variable (carries : Carries c Live Dead Owed)
include carries

theorem idles {m : Act α} (moves : Moves Idle m) : Meets Live m (fun _ => Live) (fun _ => Dead) :=
  Meets.ofMoves moves (fun w v moved h => carries.idle w v moved h) carries.fails

theorem conveys : Conveys c Live Dead (fun _ _ => Owed) Owed where
  fails := carries.fails
  owedFails := fun _ _ => carries.owedFails
  dueFails := carries.owedFails
  mute := fun w v moved h => carries.idle w v moved.toIdle h
  dueMute := fun requestId n w v moved h => carries.owedIdle requestId n w v moved.toIdle h
  ends := fun w v moved h => carries.ends w v moved.toIdle h
  buffered := carries.buffered
  buffers := carries.buffers
  admin := fun send o e pair _ _ => carries.admin _ _ o e send.journalWire pair
  writes := fun _ _ requestId n => Meets.ofMoves (idleDoes.wire trivial _)
    (fun w v moved h => carries.owedIdle requestId n w v moved h) (carries.owedFails requestId n)
  marks := carries.marks
  replays := fun _ _ => carries.idles (idleDoes.replay (fun _ aside => .inl aside) trivial trivial _ _)
  realign := carries.realign
  commit := carries.commit

theorem ahead {frame : Bytes} {message : ParsedMessage} {n : Nat} (sequenced : Sequenced c frame message n) :
    Meets Live (bufferGap c n frame) (fun _ => Live) (fun _ => Dead) := carries.conveys.ahead sequenced

theorem afterCommit (m : ParsedMessage) (e : Expected) :
    Meets Live (afterCommit c m e) (fun _ => Live) (fun _ => Dead) := carries.conveys.afterCommit m e

theorem submits {request : ApplicationRequest} {u : World} (live : Live u)
    (commits : u.phase = .established → ∀ wire,
      Meets (fun w => Live w ∧ w.nextOut = u.nextOut ∧ w.nextEvent = u.nextEvent)
        (storeApply c (.commitOutbound ⟨request.requestId,request.fingerprint,request.clOrdId,u.nextOut,wire⟩))
        (fun reply w => ∃ command, reply = .command command ∧
          (Live w ∧ command.msgSeqNum < u.nextOut ∨
            Owed request.requestId command.msgSeqNum w ∧ ¬ command.msgSeqNum < u.nextOut))
        (fun _ => Dead)) :
    Meets (· = u) (submitApplication c request) (fun _ => Live) (survives Live Dead) :=
  carries.conveys.submits live fun phase wire _ => Meets.weaken (commits phase wire)
    (fun _ h => ⟨h.1,h.2.nextOut,h.2.nextEvent⟩) (fun _ _ h => h) fun _ _ h => h

theorem steps {conn : Conn} {input : Input}
    (submitted : ∀ request, input = .command (.submit request) → conn.live = true →
      Meets (· = conn.world) (submitApplication c request) (fun _ => Live) (survives Live Dead))
    (holds : Holds Live Dead conn) : Holds Live Dead (step c conn input) := carries.conveys.steps submitted holds

theorem spawns {s : Shared} (entered : Dead (entering c s))
    (resets : Meets (· = entering c s) (resetIfConfigured c) (fun _ => Live) (fun _ => Dead)) :
    Holds Live Dead (spawn c s) := carries.conveys.spawns entered resets

end Carries
end FixCli.Session
