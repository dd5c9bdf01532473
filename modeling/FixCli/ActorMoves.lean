import FixCli.SessionMoves

/-! The walk through all that an actor does, made once for every relation between the
world before and the world after. `Permits` says what a relation has to allow: the store
operations, the writes on some paths, whatever is noted in the trace, and the moves of
the actor's own fields, a TestRequest put out among them. -/
namespace FixCli.Session
open Lib Codec Store

def unwritten : Event → Prop
  | .wrote _ _ _ => False
  | _ => True

def remark : Event → Prop
  | .stored _ _ => False
  | event => unwritten event

def loopOp : StoreOp → Prop
  | .commitOutbound commit => sessionKey commit.requestId ∧ commit.clOrdId = []
  | .markOutboundWritten mark => sessionKey mark.requestId
  | _ => True

def plainOp : StoreOp → Prop
  | .loadCommand _ | .resyncInbound _ | .resetSequences => True
  | op => adminOp op

theorem remarkUnwritten {event : Event} (h : remark event) : unwritten event := by
  cases event <;> first | exact h | trivial

theorem adminPlain (op : StoreOp) (admin : adminOp op) : plainOp op := by
  cases op <;> first | exact admin | trivial

theorem plainLoop (op : StoreOp) (plain : plainOp op) : loopOp op := by
  cases op <;> first | exact plain | trivial

theorem replayLoopOp (op : StoreOp) (replay : replayOp op = true) : loopOp op := by
  cases op <;> trivial

def unasked (before after : Actor) : Prop := after.testRequest = before.testRequest ∨ after.testRequest = none

structure Permits (path : SendPath → Prop) (op : StoreOp → Prop) (R : World → World → Prop) : Prop where
  refl : ∀ w, R w w
  trans : ∀ u v w, R u v → R v w → R u w
  ticks : ∀ (w : World) tick, R w {w with tick := tick}
  notes : ∀ (w : World) event, remark event → R w {w with trace := event :: w.trace}
  moves : ∀ (w : World) actor, unasked w.toActor actor → R w {w with toActor := actor}
  asks : ∀ (w : World) n deadline, R w {w with testRequest := some ⟨ascii "TEST-" ++ decimal n,deadline⟩}
  stores : ∀ (w : World) o, op o → R w (applied o w)
  refuses : ∀ (w : World) o error, op o → R w {w with trace := .stored o (.error error) :: w.trace}
  writes : ∀ (w : World) own wire, path own → R w {w with trace := .wrote own wire w.journal :: w.trace}

namespace Permits

variable {c : Ctx} {path : SendPath → Prop} {op : StoreOp → Prop} {R : World → World → Prop} {α : Type}

open Prog

section

variable (permits : Permits path op R)
include permits

theorem isRefl : Std.Refl R := ⟨permits.refl⟩

theorem isTrans : IsTrans World R := ⟨permits.trans⟩

theorem event (w : World) (actor : Actor) (event : Event) (other : remark event) (same : unasked w.toActor actor) :
    R w {toActor := actor, toShared := {w.toShared with trace := event :: w.trace}} :=
  permits.trans _ _ _ (permits.notes w event other) (permits.moves {w with trace := event :: w.trace} actor same)

theorem actor (f : World → World) (same : ∀ w, (f w).toShared = w.toShared ∧ unasked w.toActor (f w).toActor) :
    Moves R (Prog.change f : Act Unit) :=
  Moves.change fun w => by
    have here := permits.moves w (f w).toActor (same w).2
    rwa [← (same w).1] at here

theorem store {o : StoreOp} (allowed : op o) : Moves R (storeApply c o) := by
  intro w
  have after := permits.stores w o allowed
  have tick (v : World) : R v {v with tick := v.tick + 1} := permits.ticks v _
  unfold storeApply
  cases c.env.storeFault w.tick with
  | none => cases (apply w.journal o).1 <;> exact after
  | refused text => exact permits.trans _ _ _ (permits.refuses w o _ allowed) (tick _)
  | lost text => exact after
  | crashBefore => exact tick w
  | crashAfter => exact after

theorem advances : Advances c R path op where
  logs := fun record => Moves.change fun w => permits.notes w (.logged record) trivial
  ticks := permits.ticks
  writes := by
    intro own wire allowed w
    have written : R w (handed own wire w) :=
      permits.trans _ _ _ (permits.writes w own wire allowed) (permits.ticks _ _)
    have untouched : R w {w with tick := w.tick + 1} := permits.ticks w _
    unfold socketWrite
    cases c.env.ioFault w.tick <;> assumption
  sent := fun w lastOutbound => permits.moves w {w.toActor with lastOutbound := lastOutbound} (.inl rfl)
  stores := fun _ allowed => permits.store allowed
  advance := fun w nextOut => permits.moves w {w.toActor with nextOut := nextOut} (.inl rfl)

theorem phase (phase : SessionPhase) : Moves R (setPhase phase) :=
  Moves.change fun w => permits.event w {w.toActor with phase := phase} _ trivial (.inl rfl)

theorem expects (nextIn : Nat) : Moves R (setNextIn nextIn) :=
  Moves.change fun w => permits.event w {w.toActor with nextIn := nextIn} _ trivial (.inl rfl)

theorem logs (record : LogRecord) : Moves R (emit (.logged record)) :=
  Moves.change fun w => permits.notes w (.logged record) trivial

theorem notesAll (w : World) (new : List Event) (other : ∀ event ∈ new, remark event) :
    R w {w with trace := new ++ w.trace} := by
  induction new with
  | nil => exact permits.refl w
  | cons event rest ih =>
    exact permits.trans _ _ _ (ih fun e mem => other e (List.mem_cons_of_mem _ mem))
      (permits.notes _ event (other event List.mem_cons_self))

theorem settled (r : Except Halt Unit) (w : World) : R w (settle (r,w)).world := by
  rcases r with halt | _
  · cases halt with
    | fail error =>
      let noted : World := {w with trace := [.protocolError error.text, .phaseChanged .blocked,
        .logged (.error error.text), .logged (.info (ascii "Disconnecting"))] ++ w.trace}
      exact permits.trans _ noted _ (permits.notesAll w _ (by simp [remark,unwritten]))
        (permits.moves noted {w.toActor with phase := .blocked} (.inl rfl))
    | panic | crash => exact permits.refl w
  · exact permits.refl w

theorem settles {m : Act Unit} (moves : Moves R m) (w : World) : R w (settle (m w)).world :=
  permits.trans _ _ _ (moves w) (permits.settled (m w).1 (m w).2)

theorem notices (msgSeqNum : Nat) : Moves R (noticeDesync msgSeqNum) := by
  have := permits.isRefl
  have := permits.isTrans
  refine Moves.bind Moves.state fun w => ?_
  split
  · split
    · exact Moves.stop _
    · exact Moves.bind (permits.logs _) fun _ => Moves.pure _
  · exact Moves.pure _

theorem recovers : Moves R endRecovery := by
  have := permits.isRefl
  have := permits.isTrans
  refine Moves.bind Moves.state fun w => ?_
  split
  · exact permits.phase _
  · exact Moves.pure _

theorem realigns (ops : ∀ o, plainOp o → op o) (msgSeqNum : Nat) : Moves R (realign c msgSeqNum) := by
  have := permits.isRefl
  have := permits.isTrans
  refine Moves.bind Moves.state fun w => ?_
  split
  · exact Moves.bind (permits.logs _) fun _ => Moves.bind (permits.store (ops _ trivial)) fun _ =>
      Moves.bind (permits.actor _ fun _ => ⟨rfl,.inl rfl⟩) fun _ => permits.expects _
  · exact Moves.stop _

end

theorem plainAdmins (ops : ∀ o, plainOp o → op o) (o : StoreOp) (admin : adminOp o) : op o :=
  ops o (adminPlain o admin)

theorem plainOps (ops : ∀ o, loopOp o → op o) (o : StoreOp) (plain : plainOp o) : op o :=
  ops o (plainLoop o plain)

theorem replayOps (ops : ∀ o, loopOp o → op o) (o : StoreOp) (replay : replayOp o = true) : op o :=
  ops o (replayLoopOp o replay)

theorem answerPaths (all : ∀ own, own ≠ .application → path own) (own : SendPath)
    (answer : own ∉ [.application, .resendRequest]) : path own :=
  all own fun same => answer (by rw [same]; decide)

section

variable (permits : Permits path op R) (answers : ∀ own, own ∉ [.application, .resendRequest] → path own)
  (ops : ∀ o, plainOp o → op o)
include permits answers ops

theorem logout (text : Option Bytes) : Moves R (sendLogout c text) :=
  have := permits.isRefl
  have := permits.isTrans
  permits.advances.logout (plainAdmins ops) (answers _ (by decide)) (permits.phase _) text

theorem heartbeat (testRequestId : Option Bytes) : Moves R (sendHeartbeatResponse c testRequestId) :=
  have := permits.isRefl
  have := permits.isTrans
  permits.advances.heartbeatResponse (plainAdmins ops) (answers _ (by decide)) _

theorem received (msgType : Bytes) (message : ParsedMessage) : Moves R (do
    logonReceived msgType
    testRequestAnswered message msgType
    logoutReceived c msgType) := by
  have := permits.isRefl
  have := permits.isTrans
  have logon : Moves R (logonReceived msgType) := by
    refine Moves.bind Moves.state fun w => ?_
    split
    · exact Moves.bind (permits.logs _) fun _ => permits.phase _
    · exact Moves.pure _
  have test : Moves R (testRequestAnswered message msgType) := by
    refine permits.actor _ fun w => ?_
    repeat' split
    all_goals first | exact ⟨rfl,.inl rfl⟩ | exact ⟨rfl,.inr rfl⟩
  have answers : Moves R (answerLogout c) := by
    refine Moves.bind Moves.state fun w => ?_
    split
    · exact permits.logout answers ops none
    · exact Moves.pure _
  refine Moves.bind logon fun _ => Moves.bind test fun _ => ?_
  unfold logoutReceived
  split
  · exact Moves.bind (permits.logs _) fun _ => Moves.bind answers fun _ => permits.phase _
  · exact Moves.pure _

theorem committed (replays : ∀ o, replayOp o = true → op o) (message : ParsedMessage) (expected : Expected) :
    Moves R (afterCommit c message expected) := by
  have := permits.isRefl
  have := permits.isTrans
  have resends : Moves R (answerResendRequest c expected.requestedResend) := by
    cases expected.requestedResend with
    | none => exact Moves.pure _
    | some range =>
      exact permits.advances.replay replays (answers _ (by decide)) (answers _ (by decide)) _ _
  have beats : Moves R (answerTestRequest c expected.heartbeatResponse) := by
    cases expected.heartbeatResponse with
    | none => exact Moves.pure _
    | some id => exact permits.heartbeat answers ops _
  have splits : afterCommit c message expected = (do
      (do logonReceived expected.msgType
          testRequestAnswered message expected.msgType
          logoutReceived c expected.msgType)
      answerResendRequest c expected.requestedResend
      answerTestRequest c expected.heartbeatResponse : Act Unit) := by
    simp only [afterCommit,bind_assoc]
  rw [splits]
  exact Moves.bind (permits.received answers ops _ _) fun _ => Moves.bind resends fun _ => beats

end

section

variable (permits : Permits path op R) (all : ∀ own, own ≠ .application → path own) (ops : ∀ o, plainOp o → op o)
include permits all ops

theorem buffers (msgSeqNum : Nat) (frame : Bytes) : Moves R (bufferGap c msgSeqNum frame) := by
  have := permits.isRefl
  have := permits.isTrans
  refine Moves.bind Moves.state fun w => ?_
  split
  · exact Moves.stop _
  · refine Moves.bind (permits.actor _ fun _ => ⟨rfl,.inl rfl⟩) fun _ => Moves.bind Moves.state fun w => ?_
    split
    · exact Moves.bind (permits.advances.resendRequest (plainAdmins ops) (all _ (by decide)) _) fun _ =>
        permits.phase _
    · exact Moves.pure _

theorem timers : Moves R (heartbeatDue c) := by
  have := permits.isRefl
  have := permits.isTrans
  have beats : Moves R (heartbeatIfEstablished c) := by
    refine Moves.bind Moves.state fun w => ?_
    split
    · exact permits.heartbeat (answerPaths all) ops none
    · exact Moves.pure _
  have asks : Moves R (testRequestDue c) := by
    refine Moves.bind Moves.state fun w => ?_
    split
    · refine Moves.bind permits.advances.now fun _ => ?_
      split
      · exact Moves.bind (permits.logout (answerPaths all) ops _) fun _ => Moves.stop _
      · exact Moves.pure _
    · split
      · refine Moves.bind permits.advances.now fun _ => ?_
        split
        · exact permits.advances.testRequest (plainAdmins ops) (all _ (by decide)) permits.asks _
        · exact Moves.pure _
      · exact Moves.pure _
  refine Moves.bind Moves.state fun _ => Moves.bind permits.advances.now fun _ => ?_
  split
  · exact Moves.pure _
  · exact Moves.bind beats fun _ => asks

theorem logons : Moves R (logon c) := by
  have := permits.isRefl
  have := permits.isTrans
  have resets : Moves R (resetIfConfigured c) := by
    unfold resetIfConfigured
    split
    · refine Moves.bind (permits.store (ops _ trivial)) fun reply => ?_
      split
      · exact Moves.bind (permits.actor _ fun _ => ⟨rfl,.inl rfl⟩) fun _ => Moves.bind (permits.expects _) fun _ =>
          permits.logs _
      · exact Moves.stop _
    · exact Moves.pure _
  refine Moves.bind (Moves.bind (Moves.ofExcept _) fun _ => Moves.bind resets fun _ =>
    Moves.bind (permits.advances.header _) fun _ => Moves.bind (Moves.ofExcept _) fun _ =>
      Moves.bind (Moves.ofExcept _) fun _ => Moves.bind Moves.state fun _ => ?_) fun _ => permits.phase _
  exact permits.advances.admin (plainAdmins ops) (all .logon (by decide)) (adminKeySession _ _ _) (permits.logs _)

theorem spawns (s : Shared) : R (entering c s) (spawn c s).world := by
  have unread (text : Bytes) : R (entering c s) (unrecovered c s text) := by
    let noted : World := {entering c s with trace := [.protocolError (StoreError.backend text).text,
      .phaseChanged .blocked] ++ s.trace}
    exact permits.trans _ noted _ (permits.notesAll (entering c s) _ (by simp [remark,unwritten]))
      (permits.moves noted {(entering c s).toActor with phase := .blocked} (.inl rfl))
  unfold spawn
  split
  · exact permits.settles (permits.logons all ops) _
  · exact unread _
  · exact unread _
  · exact permits.refl _
  · exact permits.refl _

section

variable {command : ActorCommand}
  (submits : ∀ request, command = .submit request → path .application ∧ ∀ o, submitOp request o → op o)
include submits

theorem results : Moves R (commandResult c command) := by
  have := permits.isRefl
  have := permits.isTrans
  cases command with
  | status => exact Moves.bind Moves.state fun _ => Moves.pure _
  | lookupCommand requestId =>
    refine Moves.bind (Moves.bind (permits.store (ops _ trivial)) fun reply => ?_) fun _ => Moves.pure _
    split
    · exact Moves.pure _
    · exact Moves.stop _
  | submit request =>
    obtain ⟨own,allowed⟩ := submits request rfl
    exact Moves.bind (permits.advances.submit request allowed own) fun _ => Moves.pure _
  | logout text => exact Moves.bind (permits.logout (answerPaths all) ops text) fun _ => Moves.pure _

theorem commands : Moves R (handleCommand c command) := by
  have := permits.isRefl
  have := permits.isTrans
  refine Moves.bind (Moves.attempt (permits.results all ops submits)) fun result =>
    Moves.bind (Moves.change fun w => permits.notes w _ trivial) fun _ => ?_
  split
  · split
    · exact Moves.stop _
    · exact Moves.pure _
  · exact Moves.pure _

end

end

section

variable (permits : Permits path op R) (answers : ∀ own, own ∉ [.application, .resendRequest] → path own)
  (ops : ∀ o, loopOp o → op o)
include permits answers ops

theorem commits (message : ParsedMessage) (frame : Bytes) : Moves R (commitExpected c message frame) := by
  have := permits.isRefl
  have := permits.isTrans
  exact Moves.bind (Moves.ofExcept _) fun n => Moves.bind (permits.notices n) fun _ => Moves.bind Moves.state fun _ =>
    Moves.bind (Moves.ofExcept _) fun e => Moves.bind Moves.state fun _ =>
      Moves.bind (permits.store (ops _ trivial)) fun _ => Moves.bind (permits.expects _) fun _ =>
        Moves.bind (permits.actor _ fun _ => ⟨rfl,.inl rfl⟩) fun _ =>
          permits.committed answers (plainOps ops) (replayOps ops) _ e

theorem drains (fuel : Nat) : Moves R (drain c fuel) := by
  have := permits.isRefl
  have := permits.isTrans
  induction fuel with
  | zero => exact Moves.pure _
  | succ fuel ih =>
    refine Moves.bind (permits.actor _ fun _ => ⟨rfl,.inl rfl⟩) fun _ => Moves.bind Moves.state fun w => ?_
    split
    · exact Moves.pure _
    · exact Moves.bind (permits.actor _ fun _ => ⟨rfl,.inl rfl⟩) fun _ => Moves.bind (Moves.ofExcept _) fun _ =>
        Moves.bind (permits.commits answers ops _ _) fun _ => ih

theorem empties : Moves R (do drainBuffer c; endRecovery) :=
  have := permits.isRefl
  have := permits.isTrans
  Moves.bind (Moves.bind Moves.state fun _ => permits.drains answers ops _) fun _ => permits.recovers

theorem accepts (message : ParsedMessage) (msgSeqNum : Nat) (frame : Bytes) :
    Moves R (acceptFrame c message msgSeqNum frame) := by
  have := permits.isRefl
  have := permits.isTrans
  have realigns : Moves R (realignIfLow c msgSeqNum) := by
    refine Moves.bind Moves.state fun w => ?_
    split
    · exact permits.realigns (plainOps ops) _
    · exact Moves.pure _
  exact Moves.bind realigns fun _ => Moves.bind (permits.commits answers ops _ _) fun _ =>
    permits.empties answers ops

end

section

variable (permits : Permits path op R) (all : ∀ own, own ≠ .application → path own) (ops : ∀ o, loopOp o → op o)
include permits all ops

theorem frames (frame : Bytes) : Moves R (handleFrame c frame) := by
  have := permits.isRefl
  have := permits.isTrans
  refine Moves.bind (permits.logs _) fun _ => Moves.bind (Moves.ofExcept _) fun _ =>
    Moves.bind permits.advances.now fun _ => Moves.bind (permits.actor _ fun _ => ⟨rfl,.inl rfl⟩) fun _ =>
      Moves.bind (Moves.ofExcept _) fun _ => Moves.bind Moves.state fun w => ?_
  split
  · exact permits.buffers all (plainOps ops) _ _
  split
  · exact permits.advances.verifyPossdup _ _ (ops _ trivial)
  · exact permits.accepts (answerPaths all) ops _ _ _

theorem steps (conn : Conn) (input : Input) (submits : ∀ request, input = .command (.submit request) →
    path .application ∧ ∀ o, submitOp request o → op o) : R conn.world (step c conn input).world := by
  have := permits.isRefl
  unfold step
  split
  · cases input with
    | command command =>
      exact permits.settles (permits.commands all (plainOps ops) fun request same => submits request (by rw [same])) _
    | handlesDropped => exact permits.notes _ _ trivial
    | frame wire => exact permits.settles (permits.frames all ops wire) _
    | endOfStream =>
      let noted : World := {conn.world with trace := [.logged (.info (ascii "Disconnecting")), .transportClosed,
        .phaseChanged .disconnected] ++ conn.world.trace}
      exact permits.trans _ _ _ (permits.notesAll conn.world _ (by simp [remark,unwritten]))
        (permits.moves noted {conn.world.toActor with phase := .disconnected} (.inl rfl))
    | readFailed text => exact permits.settles (Moves.stop _) _
    | decodeFailed stop => exact permits.settles (Moves.stop _) _
    | timer => exact permits.settles (permits.timers all (plainOps ops)) _
  · exact permits.refl _

end

end Permits
end FixCli.Session
