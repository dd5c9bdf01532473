import FixCli.SessionLoop
import FixCli.CodecRoundTrip
import FixCli.Lib.Trace

/-! The inbound counters of an actor are those of its journal as long as it lives,
whatever its store, its socket and its peer do. -/
namespace FixCli.Session
open Lib Codec Store

def Sendable (c : Ctx) : Prop := c.config.beginString ≠ [] ∧ SOH ∉ c.config.beginString ∧ EQ ∉ c.config.beginString

structure Apart (w v : World) : Prop where
  nextIn : v.nextIn = w.nextIn
  nextEvent : v.nextEvent = w.nextEvent
  gapBuffer : v.gapBuffer = w.gapBuffer
  journal : SameInbound w.journal v.journal

namespace Apart

instance : Std.Refl Apart := ⟨fun _ => ⟨rfl,rfl,rfl,.refl _⟩⟩

instance : IsTrans World Apart := ⟨fun _ _ _ h g =>
  ⟨g.nextIn.trans h.nextIn,g.nextEvent.trans h.nextEvent,g.gapBuffer.trans h.gapBuffer,h.journal.trans g.journal⟩⟩

theorem sends {p : List SendPath} {w v : World} (h : Sends p w v) : Apart w v :=
  ⟨h.nextIn,h.nextEvent,h.gapBuffer,h.journal⟩

theorem phased (w : World) (phase : SessionPhase) :
    Apart w {w with phase := phase, trace := .phaseChanged phase :: w.trace} := ⟨rfl,rfl,rfl,.refl _⟩

end Apart

structure Attached (c : Ctx) (w : World) : Prop where
  sendable : Sendable c
  nextIn : w.journal.nextIn = w.nextIn
  nextEvent : w.journal.nextEvent = w.nextEvent
  buffered : Buffered c w

theorem Attached.apart {c : Ctx} {w v : World} (h : Attached c w) (moved : Apart w v) : Attached c v := by
  refine ⟨h.sendable,?_,?_,h.buffered.same moved.gapBuffer⟩
  · rw [moved.journal.nextIn,moved.nextIn,h.nextIn]
  · rw [moved.journal.nextEvent,moved.nextEvent,h.nextEvent]

section

variable {c : Ctx} {α : Type}

open Prog

theorem apartSends {p : List SendPath} {m : Act α} (h : Moves (Sends p) m) : Moves Apart m :=
  h.weaken fun _ _ => Apart.sends

theorem apartLogout (text : Option Bytes) : Moves Apart (sendLogout c text) := by
  intro w
  rcases logoutCases (c := c) text w with ⟨-,refused⟩ | ⟨-,v,sent,⟨halt,-,failed⟩ | done⟩
  · rw [refused]
    exact Std.Refl.refl w
  · rw [failed]
    exact .sends sent
  · rw [done]
    exact IsTrans.trans w v _ (.sends sent) (.phased v _)

theorem apartAfterCommit (m : ParsedMessage) (e : Expected) : Moves Apart (afterCommit c m e) := by
  have logon : Moves Apart (logonReceived e.msgType) := by
    refine Moves.bind Moves.state fun w => ?_
    split
    · exact Moves.bind (apartSends (p := []) (sendsInfo _)) fun _ => Moves.change fun w => .phased w _
    · exact Moves.pure _
  have answer : Moves Apart (answerLogout c) := by
    refine Moves.bind Moves.state fun w => ?_
    split
    · exact apartLogout none
    · exact Moves.pure _
  have logout : Moves Apart (logoutReceived c e.msgType) := by
    unfold logoutReceived
    split
    · exact Moves.bind (apartSends (p := []) (sendsInfo _)) fun _ => Moves.bind answer fun _ =>
        Moves.change fun w => .phased w _
    · exact Moves.pure _
  exact Moves.bind logon fun _ => Moves.bind (apartSends (p := []) (sendsTestRequestAnswered _ _)) fun _ =>
    Moves.bind logout fun _ => apartSends (sendsAnswers e)

theorem attachedMoves {E : Halt → World → Prop} {m : Act α} (moves : Moves Apart m)
    (stopped : ∀ halt w, Attached c w → E halt w) : Meets (Attached c) m (fun _ => Attached c) E := by
  intro w h
  exact Meets.outcome (h.apart (moves w)) stopped

theorem attachedBuffers {frame : Bytes} {message : ParsedMessage} {n : Nat} (sequenced : Sequenced c frame message n) :
    Meets (fun w => Attached c w ∧ w.nextIn < n) (bufferGap c n frame) (fun _ => Attached c) (fun _ _ => True) := by
  refine Meets.bind (Q := fun _ => Attached c) (Meets.state fun _ h => h.1) fun w => ?_
  split
  · exact Meets.stop fun _ _ => trivial
  · refine Meets.bind (Q := fun _ => Attached c) (Meets.change fun v h =>
      ⟨h.sendable,h.nextIn,h.nextEvent,h.buffered.insert sequenced⟩) fun _ =>
        Meets.bind (Q := fun _ => Attached c) (Meets.state fun _ h => h) fun u => ?_
    split
    · exact Meets.bind (Q := fun _ => Attached c)
        (attachedMoves (apartSends (sendsResendRequest _)) fun _ _ _ => trivial) fun _ =>
          Meets.change fun v h => h.apart (.phased v _)
    · exact Meets.pure fun _ h => h

theorem attachedRealigns (n : Nat) : Meets (fun w => Attached c w ∧ n < w.nextIn) (realign c n)
    (fun _ w => Attached c w ∧ w.nextIn = n) (fun _ _ => True) := by
  rintro w ⟨h,-⟩
  by_cases phase : w.phase = .logonSent
  · rw [realignRun phase]
    rcases run : storeApply c (.resyncInbound (resyncCommit w n)) (desynced w n) with ⟨_ | reply,v⟩
    · trivial
    · obtain ⟨-,answer,rfl⟩ := storeReturned run
      obtain ⟨-,-,-,journal⟩ := resyncInboundSource answer
      refine ⟨⟨h.sendable,congrArg Journal.nextIn journal,?_,h.buffered.same rfl⟩,rfl⟩
      exact (congrArg Journal.nextEvent journal).trans (congrArg (· + 1) h.nextEvent)
  · rw [realignRefused phase]
    trivial

theorem attachedCommits (f : Bytes) (m : ParsedMessage) (n : Nat) (e : Expected) :
    Meets (fun w => (Attached c w ∧ w.nextIn = n) ∧ inboundChecks c w.nextOut n n m = .ok e) (commitChecked c m n f e)
      (fun _ => Attached c) (fun _ _ => True) := by
  rintro w ⟨⟨h,-⟩,-⟩
  rw [commitCheckedRun]
  rcases run : storeApply c (.commitInbound (inboundCommit w n f e)) w with ⟨_ | reply,v⟩
  · trivial
  · obtain ⟨-,answer,rfl⟩ := storeReturned run
    obtain ⟨-,-,-,-,journal⟩ := commitInboundSource answer
    have after : Attached c (counted e (applied (.commitInbound (inboundCommit w n f e)) w)) := by
      refine ⟨h.sendable,congrArg Journal.nextIn journal,?_,h.buffered.same rfl⟩
      exact (congrArg Journal.nextEvent journal).trans (congrArg (· + 1) h.nextEvent)
    exact attachedMoves (apartAfterCommit m e) (fun _ _ _ => trivial) _ after

theorem attachedInbound (frame : Bytes) : InboundRules c frame (Attached c) (Attached c) (Attached c) (fun _ => True)
    (fun _ _ n w => Attached c w ∧ w.nextIn = n) where
  quiet w v moved h := h.apart ⟨moved.nextIn,moved.nextEvent,moved.gapBuffer,by rw [moved.journal]; exact .refl _⟩
  beforeFails _ _ := trivial
  headFails _ _ := trivial
  headAfter _ h := h
  readyFails _ _ _ _ _ := trivial
  replayed _ _ _ _ h _ _ := h
  ahead message n sequenced := attachedBuffers sequenced
  behind message n sequenced _ := attachedRealigns n
  expected _ _ _ _ h same := ⟨h,same⟩
  awaited _ _ _ _ h := h.2
  commit f m n e sequenced := attachedCommits f m n e
  skip w h := ⟨h.sendable,h.nextIn,h.nextEvent,h.buffered.skip _⟩
  take w f h found := by
    obtain ⟨m,sequenced⟩ := h.buffered _ f found
    exact ⟨m,sequenced,⟨h.sendable,h.nextIn,h.nextEvent,h.buffered.erase _⟩,rfl⟩
  recovered w h _ _ := h.apart (.phased w _)

theorem attachedLoop : LoopRules c (Attached c) (fun _ => True) where
  quiet w v moved h := h.apart ⟨moved.nextIn,moved.nextEvent,moved.gapBuffer,by rw [moved.journal]; exact .refl _⟩
  fails _ _ := trivial
  logout text := attachedMoves (apartLogout text) fun _ _ h => ⟨trivial,fun _ => h⟩
  heartbeat := Meets.weaken (attachedMoves (apartSends (sendsHeartbeatResponse none)) fun _ _ _ => trivial)
    (fun _ h => h.1) (fun _ _ h => h) fun _ _ h => h
  testRequest timeout := Meets.weaken (attachedMoves (apartSends (sendsTestRequest timeout)) fun _ _ _ => trivial)
    (fun _ h => h.1) (fun _ _ h => h) fun _ _ h => h
  replies _ _ _ := trivial
  blocks _ _ _ := trivial
  leaves _ _ := trivial
  hangsUp _ _ := trivial

theorem attachedLogon (s : Shared) : Meets (· = entering c s) (logon c) (fun _ => Attached c) (fun _ _ => True) := by
  have start : ∀ w, w = entering c s → Sendable c → Attached c w := by
    rintro w rfl sendable
    exact ⟨sendable,rfl,rfl,fun k frame found => by simp [entering] at found⟩
  have resets : Meets (· = entering c s) (resetIfConfigured c) (fun _ w => Sendable c → Attached c w)
      (fun _ _ => True) := by
    rintro w rfl
    unfold resetIfConfigured
    by_cases reset : c.config.resetOnLogon = true
    · rw [if_pos reset]
      rcases run : storeApply c .resetSequences (entering c s) with ⟨_ | reply,v⟩
      · rw [resetOnLogon,bindStops run]
        trivial
      · obtain ⟨-,answer,rfl⟩ := storeReturned run
        cases answer
        rw [resetOnLogon,bindReturns run]
        exact fun sendable => ⟨sendable,rfl,rfl,fun k frame found => by simp [entering,applied] at found⟩
    · rw [if_neg reset]
      exact start _ rfl
  have keeps {β : Type} {m : Act β} (moves : Moves Apart m) : Meets (fun w => Sendable c → Attached c w) m
      (fun _ w => Sendable c → Attached c w) (fun _ _ => True) := by
    intro w h
    exact Meets.outcome (fun sendable => (h sendable).apart (moves w)) fun _ _ _ => trivial
  have encodes (fields : List Field) : Meets (fun w => Sendable c → Attached c w)
      (Prog.ofExcept (inSession (encodeOutbound c fields)) : Act Bytes) (fun _ => Attached c) (fun _ _ => True) := by
    refine Meets.ofExcept (fun wire ok w h => h ?_) fun _ _ _ _ => trivial
    have found := inSessionOk ok
    unfold encodeOutbound at found
    split at found
    · rename_i encodes
      obtain ⟨_,shape,-⟩ := encoded encodes
      exact shape.beginString
    · cases found
  have logs : Meets (· = entering c s) (sendLogon c) (fun _ => Attached c) (fun _ _ => True) := by
    refine Meets.bind (Q := fun _ w => w = entering c s) (Meets.ofExcept (fun _ _ _ h => h) fun _ _ _ _ => trivial)
      fun _ => Meets.bind resets fun _ => Meets.bind (keeps (apartSends (p := []) (sendsHeader _))) fun header =>
        Meets.bind (encodes _) fun wire => ?_
    refine Meets.bind (Q := fun _ => Attached c) (Meets.ofExcept (fun _ _ _ h => h) fun _ _ _ _ => trivial)
      fun journalWire => Meets.bind (Q := fun _ => Attached c) (Meets.state fun _ h => h) fun w => ?_
    exact attachedMoves (apartSends (sendsAdmin (p := [.logon]) (by simp) (adminKeySession _ _ _) (sendsInfo _)))
      fun _ _ _ => trivial
  exact Meets.bind logs fun _ => Meets.change fun w h => h.apart (.phased w _)

theorem attachedStep {conn : Conn} {input : Input} (holds : Holds (Attached c) (fun _ => True) conn) :
    Holds (Attached c) (fun _ => True) (step c conn input) := by
  refine attachedLoop.steps (fun request _ alive => ?_) (fun wire _ alive => ?_) holds
  · exact Meets.weaken (attachedMoves (E := survives (Attached c) fun _ => True) (apartSends (sendsSubmit request))
      fun _ _ h => ⟨trivial,fun _ => h⟩) (fun _ same => same ▸ holds.2 alive) (fun _ _ h => h) fun _ _ h => h
  · exact Meets.weaken (attachedInbound wire).frames (fun _ same => same ▸ holds.2 alive) (fun _ _ h => h)
      fun _ _ h => h

theorem attachedRun (s : Shared) (inputs : List Input) (live : (run c (spawn c s) inputs).live = true) :
    Attached c (run c (spawn c s) inputs).world := by
  have start : Holds (Attached c) (fun _ => True) (spawn c s) :=
    attachedLoop.spawns trivial (fun _ => trivial) (attachedLogon s)
  have free : Along (step c) (fun _ _ => True) (spawn c s) inputs := alongAlways (fun _ _ => trivial) _ inputs
  have holds : Holds (Attached c) (fun _ => True) (run c (spawn c s) inputs) :=
    foldInvariant (fun _ _ _ holds => attachedStep holds) start free
  exact holds.2 live

end
end FixCli.Session
