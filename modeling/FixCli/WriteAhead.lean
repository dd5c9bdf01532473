import FixCli.EpochRuns

/-! Journal before socket. A frame goes out when its bytes are on record: an original
under its number, which no other original has carried since the last reset, and a replay
among the transmissions. -/
namespace FixCli.Session
open Lib Codec Store

def resetEvent : Event → Bool
  | .stored .resetSequences (.ok _) => true
  | _ => false

def sinceReset (trace : List Event) : List Event := trace.takeWhile fun event => !resetEvent event

def originalOut (c : Ctx) (n : Nat) : Event → Prop
  | .wrote path wire _ => path ∉ replayPaths ∧ Carried c n wire
  | _ => False

def OnRecord (c : Ctx) (j : Journal) (path : SendPath) (n : Nat) (wire : Bytes) : Prop :=
  ∃ record, j.outbound[n]? = some record ∧ Copied c path n record.wire wire

def OnReplay (j : Journal) (wire : Bytes) : Prop :=
  ∃ (id : Nat) (record : TransmissionRecord), j.transmissions[id]? = some record ∧ record.wire = wire

def writtenAhead (c : Ctx) : Event → List Event → Prop
  | .wrote path wire journal, past =>
    if path ∈ replayPaths then OnReplay journal wire
    else (∃ n, Carried c n wire) ∧ ∀ n, Carried c n wire →
      OnRecord c journal path n wire ∧ ∀ event ∈ sinceReset past, ¬ originalOut c n event
  | _, _ => True

structure Prerecorded (taken : Bytes → Prop) (c : Ctx) (s : Shared) : Prop where
  ahead : Always (writtenAhead c) s.trace
  below : ∀ n, ∀ event ∈ sinceReset s.trace, originalOut c n event → n < s.journal.nextOut
  told : ∀ (requestId : Bytes) (record : CommandRecord), s.journal.commands[requestId]? = some record →
    record.clOrdId = [] → ¬ taken record.fingerprint

structure Cleared (taken : Bytes → Prop) (c : Ctx) (path : SendPath) (wire : Bytes) (s : Shared) : Prop
    extends Prerecorded taken c s where
  ready : writtenAhead c (.wrote path wire s.journal) s.trace
  counted : ∀ n, originalOut c n (.wrote path wire s.journal) → n < s.journal.nextOut

section

variable {taken : Bytes → Prop} {c : Ctx} {s : Shared} {w v : World} {path : SendPath} {n : Nat} {wire : Bytes}

open Prog

theorem sinceCons {event : Event} (trace : List Event) (other : resetEvent event = false) :
    sinceReset (event :: trace) = event :: sinceReset trace := by
  simp only [sinceReset,List.takeWhile_cons,other,Bool.not_false,if_true]

theorem sinceAppend {new : List Event} (trace : List Event) (other : ∀ event ∈ new, resetEvent event = false) :
    sinceReset (new ++ trace) = new ++ sinceReset trace := by
  induction new with
  | nil => rfl
  | cons event new ih =>
    rw [List.cons_append,sinceCons _ (other event List.mem_cons_self),
      ih fun e mem => other e (List.mem_cons_of_mem _ mem),List.cons_append]

theorem unwrittenOut {event : Event} (silent : unwritten event) : ¬ originalOut c n event := by
  cases event <;> first | exact fun out => out | cases silent

theorem unwrittenAhead {event : Event} (silent : unwritten event) (past : List Event) :
    writtenAhead c event past := by
  cases event <;> trivial

namespace Prerecorded

theorem notes (h : Prerecorded taken c s) (new : List Event) {j : Journal} (tick : Nat)
    (silent : ∀ event ∈ new, unwritten event) (other : ∀ event ∈ new, resetEvent event = false)
    (nextOut : s.journal.nextOut ≤ j.nextOut)
    (told : ∀ (requestId : Bytes) (record : CommandRecord), j.commands[requestId]? = some record →
      record.clOrdId = [] → ¬ taken record.fingerprint) : Prerecorded taken c ⟨j,new ++ s.trace,tick⟩ := by
  refine ⟨alwaysAppend h.ahead fun _ event older same => unwrittenAhead (silent event (by rw [same]; simp)) _,?_,told⟩
  intro n event mem out
  rw [sinceAppend _ other] at mem
  rcases List.mem_append.mp mem with newer | older
  · exact absurd out (unwrittenOut (silent event newer))
  · exact (h.below n event older out).trans_le nextOut

theorem note (h : Prerecorded taken c s) {event : Event} (tick : Nat) (silent : unwritten event)
    (other : resetEvent event = false) : Prerecorded taken c ⟨s.journal,event :: s.trace,tick⟩ :=
  h.notes [event] tick (by simpa using silent) (by simpa using other) (Nat.le_refl _) h.told

theorem ticks (h : Prerecorded taken c s) (tick : Nat) : Prerecorded taken c ⟨s.journal,s.trace,tick⟩ :=
  ⟨h.ahead,h.below,h.told⟩

theorem tells (h : Prerecorded taken c s) {op : StoreOp} {k : Journal} (harmless : Harmless taken s.journal op)
    (effect : Effect s.journal op k) (requestId : Bytes) (record : CommandRecord)
    (found : k.commands[requestId]? = some record) (own : record.clOrdId = []) : ¬ taken record.fingerprint := by
  cases effect with
  | none | transmission _ | transmissionWritten _ | inbound _ _ _ | resync _ _ | reset =>
    exact h.told requestId record found own
  | @outbound commit _ _ =>
    simp only [withOutbound,Std.ExtTreeMap.getElem?_insert] at found
    split at found
    · cases found
      exact (harmless.1 own).2.1
    · exact h.told requestId record found own
  | @written mark command outbound here _ _ =>
    simp only [withWritten,Std.ExtTreeMap.getElem?_insert] at found
    split at found
    · cases found
      exact h.told mark.requestId command here own
    · exact h.told requestId record found own

theorem nextOutForward {j k : Journal} {op : StoreOp} (effect : Effect j op k) :
    j.nextOut ≤ k.nextOut ∨ op = .resetSequences := by
  cases effect with
  | outbound _ _ => exact .inl (Nat.le_succ _)
  | none | written _ _ _ | transmission _ | transmissionWritten _ | inbound _ _ _ | resync _ _ =>
    exact .inl (Nat.le_refl _)
  | reset => exact .inr rfl

theorem applied {w : World} (h : Prerecorded taken c w.toShared) {op : StoreOp}
    (harmless : Harmless taken w.journal op) : Prerecorded taken c (applied op w).toShared := by
  have effect := effectOf w.journal op
  have told := h.tells harmless effect
  rcases nextOutForward effect with forward | reset
  · by_cases cut : resetEvent (.stored op (apply w.journal op).1) = true
    · refine ⟨⟨trivial,h.ahead⟩,fun n event mem => ?_,told⟩
      simp [sinceReset,Session.applied,cut] at mem
    · exact h.notes [_] _ (by simp [unwritten]) (by simpa using cut) forward told
  · subst reset
    refine ⟨⟨trivial,h.ahead⟩,fun n event mem => ?_,told⟩
    simp [sinceReset,Session.applied,resetEvent,apply,resetSequences] at mem

theorem stores {w : World} (h : Prerecorded taken c w.toShared) {x : Ctx} {op : StoreOp}
    (harmless : Harmless taken w.journal op) : Prerecorded taken c (storeApply x op w).2.toShared := by
  have after := h.applied harmless
  have refused (text : Bytes) : resetEvent (.stored op (.error (.backend text))) = false := by cases op <;> rfl
  unfold storeApply
  cases x.env.storeFault w.tick with
  | none => cases (apply w.journal op).1 <;> exact after
  | refused text => exact h.note _ trivial (refused text)
  | lost text => exact after
  | crashBefore => exact h.ticks _
  | crashAfter => exact after

theorem mute {w v : World} (h : Prerecorded taken c w.toShared) (moved : Mute w v) :
    Prerecorded taken c v.toShared := by
  obtain ⟨new,trace,silent⟩ := moved.silent
  obtain ⟨same,again,idle⟩ := moved.trace
  have whole : same = new := List.append_cancel_right (again.symm.trans trace)
  subst whole
  have other : ∀ event ∈ same, resetEvent event = false := by
    intro event mem
    have here := idle event mem
    cases event with
    | stored op answer => cases op <;> first | rfl | (rcases here.1 with aside | aside <;> cases aside)
    | _ => rfl
  have kept := h.notes same (j := v.journal) v.tick silent other (Nat.le_of_eq moved.outbound.1.symm)
    fun requestId record found => h.told requestId record (by rw [← moved.outbound.2.1]; exact found)
  rw [← trace] at kept
  exact kept

end Prerecorded

theorem Cleared.logged (h : Cleared taken c path wire s) (record : LogRecord) :
    Cleared taken c path wire ⟨s.journal,.logged record :: s.trace,s.tick⟩ := by
  refine ⟨h.note _ trivial rfl,?_,h.counted⟩
  have ready := h.ready
  simp only [writtenAhead] at ready ⊢
  by_cases replay : path ∈ replayPaths
  · rwa [if_pos replay] at ready ⊢
  · rw [if_neg replay] at ready ⊢
    refine ⟨ready.1,fun n carried => ⟨(ready.2 n carried).1,fun event mem => ?_⟩⟩
    rw [sinceCons _ rfl] at mem
    rcases List.mem_cons.mp mem with rfl | older
    · exact unwrittenOut trivial
    · exact (ready.2 n carried).2 event older

theorem Cleared.wrote (h : Cleared taken c path wire s) (tick : Nat) :
    Prerecorded taken c ⟨s.journal,.wrote path wire s.journal :: s.trace,tick⟩ := by
  refine ⟨⟨h.ready,h.ahead⟩,fun n event mem out => ?_,h.told⟩
  rw [sinceCons _ rfl] at mem
  rcases List.mem_cons.mp mem with rfl | older
  · exact h.counted n out
  · exact h.below n event older out

theorem clearedWrites : Meets (fun w => Cleared taken c path wire w.toShared) (writeWire c path wire)
    (fun _ w => Prerecorded taken c w.toShared) (fun _ w => Prerecorded taken c w.toShared) := by
  intro w h
  have noted := h.logged (.outgoing wire)
  have logged : emit (.logged (.outgoing wire)) w =
      ((.ok (),{w with trace := .logged (.outgoing wire) :: w.trace}) : Except Halt Unit × World) := rfl
  unfold writeWire
  rw [bindReturns logged,bindRun]
  unfold socketWrite
  dsimp only
  cases c.env.ioFault w.tick with
  | none | lost _ | crashAfter => exact noted.wrote _
  | refused _ | crashBefore => exact noted.ticks _

theorem Prerecorded.clears {w : World} (h : Prerecorded taken c w.toShared) {commit : OutboundCommit}
    (harmless : Harmless taken w.journal (.commitOutbound commit)) {reply : StoreReply} {v : World}
    (unknown : ∀ record, w.journal.commands[commit.requestId]? = some record →
      record.fingerprint ≠ commit.fingerprint)
    (run : storeApply c (.commitOutbound commit) w = (.ok reply,v)) (original : path ∉ replayPaths)
    (copied : Copied c path commit.msgSeqNum commit.wire wire) : Cleared taken c path wire v.toShared := by
  have after := h.stores (x := c) harmless
  rw [run] at after
  obtain ⟨-,answer,rfl⟩ := storeReturned run
  rcases commitOutboundSource answer with ⟨existing,found,same,-⟩ | ⟨-,expected,-,journal⟩
  · exact absurd same (unknown existing found)
  have here : (Session.applied (.commitOutbound commit) w).journal = withOutbound w.journal commit := journal
  have own {m : Nat} (carried : Carried c m wire) : m = commit.msgSeqNum := carriedOnce carried copied.carried
  refine ⟨after,?_,fun m out => ?_⟩
  · simp only [writtenAhead,if_neg original]
    refine ⟨⟨_,copied.carried⟩,fun m carried => ?_⟩
    rw [own carried]
    refine ⟨⟨⟨journaledCommand commit,commit.wire⟩,?_,copied⟩,fun event mem out => ?_⟩
    · rw [here]
      simp [withOutbound]
    · rw [show sinceReset (Session.applied (.commitOutbound commit) w).trace = _ from sinceCons _ rfl] at mem
      rcases List.mem_cons.mp mem with rfl | older
      · exact out
      · have late := h.below _ event older out
        omega
  · rw [own out.2,here]
    change commit.msgSeqNum < w.journal.nextOut + 1
    omega

def Prerecords (taken : Bytes → Prop) (c : Ctx) (w v : World) : Prop :=
  Prerecorded taken c w.toShared → Prerecorded taken c v.toShared

instance : Std.Refl (Prerecords taken c) := ⟨fun _ h => h⟩

instance : IsTrans World (Prerecords taken c) := ⟨fun _ _ _ first second h => second (first h)⟩

theorem booksStore {o : StoreOp} (other : ∀ commit, o ≠ .commitOutbound commit) :
    Moves (Prerecords taken c) (storeApply c o) := fun w h => h.stores (by
  cases o with
  | commitOutbound commit => exact absurd rfl (other commit)
  | _ => trivial)

theorem booksTransmission (msgSeqNum : Nat) (kind : String) (replay : path ∈ replayPaths) :
    Moves (Prerecords taken c) (writeReplayTransmission c path msgSeqNum kind wire) := by
  intro w h
  have commits : Meets (· = w) (storeApply c (.commitTransmission ⟨msgSeqNum,ascii kind,wire⟩))
      (fun _ v => Cleared taken c path wire v.toShared) (fun _ v => Prerecorded taken c v.toShared) := by
    rintro u rfl
    have after := booksStore (c := c) (o := .commitTransmission ⟨msgSeqNum,ascii kind,wire⟩) (by simp) u h
    rcases run : storeApply c (.commitTransmission ⟨msgSeqNum,ascii kind,wire⟩) u with ⟨halt | reply,v⟩
    · rw [run] at after
      exact after
    · rw [run] at after
      obtain ⟨-,answer,rfl⟩ := storeReturned run
      refine ⟨after,?_,fun m out => absurd replay out.1⟩
      simp only [writtenAhead,if_pos replay]
      refine ⟨u.journal.nextTransmission,⟨u.journal.nextTransmission,msgSeqNum,ascii kind,wire,.journaled⟩,?_,rfl⟩
      simp [applied,apply,commitTransmission]
  have whole : Meets (· = w) (writeReplayTransmission c path msgSeqNum kind wire)
      (fun _ v => Prerecorded taken c v.toShared) (fun _ v => Prerecorded taken c v.toShared) := by
    refine Meets.bind commits fun reply => ?_
    split
    · exact Meets.bind clearedWrites fun _ => Meets.bind (Q := fun _ v => Prerecorded taken c v.toShared)
        (Meets.ofMoves (booksStore (by simp)) (fun _ _ moved h => moved h) fun _ h => h)
        fun _ => Meets.pure fun _ h => h
    · exact Meets.stop fun _ h => h.toPrerecorded
  have here := whole w rfl
  rcases run : writeReplayTransmission c path msgSeqNum kind wire w with ⟨_ | _,v⟩ <;>
  · rw [run] at here
    exact here

theorem booksReplay (beginSeqNum endSeqNum : Nat) :
    Moves (Prerecords taken c) (replayValidatedRange c beginSeqNum endSeqNum) := by
  have resends : Retransmits c (Prerecords taken c) (· ∈ replayPaths) :=
    ⟨fun _ _ h => h.ticks _,fun _ n kind _ replay => booksTransmission n kind replay⟩
  refine Moves.bind (booksStore (by simp)) fun reply => ?_
  split
  · exact resends.replayLoop (by simp) (fun _ _ _ _ => by simp) _ _ _
  · exact Moves.stop _

theorem booksRealign (msgSeqNum : Nat) : Moves (Prerecords taken c) (realign c msgSeqNum) := by
  refine Moves.bind Moves.state fun w => ?_
  split
  · exact Moves.bind (Moves.change fun w h => h.note _ trivial rfl) fun _ =>
      Moves.bind (booksStore fun _ same => by cases same) fun _ => Moves.bind (Moves.change fun w h => h) fun _ =>
        Moves.change fun w h => h.note _ trivial rfl
  · exact Moves.stop _

theorem booksReset : Moves (Prerecords taken c) (resetIfConfigured c) := by
  unfold resetIfConfigured
  split
  · refine Moves.bind (booksStore fun _ same => by cases same) fun reply => ?_
    split
    · exact Moves.bind (Moves.change fun w h => h) fun _ => Moves.bind (Moves.change fun w h => h.note _ trivial rfl)
        fun _ => Moves.change fun w h => h.note _ trivial rfl
    · exact Moves.stop _
  · exact Moves.pure _

structure Journaled (taken : Bytes → Prop) (c : Ctx) (s : Shared) : Prop where
  settled : Settled taken s
  prerecorded : Prerecorded taken c s

structure Writing (taken : Bytes → Prop) (c : Ctx) (w : World) : Prop where
  running : Running taken c w
  prerecorded : Prerecorded taken c w.toShared

theorem Writing.journaled (h : Writing taken c w) : Journaled taken c w.toShared := ⟨h.running.settled,h.prerecorded⟩

theorem journaledBoth {α : Type} {P : World → Prop} {m : Act α} {R Q : α → World → Prop}
    (settles : Meets P m R fun _ w => Settled taken w.toShared) (books : Moves (Prerecords taken c) m)
    (after : ∀ a w, R a w → Prerecorded taken c w.toShared → Q a w) :
    Meets (fun w => P w ∧ Prerecorded taken c w.toShared) m Q (fun _ w => Journaled taken c w.toShared) := by
  intro w h
  have first := settles w h.1
  have second := books w h.2
  rcases run : m w with ⟨_ | a,v⟩ <;> rw [run] at first second
  · exact ⟨first,second⟩
  · exact after a v first second

section

variable (apart : ∀ requestId fingerprint o e, AdminPair requestId fingerprint o e → ¬ taken fingerprint)
include apart

theorem writingAdmin (send : AdminSend) (o e : Nat) (pair : AdminPair send.requestId send.fingerprint o e)
    (copied : Copied c send.path o send.journalWire send.wire) (original : send.path ∉ replayPaths) :
    Meets (fun w => Writing taken c w ∧ w.nextOut = o ∧ w.nextEvent = e)
      (storeApply c (.commitOutbound ⟨send.requestId,send.fingerprint,[],o,send.journalWire⟩))
      (fun reply w => ∃ command, reply = .command command ∧ Sending taken c send.requestId command.msgSeqNum w ∧
        Cleared taken c send.path send.wire w.toShared) (fun _ w => Journaled taken c w.toShared) := by
  rintro w ⟨h,rfl,rfl⟩
  have untaken := apart _ _ _ _ pair
  have harmless := h.running.adminHarmless untaken send.journalWire pair
  have sends := runningAdmin (c := c) apart send.journalWire pair w ⟨h.running,rfl,rfl⟩
  have kept := h.prerecorded.stores (x := c) harmless
  rcases run : storeApply c (.commitOutbound ⟨send.requestId,send.fingerprint,[],w.nextOut,send.journalWire⟩) w with
    ⟨halt | reply,v⟩
  · rw [run] at sends kept
    exact ⟨sends,kept⟩
  · rw [run] at sends
    obtain ⟨command,rfl,sending⟩ := sends
    exact ⟨command,rfl,sending,h.prerecorded.clears harmless (h.running.unshared untaken pair) run original copied⟩

theorem writingConveys : Conveys c (Writing taken c) (fun w => Journaled taken c w.toShared)
    (fun path wire requestId n w => Sending taken c requestId n w ∧ Cleared taken c path wire w.toShared)
    (fun requestId n w => Sending taken c requestId n w ∧ Prerecorded taken c w.toShared) where
  fails := fun _ h => h.journaled
  owedFails := fun _ _ _ _ _ h => ⟨h.1.settled,h.2.toPrerecorded⟩
  dueFails := fun _ _ _ h => ⟨h.1.settled,h.2⟩
  mute := fun _ _ moved h => ⟨h.running.idle moved.toIdle,h.prerecorded.mute moved⟩
  dueMute := fun _ _ _ _ moved h => ⟨h.1.idle moved.toIdle,h.2.mute moved⟩
  ends := fun _ _ moved h => ⟨h.settled.idle moved.toIdle,h.prerecorded.mute moved⟩
  buffered := fun _ h => h.running.buffered
  buffers := fun _ _ h inside => ⟨⟨⟨h.running.settled,h.running.nextEvent,inside⟩,h.running.nextOut⟩,h.prerecorded⟩
  admin := writingAdmin apart
  writes := fun path wire requestId n => Meets.weaken
    (Meets.both (P := fun w => Sending taken c requestId n w ∧ Cleared taken c path wire w.toShared)
      (Meets.weaken (Meets.ofMoves (idleDoes.wire trivial _) (fun _ _ moved h => h.idle moved) fun _ h => h.settled)
        (fun _ h => h.1) (fun _ _ h => h) fun _ _ h => h)
      (Meets.weaken clearedWrites (fun _ h => h.2) (fun _ _ h => h) fun _ _ h => h))
    (fun _ h => h) (fun _ _ h => h) fun _ _ h => ⟨h.1,h.2⟩
  marks := fun requestId n => journaledBoth ((runningCarries apart).marks requestId n)
    (booksStore fun _ same => by cases same) fun _ _ h prerecorded => ⟨h.1,h.2,prerecorded⟩
  replays := fun beginSeqNum endSeqNum => Meets.weaken (journaledBoth
      ((runningCarries apart).idles (idleDoes.replay (fun _ aside => .inl aside) trivial trivial _ _))
      (booksReplay beginSeqNum endSeqNum) fun _ _ running prerecorded => ⟨running,prerecorded⟩)
    (fun _ h => ⟨h.running,h.prerecorded⟩) (fun _ _ h => h) fun _ _ h => h
  realign := fun n => Meets.weaken (journaledBoth (runningRealign n) (booksRealign n)
      fun _ _ h prerecorded => ⟨⟨h.1,prerecorded⟩,h.2⟩)
    (fun _ h => ⟨h.running,h.prerecorded⟩) (fun _ _ h => h) fun _ _ h => h
  commit := fun w f m e _ _ h => by
    have settled := runningCommit w f e h.running
    have kept := booksStore (c := c) (o := .commitInbound (inboundCommit w w.nextIn f e))
      (fun _ same => by cases same) w h.prerecorded
    rcases run : storeApply c (.commitInbound (inboundCommit w w.nextIn f e)) w with ⟨halt | reply,v⟩ <;>
      rw [run] at settled kept
    · exact ⟨settled,kept⟩
    · exact ⟨settled,kept.note _ trivial rfl⟩

def Vacant (requestId : Bytes) (j : Journal) : Prop :=
  ∀ record : CommandRecord, j.commands[requestId]? = some record → record.clOrdId = []

def Novel (taken : Bytes → Prop) (conn : Conn) (input : Input) : Prop :=
  ∀ request, input = .command (.submit request) → conn.live = true → request.clOrdId ≠ [] ∧
    taken request.fingerprint ∧ Vacant request.requestId conn.world.journal

theorem writingStep {conn : Conn} {input : Input} (novel : Novel taken conn input)
    (holds : Holds (Writing taken c) (fun w => Journaled taken c w.toShared) conn) :
    Holds (Writing taken c) (fun w => Journaled taken c w.toShared) (step c conn input) := by
  have conveys := writingConveys (c := c) apart
  refine conveys.steps (fun request same live => conveys.submits (holds.2 live) fun phase wire carried => ?_) holds
  obtain ⟨order,own,vacant⟩ := novel request same live
  rintro w ⟨h,moved⟩
  have out := moved.nextOut
  have harmless : Harmless taken w.journal (.commitOutbound ⟨request.requestId,request.fingerprint,
      request.clOrdId,conn.world.nextOut,wire⟩) := ⟨fun none => absurd none order,fun _ _ _ _ _ => .inl own⟩
  have unknown (record : CommandRecord) (found : w.journal.commands[request.requestId]? = some record) :
      record.fingerprint ≠ request.fingerprint := by
    intro same
    refine h.prerecorded.told _ record found (vacant record ?_) (same ▸ own)
    rw [← moved.outbound.2.1]
    exact found
  have commits := h.running.commits _ out.symm harmless w rfl
  have kept := h.prerecorded.stores (x := c) harmless
  rcases run : storeApply c (.commitOutbound ⟨request.requestId,request.fingerprint,request.clOrdId,
    conn.world.nextOut,wire⟩) w with ⟨halt | reply,v⟩ <;> rw [run] at commits kept
  · exact ⟨commits,kept⟩
  · obtain ⟨command,rfl,⟨-,-,found,same⟩ | ⟨sending,number⟩⟩ := commits
    · exact absurd same (unknown command found)
    · refine ⟨command,rfl,.inr ⟨⟨sending,?_⟩,by omega⟩⟩
      exact h.prerecorded.clears harmless unknown run (by simp) (carried.copied (by simp))

theorem writingSpawn {s : Shared} (journaled : Journaled taken c s) :
    Holds (Writing taken c) (fun w => Journaled taken c w.toShared) (spawn c s) := by
  have entered : Journaled taken c (entering c s).toShared :=
    ⟨(runningEnters (c := c) journaled.settled).settled,journaled.prerecorded.ticks _⟩
  refine (writingConveys apart).spawns entered (Meets.weaken (journaledBoth (runningResets journaled.settled) booksReset
    fun _ _ running prerecorded => ⟨running,prerecorded⟩) (fun w same => ⟨same,?_⟩) (fun _ _ h => h) fun _ _ h => h)
  rw [same]
  exact entered.prerecorded

end

end
end FixCli.Session
