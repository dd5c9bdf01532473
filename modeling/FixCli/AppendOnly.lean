import FixCli.Ledger

/-! Commands and events are never taken back: a command on record only ever moves
from journaled to written, an event on record stays as it is. -/
namespace FixCli.Store
open Lib

structure SameCommand (r s : CommandRecord) : Prop where
  requestId : s.requestId = r.requestId
  fingerprint : s.fingerprint = r.fingerprint
  clOrdId : s.clOrdId = r.clOrdId
  msgSeqNum : s.msgSeqNum = r.msgSeqNum
  phase : s.phase = r.phase ∨ r.phase = .journaled ∧ s.phase = .written

theorem SameCommand.refl (r : CommandRecord) : SameCommand r r := ⟨rfl,rfl,rfl,rfl,.inl rfl⟩

theorem SameCommand.trans {r s t : CommandRecord} (h : SameCommand r s) (g : SameCommand s t) :
    SameCommand r t := by
  refine ⟨g.requestId.trans h.requestId,g.fingerprint.trans h.fingerprint,g.clOrdId.trans h.clOrdId,
    g.msgSeqNum.trans h.msgSeqNum,?_⟩
  rcases g.phase with same | ⟨journaled,written⟩
  · rw [same]; exact h.phase
  · rcases h.phase with before | ⟨_,already⟩
    · exact .inr ⟨before ▸ journaled,written⟩
    · rw [already] at journaled; cases journaled

theorem SameCommand.written (r : CommandRecord) : SameCommand r {r with phase := .written} := by
  refine ⟨rfl,rfl,rfl,rfl,?_⟩
  cases phase : r.phase with
  | journaled => exact .inr ⟨rfl,rfl⟩
  | written => exact .inl rfl

structure Extends (j k : Journal) : Prop where
  commands : ∀ (requestId : Bytes) (record : CommandRecord), j.commands[requestId]? = some record →
    ∃ later : CommandRecord, k.commands[requestId]? = some later ∧ SameCommand record later
  events : ∀ (id : Nat) (event : EventRecord), j.events[id]? = some event → k.events[id]? = some event
  nextEvent : j.nextEvent ≤ k.nextEvent

theorem Extends.refl (j : Journal) : Extends j j :=
  ⟨fun _ record found => ⟨record,found,.refl record⟩,fun _ _ found => found,Nat.le_refl _⟩

theorem Extends.trans {j k l : Journal} (h : Extends j k) (g : Extends k l) : Extends j l := by
  refine ⟨fun requestId record found => ?_,fun id event found => g.events id event (h.events id event found),
    h.nextEvent.trans g.nextEvent⟩
  obtain ⟨middle,between,first⟩ := h.commands requestId record found
  obtain ⟨last,after,second⟩ := g.commands requestId middle between
  exact ⟨last,after,first.trans second⟩

structure Recorded (j : Journal) : Prop where
  ledger : Ledger j
  events : ∀ (id : Nat) (event : EventRecord), j.events[id]? = some event → id < j.nextEvent

section

variable {j : Journal} {op : StoreOp} {k : Journal}

theorem recordedEmpty : Recorded .empty := ⟨ledgerEmpty,fun _ _ found => by simp [Journal.empty] at found⟩

theorem Recorded.event (h : Recorded j) {event : EventRecord} (next : event.id = j.nextEvent) :
    (∀ (id : Nat) (before : EventRecord), j.events[id]? = some before → (j.events.insert event.id event)[id]? = some before) ∧
      ∀ (id : Nat) (after : EventRecord), (j.events.insert event.id event)[id]? = some after → id < j.nextEvent + 1 := by
  constructor
  · intro id before found
    have below := h.events id before found
    rw [Std.ExtTreeMap.getElem?_insert,if_neg (by simp; omega)]
    exact found
  · intro id after found
    rw [Std.ExtTreeMap.getElem?_insert] at found
    split at found
    · rename_i same
      have number : event.id = id := by simpa using same
      omega
    · exact (h.events id after found).trans (Nat.lt_succ_self _)

theorem Recorded.extends (h : Recorded j) (effect : Effect j op k) : Extends j k := by
  cases effect with
  | none => exact .refl j
  | @outbound commit fresh _ =>
    refine ⟨fun requestId record found => ⟨record,?_,.refl record⟩,fun _ _ found => found,Nat.le_refl _⟩
    have other : ¬ commit.requestId = requestId := fun same => by
      rw [same,found] at fresh
      cases fresh
    simp only [withOutbound,Std.ExtTreeMap.getElem?_insert]
    rw [if_neg (by simpa using other)]
    exact found
  | @written mark command outbound found _ _ =>
    refine ⟨fun requestId record here => ?_,fun _ _ found => found,Nat.le_refl _⟩
    have key : command.requestId = mark.requestId := h.ledger.keyed _ _ found
    simp only [withWritten,Std.ExtTreeMap.getElem?_insert]
    by_cases own : command.requestId = requestId
    · have same : record = command := by
        rw [← own,key,found] at here
        exact (Option.some.inj here).symm
      exact ⟨_,if_pos (by simpa using own),same ▸ .written command⟩
    · exact ⟨record,by rw [if_neg (by simpa using own)]; exact here,.refl record⟩
  | transmission _ | transmissionWritten _ =>
    exact ⟨fun _ record found => ⟨record,found,.refl record⟩,fun _ _ found => found,Nat.le_refl _⟩
  | inbound _ event _ =>
    exact ⟨fun _ record found => ⟨record,found,.refl record⟩,(h.event event).1,Nat.le_succ _⟩
  | resync _ event =>
    exact ⟨fun _ record found => ⟨record,found,.refl record⟩,(h.event event).1,Nat.le_succ _⟩
  | reset => exact ⟨fun _ record found => ⟨record,found,.refl record⟩,fun _ _ found => found,Nat.le_succ _⟩

theorem Recorded.effect (h : Recorded j) (effect : Effect j op k) : Recorded k := by
  refine ⟨h.ledger.effect effect,?_⟩
  cases effect with
  | none => exact h.events
  | outbound _ _ | written _ _ _ | transmission _ | transmissionWritten _ => exact h.events
  | inbound _ event _ => exact (h.event event).2
  | resync _ event => exact (h.event event).2
  | reset => exact fun id event found => (h.events id event found).trans (Nat.lt_succ_self _)

theorem recordedJournal (ops : List StoreOp) : Recorded (journalOf ops) :=
  journalInvariant recordedEmpty (fun _ _ _ h effect => h.effect effect) ops

end

theorem ledgersAppendOnly (ops more : List StoreOp) :
    Extends (journalOf ops) (journalOf (ops ++ more)) ∧
      ∀ (id : Nat) (event : EventRecord), (journalOf ops).events[id]? = some event → id < (journalOf ops).nextEvent := by
  refine ⟨?_,(recordedJournal ops).events⟩
  have run : ∀ (more : List StoreOp) (j : Journal), Recorded j →
      Extends j (more.foldl (fun j op => (apply j op).2) j) := by
    intro more
    induction more with
    | nil => exact fun j _ => .refl j
    | cons op rest ih =>
      intro j recorded
      have effect := effectOf j op
      exact (recorded.extends effect).trans (ih _ (recorded.effect effect))
  rw [journalAppend]
  exact run more _ (recordedJournal ops)

end FixCli.Store
