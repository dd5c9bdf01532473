import FixCli.Ledger

/-! The outbound table beside the command table, and the gapless numbering of what
was sent. A mark takes the command it was given over into the outbound record of
the same number, which after a reset may be another command's. -/
namespace FixCli.Store
open Lib

def Agrees (j : Journal) : Prop :=
  ∀ (n : Nat) (record : OutboundRecord), j.outbound[n]? = some record →
    record.command.msgSeqNum = n ∧ j.commands[record.command.requestId]? = some record.command

def IdentityKept (j k : Journal) : Prop :=
  ∀ (n : Nat) (record : OutboundRecord), j.outbound[n]? = some record →
    ∃ after : OutboundRecord, k.outbound[n]? = some after ∧
      after.command.requestId = record.command.requestId ∧ after.wire = record.wire

def MarksOwn (j : Journal) (op : StoreOp) : Prop :=
  ∀ mark, op = .markOutboundWritten mark → ∀ (command : CommandRecord) (record : OutboundRecord),
    j.commands[mark.requestId]? = some command → command.msgSeqNum = mark.msgSeqNum →
      j.outbound[mark.msgSeqNum]? = some record → record.command.requestId = mark.requestId

structure Gapless (j : Journal) : Prop where
  outbound : ∀ n, n ∈ j.outbound ↔ 0 < n ∧ n < j.nextOut
  transmissions : ∀ n, n ∈ j.transmissions ↔ 0 < n ∧ n < j.nextTransmission
  ids : ∀ (n : Nat) (record : TransmissionRecord), j.transmissions[n]? = some record → record.id = n
  positive : 0 < j.nextOut ∧ 0 < j.nextTransmission

section

variable {j k : Journal} {op : StoreOp}

theorem agreesEffect (ledger : Ledger j) (h : Agrees j) (effect : Effect j op k) : Agrees k := by
  cases effect with
  | none | transmission _ | transmissionWritten _ | inbound _ _ _ | resync _ _ => exact h
  | @outbound commit fresh expected =>
    intro n record found
    simp only [withOutbound,Std.ExtTreeMap.getElem?_insert] at found ⊢
    split at found
    · rename_i same
      cases found
      exact ⟨by simpa [journaledCommand] using same,if_pos (by simp [journaledCommand])⟩
    · obtain ⟨number,onRecord⟩ := h n record found
      refine ⟨number,?_⟩
      rw [if_neg fun same => ?_]
      · exact onRecord
      · have own : commit.requestId = record.command.requestId := by simpa using same
        rw [own,onRecord] at fresh
        cases fresh
  | @written mark command outbound found same sent =>
    have key : command.requestId = mark.requestId := ledger.keyed _ _ found
    intro n record here
    simp only [withWritten,Std.ExtTreeMap.getElem?_insert] at here ⊢
    split at here
    · rename_i number
      cases here
      exact ⟨by simpa using number,if_pos (by simp)⟩
    · rename_i other
      obtain ⟨number,onRecord⟩ := h n record here
      refine ⟨number,?_⟩
      rw [if_neg fun own => other ?_]
      · exact onRecord
      · have id : command.requestId = record.command.requestId := by simpa using own
        rw [← id,key,found] at onRecord
        rw [← Option.some.inj onRecord] at number
        simpa using number
  | reset => exact fun _ _ found => by simp [withReset] at found

theorem agreesJournal (ops : List StoreOp) : Agrees (journalOf ops) :=
  (journalInvariant (I := fun j => Ledger j ∧ Agrees j)
    ⟨ledgerEmpty,fun _ _ found => by simp [Journal.empty] at found⟩
    (fun _ _ _ h effect => ⟨h.1.effect effect,agreesEffect h.1 h.2 effect⟩) ops).2

theorem identityEffect (ledger : Ledger j) (other : op ≠ .resetSequences) :
    IdentityKept j (apply j op).2 ↔ MarksOwn j op := by
  constructor
  · rintro kept mark rfl command record found same sent
    obtain ⟨after,here,own,-⟩ := kept _ record sent
    have key : command.requestId = mark.requestId := ledger.keyed _ _ found
    have run := markOutboundWrites found same sent
    rw [show apply j (.markOutboundWritten mark) = _ from run] at here
    simp only [withWritten,Std.ExtTreeMap.getElem?_insert] at here
    rw [if_pos (by simpa using same)] at here
    cases here
    exact own.symm.trans key
  · intro own
    have effect := effectOf j op
    generalize (apply j op).2 = k at effect ⊢
    cases effect with
    | none | transmission _ | transmissionWritten _ | inbound _ _ _ | resync _ _ =>
      exact fun n record found => ⟨record,found,rfl,rfl⟩
    | @outbound commit fresh expected =>
      intro n record found
      have below := (ledger.below n record found).2
      refine ⟨record,?_,rfl,rfl⟩
      simp only [withOutbound,Std.ExtTreeMap.getElem?_insert]
      rw [if_neg (by simp; omega)]
      exact found
    | @written mark command outbound found same sent =>
      intro n record here
      have key : command.requestId = mark.requestId := ledger.keyed _ _ found
      simp only [withWritten,Std.ExtTreeMap.getElem?_insert]
      by_cases number : command.msgSeqNum = n
      · have this : record = outbound := by
          rw [← number,same,sent] at here
          exact (Option.some.inj here).symm
        subst this
        exact ⟨_,if_pos (by simpa using number),key.trans (own mark rfl command record found same sent).symm,rfl⟩
      · exact ⟨record,by rw [if_neg (by simpa using number)]; exact here,rfl,rfl⟩
    | reset => exact absurd rfl other

/-- In every store state that operations lead to the tables agree, and an operation
other than a reset leaves every record's identity alone exactly if it does not mark
the number of one command under the name of another. -/
theorem outboundAgrees (ops : List StoreOp) (op : StoreOp) :
    Agrees (journalOf ops) ∧ (op ≠ .resetSequences →
      (IdentityKept (journalOf ops) (apply (journalOf ops) op).2 ↔ MarksOwn (journalOf ops) op)) :=
  ⟨agreesJournal ops,identityEffect (ledgerJournal ops)⟩

def sharedNumber : List StoreOp :=
  [.commitOutbound ⟨ascii "r1",ascii "f1",ascii "c1",1,ascii "order"⟩,.resetSequences,
    .commitOutbound ⟨ascii "r2",ascii "f2",[],1,ascii "heartbeat"⟩]

theorem markTakesOver : ¬ IdentityKept (journalOf sharedNumber)
    (apply (journalOf sharedNumber) (.markOutboundWritten ⟨ascii "r1",1⟩)).2 := by
  intro kept
  have before : ((journalOf sharedNumber).outbound[1]?).map (fun r => r.command.requestId) = some (ascii "r2") := by
    decide +kernel
  have after : ((apply (journalOf sharedNumber) (.markOutboundWritten ⟨ascii "r1",1⟩)).2.outbound[1]?).map
      (fun r => r.command.requestId) = some (ascii "r1") := by decide +kernel
  obtain ⟨record,found,id⟩ := Option.map_eq_some_iff.mp before
  obtain ⟨later,here,own,-⟩ := kept 1 record found
  rw [here] at after
  have same : later.command.requestId = ascii "r1" := by simpa using after
  rw [own,id] at same
  exact absurd same (by decide)

theorem gaplessEmpty : Gapless .empty :=
  ⟨fun n => by simp [Journal.empty]; omega,fun n => by simp [Journal.empty]; omega,
    fun _ _ found => by simp [Journal.empty] at found,by decide⟩

theorem appendsNumber {α : Type} {table : Table Nat α} {next n : Nat} {record : α} (positive : 0 < next)
    (gapless : ∀ n, n ∈ table ↔ 0 < n ∧ n < next) :
    n ∈ table.insert next record ↔ 0 < n ∧ n < next + 1 := by
  rw [Std.ExtTreeMap.mem_insert,gapless n]
  simp only [Std.compare_eq_iff_eq]
  omega

theorem rewritesNumber {α : Type} {table : Table Nat α} {m n : Nat} {record : α} (present : m ∈ table) :
    n ∈ table.insert m record ↔ n ∈ table := by
  rw [Std.ExtTreeMap.mem_insert]
  constructor
  · rintro (same | inside)
    · rwa [← Std.compare_eq_iff_eq.mp same]
    · exact inside
  · exact .inr

theorem gaplessEffect (h : Gapless j) (effect : Effect j op k) : Gapless k := by
  cases effect with
  | none | inbound _ _ _ | resync _ _ => exact ⟨h.outbound,h.transmissions,h.ids,h.positive⟩
  | outbound _ expected =>
    refine ⟨fun n => ?_,h.transmissions,h.ids,Nat.succ_pos _,h.positive.2⟩
    simp only [withOutbound,expected]
    exact appendsNumber h.positive.1 h.outbound
  | written _ same sent =>
    refine ⟨fun n => ?_,h.transmissions,h.ids,h.positive⟩
    simp only [withWritten]
    rw [rewritesNumber (same ▸ Table.memOfGet sent)]
    exact h.outbound n
  | transmission commit =>
    refine ⟨h.outbound,fun n => appendsNumber h.positive.2 h.transmissions,fun n record found => ?_,
      h.positive.1,Nat.succ_pos _⟩
    simp only [withTransmission,Std.ExtTreeMap.getElem?_insert] at found
    split at found
    · rename_i same
      cases found
      exact Std.compare_eq_iff_eq.mp same
    · exact h.ids n record found
  | @transmissionWritten mark record found =>
    have id : record.id = mark.id := h.ids _ _ found
    refine ⟨h.outbound,fun n => ?_,fun n other here => ?_,h.positive⟩
    · simp only [withTransmissionWritten]
      rw [rewritesNumber (id ▸ Table.memOfGet found)]
      exact h.transmissions n
    · simp only [withTransmissionWritten,Std.ExtTreeMap.getElem?_insert] at here
      split at here
      · rename_i same
        cases here
        exact Std.compare_eq_iff_eq.mp same
      · exact h.ids n other here
  | reset => exact ⟨fun n => by simp [withReset]; omega,fun n => by simp [withReset]; omega,
      fun _ _ found => by simp [withReset] at found,Nat.one_pos,Nat.one_pos⟩

theorem filterMapAll {α β : Type} {f : α → Option β} {l : List α} (all : ∀ a ∈ l, ∃ b, f a = some b) :
    (l.filterMap f).map some = l.map f := by
  induction l with
  | nil => rfl
  | cons a l ih =>
    obtain ⟨b,found⟩ := all a List.mem_cons_self
    simp only [List.filterMap_cons,found,List.map_cons,ih fun x hx => all x (List.mem_cons_of_mem a hx)]

theorem rangeLoads (h : Gapless j) {b e : Nat} (first : 1 ≤ b) (ordered : b ≤ e) (last : e < j.nextOut) :
    ∃ records, (apply j (.loadOutboundRange ⟨b,e⟩)).1 = .ok (.outbound records) ∧
      records.length = e - b + 1 ∧
        records.map some = (List.range' b (e - b + 1)).map fun n => j.outbound[n]? := by
  have count : e + 1 - b = e - b + 1 := by omega
  have all : ∀ n ∈ List.range' b (e - b + 1), ∃ record, j.outbound[n]? = some record := by
    intro n mem
    have inside : b ≤ n ∧ n < b + (e - b + 1) := List.mem_range'_1.mp mem
    exact Table.getOfMem ((h.outbound n).mpr (by omega))
  have loaded := filterMapAll all
  refine ⟨(List.range' b (e - b + 1)).filterMap (fun n => j.outbound[n]?),by rw [← count]; rfl,?_,loaded⟩
  simpa using congrArg List.length loaded

theorem journalGapless (ops : List StoreOp) :
    (∀ n : Nat, n ∈ (journalOf ops).outbound ↔ 1 ≤ n ∧ n < (journalOf ops).nextOut) ∧
    (∀ n : Nat, n ∈ (journalOf ops).transmissions ↔ 1 ≤ n ∧ n < (journalOf ops).nextTransmission) ∧
    (∀ (n : Nat) (record : TransmissionRecord), (journalOf ops).transmissions[n]? = some record → record.id = n) ∧
    ∀ b e, 1 ≤ b → b ≤ e → e < (journalOf ops).nextOut →
      ∃ records, (apply (journalOf ops) (.loadOutboundRange ⟨b,e⟩)).1 = .ok (.outbound records) ∧
        records.length = e - b + 1 ∧
          records.map some = (List.range' b (e - b + 1)).map fun n => (journalOf ops).outbound[n]? := by
  have gapless : Gapless (journalOf ops) :=
    journalInvariant gaplessEmpty (fun _ _ _ h effect => gaplessEffect h effect) ops
  exact ⟨gapless.outbound,gapless.transmissions,gapless.ids,fun b e => rangeLoads gapless⟩

end
end FixCli.Store
