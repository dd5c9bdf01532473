import FixCli.StoreEffects

/-! The inbound table against the numbering it belongs to. A realignment moves the
expectation without clearing the table, so it has to find the table empty for
every record to lie below the expectation and to come from behind it. -/
namespace FixCli.Store
open Lib

abbrev Renumbered := Journal × Nat

def performed (s : Renumbered) (op : StoreOp) : Renumbered :=
  ((apply s.1 op).2,match op, (apply s.1 op).1 with
    | .resyncInbound commit, .ok _ => commit.event.id
    | _, _ => s.2)

def renumbered (ops : List StoreOp) : Renumbered := ops.foldl performed (.empty,0)

def PresentNumbering (s : Renumbered) : Prop :=
  ∀ (n : Nat) (record : InboundRecord), s.1.inbound[n]? = some record → n < s.1.nextIn ∧ s.2 < record.eventId

def RealignsEmpty (s : Renumbered) (op : StoreOp) : Prop :=
  ∀ commit, op = .resyncInbound commit → commit.nextInAfter ≠ 0 → commit.event.id = s.1.nextEvent →
    s.1.inbound = ∅

structure Dated (s : Renumbered) : Prop where
  records : ∀ (n : Nat) (record : InboundRecord), s.1.inbound[n]? = some record → record.eventId < s.1.nextEvent
  realigned : s.2 < s.1.nextEvent

section

variable {s : Renumbered} {op : StoreOp}

inductive Performs (s : Renumbered) (op : StoreOp) : Renumbered → Prop
  | realigns {commit : ResyncInboundCommit} (same : op = .resyncInbound commit)
      (positive : commit.nextInAfter ≠ 0) (event : commit.event.id = s.1.nextEvent) :
      Performs s op (withResync s.1 commit,commit.event.id)
  | commits {commit : InboundCommit} (expected : commit.msgSeqNum = s.1.nextIn)
      (event : commit.event.id = s.1.nextEvent) (later : s.1.nextIn < commit.nextInAfter) :
      Performs s op (withInbound s.1 commit,s.2)
  | resets : Performs s op (withReset s.1,s.2)
  | other {k : Journal} (inbound : k.inbound = s.1.inbound) (nextIn : k.nextIn = s.1.nextIn)
      (nextEvent : k.nextEvent = s.1.nextEvent) : Performs s op (k,s.2)

theorem Effect.performs {k : Journal} (effect : Effect s.1 op k)
    (other : ∀ commit, op ≠ .resyncInbound commit) : Performs s op (k,s.2) := by
  cases effect with
  | inbound expected event later => exact .commits expected event later
  | resync _ _ => exact absurd rfl (other _)
  | reset => exact .resets
  | none | outbound _ _ | written _ _ _ | transmission _ | transmissionWritten _ => exact .other rfl rfl rfl

theorem performsOf (s : Renumbered) (op : StoreOp) : Performs s op (performed s op) := by
  have effect := effectOf s.1 op
  cases op with
  | resyncInbound commit =>
    by_cases zero : commit.nextInAfter = 0
    · rw [show performed s (.resyncInbound commit) = (s.1,s.2) by simp [performed,apply,resyncInbound,zero]]
      exact .other rfl rfl rfl
    · by_cases event : commit.event.id = s.1.nextEvent
      · have stores := resyncInboundStores commit zero event
        rw [show performed s (.resyncInbound commit) = (withResync s.1 commit,commit.event.id) by
          simp only [performed,apply,stores]]
        exact .realigns rfl zero event
      · rw [show performed s (.resyncInbound commit) = (s.1,s.2) by
          simp [performed,apply,resyncInbound,zero,event]]
        exact .other rfl rfl rfl
  | commitInbound _ | commitOutbound _ | markOutboundWritten _ | commitTransmission _
  | markTransmissionWritten _ | resetSequences | loadCommand _ | loadOutboundRange _ | loadInbound _
  | loadTransmission _ => exact effect.performs (fun _ => by simp)

theorem datedPerforms {after : Renumbered} (h : Dated s) (performs : Performs s op after) : Dated after := by
  cases performs with
  | realigns _ _ event =>
    exact ⟨fun n record found => Nat.lt_succ_of_lt (h.records n record found),by simp [withResync,event]⟩
  | @commits commit expected event later =>
    refine ⟨fun n record found => ?_,Nat.lt_succ_of_lt h.realigned⟩
    simp only [withInbound,Std.ExtTreeMap.getElem?_insert] at found ⊢
    split at found
    · cases found
      simp [inboundRecord,event]
    · exact Nat.lt_succ_of_lt (h.records n record found)
  | resets => exact ⟨fun _ _ found => by simp [withReset] at found,Nat.lt_succ_of_lt h.realigned⟩
  | other inbound _ nextEvent =>
    exact ⟨fun n record found => nextEvent ▸ h.records n record (inbound ▸ found),nextEvent ▸ h.realigned⟩

theorem realignsEmpty (dated : Dated s) (present : PresentNumbering (performed s op)) : RealignsEmpty s op := by
  rintro commit rfl positive event
  have moved : performed s (.resyncInbound commit) = (withResync s.1 commit,commit.event.id) := by
    simp only [performed,apply,resyncInboundStores commit positive event]
  rw [moved] at present
  apply Std.ExtTreeMap.ext_getElem?
  intro n
  rcases found : s.1.inbound[n]? with _ | record
  · simp
  · have late : commit.event.id < record.eventId := (present n record found).2
    have early := dated.records n record found
    omega

theorem presentPerforms (dated : Dated s) (h : PresentNumbering s) (empty : RealignsEmpty s op) :
    PresentNumbering (performed s op) := by
  have performs := performsOf s op
  generalize performed s op = after at performs ⊢
  cases performs with
  | realigns same positive event =>
    intro n record found
    simp [withResync,empty _ same positive event] at found
  | @commits commit expected event later =>
    intro n record found
    simp only [withInbound,Std.ExtTreeMap.getElem?_insert] at found ⊢
    split at found
    · rename_i number
      cases found
      have : commit.msgSeqNum = n := by simpa using number
      exact ⟨by omega,by simpa [inboundRecord,event] using dated.realigned⟩
    · exact ⟨Nat.lt_trans (h n record found).1 later,(h n record found).2⟩
  | resets => exact fun _ _ found => by simp [withReset] at found
  | other inbound nextIn _ => exact fun n record found => nextIn ▸ h n record (inbound ▸ found)

end

theorem datedEmpty : Dated (.empty,0) := ⟨fun _ _ found => by simp [Journal.empty] at found,by decide⟩

theorem presentEmpty : PresentNumbering (.empty,0) := fun _ _ found => by simp [Journal.empty] at found

/-- Along every sequence of operations on an empty store, the inbound table stays in
the present numbering exactly if no realignment is performed over inbound records. -/
theorem inboundPresent (ops : List StoreOp) :
    (∀ before, before <+: ops → PresentNumbering (renumbered before)) ↔
      Along performed RealignsEmpty (.empty,0) ops :=
  alongIff (fun _ _ dated => datedPerforms dated (performsOf _ _))
    (fun _ _ dated present => ⟨realignsEmpty dated,presentPerforms dated present⟩) datedEmpty presentEmpty ops

def realignedOver : List StoreOp :=
  [.commitInbound ⟨1,2,ascii "A",[],⟨1,[],∅⟩⟩,.commitInbound ⟨2,3,ascii "0",[],⟨2,[],∅⟩⟩,
    .commitInbound ⟨3,4,ascii "0",[],⟨3,[],∅⟩⟩,.resyncInbound ⟨2,⟨4,ascii "sequence_resync",∅⟩⟩]

theorem staleRecordRemains :
    ¬ ∀ n, n ∈ (renumbered realignedOver).1.inbound → n < (renumbered realignedOver).1.nextIn := by
  intro below
  have present : 3 ∈ (renumbered realignedOver).1.inbound := by decide +kernel
  have expectation : (renumbered realignedOver).1.nextIn = 2 := by decide +kernel
  have := below 3 present
  omega

end FixCli.Store
