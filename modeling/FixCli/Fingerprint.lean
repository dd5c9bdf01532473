import FixCli.Lib.Delimited
import FixCli.PlannedAccepted

/-! What the fingerprint of a command is the digest of: the input says which mode, which
message type and which fields were planned. -/
namespace FixCli.Control
open Lib Codec Session

section

variable {δ : Type} {k : Crates δ} {planner : CommandPlanner δ}

theorem beLength (width n : Nat) : (beBytes width n).length = width := by simp [beBytes]

theorem beCons (width n : Nat) : beBytes (width + 1) n = UInt8.ofNat (n / 256 ^ width) :: beBytes width n := by
  simp [beBytes,List.range_succ]

theorem beLow {width n m : Nat} (same : beBytes width n = beBytes width m) : n % 256 ^ width = m % 256 ^ width := by
  induction width with
  | zero => rw [pow_zero,Nat.mod_one,Nat.mod_one]
  | succ width ih =>
    rw [beCons,beCons] at same
    obtain ⟨high,low⟩ := List.cons.inj same
    have digit : n / 256 ^ width % 256 = m / 256 ^ width % 256 := congrArg UInt8.toNat high
    rw [Nat.mod_pow_succ,Nat.mod_pow_succ,ih low,digit]

theorem beInjective {width n m : Nat} (fitsN : n < 256 ^ width) (fitsM : m < 256 ^ width)
    (same : beBytes width n = beBytes width m) : n = m := by
  rw [← Nat.mod_eq_of_lt fitsN,← Nat.mod_eq_of_lt fitsM]
  exact beLow same

def fieldInput (field : Field) : Bytes := beBytes 4 field.tag.toNat ++ beBytes 8 field.value.length ++ field.value

def sized (field : Field) : Prop := field.value.length < usizeLimit

theorem fieldsDelimit : Delimits sized fieldInput := by
  intro f g sizedF sizedG x y same
  simp only [fieldInput,List.append_assoc] at same
  obtain ⟨tags,same⟩ := List.append_inj same ((beLength 4 _).trans (beLength 4 _).symm)
  obtain ⟨lengths,same⟩ := List.append_inj same ((beLength 8 _).trans (beLength 8 _).symm)
  have length : f.value.length = g.value.length := beInjective sizedF sizedG lengths
  obtain ⟨values,rest⟩ := List.append_inj same length
  have tag : f.tag = g.tag := UInt32.toNat_inj.mp (beInjective f.tag.toNat_lt g.tag.toNat_lt tags)
  exact ⟨by cases f; cases g; simp_all,rest⟩

theorem fieldInputSome (f : Field) : fieldInput f ≠ [] := by
  intro none
  have size := congrArg List.length none
  simp only [fieldInput,List.length_append,beLength,List.length_nil] at size
  omega

theorem modePlain (mode : ExecutionMode) : (0 : UInt8) ∉ mode.text := by cases mode <;> decide

theorem modeInjective {a b : ExecutionMode} (same : a.text = b.text) : a = b := by
  cases a <;> cases b <;> first | rfl | (revert same; decide)

theorem plannedProfile {control : ControlRequest} {request : ApplicationRequest}
    (planned : plan k planner control = .ok (.application request)) : control.profile = planner.profile := by
  obtain ⟨_,envelope,-⟩ := boundOk planned
  unfold validateEnvelope at envelope
  split at envelope
  · cases envelope
  split at envelope
  · cases envelope
  · rename_i same
    exact Classical.not_not.mp same

theorem plannedDigest {control : ControlRequest} {request : ApplicationRequest}
    (planned : plan k planner control = .ok (.application request)) :
    request.fingerprint = hex (k.sha256 (fingerprintInput control request.msgType request.fields)) := by
  obtain ⟨-,msgType,fields,rfl⟩ := planShape planned
  rfl

theorem plannedTypeLength {control : ControlRequest} {request : ApplicationRequest}
    (planned : plan k planner control = .ok (.application request)) : request.msgType.length = 1 := by
  have known := (plannedOrder planned).msgType
  simp only [List.mem_cons,List.not_mem_nil,or_false] at known
  rcases known with same | same | same <;> rw [same] <;> rfl

/-- Two commands of one planner are digested from the same bytes exactly if they were
planned the same. -/
theorem fingerprintIdentifies {a b : ControlRequest} {p q : ApplicationRequest}
    (plannedA : plan k planner a = .ok (.application p)) (plannedB : plan k planner b = .ok (.application q))
    (sizes : ∀ f ∈ p.fields ++ q.fields, f.value.length < usizeLimit) :
    p.fingerprint = hex (k.sha256 (fingerprintInput a p.msgType p.fields)) ∧
    q.fingerprint = hex (k.sha256 (fingerprintInput b q.msgType q.fields)) ∧
    (fingerprintInput a p.msgType p.fields = fingerprintInput b q.msgType q.fields ↔
      a.executionMode = b.executionMode ∧ p.msgType = q.msgType ∧ p.fields = q.fields) := by
  refine ⟨plannedDigest plannedA,plannedDigest plannedB,?_,?_⟩
  · intro same
    simp only [fingerprintInput,plannedProfile plannedA,plannedProfile plannedB,List.append_assoc,
      List.append_cancel_left_eq,List.cons_append,List.nil_append,List.cons.injEq,true_and] at same
    obtain ⟨modes,same⟩ := splitFirst (modePlain _) (modePlain _) same
    obtain ⟨types,same⟩ := List.append_inj same ((plannedTypeLength plannedA).trans (plannedTypeLength plannedB).symm)
    refine ⟨modeInjective modes,types,?_⟩
    exact fieldsDelimit.flatMap (fun f _ => fieldInputSome f) (fun f mem => sizes f (List.mem_append_left _ mem))
      (fun f mem => sizes f (List.mem_append_right _ mem)) same
  · rintro ⟨modes,types,fields⟩
    simp only [fingerprintInput,plannedProfile plannedA,plannedProfile plannedB,modes,types,fields]

end

theorem fingerprintIdentifiesAtVenue :
    plan venueCrates venuePlanner (venueOrder "order-1") = .ok (.application (applicationOf (venueOrder "order-1"))) ∧
    plan venueCrates venuePlanner flaggedOrder = .ok (.application (applicationOf flaggedOrder)) ∧
    fingerprintInput (venueOrder "order-1") (applicationOf (venueOrder "order-1")).msgType
        (applicationOf (venueOrder "order-1")).fields ≠
      fingerprintInput flaggedOrder (applicationOf flaggedOrder).msgType (applicationOf flaggedOrder).fields := by
  have order : plan venueCrates venuePlanner (venueOrder "order-1") =
      .ok (.application (applicationOf (venueOrder "order-1"))) := by decide +kernel
  have flagged : plan venueCrates venuePlanner flaggedOrder = .ok (.application (applicationOf flaggedOrder)) := by
    decide +kernel
  refine ⟨order,flagged,fun same => ?_⟩
  have fields := ((fingerprintIdentifies order flagged (by decide +kernel)).2.2.mp same).2.2
  exact absurd (congrArg List.length fields) (by decide +kernel)

end FixCli.Control
