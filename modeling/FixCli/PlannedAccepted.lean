import FixCli.SubmitChecks

/-! What the planner validates and what the session accepts. The two lists of managed tags
differ in PossDupFlag(43) and OrigSendingTime(122), which only an extra tag can carry. -/
namespace FixCli.Session
open Lib Codec Store Control

def extraTags : Command → List (UInt32 × Bytes)
  | .newOrderSingle order => order.extraTags
  | .sessionStatus | .sessionLogout | .cancelOrder _ | .replaceOrder _ => []

def orderTags : List UInt32 := [1, 21, 38, 40, 41, 44, 54, 55, 59, 200, 207, 1151]

structure OrderShaped (request : ApplicationRequest) (extras : List (UInt32 × Bytes)) : Prop where
  msgType : request.msgType ∈ [ascii "D", ascii "F", ascii "G"]
  original : request.msgType = ascii "F" ∨ request.msgType = ascii "G" →
    (request.fields.head?).map Field.tag = some 41
  side : request.msgType = ascii "D" ∨ request.msgType = ascii "G" → ∃ f ∈ request.fields, f.tag = 54
  tags : ∀ f ∈ request.fields, f.tag ∈ orderTags ∨ (f.tag,f.value) ∈ extras
  extra : ∀ entry ∈ extras, (⟨entry.1,entry.2⟩ : Field) ∈ request.fields
  unmanaged : ∀ entry ∈ extras, entry.1 ∉ managedOrderTags ∧ entry.1 ≠ 0

section

variable {δ : Type} {k : Crates δ} {planner : CommandPlanner δ} {control : ControlRequest}
  {request : ApplicationRequest}

theorem extraTagsUnmanaged {tags : List (UInt32 × Bytes)} (ok : validateExtraTags tags = .ok ()) :
    ∀ entry ∈ tags, entry.1 ∉ managedOrderTags ∧ entry.1 ≠ 0 := by
  induction tags with
  | nil => exact fun _ mem => nomatch mem
  | cons entry rest ih =>
    obtain ⟨_,here,later⟩ := boundOk ok
    intro other mem
    rcases List.mem_cons.mp mem with rfl | inside
    · unfold validateExtraTag at here
      split at here
      · cases here
      · rename_i free
        unfold validateTagValue at here
        split at here
        · cases here
        · rename_i safe
          exact ⟨free,fun zero => safe (.inl zero)⟩
    · exact ih later other inside

theorem optionalTags {tag : UInt32} {value : Option Bytes} (known : tag ∈ orderTags) :
    ∀ f ∈ optionalField tag value, f.tag ∈ orderTags := by
  cases value <;> simp [optionalField,known]

theorem tifTags (price : Option Bytes) (timeInForce : TimeInForce) :
    ∀ f ∈ tifThenPrice price timeInForce, f.tag ∈ orderTags := by
  cases price <;> simp [tifThenPrice,orderTags]

theorem newOrderShaped (control : ControlRequest) (order : NewOrderSingle) (normalized : NormalizedOrder)
    (checked : validateExtraTags order.extraTags = .ok ()) :
    OrderShaped (applicationRequest k planner control "D" (newOrderFields order normalized)) order.extraTags where
  msgType := List.mem_cons_self
  original := fun bad => absurd bad (by decide : ¬ (ascii "D" = ascii "F" ∨ ascii "D" = ascii "G"))
  side := fun _ => ⟨⟨54,sideCode order.side⟩,by simp [applicationRequest,newOrderFields],rfl⟩
  tags f mem := by
    simp only [applicationRequest,newOrderFields,List.mem_append,List.mem_map] at mem
    rcases mem with ((fixed | maturity) | tif) | ⟨entry,inside,rfl⟩
    · left
      simp only [List.mem_cons,List.not_mem_nil,or_false] at fixed
      rcases fixed with rfl | rfl | rfl | rfl | rfl | rfl | rfl | rfl <;> simp [orderTags]
    · exact .inl (optionalTags (by decide) f maturity)
    · exact .inl (tifTags _ _ f tif)
    · exact .inr inside
  extra entry mem := by
    simp only [applicationRequest,newOrderFields,List.mem_append,List.mem_map]
    exact .inr ⟨entry,mem,rfl⟩
  unmanaged := extraTagsUnmanaged checked

theorem cancelShaped (control : ControlRequest) (cancel : CancelOrder) (original : Bytes) :
    OrderShaped (applicationRequest k planner control "F" (cancelFields cancel original)) [] where
  msgType := List.mem_cons_of_mem _ List.mem_cons_self
  original := fun _ => rfl
  side := fun bad => absurd bad (by decide : ¬ (ascii "F" = ascii "D" ∨ ascii "F" = ascii "G"))
  tags f mem := by
    left
    simp only [applicationRequest,cancelFields,List.mem_cons,List.not_mem_nil,or_false] at mem
    rcases mem with rfl | rfl | rfl <;> simp [orderTags]
  extra := fun _ mem => nomatch mem
  unmanaged := fun _ mem => nomatch mem

theorem replaceShaped (control : ControlRequest) (replace : ReplaceOrder) (normalized : NormalizedOrder) :
    OrderShaped (applicationRequest k planner control "G" (replaceFields k planner replace normalized)) [] where
  msgType := List.mem_cons_of_mem _ (List.mem_cons_of_mem _ List.mem_cons_self)
  original := fun _ => rfl
  side := fun _ => ⟨⟨54,sideCode replace.side⟩,by simp [applicationRequest,replaceFields],rfl⟩
  tags f mem := by
    left
    simp only [applicationRequest,replaceFields,List.mem_append,List.mem_cons,List.not_mem_nil,or_false] at mem
    rcases mem with ((((rfl | account) | exchange) | group) | fixed) | tif
    · simp [orderTags]
    · exact optionalTags (by decide) f account
    · exact optionalTags (by decide) f exchange
    · exact optionalTags (by decide) f group
    · rcases fixed with rfl | rfl | rfl | rfl <;> simp [orderTags]
    · exact tifTags _ _ f tif
  extra := fun _ mem => nomatch mem
  unmanaged := fun _ mem => nomatch mem

theorem plannedOrder (planned : plan k planner control = .ok (.application request)) :
    OrderShaped request (extraTags control.command) := by
  obtain ⟨_,-,ok⟩ := boundOk planned
  unfold planCommand at ok
  split at ok
  · cases ok
  · split at ok <;> cases ok
  · rename_i order command
    obtain ⟨normalized,-,ok⟩ := boundOk ok
    obtain ⟨_,-,ok⟩ := boundOk ok
    obtain ⟨_,checked,ok⟩ := boundOk ok
    cases ok
    rw [command]
    exact newOrderShaped control order normalized checked
  · rename_i cancel command
    obtain ⟨original,-,ok⟩ := boundOk ok
    cases ok
    rw [command]
    exact cancelShaped control cancel original
  · rename_i replace command
    obtain ⟨normalized,-,ok⟩ := boundOk ok
    cases ok
    rw [command]
    exact replaceShaped control replace normalized

theorem OrderShaped.acceptable {extras : List (UInt32 × Bytes)} (h : OrderShaped request extras) :
    Acceptable request ↔ ∀ entry ∈ extras, entry.1 ∉ [43, 122] := by
  have typed : ¬ (request.msgType = [] ∨ EQ ∈ request.msgType ∨ SOH ∈ request.msgType) := by
    have known := h.msgType
    simp only [List.mem_cons,List.not_mem_nil,or_false] at known
    rcases known with same | same | same <;> rw [same] <;> decide
  have valid : validateSubmit request = .ok () ↔ ∀ f ∈ request.fields, f.tag ∉ managedSubmitTags := by
    refine ⟨fun ok => (validSubmit ok).2,fun free => ?_⟩
    unfold validateSubmit
    rw [if_neg typed,if_neg]
    simpa using free
  constructor
  · intro ok entry mem managed
    have both : ∀ tag ∈ ([43, 122] : List UInt32), tag ∈ managedSubmitTags := by simp [managedSubmitTags]
    exact valid.mp ok.valid _ (h.extra entry mem) (both _ managed)
  · intro free
    refine ⟨valid.mpr fun f mem => ?_,h.original,h.side⟩
    rcases h.tags f mem with own | extra
    · exact (by simp [orderTags,managedSubmitTags] : ∀ tag ∈ orderTags, tag ∉ managedSubmitTags) _ own
    · have unmanaged := (h.unmanaged _ extra).1
      have other := free _ extra
      simp only [managedOrderTags,managedSubmitTags,List.mem_cons,List.not_mem_nil,or_false,not_or] at unmanaged other ⊢
      tauto

/-- A planned order is never refused for its content exactly if no extra tag is a
PossDupFlag or an OrigSendingTime. -/
theorem plannedAccepted {c : Ctx} {w : World} (planned : plan k planner control = .ok (.application request))
    (established : w.phase = .established) : ¬ Declined (submitApplication c request w).1 ↔
      ∀ entry ∈ extraTags control.command, entry.1 ∉ [43, 122] := by
  rw [submitRefuses established,Classical.not_not]
  exact (plannedOrder planned).acceptable

end

def flaggedOrder : ControlRequest :=
  ⟨1,ascii "order-1",ascii "venue",.certification,.newOrderSingle
    ⟨ascii "IC2609",ascii "ACC",ascii "X",ascii "G",.buy,ascii "100",.market,none,.day,none,[(43,ascii "Y")]⟩⟩

theorem flaggedRefused : plan venueCrates venuePlanner flaggedOrder = .ok (.application (applicationOf flaggedOrder)) ∧
    atVenue.phase = .established ∧
    (submitApplication venueCtx (applicationOf flaggedOrder) atVenue).1 =
      .error (.fail (.invalidApplication (ascii "request contains a daemon-managed tag"))) :=
  ⟨by decide +kernel,by decide +kernel,by decide +kernel⟩

theorem plannedAcceptedAtVenue : extraTags (venueOrder "order-1").command = [] ∧
    (¬ Declined (submitApplication venueCtx (applicationOf (venueOrder "order-1")) atVenue).1 ↔
      ∀ entry ∈ extraTags (venueOrder "order-1").command, entry.1 ∉ [43, 122]) := by
  have planned : plan venueCrates venuePlanner (venueOrder "order-1") =
      .ok (.application (applicationOf (venueOrder "order-1"))) := by decide +kernel
  exact ⟨rfl,plannedAccepted planned (by decide +kernel)⟩

end FixCli.Session
