import FixCli.Lib.Rational
import FixCli.PlannedAccepted
import Mathlib.Algebra.Order.Field.Rat

/-! The limits of the policy on the fields of a planned order, with the decimals of the
planner read as exact rational numbers. -/
namespace FixCli.Session
open Lib Codec Store Control

structure ExactDecimals {δ : Type} (k : Crates δ) (value : δ → ℚ) : Prop where
  zero : value k.zero = 0
  le : ∀ a b, k.le a b = true ↔ value a ≤ value b
  product : ∀ a b c, k.checkedMul a b = some c → value c = value a * value b
  normalized : ∀ d, rational (k.normalized d) = some (value d)

structure WithinLimits (maxQuantity maxNotional : ℚ) (fields : List Field) : Prop where
  amounts : ∃ text q, valuesOf fields 38 = [text] ∧ rational text = some q ∧ 0 < q ∧ q ≤ maxQuantity ∧
    ∀ price ∈ valuesOf fields 44, ∃ p, rational price = some p ∧ 0 < p ∧ q * p ≤ maxNotional
  limit : ascii "2" ∈ valuesOf fields 40 → valuesOf fields 44 ≠ []

def allowing {δ : Type} (planner : CommandPlanner δ) (allow : Bool) : CommandPlanner δ :=
  {planner with policy := {planner.policy with allowMarketOrders := allow}}

structure Validated {δ : Type} (k : Crates δ) (planner : CommandPlanner δ) (orderType : Control.OrderType) (quantity : δ)
    (price : Option δ) : Prop where
  positive : k.le quantity k.zero = false
  allowed : k.le quantity planner.policy.maxQuantity = true
  priced : ∀ p, price = some p → k.le p k.zero = false
  notional : ∀ p, price = some p → ∃ n, k.checkedMul quantity p = some n ∧ k.le n planner.policy.maxNotional = true
  limit : orderType = .limit → price ≠ none

section

variable {δ : Type} {k : Crates δ} {planner : CommandPlanner δ} {control : ControlRequest}
  {request : ApplicationRequest}

theorem positiveAccepted {text : Bytes} {field : String} {d : δ} (ok : positiveDecimal k text field = .ok d) :
    k.le d k.zero = false := by
  unfold positiveDecimal at ok
  split at ok
  · cases ok
  · split at ok
    · cases ok
    · rename_i positive
      cases ok
      exact Bool.not_eq_true _ ▸ positive

theorem notionalAccepted {quantity : δ} {price : Option δ} (ok : checkNotional k planner quantity price = .ok ()) :
    ∀ p, price = some p → ∃ n, k.checkedMul quantity p = some n ∧ k.le n planner.policy.maxNotional = true := by
  rintro p rfl
  simp only [checkNotional] at ok
  split at ok
  · cases ok
  · rename_i n product
    split at ok
    · cases ok
    · rename_i inside
      exact ⟨n,product,by simpa using inside⟩

theorem validatedAmounts {quantity : Bytes} {orderType : Control.OrderType} {price : Option Bytes} {order : NormalizedOrder}
    (ok : validateOrder k planner quantity orderType price = .ok order) :
    ∃ amount limit, order = ⟨k.normalized amount,limit.map k.normalized⟩ ∧ Validated k planner orderType amount limit := by
  unfold validateOrder at ok
  obtain ⟨amount,given,ok⟩ := boundOk ok
  split at ok
  · cases ok
  rename_i allowed
  obtain ⟨limit,priced,ok⟩ := boundOk ok
  split at ok
  · cases ok
  rename_i complete
  obtain ⟨_,notional,ok⟩ := boundOk ok
  cases ok
  refine ⟨amount,limit,rfl,positiveAccepted given,by simpa using allowed,fun p same => ?_,notionalAccepted notional,?_⟩
  · subst same
    unfold positivePrice at priced
    split at priced
    · cases priced
    · cases checked : positiveDecimal k _ "price" with
      | error e => rw [checked] at priced; cases priced
      | ok d =>
        rw [checked] at priced
        cases priced
        exact positiveAccepted checked
  · rintro rfl rfl
    exact complete ⟨rfl,rfl⟩

theorem valuesOptional {tag other : UInt32} (value : Option Bytes) (differs : tag ≠ other) :
    valuesOf (optionalField tag value) other = [] := by
  cases value <;> simp [optionalField,valuesOf,differs]

theorem valuesExtra {extras : List (UInt32 × Bytes)} (unmanaged : ∀ entry ∈ extras, entry.1 ∉ managedOrderTags)
    {tag : UInt32} (managed : tag ∈ managedOrderTags) :
    valuesOf (extras.map fun (tag,value) => (⟨tag,value⟩ : Field)) tag = [] := by
  rw [valuesOf,List.map_eq_nil_iff,List.filter_eq_nil_iff]
  intro f mem same
  obtain ⟨entry,inside,rfl⟩ := List.mem_map.mp mem
  have own : entry.1 = tag := beq_iff_eq.mp same
  exact unmanaged entry inside (by rwa [own])

theorem valuesTif (price : Option Bytes) (timeInForce : TimeInForce) :
    valuesOf (tifThenPrice price timeInForce) 38 = [] ∧ valuesOf (tifThenPrice price timeInForce) 40 = [] ∧
      valuesOf (tifThenPrice price timeInForce) 44 = price.toList := by
  cases price <;> simp [tifThenPrice,valuesOf]

structure SaysAmounts (order : NormalizedOrder) (orderType : Control.OrderType) (fields : List Field) : Prop where
  quantity : valuesOf fields 38 = [order.quantity]
  orderType : valuesOf fields 40 = [orderTypeCode orderType]
  price : valuesOf fields 44 = order.price.toList

theorem newOrderSays (order : NewOrderSingle) (normalized : NormalizedOrder)
    (checked : validateExtraTags order.extraTags = .ok ()) :
    SaysAmounts normalized order.orderType (newOrderFields order normalized) := by
  have unmanaged := fun entry mem => (extraTagsUnmanaged checked entry mem).1
  obtain ⟨tif38,tif40,tif44⟩ := valuesTif normalized.price order.timeInForce
  constructor <;> simp only [newOrderFields,valuesAppend]
  · rw [valuesExtra unmanaged (by decide),tif38,valuesOptional _ (by decide)]
    rfl
  · rw [valuesExtra unmanaged (by decide),tif40,valuesOptional _ (by decide)]
    rfl
  · rw [valuesExtra unmanaged (by decide),tif44,valuesOptional _ (by decide)]
    simp [valuesOf]

theorem replaceSays (replace : ReplaceOrder) (normalized : NormalizedOrder) :
    SaysAmounts normalized replace.orderType (replaceFields k planner replace normalized) := by
  obtain ⟨tif38,tif40,tif44⟩ := valuesTif normalized.price replace.timeInForce
  constructor <;> simp only [replaceFields,valuesAppend]
  · rw [tif38,valuesOptional _ (by decide),valuesOptional _ (by decide),valuesOptional _ (by decide)]
    rfl
  · rw [tif40,valuesOptional _ (by decide),valuesOptional _ (by decide),valuesOptional _ (by decide)]
    rfl
  · rw [tif44,valuesOptional _ (by decide),valuesOptional _ (by decide),valuesOptional _ (by decide)]
    simp [valuesOf]

theorem statedLimits {value : δ → ℚ} (decimals : ExactDecimals k value) {orderType : Control.OrderType} {amount : δ}
    {limit : Option δ} (validated : Validated k planner orderType amount limit) {fields : List Field}
    (stated : SaysAmounts ⟨k.normalized amount,limit.map k.normalized⟩ orderType fields) :
    WithinLimits (value planner.policy.maxQuantity) (value planner.policy.maxNotional) fields := by
  have above {d : δ} (positive : k.le d k.zero = false) : 0 < value d := by
    rw [← decimals.zero,← not_le,← decimals.le,positive]
    simp
  refine ⟨⟨_,_,stated.quantity,decimals.normalized amount,above validated.positive,(decimals.le _ _).mp validated.allowed,
    fun text mem => ?_⟩,fun limited none => ?_⟩
  · rw [stated.price] at mem
    obtain ⟨p,priced,rfl⟩ := Option.map_eq_some_iff.mp (Option.mem_toList.mp mem)
    obtain ⟨n,product,inside⟩ := validated.notional p priced
    refine ⟨_,decimals.normalized p,above (validated.priced p priced),?_⟩
    rw [← decimals.product _ _ _ product]
    exact (decimals.le _ _).mp inside
  · rw [stated.orderType,List.mem_singleton] at limited
    have kind : orderType = .limit := by
      cases orderType with
      | market => exact absurd limited (by decide)
      | limit => rfl
    rw [stated.price] at none
    cases given : limit with
    | none => exact validated.limit kind given
    | some p => simp [given] at none

theorem plannedLimits {value : δ → ℚ} (decimals : ExactDecimals k value)
    (planned : plan k planner control = .ok (.application request))
    (order : request.msgType = ascii "D" ∨ request.msgType = ascii "G") :
    WithinLimits (value planner.policy.maxQuantity) (value planner.policy.maxNotional) request.fields := by
  obtain ⟨_,-,ok⟩ := boundOk planned
  unfold planCommand at ok
  split at ok
  · cases ok
  · split at ok <;> cases ok
  · obtain ⟨normalized,valid,ok⟩ := boundOk ok
    obtain ⟨_,-,ok⟩ := boundOk ok
    obtain ⟨_,checked,ok⟩ := boundOk ok
    obtain ⟨amount,limit,rfl,validated⟩ := validatedAmounts valid
    cases ok
    exact statedLimits decimals validated (newOrderSays _ _ checked)
  · obtain ⟨original,-,ok⟩ := boundOk ok
    cases ok
    exact absurd order (by decide : ¬ (ascii "F" = ascii "D" ∨ ascii "F" = ascii "G"))
  · obtain ⟨normalized,valid,ok⟩ := boundOk ok
    obtain ⟨amount,limit,rfl,validated⟩ := validatedAmounts valid
    cases ok
    exact statedLimits decimals validated (replaceSays _ _)

theorem policyEnforced {value : δ → ℚ} (decimals : ExactDecimals k value)
    (planned : plan k planner control = .ok (.application request))
    (order : request.msgType = ascii "D" ∨ request.msgType = ascii "G") :
    WithinLimits (value planner.policy.maxQuantity) (value planner.policy.maxNotional) request.fields ∧
      ∀ allow, plan k (allowing planner allow) control = .ok (.application request) :=
  ⟨plannedLimits decimals planned order,fun _ => planned⟩

end

theorem venueDecimals : ExactDecimals venueCrates (fun n => (n : ℚ)) where
  zero := Nat.cast_zero
  le a b := by simp [venueCrates]
  product a b c same := by
    cases same
    exact Nat.cast_mul a b
  normalized := rationalDecimal

theorem marketOrderPlanned : venuePlanner.policy.allowMarketOrders = false ∧
    plan venueCrates venuePlanner (venueOrder "order-1") = .ok (.application (applicationOf (venueOrder "order-1"))) ∧
    valuesOf (applicationOf (venueOrder "order-1")).fields 40 = [ascii "1"] ∧
    valuesOf (applicationOf (venueOrder "order-1")).fields 44 = [] :=
  ⟨rfl,by decide +kernel,by decide +kernel,by decide +kernel⟩

theorem policyEnforcedAtVenue : (applicationOf (venueOrder "order-1")).msgType = ascii "D" ∧
    WithinLimits ((1000 : Nat) : ℚ) ((1000000 : Nat) : ℚ) (applicationOf (venueOrder "order-1")).fields ∧
      ∀ allow, plan venueCrates (allowing venuePlanner allow) (venueOrder "order-1") =
        .ok (.application (applicationOf (venueOrder "order-1"))) := by
  have planned : plan venueCrates venuePlanner (venueOrder "order-1") =
      .ok (.application (applicationOf (venueOrder "order-1"))) := by decide +kernel
  have type : (applicationOf (venueOrder "order-1")).msgType = ascii "D" := by decide +kernel
  exact ⟨type,policyEnforced venueDecimals planned (.inl type)⟩

end FixCli.Session
