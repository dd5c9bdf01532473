import Mathlib.Data.List.Nodup
import FixCli.OrderWire
import FixCli.PlannedAccepted

/-! The tags of a new order on the wire, and what the agent's extra tags can repeat of
them. The planner's list of managed tags lacks SecurityExchange(207). -/
namespace FixCli.Session
open Lib Codec Store Control

def daemonTags : List UInt32 := [35, 49, 56, 34, 52, 11, 60]

def optionalTag (tag : UInt32) (value : Option Bytes) : List UInt32 := (value.map fun _ => tag).toList

def schemaTags (order : NewOrderSingle) : List UInt32 :=
  [1, 21, 207, 1151, 55, 54, 38, 40] ++ optionalTag 200 order.maturityMonthYear ++ [59] ++ optionalTag 44 order.price

section

variable {δ : Type} {k : Crates δ} {planner : CommandPlanner δ} {control : ControlRequest} {order : NewOrderSingle}
  {normalized : NormalizedOrder} {request : ApplicationRequest} {c : Ctx} {w : World}

theorem optionalFieldTags (tag : UInt32) (value : Option Bytes) :
    (optionalField tag value).map Field.tag = optionalTag tag value := by
  cases value <;> rfl

theorem validatedPrice {quantity : Bytes} {orderType : Control.OrderType} {price : Option Bytes}
    (ok : validateOrder k planner quantity orderType price = .ok normalized) (tag : UInt32) :
    optionalTag tag normalized.price = optionalTag tag price := by
  unfold validateOrder at ok
  obtain ⟨amount,-,ok⟩ := boundOk ok
  split at ok
  · cases ok
  obtain ⟨limit,priced,ok⟩ := boundOk ok
  split at ok
  · cases ok
  obtain ⟨_,-,ok⟩ := boundOk ok
  cases ok
  cases price with
  | none =>
    cases priced
    rfl
  | some text =>
    cases parsed : positiveDecimal k text "price" with
    | error e => simp [positivePrice,parsed,Except.map] at priced
    | ok d =>
      simp only [positivePrice,parsed,Except.map,Except.ok.injEq] at priced
      subst priced
      rfl

variable (control) in
theorem newOrderTags (valid : validateOrder k planner order.quantity order.orderType order.price = .ok normalized)
    (checked : validateExtraTags order.extraTags = .ok ()) (w : World) : ∃ fields v,
      submitFields c (applicationRequest k planner control "D" (newOrderFields order normalized)) w = (.ok fields,v) ∧
      v.trace = w.trace ∧
      (fields.map Field.tag).Perm (daemonTags ++ schemaTags order ++ order.extraTags.map Prod.fst) := by
  let front : List Field := [⟨1,order.account⟩,⟨21,ascii "1"⟩,⟨207,order.securityExchange⟩,
    ⟨1151,order.securityGroup⟩,⟨55,order.symbol⟩]
  let back : List Field := [⟨38,normalized.quantity⟩,⟨40,orderTypeCode order.orderType⟩] ++
    optionalField 200 order.maturityMonthYear ++ tifThenPrice normalized.price order.timeInForce ++
    order.extraTags.map fun entry => (⟨entry.1,entry.2⟩ : Field)
  have tags : back.map Field.tag = [38, 40] ++ optionalTag 200 order.maturityMonthYear ++
      (59 :: optionalTag 44 order.price) ++ order.extraTags.map Prod.fst := by
    simp only [back,List.map_append,optionalFieldTags,List.map_map]
    rw [← validatedPrice valid 44,← optionalFieldTags 44]
    rfl
  have own : ∀ tag ∈ [1, 21, 207, 1151, 55] ++ ([38, 40] ++ optionalTag 200 order.maturityMonthYear ++
      (59 :: optionalTag 44 order.price)), tag ≠ 54 := by
    cases order.maturityMonthYear <;> cases order.price <;> simp [optionalTag]
  have once : ∀ f ∈ front ++ back, f.tag ≠ 54 := by
    intro f mem
    have inside : f.tag ∈ (front ++ back).map Field.tag := List.mem_map_of_mem mem
    rw [List.map_append,tags,← List.append_assoc] at inside
    rcases List.mem_append.mp inside with schema | extra
    · exact own f.tag schema
    · obtain ⟨entry,mem,same⟩ := List.mem_map.mp extra
      have free := (extraTagsUnmanaged checked entry mem).1
      simp only [managedOrderTags,List.mem_cons,List.not_mem_nil,or_false,not_or] at free
      rw [← same]
      tauto
  have timed : appendBody c true (applicationRequest k planner control "D" (newOrderFields order normalized)).fields
      {w with tick := w.tick + 1} = (.ok (front ++ ⟨54,sideCode order.side⟩ ::
        ⟨60,c.env.sendingTime (w.tick + 1)⟩ :: back,true),{w with tick := w.tick + 2}) := by
    have shape : (applicationRequest k planner control "D" (newOrderFields order normalized)).fields =
        front ++ ⟨54,sideCode order.side⟩ :: back := by
      simp [applicationRequest,newOrderFields,front,back]
    rw [shape]
    exact appendTimed (sideCode order.side) once {w with tick := w.tick + 1}
  have sent : submitFields c (applicationRequest k planner control "D" (newOrderFields order normalized)) w = (.ok _,_) :=
    submitWith true rfl rfl timed
  refine ⟨_,_,sent,rfl,?_⟩
  have moved (rest : List UInt32) : ([35, 49, 56, 34, 52, 11] ++ ([1, 21, 207, 1151, 55, 54] ++ 60 :: rest)).Perm
      ([35, 49, 56, 34, 52, 11] ++ 60 :: ([1, 21, 207, 1151, 55, 54] ++ rest)) := List.perm_middle.append_left _
  simpa only [List.map_append,List.map_cons,List.map_nil,tags,front,daemonTags,schemaTags,List.append_assoc,
    List.cons_append,List.nil_append] using moved (back.map Field.tag)

theorem schemaNodup (order : NewOrderSingle) : (daemonTags ++ schemaTags order).Nodup := by
  cases maturity : order.maturityMonthYear <;> cases price : order.price <;>
    simp [daemonTags,schemaTags,optionalTag,maturity,price]

theorem schemaManaged (order : NewOrderSingle) :
    ∀ tag ∈ daemonTags ++ schemaTags order, tag = 207 ∨ tag ∈ managedOrderTags := by
  cases maturity : order.maturityMonthYear <;> cases price : order.price <;>
    simp [daemonTags,schemaTags,optionalTag,maturity,price,managedOrderTags]

/-- Every tag that the session or the schema puts into a planned new order stands in it
exactly once, exactly if no extra tag is SecurityExchange(207). -/
theorem schemaUnshadowed (planned : plan k planner control = .ok (.application request))
    (command : control.command = .newOrderSingle order) : ∃ fields v new,
      submitFields c request w = (.ok fields,v) ∧ (submitApplication c request w).2.trace = new ++ w.trace ∧
      (∀ wire ∈ new.filterMap carried, encodeMessage c.config.beginString fields = .ok wire) ∧
      ((∀ tag ∈ daemonTags ++ schemaTags order, (fields.map Field.tag).count tag = 1) ↔
        ∀ entry ∈ order.extraTags, entry.1 ≠ 207) := by
  obtain ⟨normalized,valid,checked,rfl⟩ : ∃ normalized,
      validateOrder k planner order.quantity order.orderType order.price = .ok normalized ∧
      validateExtraTags order.extraTags = .ok () ∧
      request = applicationRequest k planner control "D" (newOrderFields order normalized) := by
    obtain ⟨_,-,ok⟩ := boundOk planned
    simp only [planCommand,command] at ok
    obtain ⟨normalized,valid,ok⟩ := boundOk ok
    obtain ⟨_,-,ok⟩ := boundOk ok
    obtain ⟨_,checked,ok⟩ := boundOk ok
    cases ok
    exact ⟨normalized,valid,checked,rfl⟩
  obtain ⟨fields,v,prepared,trace,tags⟩ := newOrderTags (c := c) control valid checked w
  obtain ⟨new,after,wires⟩ := submitWires prepared trace
  refine ⟨fields,v,new,prepared,after,wires,?_⟩
  have counted (tag : UInt32) (mem : tag ∈ daemonTags ++ schemaTags order) : (fields.map Field.tag).count tag = 1 ↔
      tag ∉ order.extraTags.map Prod.fst := by
    rw [tags.count_eq,List.count_append,List.count_eq_one_of_mem (schemaNodup order) mem,← List.count_eq_zero]
    omega
  constructor
  · intro once entry mem same
    have inside : (207 : UInt32) ∈ daemonTags ++ schemaTags order := by simp [schemaTags]
    exact (counted 207 inside).mp (once 207 inside) (List.mem_map.mpr ⟨entry,mem,same⟩)
  · intro free tag mem
    refine (counted tag mem).mpr fun extra => ?_
    obtain ⟨entry,inside,rfl⟩ := List.mem_map.mp extra
    rcases schemaManaged order _ mem with exchange | managed
    · exact free entry inside exchange
    · exact (extraTagsUnmanaged checked entry inside).1 managed

end

def exchangedOrder : ControlRequest :=
  ⟨1,ascii "order-1",ascii "venue",.certification,.newOrderSingle
    ⟨ascii "IC2609",ascii "ACC",ascii "X",ascii "G",.buy,ascii "100",.market,none,.day,none,[(207,ascii "Y")]⟩⟩

theorem exchangeShadowed : plan venueCrates venuePlanner exchangedOrder = .ok (.application (applicationOf exchangedOrder)) ∧
    atVenue.phase = .established ∧
    ((submitApplication venueCtx (applicationOf exchangedOrder) atVenue).2.trace.filterMap carried).head?.map
      (fun wire => (parsedOf wire).values 207) = some [ascii "X", ascii "Y"] :=
  ⟨by decide +kernel,by decide +kernel,by decide +kernel⟩

theorem schemaUnshadowedAtVenue : plan venueCrates venuePlanner exchangedOrder =
      .ok (.application (applicationOf exchangedOrder)) ∧ ∃ fields v new,
    submitFields venueCtx (applicationOf exchangedOrder) atVenue = (.ok fields,v) ∧
    (submitApplication venueCtx (applicationOf exchangedOrder) atVenue).2.trace = new ++ atVenue.trace ∧
    (∀ wire ∈ new.filterMap carried, encodeMessage venueCtx.config.beginString fields = .ok wire) ∧
    ((∀ tag ∈ daemonTags ++ [1, 21, 207, 1151, 55, 54, 38, 40, 59], (fields.map Field.tag).count tag = 1) ↔
      ∀ entry ∈ ([(207,ascii "Y")] : List (UInt32 × Bytes)), entry.1 ≠ 207) := by
  have planned : plan venueCrates venuePlanner exchangedOrder = .ok (.application (applicationOf exchangedOrder)) := by
    decide +kernel
  exact ⟨planned,schemaUnshadowed planned rfl⟩

end FixCli.Session
