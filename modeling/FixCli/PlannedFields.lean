import FixCli.CodecRoundTrip
import FixCli.Planner

/-! The fields of a planned order: their layout, and which of their values were copied
from the agent without a look. -/
namespace FixCli.Control
open Lib Codec Session

def unguarded : Command → List Bytes
  | .newOrderSingle order => [order.account, order.securityExchange, order.securityGroup, order.symbol]
  | .cancelOrder cancel => cancel.clOrdId.toList ++ [cancel.account, cancel.securityGroup]
  | .replaceOrder replace => replace.account.toList ++ replace.securityExchange.toList ++
      replace.securityGroup.toList ++ [replace.symbol]
  | .sessionStatus | .sessionLogout => []

inductive Layout : Bytes → List Field → Prop
  | new (front : List Field) (side : Bytes) (back : List Field) (once : ∀ f ∈ front ++ back, f.tag ≠ 54) :
      Layout (ascii "D") (front ++ ⟨54,side⟩ :: back)
  | cancel (original : Bytes) (rest : List Field) : Layout (ascii "F") (⟨41,original⟩ :: rest)
  | replace (original : Bytes) (front : List Field) (side : Bytes) (back : List Field)
      (once : ∀ f ∈ front ++ back, f.tag ≠ 54) :
      Layout (ascii "G") (⟨41,original⟩ :: (front ++ ⟨54,side⟩ :: back))

structure Laid (request : ApplicationRequest) (strings : List Bytes) : Prop where
  layout : Layout request.msgType request.fields
  tags : ∀ f ∈ request.fields, f.tag ≠ 11 ∧ f.tag ≠ 60
  plain : (∀ f ∈ request.fields, sohFree f) ↔ ∀ s ∈ strings, SOH ∉ s
  clOrdId : SOH ∉ request.clOrdId

section

variable {δ : Type} {k : Crates δ} {planner : CommandPlanner δ}

theorem hexPlain (input : Bytes) : SOH ∉ hex input := fun mem =>
  absurd (hexOnly input _ mem) (by decide)

theorem clOrdIdPlain (profile requestId : Bytes) : SOH ∉ clOrdId k profile requestId := by
  intro mem
  rcases List.mem_append.mp mem with front | digits
  · exact absurd front (by decide)
  · exact hexPlain _ digits

theorem tagValuePlain {tag : UInt32} {value : Bytes} (ok : validateTagValue tag value = .ok ()) : SOH ∉ value := by
  unfold validateTagValue at ok
  split at ok
  · cases ok
  · rename_i safe
    intro mem
    have graphic : value.all (fun b => isAsciiGraphic b && b != EQ) = true := by
      simp only [not_or,Bool.not_eq_true,Bool.not_eq_false'] at safe
      exact safe.2.2.2
    exact absurd (List.all_eq_true.mp graphic _ mem) (by decide)

theorem extraTagsChecked {tags : List (UInt32 × Bytes)} (ok : validateExtraTags tags = .ok ()) :
    ∀ entry ∈ tags, entry.1 ∉ managedOrderTags ∧ SOH ∉ entry.2 := by
  induction tags with
  | nil => simp
  | cons entry rest ih =>
    obtain ⟨_,here,later⟩ := boundOk ok
    intro other mem
    rcases List.mem_cons.mp mem with rfl | inside
    · unfold validateExtraTag at here
      split at here
      · cases here
      · rename_i free
        exact ⟨free,tagValuePlain here⟩
    · exact ih later other inside

theorem validatedTexts {quantity : Bytes} {orderType : OrderType} {price : Option Bytes} {order : NormalizedOrder}
    (ok : validateOrder k planner quantity orderType price = .ok order) :
    (∃ d, order.quantity = k.normalized d) ∧ ∀ text, order.price = some text → ∃ d, text = k.normalized d := by
  unfold validateOrder at ok
  obtain ⟨amount,-,ok⟩ := boundOk ok
  split at ok
  · cases ok
  obtain ⟨limit,-,ok⟩ := boundOk ok
  split at ok
  · cases ok
  obtain ⟨_,-,ok⟩ := boundOk ok
  cases ok
  refine ⟨⟨amount,rfl⟩,fun text same => ?_⟩
  obtain ⟨d,-,rfl⟩ := Option.map_eq_some_iff.mp same
  exact ⟨d,rfl⟩

section

variable (decimals : ∀ d, SOH ∉ k.normalized d)
include decimals

theorem tifThenPricePlain {order : NormalizedOrder}
    (prices : ∀ text, order.price = some text → ∃ d, text = k.normalized d) (timeInForce : TimeInForce) :
    ∀ f ∈ tifThenPrice order.price timeInForce, sohFree f ∧ f.tag ∈ [59, 44] := by
  intro f mem
  rcases List.mem_cons.mp mem with rfl | price
  · exact ⟨by cases timeInForce <;> decide,by simp⟩
  · obtain ⟨text,here,rfl⟩ : ∃ text, order.price = some text ∧ f = ⟨44,text⟩ := by
      cases found : order.price with
      | none => simp [found] at price
      | some text => exact ⟨text,rfl,by simpa [found] using price⟩
    obtain ⟨d,rfl⟩ := prices text here
    exact ⟨decimals d,by simp⟩

theorem newOrderLaid {control : ControlRequest} {order : NewOrderSingle} {normalized : NormalizedOrder}
    (valid : validateOrder k planner order.quantity order.orderType order.price = .ok normalized)
    (maturity : validateMaturity order.maturityMonthYear = .ok ())
    (extra : validateExtraTags order.extraTags = .ok ()) :
    Laid (applicationRequest k planner control "D" (newOrderFields order normalized))
      (unguarded (.newOrderSingle order)) := by
  obtain ⟨⟨d,quantity⟩,prices⟩ := validatedTexts valid
  have extras := extraTagsChecked extra
  have tif := tifThenPricePlain decimals prices order.timeInForce
  let back : List Field := [⟨38,normalized.quantity⟩,⟨40,orderTypeCode order.orderType⟩] ++
    optionalField 200 order.maturityMonthYear ++ tifThenPrice normalized.price order.timeInForce ++
    order.extraTags.map fun entry => (⟨entry.1,entry.2⟩ : Field)
  let front : List Field := [⟨1,order.account⟩,⟨21,ascii "1"⟩,⟨207,order.securityExchange⟩,
    ⟨1151,order.securityGroup⟩,⟨55,order.symbol⟩]
  have shape : newOrderFields order normalized = front ++ ⟨54,sideCode order.side⟩ :: back := by
    simp [newOrderFields,front,back]
  have behind : ∀ f ∈ back, sohFree f ∧ f.tag ≠ 54 ∧ f.tag ≠ 11 ∧ f.tag ≠ 60 := by
    intro f mem
    simp only [back,List.mem_append,List.mem_cons,List.not_mem_nil,or_false,List.mem_map] at mem
    rcases mem with (((rfl | rfl) | optional) | priced) | ⟨entry,inside,rfl⟩
    · exact ⟨by rw [sohFree,quantity]; exact decimals d,by simp⟩
    · exact ⟨by cases order.orderType <;> decide,by simp⟩
    · cases month : order.maturityMonthYear with
      | none => simp [optionalField,month] at optional
      | some value =>
        rw [month] at maturity
        obtain rfl : f = ⟨200,value⟩ := by simpa [optionalField,month] using optional
        exact ⟨tagValuePlain maturity,by simp⟩
    · obtain ⟨plain,tag⟩ := tif f priced
      exact ⟨plain,by rcases List.mem_cons.mp tag with h | h <;> simp_all⟩
    · obtain ⟨free,plain⟩ := extras entry inside
      exact ⟨plain,by simp only [managedOrderTags] at free; simp_all⟩
  refine ⟨?_,?_,?_,clOrdIdPlain _ _⟩
  · change Layout (ascii "D") (newOrderFields order normalized)
    rw [shape]
    refine .new front _ back fun f mem => ?_
    rcases List.mem_append.mp mem with ahead | later
    · simp only [front,List.mem_cons,List.not_mem_nil,or_false] at ahead
      rcases ahead with rfl | rfl | rfl | rfl | rfl <;> simp
    · exact (behind f later).2.1
  · change ∀ f ∈ newOrderFields order normalized, _
    rw [shape]
    intro f mem
    rcases List.mem_append.mp mem with ahead | later
    · simp only [front,List.mem_cons,List.not_mem_nil,or_false] at ahead
      rcases ahead with rfl | rfl | rfl | rfl | rfl <;> simp
    · rcases List.mem_cons.mp later with rfl | later
      · simp
      · exact (behind f later).2.2
  · change (∀ f ∈ newOrderFields order normalized, sohFree f) ↔ _
    rw [shape]
    have side : sohFree ⟨54,sideCode order.side⟩ := by cases order.side <;> decide
    have one : SOH ∉ ascii "1" := by decide
    have rest : (∀ f ∈ back, sohFree f) ↔ True := iff_true_intro fun f mem => (behind f mem).1
    simp only [List.forall_mem_append,List.forall_mem_cons,rest,side,front,unguarded]
    simp [sohFree,one]

omit decimals in
theorem cancelLaid {control : ControlRequest} {cancel : CancelOrder} {original : Bytes}
    (origin : origClOrdId k planner cancel = .ok original) :
    Laid (applicationRequest k planner control "F" (cancelFields cancel original))
      (unguarded (.cancelOrder cancel)) := by
  refine ⟨.cancel original _,?_,?_,clOrdIdPlain _ _⟩
  · intro f mem
    simp only [applicationRequest,cancelFields,List.mem_cons,List.not_mem_nil,or_false] at mem
    rcases mem with rfl | rfl | rfl <;> simp
  · have source : SOH ∉ original ↔ ∀ s ∈ cancel.clOrdId.toList, SOH ∉ s := by
      unfold origClOrdId at origin
      split at origin
      · rename_i none
        cases origin
        simp [none,clOrdIdPlain]
      · rename_i given
        split at origin <;> cases origin
        simp [given]
      · cases origin
      · cases origin
    change (∀ f ∈ cancelFields cancel original, sohFree f) ↔ _
    simp only [cancelFields,unguarded,List.forall_mem_append,← source,List.forall_mem_cons]
    simp [sohFree]

theorem replaceLaid {control : ControlRequest} {replace : ReplaceOrder} {normalized : NormalizedOrder}
    (valid : validateOrder k planner replace.quantity replace.orderType replace.price = .ok normalized) :
    Laid (applicationRequest k planner control "G" (replaceFields k planner replace normalized))
      (unguarded (.replaceOrder replace)) := by
  obtain ⟨⟨d,quantity⟩,prices⟩ := validatedTexts valid
  have tif := tifThenPricePlain decimals prices replace.timeInForce
  let back : List Field := [⟨38,normalized.quantity⟩,⟨40,orderTypeCode replace.orderType⟩] ++
    tifThenPrice normalized.price replace.timeInForce
  let front : List Field := optionalField 1 replace.account ++ optionalField 207 replace.securityExchange ++
    optionalField 1151 replace.securityGroup ++ [⟨55,replace.symbol⟩]
  have shape : replaceFields k planner replace normalized =
      ⟨41,clOrdId k planner.profile replace.originalRequestId⟩ :: (front ++ ⟨54,sideCode replace.side⟩ :: back) := by
    simp [replaceFields,front,back]
  have optional (tag : UInt32) (value : Option Bytes) : ∀ f ∈ optionalField tag value, f.tag = tag := by
    intro f mem
    cases value with
    | none => simp [optionalField] at mem
    | some value => simp [optionalField] at mem; rw [mem]
  have ahead : ∀ f ∈ front, f.tag ≠ 54 ∧ f.tag ≠ 11 ∧ f.tag ≠ 60 := by
    intro f mem
    simp only [front,List.mem_append,List.mem_cons,List.not_mem_nil,or_false] at mem
    rcases mem with ((account | exchange) | group) | rfl
    · rw [optional _ _ f account]; simp
    · rw [optional _ _ f exchange]; simp
    · rw [optional _ _ f group]; simp
    · simp
  have behind : ∀ f ∈ back, sohFree f ∧ f.tag ≠ 54 ∧ f.tag ≠ 11 ∧ f.tag ≠ 60 := by
    intro f mem
    simp only [back,List.mem_append,List.mem_cons,List.not_mem_nil,or_false] at mem
    rcases mem with (rfl | rfl) | priced
    · exact ⟨by rw [sohFree,quantity]; exact decimals d,by simp⟩
    · exact ⟨by cases replace.orderType <;> decide,by simp⟩
    · obtain ⟨plain,tag⟩ := tif f priced
      exact ⟨plain,by rcases List.mem_cons.mp tag with h | h <;> simp_all⟩
  refine ⟨?_,?_,?_,clOrdIdPlain _ _⟩
  · change Layout (ascii "G") (replaceFields k planner replace normalized)
    rw [shape]
    refine .replace _ front _ back fun f mem => ?_
    rcases List.mem_append.mp mem with before | later
    · exact (ahead f before).1
    · exact (behind f later).2.1
  · change ∀ f ∈ replaceFields k planner replace normalized, _
    rw [shape]
    intro f mem
    rcases List.mem_cons.mp mem with rfl | mem
    · simp
    rcases List.mem_append.mp mem with before | later
    · exact (ahead f before).2
    · rcases List.mem_cons.mp later with rfl | later
      · simp
      · exact (behind f later).2.2
  · change (∀ f ∈ replaceFields k planner replace normalized, sohFree f) ↔ _
    rw [shape]
    have side : sohFree ⟨54,sideCode replace.side⟩ := by cases replace.side <;> decide
    have original : sohFree ⟨41,clOrdId k planner.profile replace.originalRequestId⟩ := clOrdIdPlain _ _
    have rest : (∀ f ∈ back, sohFree f) ↔ True := iff_true_intro fun f mem => (behind f mem).1
    have option (tag : UInt32) (value : Option Bytes) : (∀ f ∈ optionalField tag value, sohFree f) ↔
        ∀ s ∈ value.toList, SOH ∉ s := by
      cases value <;> simp [optionalField,sohFree]
    simp only [List.forall_mem_append,List.forall_mem_cons,rest,side,original,front,unguarded,option]
    simp [sohFree]

theorem plannedLaid {control : ControlRequest} {request : ApplicationRequest}
    (planned : plan k planner control = .ok (.application request)) :
    Laid request (unguarded control.command) := by
  obtain ⟨_,-,ok⟩ := boundOk planned
  unfold planCommand at ok
  split at ok
  · cases ok
  · split at ok <;> cases ok
  · rename_i order command
    obtain ⟨_,valid,ok⟩ := boundOk ok
    obtain ⟨_,maturity,ok⟩ := boundOk ok
    obtain ⟨_,extra,ok⟩ := boundOk ok
    cases ok
    rw [command]
    exact newOrderLaid decimals valid maturity extra
  · rename_i cancel command
    obtain ⟨_,origin,ok⟩ := boundOk ok
    cases ok
    rw [command]
    exact cancelLaid origin
  · rename_i replace command
    obtain ⟨_,valid,ok⟩ := boundOk ok
    cases ok
    rw [command]
    exact replaceLaid decimals valid

end

end

end FixCli.Control
