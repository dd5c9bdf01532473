import FixCli.Lib.Format
import FixCli.ResponseFrames

/-! Control requests as a client serializes them, read back: an order is told from a cancel
by the text of its `type`. -/
namespace FixCli.Control
open Lib Format

def sideFormat : Format Side := named sideText [.buy,.sell] fun side => by cases side <;> decide

def orderTypeFormat : Format OrderType := named orderTypeText [.market,.limit] fun type => by cases type <;> decide

def timeInForceFormat : Format TimeInForce :=
  named timeInForceText [.day,.gtc,.ioc,.fok] fun time => by cases time <;> decide

theorem stringQuoted (s : Bytes) : (string.write s).head? ≠ some 0x6E := fun same => by cases same

def textOption : Format (Option Bytes) := option string stringQuoted

def tagNumber : Format UInt32 :=
  number.through UInt32.toNat (fun n => if n < 2 ^ 32 then some n.toUInt32 else none)
    fun tag => (if_pos tag.toNat_lt).trans (congrArg some UInt32.ofNat_toNat)

def extraTagFormat : Format (UInt32 × Bytes) := tuple (tagNumber.and string)

def newOrderFormat : Format NewOrderSingle :=
  (tagged "type" (ascii "new_order_single") ((member "symbol" string).and ((member "account" string).and
    ((member "security_exchange" string).and ((member "security_group" string).and ((member "side" sideFormat).and
    ((member "quantity" string).and ((member "ord_type" orderTypeFormat).and ((member "price" textOption).and
    ((member "time_in_force" timeInForceFormat).and ((member "maturity_month_year" textOption).and
    (member "extra_tags" (list extraTagFormat))))))))))))).through
    (fun o => (o.symbol,o.account,o.securityExchange,o.securityGroup,o.side,o.quantity,o.orderType,o.price,
      o.timeInForce,o.maturityMonthYear,o.extraTags))
    (fun (symbol,account,securityExchange,securityGroup,side,quantity,orderType,price,timeInForce,maturity,tags) =>
      some ⟨symbol,account,securityExchange,securityGroup,side,quantity,orderType,price,timeInForce,maturity,tags⟩)
    fun _ => rfl

def cancelFormat : Format CancelOrder :=
  (tagged "type" (ascii "cancel_order") ((member "original_request_id" textOption).and ((member "cl_ord_id" textOption).and
    ((member "account" string).and (member "security_group" string))))).through
    (fun c => (c.originalRequestId,c.clOrdId,c.account,c.securityGroup))
    (fun (originalRequestId,clOrdId,account,securityGroup) => some ⟨originalRequestId,clOrdId,account,securityGroup⟩)
    fun _ => rfl

def replaceFormat : Format ReplaceOrder :=
  (tagged "type" (ascii "replace_order") ((member "original_request_id" string).and ((member "symbol" string).and
    ((member "account" textOption).and ((member "security_exchange" textOption).and
    ((member "security_group" textOption).and ((member "side" sideFormat).and ((member "quantity" string).and
    ((member "ord_type" orderTypeFormat).and ((member "price" textOption).and
    (member "time_in_force" timeInForceFormat))))))))))).through
    (fun r => (r.originalRequestId,r.symbol,r.account,r.securityExchange,r.securityGroup,r.side,r.quantity,r.orderType,
      r.price,r.timeInForce))
    (fun (originalRequestId,symbol,account,securityExchange,securityGroup,side,quantity,orderType,price,time) =>
      some ⟨originalRequestId,symbol,account,securityExchange,securityGroup,side,quantity,orderType,price,time⟩)
    fun _ => rfl

structure Kind {α : Type} (format : Format α) (text : Bytes) : Prop where
  begins : ∀ a, ∃ back, Closed back ∧ back ≠ [] ∧ format.write a = tagFront "type" text ++ back
  refuses : ∀ other back, other ≠ text → Closed back → back ≠ [] → Refuses format.read (tagFront "type" other ++ back)

section

variable {α β : Type} {first : Format α} {last : Format β} {text other : Bytes}

theorem tagKind (text : Bytes) : Kind (tag "type" text) text where
  begins a := ⟨[0x7D],rfl,by simp,tagBegins "type" text a⟩
  refuses _ _ differ closed more := tagRefuses "type" differ closed more

theorem taggedKind (text : Bytes) (members : Format α) : Kind (tagged "type" text members) text where
  begins a := ⟨0x2C :: (members.write a ++ [0x7D]),rfl,by simp,taggedBegins "type" text members a⟩
  refuses _ _ differ closed more := taggedRefuses "type" differ members closed more

theorem Kind.through (kind : Kind first text) {into : β → α} {back : α → Option β} {law : ∀ b, back (into b) = some b} :
    Kind (first.through into back law) text where
  begins b := kind.begins (into b)
  refuses other rest differ closed more stream := by
    have refused := kind.refuses other rest differ closed more stream
    simp only [Format.through,refused,Option.bind_eq_bind,Option.bind_none]

theorem Kind.apart (kind : Kind first text) (others : Kind last other) (differ : other ≠ text) (b : β) :
    Refuses first.read (last.write b) := by
  obtain ⟨back,closed,more,same⟩ := others.begins b
  rw [same]
  exact kind.refuses other back differ closed more

end

theorem newOrderKind : Kind newOrderFormat (ascii "new_order_single") := (taggedKind _ _).through

theorem cancelKind : Kind cancelFormat (ascii "cancel_order") := (taggedKind _ _).through

theorem replaceKind : Kind replaceFormat (ascii "replace_order") := (taggedKind _ _).through

def amendmentFormat : Format (CancelOrder ⊕ ReplaceOrder) :=
  either cancelFormat replaceFormat (cancelKind.apart replaceKind (by decide))

theorem newOrderApart (amendment : CancelOrder ⊕ ReplaceOrder) :
    Refuses newOrderFormat.read (amendmentFormat.write amendment) := by
  rcases amendment with cancel | replace
  · exact newOrderKind.apart cancelKind (by decide) cancel
  · exact newOrderKind.apart replaceKind (by decide) replace

def orderFormat : Format (NewOrderSingle ⊕ CancelOrder ⊕ ReplaceOrder) :=
  either newOrderFormat amendmentFormat newOrderApart

theorem tagApart {text : Bytes} (differ : ascii "new_order_single" ≠ text ∧ ascii "cancel_order" ≠ text ∧
    ascii "replace_order" ≠ text) (order : NewOrderSingle ⊕ CancelOrder ⊕ ReplaceOrder) :
    Refuses (tag "type" text).read (orderFormat.write order) := by
  rcases order with order | cancel | replace
  · exact (tagKind text).apart newOrderKind differ.1 order
  · exact (tagKind text).apart cancelKind differ.2.1 cancel
  · exact (tagKind text).apart replaceKind differ.2.2 replace

def logoutFormat : Format (Unit ⊕ NewOrderSingle ⊕ CancelOrder ⊕ ReplaceOrder) :=
  either (tag "type" (ascii "session_logout")) orderFormat (tagApart (by decide))

theorem statusApart (command : Unit ⊕ NewOrderSingle ⊕ CancelOrder ⊕ ReplaceOrder) :
    Refuses (tag "type" (ascii "session_status")).read (logoutFormat.write command) := by
  rcases command with logout | order
  · exact (tagKind _).apart (tagKind (ascii "session_logout")) (by decide) logout
  · exact tagApart (by decide) order

def commandFormat : Format Command :=
  (either (tag "type" (ascii "session_status")) logoutFormat statusApart).through
    (fun command => match command with
      | .sessionStatus => .inl ()
      | .sessionLogout => .inr (.inl ())
      | .newOrderSingle order => .inr (.inr (.inl order))
      | .cancelOrder cancel => .inr (.inr (.inr (.inl cancel)))
      | .replaceOrder replace => .inr (.inr (.inr (.inr replace))))
    (fun kind => match kind with
      | .inl () => some .sessionStatus
      | .inr (.inl ()) => some .sessionLogout
      | .inr (.inr (.inl order)) => some (.newOrderSingle order)
      | .inr (.inr (.inr (.inl cancel))) => some (.cancelOrder cancel)
      | .inr (.inr (.inr (.inr replace))) => some (.replaceOrder replace))
    fun command => by cases command <;> rfl

def absent : Format Unit := (option string stringQuoted).through (fun _ => none) (fun _ => some ()) fun _ => rfl

theorem commandWritten (command : Command) : commandFormat.write command = command.json := by
  cases command with
  | sessionStatus | sessionLogout | cancelOrder cancel | replaceOrder replace => rfl
  | newOrderSingle order => rfl

end FixCli.Control
