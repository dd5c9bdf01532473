import FixCli.SessionState

/-! The command planner: what the control plane turns an agent's request into. The
hash and the decimal numbers come from crates outside the repository; `Crates` names
what the planner calls of them. -/
namespace FixCli.Control
open Lib Codec Session

inductive ExecutionMode where
  | inspect
  | dryRun
  | certification
  | live
  deriving DecidableEq, Repr

inductive RuntimeMode where
  | certification
  | live
  deriving DecidableEq, Repr

inductive Side where
  | buy
  | sell
  deriving DecidableEq, Repr

inductive OrderType where
  | market
  | limit
  deriving DecidableEq, Repr

inductive TimeInForce where
  | day
  | gtc
  | ioc
  | fok
  deriving DecidableEq, Repr

structure NewOrderSingle where
  symbol : Bytes
  account : Bytes
  securityExchange : Bytes
  securityGroup : Bytes
  side : Side
  quantity : Bytes
  orderType : OrderType
  price : Option Bytes
  timeInForce : TimeInForce
  maturityMonthYear : Option Bytes
  extraTags : List (UInt32 × Bytes)

structure CancelOrder where
  originalRequestId : Option Bytes
  clOrdId : Option Bytes
  account : Bytes
  securityGroup : Bytes

structure ReplaceOrder where
  originalRequestId : Bytes
  symbol : Bytes
  account : Option Bytes
  securityExchange : Option Bytes
  securityGroup : Option Bytes
  side : Side
  quantity : Bytes
  orderType : OrderType
  price : Option Bytes
  timeInForce : TimeInForce

inductive Command where
  | sessionStatus
  | sessionLogout
  | newOrderSingle (order : NewOrderSingle)
  | cancelOrder (cancel : CancelOrder)
  | replaceOrder (replace : ReplaceOrder)

structure ControlRequest where
  version : Nat
  requestId : Bytes
  profile : Bytes
  executionMode : ExecutionMode
  command : Command

inductive PlannedCommand where
  | sessionStatus
  | sessionLogout
  | application (request : ApplicationRequest)
  deriving DecidableEq

structure ControlError where
  code : String
  retryable : Bool
  message : Bytes
  deriving DecidableEq

def ControlError.invalid (message : Bytes) : ControlError := ⟨"INVALID_REQUEST",false,message⟩

def ControlError.policy (message : Bytes) : ControlError := ⟨"POLICY_DENIED",false,message⟩

structure Crates (δ : Type) where
  sha256 : Bytes → Bytes
  fromStr : Bytes → Option δ
  zero : δ
  le : δ → δ → Bool
  checkedMul : δ → δ → Option δ
  normalized : δ → Bytes

structure Policy (δ : Type) where
  maxQuantity : δ
  maxNotional : δ
  allowMarketOrders : Bool
  maxMessagesPerSecond : Nat

structure CommandPlanner (δ : Type) where
  profile : Bytes
  runtimeMode : RuntimeMode
  policy : Policy δ

def isAsciiAlphanumeric (b : UInt8) : Bool :=
  isDigit b || (0x41 ≤ b && b ≤ 0x5A) || (0x61 ≤ b && b ≤ 0x7A)

def requestIdAccepted (requestId : Bytes) : Bool :=
  !requestId.isEmpty && requestId.length ≤ 128 &&
    requestId.all (fun b => isAsciiAlphanumeric b || decide (b ∈ ascii "._:-"))

def hexDigits : Bytes := ascii "0123456789abcdef"

def hex (input : Bytes) : Bytes :=
  input.flatMap fun byte => [hexDigits.getD (byte.toNat / 16) 0, hexDigits.getD (byte.toNat % 16) 0]

def beBytes (width n : Nat) : Bytes := (List.range width).reverse.map fun i => UInt8.ofNat (n / 256 ^ i)

section

variable {δ : Type} (k : Crates δ)

def clOrdId (profile requestId : Bytes) : Bytes :=
  ascii "FC-" ++ hex ((k.sha256 (ascii "fix-cli-clordid-v1" ++ [0] ++ profile ++ [0] ++ requestId)).take 12)

def ExecutionMode.text : ExecutionMode → Bytes
  | .inspect => ascii "inspect"
  | .dryRun => ascii "dry_run"
  | .certification => ascii "certification"
  | .live => ascii "live"

def fingerprintInput (request : ControlRequest) (msgType : Bytes) (fields : List Field) : Bytes :=
  ascii "fix-cli-command-v1" ++ [0] ++ request.profile ++ [0] ++ request.executionMode.text ++ [0] ++ msgType ++
    fields.flatMap fun field => beBytes 4 field.tag.toNat ++ beBytes 8 field.value.length ++ field.value

def fingerprint (request : ControlRequest) (msgType : Bytes) (fields : List Field) : Bytes :=
  hex (k.sha256 (fingerprintInput request msgType fields))

def validateEnvelope (planner : CommandPlanner δ) (request : ControlRequest) : Except ControlError Unit :=
  if request.version ≠ 1 then
    .error ⟨"SCHEMA_VERSION_UNSUPPORTED",false,ascii "only control protocol version 1 is supported"⟩
  else if request.profile ≠ planner.profile then
    .error ⟨"PROFILE_NOT_FOUND",false,ascii "request profile does not match this daemon"⟩
  else if !requestIdAccepted request.requestId then
    .error ⟨"INVALID_REQUEST",false,ascii "request_id contains unsupported characters"⟩
  else if request.executionMode = .live then
    .error ⟨"LIVE_GUARD_NOT_ARMED",false,
      ascii "live execution is disabled until capability proofs and pure-Rust TLS are approved"⟩
  else if request.executionMode = .certification ∧ planner.runtimeMode ≠ .certification then
    .error ⟨"POLICY_DENIED",false,ascii "certification execution is disabled in a live daemon"⟩
  else .ok ()

def positiveDecimal (value : Bytes) (field : String) : Except ControlError δ :=
  match k.fromStr value with
  | none => .error (.invalid (ascii field ++ ascii " is not a decimal string"))
  | some decimal =>
    if k.le decimal k.zero then .error (.invalid (ascii field ++ ascii " must be positive")) else .ok decimal

structure NormalizedOrder where
  quantity : Bytes
  price : Option Bytes

def checkNotional (planner : CommandPlanner δ) (quantity : δ) : Option δ → Except ControlError Unit
  | none => .ok ()
  | some price =>
    match k.checkedMul quantity price with
    | none => .error (.invalid (ascii "notional overflow"))
    | some notional =>
      if !k.le notional planner.policy.maxNotional then
        .error (.policy (ascii "order notional exceeds the configured maximum"))
      else .ok ()

def positivePrice : Option Bytes → Except ControlError (Option δ)
  | none => .ok none
  | some price => (positiveDecimal k price "price").map some

def validateOrder (planner : CommandPlanner δ) (quantity : Bytes) (orderType : OrderType) (price : Option Bytes) :
    Except ControlError NormalizedOrder := do
  let quantity ← positiveDecimal k quantity "quantity"
  if !k.le quantity planner.policy.maxQuantity then
    .error (.policy (ascii "quantity exceeds the configured maximum"))
  else do
    let price ← positivePrice k price
    -- a market order is taken whatever `allow_market_orders` says
    if orderType = .limit ∧ price.isNone then .error (.invalid (ascii "limit order requires price"))
    else do
      checkNotional k planner quantity price
      .ok ⟨k.normalized quantity,price.map k.normalized⟩

def managedOrderTags : List UInt32 :=
  [1, 8, 9, 10, 11, 21, 34, 35, 38, 40, 41, 44, 49, 52, 54, 55, 56, 58, 59, 60, 1151, 200]

def isAsciiGraphic (b : UInt8) : Bool := 0x21 ≤ b && b ≤ 0x7E

def validateTagValue (tag : UInt32) (value : Bytes) : Except ControlError Unit :=
  if tag = 0 ∨ value = [] ∨ 64 < value.length ∨ !value.all (fun b => isAsciiGraphic b && b != EQ) then
    .error (.invalid (ascii "tag " ++ decimal tag.toNat ++
      ascii " value is empty, too long, or not safe ASCII"))
  else .ok ()

def validateExtraTag (tag : UInt32) (value : Bytes) : Except ControlError Unit :=
  if tag ∈ managedOrderTags then
    .error (.invalid (ascii "extra tag " ++ decimal tag.toNat ++ ascii " is managed by the order schema"))
  else validateTagValue tag value

def sideCode : Side → Bytes
  | .buy => ascii "1"
  | .sell => ascii "2"

def orderTypeCode : OrderType → Bytes
  | .market => ascii "1"
  | .limit => ascii "2"

def timeInForceCode : TimeInForce → Bytes
  | .day => ascii "DAY"
  | .gtc => ascii "1"
  | .ioc => ascii "3"
  | .fok => ascii "4"

def tifThenPrice (price : Option Bytes) (timeInForce : TimeInForce) : List Field :=
  ⟨59,timeInForceCode timeInForce⟩ :: (price.map fun price => (⟨44,price⟩ : Field)).toList

def optionalField (tag : UInt32) (value : Option Bytes) : List Field :=
  (value.map fun value => (⟨tag,value⟩ : Field)).toList

def validateMaturity : Option Bytes → Except ControlError Unit
  | none => .ok ()
  | some maturity => validateTagValue 200 maturity

def validateExtraTags : List (UInt32 × Bytes) → Except ControlError Unit
  | [] => .ok ()
  | (tag,value) :: rest => do
    validateExtraTag tag value
    validateExtraTags rest

def newOrderFields (order : NewOrderSingle) (normalized : NormalizedOrder) : List Field :=
  [⟨1,order.account⟩,⟨21,ascii "1"⟩,⟨207,order.securityExchange⟩,⟨1151,order.securityGroup⟩,⟨55,order.symbol⟩,
    ⟨54,sideCode order.side⟩,⟨38,normalized.quantity⟩,⟨40,orderTypeCode order.orderType⟩] ++
    optionalField 200 order.maturityMonthYear ++ tifThenPrice normalized.price order.timeInForce ++
    order.extraTags.map fun (tag,value) => (⟨tag,value⟩ : Field)

def origClOrdId (planner : CommandPlanner δ) (cancel : CancelOrder) : Except ControlError Bytes :=
  match cancel.originalRequestId,cancel.clOrdId with
  | some requestId,none => .ok (clOrdId k planner.profile requestId)
  | none,some clOrdId =>
    if clOrdId = [] ∨ 64 < clOrdId.length then .error (.invalid (ascii "cl_ord_id is empty or too long"))
    else .ok clOrdId
  | some _,some _ => .error (.invalid (ascii "provide either original_request_id or cl_ord_id, not both"))
  | none,none => .error (.invalid (ascii "cancel requires original_request_id or cl_ord_id"))

def cancelFields (cancel : CancelOrder) (original : Bytes) : List Field :=
  [⟨41,original⟩,⟨1,cancel.account⟩,⟨1151,cancel.securityGroup⟩]

def replaceFields (planner : CommandPlanner δ) (replace : ReplaceOrder) (normalized : NormalizedOrder) :
    List Field :=
  [⟨41,clOrdId k planner.profile replace.originalRequestId⟩] ++ optionalField 1 replace.account ++
    optionalField 207 replace.securityExchange ++ optionalField 1151 replace.securityGroup ++
    [⟨55,replace.symbol⟩,⟨54,sideCode replace.side⟩,⟨38,normalized.quantity⟩,⟨40,orderTypeCode replace.orderType⟩] ++
    tifThenPrice normalized.price replace.timeInForce

def applicationRequest (planner : CommandPlanner δ) (request : ControlRequest) (msgType : String)
    (fields : List Field) : ApplicationRequest :=
  ⟨request.requestId,fingerprint k request (ascii msgType) fields,clOrdId k planner.profile request.requestId,
    ascii msgType,fields⟩

def planCommand (planner : CommandPlanner δ) (request : ControlRequest) : Except ControlError PlannedCommand :=
  match request.command with
  | .sessionStatus => .ok .sessionStatus
  | .sessionLogout =>
    if request.executionMode ≠ .certification then
      .error (.invalid (ascii "session logout requires certification execution_mode"))
    else .ok .sessionLogout
  | .newOrderSingle order => do
    let normalized ← validateOrder k planner order.quantity order.orderType order.price
    validateMaturity order.maturityMonthYear
    validateExtraTags order.extraTags
    .ok (.application (applicationRequest k planner request "D" (newOrderFields order normalized)))
  | .cancelOrder cancel => do
    let original ← origClOrdId k planner cancel
    .ok (.application (applicationRequest k planner request "F" (cancelFields cancel original)))
  | .replaceOrder replace => do
    let normalized ← validateOrder k planner replace.quantity replace.orderType replace.price
    .ok (.application (applicationRequest k planner request "G" (replaceFields k planner replace normalized)))

def plan (planner : CommandPlanner δ) (request : ControlRequest) : Except ControlError PlannedCommand := do
  validateEnvelope planner request
  planCommand k planner request

def Planned (planner : CommandPlanner δ) (request : ApplicationRequest) : Prop :=
  ∃ control, plan k planner control = .ok (.application request)

end

section

variable {δ : Type} {k : Crates δ} {planner : CommandPlanner δ} {request : ApplicationRequest}

theorem envelopeAccepts {control : ControlRequest} (ok : validateEnvelope planner control = .ok ()) :
    requestIdAccepted control.requestId = true := by
  unfold validateEnvelope at ok
  split at ok
  · cases ok
  split at ok
  · cases ok
  split at ok
  · cases ok
  · rename_i accepted
    simpa using accepted

theorem planShape {control : ControlRequest} (ok : plan k planner control = .ok (.application request)) :
    requestIdAccepted control.requestId = true ∧
      ∃ msgType fields, request = applicationRequest k planner control msgType fields := by
  obtain ⟨_,envelope,ok⟩ := boundOk ok
  refine ⟨envelopeAccepts envelope,?_⟩
  unfold planCommand at ok
  split at ok
  · cases ok
  · split at ok <;> cases ok
  · obtain ⟨_,_,ok⟩ := boundOk ok
    obtain ⟨_,_,ok⟩ := boundOk ok
    obtain ⟨_,_,ok⟩ := boundOk ok
    cases ok
    exact ⟨_,_,rfl⟩
  · obtain ⟨_,_,ok⟩ := boundOk ok
    cases ok
    exact ⟨_,_,rfl⟩
  · obtain ⟨_,_,ok⟩ := boundOk ok
    cases ok
    exact ⟨_,_,rfl⟩

theorem plannedShape (planned : Planned k planner request) : ∃ control msgType fields,
    requestIdAccepted control.requestId = true ∧ request = applicationRequest k planner control msgType fields := by
  obtain ⟨control,ok⟩ := planned
  obtain ⟨accepted,msgType,fields,rfl⟩ := planShape ok
  exact ⟨control,msgType,fields,accepted,rfl⟩

theorem hexOnly (input : Bytes) : ∀ b ∈ hex input, b ∈ hexDigits := by
  have length : hexDigits.length = 16 := by decide
  have inside (i : Nat) (small : i < 16) : hexDigits.getD i 0 ∈ hexDigits := by
    rw [List.getD_eq_getElem?_getD,List.getElem?_eq_getElem (by omega)]
    exact List.getElem_mem _
  intro b mem
  obtain ⟨byte,-,own⟩ := List.mem_flatMap.mp mem
  have bound := byte.toNat_lt
  rcases List.mem_cons.mp own with rfl | low
  · exact inside _ (by omega)
  · rw [List.mem_singleton.mp low]
    exact inside _ (by omega)

theorem plannedFingerprint (planned : Planned k planner request) :
    ∃ digest, request.fingerprint = hex digest := by
  obtain ⟨_,_,_,-,rfl⟩ := plannedShape planned
  exact ⟨_,rfl⟩

theorem plannedClOrdId (planned : Planned k planner request) : request.clOrdId ≠ [] := by
  obtain ⟨_,_,_,-,rfl⟩ := plannedShape planned
  have literal : ascii "FC-" = 0x46 :: ascii "C-" := by decide
  simp [applicationRequest,clOrdId,literal]

end

def orderDigest : Bytes :=
  [254, 231, 80, 247, 60, 104, 227, 95, 146, 219, 187, 247, 122, 80, 202, 198, 162, 30, 175, 62, 116, 146, 4, 12, 66,
    163, 107, 197, 63, 100, 17, 76]

def clOrdIdDigests : List (Bytes × Bytes) :=
  [(ascii "session:heartbeat:3:3",[227, 15, 7, 176, 242, 95, 185, 63, 139, 105, 213, 129]),
    (ascii "order-1",[161, 189, 193, 109, 188, 62, 132, 217, 141, 4, 79, 183])]

def venueCrates : Crates Nat where
  sha256 := fun input =>
    match clOrdIdDigests.find? (fun entry =>
      decide (input = ascii "fix-cli-clordid-v1" ++ [0] ++ ascii "venue" ++ [0] ++ entry.1)) with
    | some entry => entry.2
    | none => orderDigest
  fromStr := parseU64
  zero := 0
  le := fun a b => decide (a ≤ b)
  checkedMul := fun a b => some (a * b)
  normalized := decimal

def venuePlanner : CommandPlanner Nat := ⟨ascii "venue",.certification,⟨1000,1000000,false,10⟩⟩

def venueOrder (requestId : String) : ControlRequest :=
  ⟨1,ascii requestId,ascii "venue",.certification,.newOrderSingle
    ⟨ascii "IC2609",ascii "ACC",ascii "X",ascii "G",.buy,ascii "100",.market,none,.day,none,[]⟩⟩

def applicationOf (control : ControlRequest) : ApplicationRequest :=
  match plan venueCrates venuePlanner control with
  | .ok (.application request) => request
  | _ => ⟨[],[],[],[],[]⟩

end FixCli.Control
