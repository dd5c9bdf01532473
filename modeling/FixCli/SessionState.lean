import FixCli.Codec
import FixCli.Lib.Prog
import FixCli.Store

/-! The state of one `SessionActor`, the world it acts on and its primitive
effects. Every await consumes one tick of the environment, which says what the
clocks read there and whether the store or the socket fails there. The trace
(newest first) records what left the actor: store operations with the answer the
store computed, bytes handed to the socket with the journal as it stood then,
log records, broadcast events and each value given to `next_in`. -/
namespace FixCli.Session
open Lib Codec Store

structure SessionConfig where
  beginString : Bytes
  senderCompId : Bytes
  targetCompId : Bytes
  heartbeatIntervalSecs : Nat
  resetOnLogon : Bool
  deriving DecidableEq, Repr

inductive SessionPhase where
  | disconnected
  | connecting
  | logonSent
  | synchronizing
  | established
  | recovering
  | logoutSent
  | blocked
  deriving DecidableEq, Repr

structure SessionStatus where
  phase : SessionPhase
  nextOut : Nat
  nextIn : Nat
  testRequestOutstanding : Option Bytes
  deriving DecidableEq, Repr

structure ApplicationRequest where
  requestId : Bytes
  fingerprint : Bytes
  clOrdId : Bytes
  msgType : Bytes
  fields : List Field
  deriving DecidableEq, Repr

inductive SessionError where
  | actorStopped
  | store (text : Bytes)
  | codec (text : Bytes)
  | transport (text : Bytes)
  | protocol (text : Bytes)
  | notEstablished
  | invalidApplication (text : Bytes)
  deriving DecidableEq, Repr

def SessionError.text : SessionError → Bytes
  | .actorStopped => ascii "session actor stopped"
  | .store text => ascii "store error: " ++ text
  | .codec text => ascii "FIX codec error: " ++ text
  | .transport text => ascii "transport error: " ++ text
  | .protocol text => ascii "FIX session protocol error: " ++ text
  | .notEstablished => ascii "session is not established"
  | .invalidApplication text => ascii "invalid application request: " ++ text

def SessionError.isFatal : SessionError → Bool
  | .store _ | .codec _ | .transport _ | .protocol _ => true
  | .actorStopped | .notEstablished | .invalidApplication _ => false

inductive ActorCommand where
  | status
  | lookupCommand (requestId : Bytes)
  | submit (request : ApplicationRequest)
  | logout (text : Option Bytes)
  deriving DecidableEq, Repr

inductive ActorReply where
  | status (status : SessionStatus)
  | storedCommand (record : Option CommandRecord)
  | command (record : CommandRecord)
  | ack
  deriving DecidableEq, Repr

structure TestRequestOutstanding where
  id : Bytes
  deadline : Nat
  deriving DecidableEq, Repr

inductive LogRecord where
  | incoming (wire : Bytes)
  | outgoing (wire : Bytes)
  | info (text : Bytes)
  | error (text : Bytes)
  deriving DecidableEq, Repr

inductive SendPath where
  | logon
  | resendRequest
  | heartbeat
  | testRequest
  | logout
  | application
  | applicationReplay
  | gapFill
  deriving DecidableEq, Repr

inductive Event where
  | stored (op : StoreOp) (answer : Except StoreError StoreReply)
  | wrote (path : SendPath) (wire : Bytes) (journal : Journal)
  | logged (record : LogRecord)
  | phaseChanged (phase : SessionPhase)
  | transportClosed
  | protocolError (text : Bytes)
  | expecting (nextIn : Nat)
  | replied (reply : Except SessionError ActorReply)

/-- What happens at an await: it completes, it is refused without effect, it takes
effect but answers an error, or the process dies before or after the effect. -/
inductive Fault where
  | none
  | refused (text : Bytes)
  | lost (text : Bytes)
  | crashBefore
  | crashAfter
  deriving DecidableEq, Repr

structure Env where
  sendingTime : Nat → Bytes
  instant : Nat → Nat
  storeFault : Nat → Fault
  ioFault : Nat → Fault
  /-- Whether the build checks integer overflow (a debug build panics, a release
  build wraps). -/
  overflowChecks : Bool

structure Ctx where
  config : SessionConfig
  logonFields : List Field
  env : Env

structure Actor where
  phase : SessionPhase
  nextOut : Nat
  nextIn : Nat
  nextEvent : Nat
  gapBuffer : Table Nat Bytes
  lastOutbound : Nat
  lastInbound : Nat
  testRequest : Option TestRequestOutstanding

structure Shared where
  journal : Journal
  trace : List Event
  tick : Nat

structure World extends Actor, Shared

inductive Halt where
  | fail (error : SessionError)
  | panic
  | crash
  deriving DecidableEq, Repr

abbrev Act (α : Type) := Prog World Halt α

def fail {α : Type} (error : SessionError) : Act α := Prog.stop (.fail error)

def failProtocol {α : Type} (text : Bytes) : Act α := fail (.protocol text)

def emit (event : Event) : Act Unit := Prog.change fun w => {w with trace := event :: w.trace}

def info (text : Bytes) : Act Unit := emit (.logged (.info text))

def setPhase (phase : SessionPhase) : Act Unit :=
  Prog.change fun w => {w with phase := phase, trace := .phaseChanged phase :: w.trace}

def setNextIn (nextIn : Nat) : Act Unit :=
  Prog.change fun w => {w with nextIn := nextIn, trace := .expecting nextIn :: w.trace}

def sendingTime (c : Ctx) : Act Bytes := fun w =>
  (.ok (c.env.sendingTime w.tick),{w with tick := w.tick + 1})

def now (c : Ctx) : Act Nat := fun w => (.ok (c.env.instant w.tick),{w with tick := w.tick + 1})

def applied (op : StoreOp) (w : World) : World :=
  {w with
    journal := (apply w.journal op).2
    trace := .stored op (apply w.journal op).1 :: w.trace
    tick := w.tick + 1}

def storeError (e : StoreError) : Halt := .fail (.store e.text)

/-- `store.apply(op)` with the error mapped to `SessionError::Store`. -/
def storeApply (c : Ctx) (op : StoreOp) : Act StoreReply := fun w =>
  match c.env.storeFault w.tick with
  | .none => match (apply w.journal op).1 with
    | .ok reply => (.ok reply,applied op w)
    | .error e => (.error (storeError e),applied op w)
  | .refused text => (.error (storeError (.backend text)),
      {w with trace := .stored op (.error (.backend text)) :: w.trace, tick := w.tick + 1})
  | .lost text => (.error (storeError (.backend text)),applied op w)
  | .crashBefore => (.error .crash,{w with tick := w.tick + 1})
  | .crashAfter => (.error .crash,applied op w)

section

variable {c : Ctx} {op : StoreOp} {w v : World} {reply : StoreReply} {halt : Halt}

theorem storeReturns (healthy : c.env.storeFault w.tick = .none) (ok : (apply w.journal op).1 = .ok reply) :
    storeApply c op w = (.ok reply,applied op w) := by
  simp only [storeApply,healthy,ok]

theorem storeReturned (ok : storeApply c op w = (.ok reply,v)) :
    c.env.storeFault w.tick = .none ∧ (apply w.journal op).1 = .ok reply ∧ v = applied op w := by
  unfold storeApply at ok
  split at ok
  · rename_i healthy
    split at ok
    · rename_i answer
      cases ok
      exact ⟨healthy,answer,rfl⟩
    · cases ok
  all_goals cases ok

theorem storeFailed (bad : storeApply c op w = (.error halt,v)) :
    halt = .crash ∨ ∃ text, halt = .fail (.store text) := by
  unfold storeApply at bad
  repeat' split at bad
  all_goals cases bad
  all_goals first | exact .inl rfl | exact .inr ⟨_,rfl⟩

end

def handed (path : SendPath) (wire : Bytes) (w : World) : World :=
  {w with trace := .wrote path wire w.journal :: w.trace, tick := w.tick + 1}

/-- `write_all` and `flush`; a failed write may have put bytes on the socket. -/
def socketWrite (c : Ctx) (path : SendPath) (wire : Bytes) : Act Unit := fun w =>
  match c.env.ioFault w.tick with
  | .none => (.ok (),handed path wire w)
  | .refused text => (.error (.fail (.transport text)),{w with tick := w.tick + 1})
  | .lost text => (.error (.fail (.transport text)),handed path wire w)
  | .crashBefore => (.error .crash,{w with tick := w.tick + 1})
  | .crashAfter => (.error .crash,handed path wire w)

def writeWire (c : Ctx) (path : SendPath) (wire : Bytes) : Act Unit := do
  emit (.logged (.outgoing wire))
  socketWrite c path wire
  let at' ← now c
  Prog.change fun w => {w with lastOutbound := at'}

def plusOne (c : Ctx) (n : Nat) : Except Halt Nat :=
  if n + 1 < u64Limit then .ok (n + 1)
  else if c.env.overflowChecks then .error .panic
  else .ok 0

def inSession {α : Type} : Except SessionError α → Except Halt α
  | .ok a => .ok a
  | .error e => .error (.fail e)

theorem inSessionOk {α : Type} {r : Except SessionError α} {a : α} (ok : inSession r = .ok a) : r = .ok a := by
  cases r with
  | ok b => cases ok; rfl
  | error e => cases ok

def codecResult {α : Type} : Except (Stop ParseError) α → Except Halt α
  | .ok a => .ok a
  | .error (.error e) => .error (.fail (.codec e.text))
  | .error .panic => .error .panic

def requiredValue (message : ParsedMessage) (tag : UInt32) : Except SessionError Bytes :=
  match (message.values tag).head? with
  | some value => .ok value
  | none => .error (.protocol (ascii "required tag " ++ decimal tag.toNat ++ ascii " is missing"))

theorem requiredHead {message : ParsedMessage} {tag : UInt32} {value : Bytes} :
    requiredValue message tag = .ok value ↔ (message.values tag).head? = some value := by
  unfold requiredValue
  cases (message.values tag).head? <;> simp

def parseU64 (text : Bytes) : Option Nat :=
  let digits := match text with
    | 0x2B :: rest => rest
    | _ => text
  if digits = [] ∨ digits.any (fun b => !isDigit b) then none
  else readDigits u64Limit 0 digits

def requiredU64 (message : ParsedMessage) (tag : UInt32) : Except SessionError Nat := do
  let value ← requiredValue message tag
  if !isUtf8 value then
    .error (.protocol (ascii "tag " ++ decimal tag.toNat ++ ascii " is not ASCII"))
  else match parseU64 value with
    | some n => .ok n
    | none => .error (.protocol (ascii "tag " ++ decimal tag.toNat ++ ascii " is not an unsigned integer"))

def replayPayload (message : ParsedMessage) : List Field :=
  message.fields.filter (fun field => decide (field.tag ∉ [43, 52, 122]))

def sameReplayPayload (original replay : ParsedMessage) : Bool :=
  decide (replayPayload original = replayPayload replay)

def eventKind (msgType : Bytes) : Bytes :=
  if msgType = ascii "A" then ascii "session_logon"
  else if msgType = ascii "5" then ascii "session_logout"
  else if msgType = ascii "8" then ascii "execution_report"
  else ascii "fix_message"

def reservedLogonTags : List UInt32 := [0, 8, 9, 10, 34, 35, 43, 49, 52, 56, 98, 108, 1137, 122]

def validateCustomLogonFields : List Field → List UInt32 → Except SessionError Unit
  | [], _ => .ok ()
  | field :: rest, customTags =>
    if field.tag ∈ reservedLogonTags ∨ SOH ∈ field.value ∨ field.tag ∈ customTags then
      .error (.protocol (ascii "invalid custom Logon field " ++ decimal field.tag.toNat))
    else validateCustomLogonFields rest (field.tag :: customTags)

def isSensitiveTag (c : Ctx) (tag : UInt32) : Bool :=
  decide (tag ∈ [553, 554, 925]) || c.logonFields.any (fun field => field.tag == tag)

def encodeOutbound (c : Ctx) (fields : List Field) : Except SessionError Bytes :=
  match encodeMessage c.config.beginString fields with
  | .ok wire => .ok wire
  | .error e => .error (.codec e.text)

def standardHeader (c : Ctx) (msgType : Bytes) : Act (List Field) := do
  let time ← sendingTime c
  let w ← Prog.state
  pure [⟨35,msgType⟩,⟨49,c.config.senderCompId⟩,⟨56,c.config.targetCompId⟩,
    ⟨34,decimal w.nextOut⟩,⟨52,time⟩]

theorem headerRun (c : Ctx) (msgType : Bytes) (w : World) : standardHeader c msgType w =
    (.ok [⟨35,msgType⟩,⟨49,c.config.senderCompId⟩,⟨56,c.config.targetCompId⟩,⟨34,decimal w.nextOut⟩,
      ⟨52,c.env.sendingTime w.tick⟩],{w with tick := w.tick + 1}) := rfl

end FixCli.Session
