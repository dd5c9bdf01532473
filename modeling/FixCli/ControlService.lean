import FixCli.Planner
import FixCli.RateLimiter
import FixCli.SharedMoves
import Mathlib.Data.List.Infix

/-! `ControlService`: how the daemon answers control requests over the session in its
slot. Status, logout and dry runs are answered in one move; an application goes through
the single-flight section, where it waits for the store and then for the actor, and
anything else of the daemon may happen in between. Nothing but that section looks at
the rate limiter, so it is read and written in the move that ends a wait. -/
namespace FixCli.Control
open Lib Codec Store Session

inductive CommandResult where
  | status (status : SessionStatus)
  | logoutSent
  | validated (msgType clOrdId : Bytes) (fields : List Field)
  | command (phase : CommandPhase) (clOrdId : Bytes) (msgSeqNum : Nat)
  deriving DecidableEq, Repr

structure ControlErrorBody where
  code : String
  retryable : Bool
  message : Bytes
  deriving DecidableEq, Repr

structure ControlResponse where
  version : Nat
  requestId : Bytes
  ok : Bool
  result : Option CommandResult
  error : Option ControlErrorBody
  deriving DecidableEq, Repr

def failed (requestId : Bytes) (error : ControlErrorBody) : ControlResponse := ⟨1,requestId,false,none,some error⟩

def errorResponse (requestId : Bytes) (error : ControlError) : ControlResponse :=
  failed requestId ⟨error.code,error.retryable,error.message⟩

def sessionErrorCode : SessionError → String × Bool
  | .notEstablished => ("SESSION_NOT_ESTABLISHED",true)
  | .store text =>
    if ascii "different fingerprint" <:+: text then ("IDEMPOTENCY_CONFLICT",false) else ("STORE_UNAVAILABLE",true)
  | .transport _ => ("TRANSPORT_ERROR",true)
  | .codec _ | .protocol _ => ("PROTOCOL_ERROR",false)
  | .actorStopped => ("SESSION_NOT_ESTABLISHED",true)
  | .invalidApplication _ => ("INVALID_REQUEST",false)

def sessionErrorResponse (requestId : Bytes) (error : SessionError) : ControlResponse :=
  failed requestId ⟨(sessionErrorCode error).1,(sessionErrorCode error).2,error.text⟩

def responseOf (requestId : Bytes) : Except SessionError CommandResult → ControlResponse
  | .ok result => ⟨1,requestId,true,some result,none⟩
  | .error error => sessionErrorResponse requestId error

def rateLimited (requestId : Bytes) : ControlResponse :=
  failed requestId ⟨"RATE_LIMITED",true,ascii "outbound message rate limit exceeded"⟩

def commandResult (command : CommandRecord) : CommandResult :=
  .command command.phase command.clOrdId command.msgSeqNum

def statusOf : ActorReply → Except SessionError CommandResult
  | .status status => .ok (.status status)
  | .storedCommand _ | .command _ | .ack => .error .actorStopped

def logoutOf : ActorReply → Except SessionError CommandResult
  | .ack => .ok .logoutSent
  | .status _ | .storedCommand _ | .command _ => .error .actorStopped

def storedOf : ActorReply → Except SessionError (Option CommandRecord)
  | .storedCommand command => .ok command
  | .status _ | .command _ | .ack => .error .actorStopped

def commandOf : ActorReply → Except SessionError CommandResult
  | .command command => .ok (commandResult command)
  | .status _ | .storedCommand _ | .ack => .error .actorStopped

structure ControlService (δ : Type) where
  crates : Crates δ
  planner : CommandPlanner δ
  store : Bool

/-- The one application that holds `application_gate`, with the handle it read from the
slot. -/
inductive Gate where
  | free
  | looking (request : ControlRequest) (application : ApplicationRequest) (session : Option Nat)
  | submitted (request : ControlRequest) (application : ApplicationRequest) (session : Nat)
  /-- The process died under it. -/
  | gone

/-- A granted `try_acquire`: when, and the original frames its submit put on the socket. -/
structure Admission where
  requestId : Bytes
  instant : Nat
  frames : List Bytes
  deriving DecidableEq, Repr

/-- The daemon: the actor spawned last (its number is its handle), the slot, and what
the service holds. `clock` is what `try_acquire` read last. -/
structure Desk where
  ctx : Ctx
  conn : Conn
  spawned : Nat
  slot : Option Nat
  gate : Gate
  limiter : RateLimitState
  clock : Nat
  admissions : List Admission
  answers : List (ControlRequest × ControlResponse)

def unspawned : Actor := ⟨.disconnected,0,0,0,∅,0,0,none⟩

def Desk.start (c : Ctx) (s : Shared) : Desk :=
  ⟨c,⟨⟨unspawned,s⟩,false⟩,0,none,.free,.empty,0,[],[]⟩

def answer (request : ControlRequest) (response : ControlResponse) (d : Desk) : Desk :=
  {d with answers := (request,response) :: d.answers}

/-- What a caller hears: an actor that panics drops its reply, a dead process nothing. -/
def heard {α : Type} : Except Halt α → Option (Except SessionError α)
  | .ok a => some (.ok a)
  | .error (.fail error) => some (.error error)
  | .error .panic => some (.error .actorStopped)
  | .error .crash => none

def ask (d : Desk) (session : Nat) (command : ActorCommand) :
    Option (Except SessionError ActorReply) × Conn :=
  if session = d.spawned ∧ d.conn.live = true then
    (heard (Session.commandResult d.ctx command d.conn.world).1,Session.step d.ctx d.conn (.command command))
  -- the handle of an actor that has ended finds its channel closed
  else (some (.error .actorStopped),d.conn)

inductive Dispatch where
  | answered (result : Except SessionError CommandResult)
  | asks (command : ActorCommand) (taken : ActorReply → Except SessionError CommandResult)
      (absent : Except SessionError CommandResult)
  | admits (application : ApplicationRequest)

def dispatch (request : ControlRequest) : PlannedCommand → Dispatch
  | .sessionStatus => .asks .status statusOf (.ok (.status ⟨.disconnected,0,0,none⟩))
  | .sessionLogout =>
    .asks (.logout (some (ascii "control request " ++ request.requestId))) logoutOf (.error .actorStopped)
  | .application application => match request.executionMode with
    | .dryRun => .answered (.ok (.validated application.msgType application.clOrdId application.fields))
    | .certification | .live => .admits application
    | .inspect => .answered (.error (.invalidApplication (ascii "application command cannot use inspect mode")))

section

variable {δ : Type} (service : ControlService δ)

def execute (d : Desk) (request : ControlRequest) (session : Option Nat) : Desk :=
  match plan service.crates service.planner request with
  | .error error => answer request (errorResponse request.requestId error) d
  | .ok planned => match dispatch request planned with
    | .answered result => answer request (responseOf request.requestId result) d
    | .asks command taken absent => match session with
      | none => answer request (responseOf request.requestId absent) d
      | some session => match ask d session command with
        | (some reply,conn) => answer request (responseOf request.requestId (reply >>= taken)) {d with conn := conn}
        | (none,conn) => {d with conn := conn, gate := .gone}
    | .admits application => match d.gate with
      | .free => {d with gate := .looking request application d.slot}
      -- `application_gate` is taken: the call waits
      | _ => d

def lookupPersistedCommand (d : Desk) (session : Option Nat) (requestId : Bytes) :
    Option (Except SessionError (Option CommandRecord)) × Conn :=
  if service.store then
    let (result,world) := loadCommand d.ctx requestId d.conn.world
    (heard result,{d.conn with world := world})
  else match session with
    | none => (some (.ok none),d.conn)
    | some session =>
      let (reply,conn) := ask d session (.lookupCommand requestId)
      (reply.map fun reply => reply >>= storedOf,conn)

def reused (requestId : Bytes) : SessionError :=
  .store (ascii "request ID " ++ requestId ++ ascii " was reused with a different fingerprint")

def reserve (d : Desk) (now : Nat) (request : ControlRequest) (application : ApplicationRequest) (session : Nat) :
    Desk :=
  match tryAcquire service.planner.policy.maxMessagesPerSecond now request.requestId d.limiter with
  | (true,limiter) =>
    {d with
      gate := .submitted request application session
      limiter := limiter
      clock := now
      admissions := ⟨request.requestId,now,[]⟩ :: d.admissions}
  | (false,limiter) =>
    answer request (rateLimited request.requestId) {d with gate := .free, limiter := limiter, clock := now}

def lookedUp (d : Desk) (now : Nat) (request : ControlRequest) (application : ApplicationRequest)
    (session : Option Nat) : Except SessionError (Option CommandRecord) → Desk
  | .error error => answer request (sessionErrorResponse request.requestId error) {d with gate := .free}
  | .ok (some existing) =>
    if existing.fingerprint ≠ application.fingerprint then
      answer request (sessionErrorResponse request.requestId (reused application.requestId)) {d with gate := .free}
    else answer request (responseOf request.requestId (.ok (commandResult existing))) {d with gate := .free}
  | .ok none => match session with
    | some session => reserve service d now request application session
    | none => answer request (sessionErrorResponse request.requestId .actorStopped) {d with gate := .free}

def lookup (d : Desk) (elapsed : Nat) : Desk :=
  match d.gate with
  | .looking request application session =>
    match lookupPersistedCommand service d session application.requestId with
    | (some result,conn) => lookedUp service {d with conn := conn} (d.clock + elapsed) request application session result
    | (none,conn) => {d with conn := conn, gate := .gone}
  | _ => d

def filed (frames : List Bytes) : List Admission → List Admission
  | [] => []
  | admission :: rest => {admission with frames := frames} :: rest

def releases : Except SessionError ActorReply → Bool
  -- the two errors that say the actor took nothing on
  | .error .actorStopped | .error .notEstablished => true
  | _ => false

def submit (d : Desk) : Desk :=
  match d.gate with
  | .submitted request application session =>
    let (reply,conn) := ask d session (.submit application)
    let added := (applicationFrames conn.world.trace).length - (applicationFrames d.conn.world.trace).length
    let d := {d with
      conn := conn
      admissions := filed ((applicationFrames conn.world.trace).take added) d.admissions}
    match reply with
    | none => {d with gate := .gone}
    | some reply =>
      answer request (responseOf request.requestId (reply >>= commandOf)) {d with
        gate := .free
        limiter := if releases reply then release request.requestId d.limiter else d.limiter}
  | _ => d

def submits : Input → Bool
  | .command (.submit _) => true
  | _ => false

/-- What happens next in the daemon; submits come from `execute` only. -/
inductive Move where
  | execute (request : ControlRequest) (session : Option Nat)
  | lookup (elapsed : Nat)
  | submit
  | input (input : Input) (outside : submits input = false)
  | spawn (ctx : Ctx)
  | replace
  | clear

def serve (d : Desk) : Move → Desk
  | .execute request session => execute service d request session
  | .lookup elapsed => lookup service d elapsed
  | .submit => submit d
  | .input input _ => {d with conn := Session.step d.ctx d.conn input}
  | .spawn ctx =>
    if d.conn.live then d
    else {d with ctx := ctx, conn := Session.spawn ctx d.conn.world.toShared, spawned := d.spawned + 1}
  | .replace => {d with slot := some d.spawned}
  | .clear => {d with slot := none}

def served (d : Desk) (moves : List Move) : Desk := moves.foldl (serve service) d

end

def venueService : ControlService Nat := ⟨venueCrates,venuePlanner,true⟩

theorem logonOutside : submits (.frame (venueLogon 1)) = false := rfl

def venueDesk : Desk := served venueService (Desk.start venueCtx fresh)
  [.spawn venueCtx,.replace,.input (.frame (venueLogon 1)) logonOutside]

example : venueDesk.conn.live = true ∧ sessionStatus venueDesk.conn.world = ⟨.established,2,2,none⟩ := by
  decide +kernel

end FixCli.Control
