import FixCli.RequestFormat

/-! The daemon's local endpoint: the clients it has accepted, each with a task that reads a
request, has it executed and writes the response, over one service. -/
namespace FixCli.Control
open Lib Session

inductive Task where
  | reading
  | executing (request : ControlRequest)
  | writing (response : ControlResponse)
  | returned

structure Client where
  wrote : Bytes
  unread : Bytes
  task : Task
  outbound : Bytes

/-- `holder` is the client whose request holds the application gate; `log` says to whom
each answer of the service went, the newest first. -/
structure Endpoint where
  desk : Desk
  clients : List Client
  holder : Option Nat
  log : List (Nat × ControlRequest × ControlResponse)

def clientSlots : Nat := 64

namespace Client

def accepted : Client := ⟨[],[],.reading,[]⟩

def active (client : Client) : Bool :=
  match client.task with
  | .returned => false
  | _ => true

def writes (bytes : Bytes) (client : Client) : Client :=
  {client with wrote := client.wrote ++ bytes, unread := client.unread ++ bytes}

def reads (decode : Bytes → Option ControlRequest) (client : Client) : Client :=
  match client.task with
  | .reading => match readJsonFrame ipcLimit client.unread with
    | .ok (payload,rest) => match decode payload with
      | some request => {client with task := .executing request, unread := rest}
      | none => {client with task := .returned}
    -- an announced length beyond the limit ends the task, a part of a frame is waited upon
    | .error (.frameTooLarge _ _) => {client with task := .returned}
    | .error (.io _) => client
  | _ => client

def responds (client : Client) : Client :=
  match client.task with
  | .writing response => match writeJsonFrame ipcLimit response.json with
    | .ok frame => {client with task := .reading, outbound := client.outbound ++ frame}
    | .error _ => {client with task := .returned}
  | _ => client

def breaks (sent : Nat) (client : Client) : Client :=
  match client.task with
  | .reading => {client with task := .returned}
  | .writing response => match writeJsonFrame ipcLimit response.json with
    -- the timeout or the error strikes behind `sent` bytes of the frame
    | .ok frame => {client with task := .returned, outbound := client.outbound ++ frame.take sent}
    | .error _ => {client with task := .returned}
  | .executing _ | .returned => client

end Client

inductive Happening where
  | accepts
  | writes (client : Nat) (bytes : Bytes)
  | reads (client : Nat)
  | executes (client : Nat) (session : Option Nat)
  | lookup (elapsed : Nat)
  | submit
  | responds (client : Nat)
  | breaks (client : Nat) (sent : Nat)
  | input (input : Input) (outside : submits input = false)
  | spawn (ctx : Ctx)
  | replace
  | clear

def Gate.request : Gate → Option ControlRequest
  | .looking request _ _ => some request
  | .submitted request _ _ => some request
  | .free | .gone => none

def Gate.dead : Gate → Bool
  | .gone => true
  | _ => false

def newest (before after : Desk) : Option (ControlRequest × ControlResponse) :=
  if before.answers.length < after.answers.length then after.answers.head? else none

namespace Endpoint

def start (c : Ctx) (s : Shared) : Endpoint := ⟨Desk.start c s,[],none,[]⟩

def active (e : Endpoint) : Nat := e.clients.countP Client.active

def accepts (e : Endpoint) : Endpoint :=
  if e.active < clientSlots then {e with clients := e.clients ++ [.accepted]} else e

def handed (e : Endpoint) (desk : Desk) (client : Nat) : Endpoint :=
  match newest e.desk desk with
  | some (request,response) =>
    {desk := desk
     clients := e.clients.modify client fun c => {c with task := .writing response}
     holder := if e.holder = some client then none else e.holder
     log := (client,request,response) :: e.log}
  | none => {e with desk := desk}

section

variable {δ : Type} (service : ControlService δ)

def executes (e : Endpoint) (client : Nat) (session : Option Nat) : Endpoint :=
  match e.clients[client]?.map Client.task with
  | some (.executing request) =>
    if e.holder = some client then e
    else
      let desk := execute service e.desk request session
      if e.desk.gate.request.isNone && desk.gate.request.isSome then {e.handed desk client with holder := some client}
      else e.handed desk client
  | _ => e

def holderMoves (e : Endpoint) (desk : Desk) : Endpoint :=
  match e.holder with
  | some client => e.handed desk client
  | none => e

def happens (decode : Bytes → Option ControlRequest) (e : Endpoint) (happening : Happening) : Endpoint :=
  if e.desk.gate.dead then e
  else match happening with
    | .accepts => e.accepts
    | .writes client bytes => {e with clients := e.clients.modify client (Client.writes bytes)}
    | .reads client => {e with clients := e.clients.modify client (Client.reads decode)}
    | .executes client session => e.executes service client session
    | .lookup elapsed => e.holderMoves (Control.lookup service e.desk elapsed)
    | .submit => e.holderMoves (Control.submit e.desk)
    | .responds client => {e with clients := e.clients.modify client Client.responds}
    | .breaks client sent => {e with clients := e.clients.modify client (Client.breaks sent)}
    | .input input outside => {e with desk := serve service e.desk (.input input outside)}
    | .spawn ctx => {e with desk := serve service e.desk (.spawn ctx)}
    | .replace => {e with desk := serve service e.desk .replace}
    | .clear => {e with desk := serve service e.desk .clear}

def runs (decode : Bytes → Option ControlRequest) (e : Endpoint) (happenings : List Happening) : Endpoint :=
  happenings.foldl (happens service decode) e

end

def dealt (e : Endpoint) (client : Nat) : List (ControlRequest × ControlResponse) :=
  ((e.log.filter fun entry => entry.1 = client).map Prod.snd).reverse

end Endpoint

inductive Deals (request : ControlRequest) (d v : Desk) : Prop
  | waits (answers : v.answers = d.answers) (gate : v.gate.request = d.gate.request)
  | enters (answers : v.answers = d.answers) (free : d.gate.request = none) (gate : v.gate.request = some request)
  | dies (answers : v.answers = d.answers) (gate : v.gate = .gone)
  | answers (response : ControlResponse) (answers : v.answers = (request,response) :: d.answers)
      (gate : v.gate.request = d.gate.request)

inductive Proceeds (request : ControlRequest) (d v : Desk) : Prop
  | goesOn (answers : v.answers = d.answers) (gate : v.gate.request = d.gate.request)
  | dies (answers : v.answers = d.answers) (gate : v.gate = .gone)
  | ends (response : ControlResponse) (answers : v.answers = (request,response) :: d.answers)
      (gate : v.gate.request = none)

section

variable {δ : Type} {service : ControlService δ} {d : Desk}

theorem askDeals (request : ControlRequest) (session : Nat) (command : ActorCommand)
    (taken : ActorReply → Except SessionError CommandResult) :
    Deals request d (match ask d session command with
      | (some reply,conn) => answer request (responseOf request.requestId (reply >>= taken)) {d with conn := conn}
      | (none,conn) => {d with conn := conn, gate := .gone}) := by
  rcases ask d session command with ⟨_ | reply,conn⟩
  · exact .dies rfl rfl
  · exact .answers _ rfl rfl

theorem executeDeals (request : ControlRequest) (session : Option Nat) :
    Deals request d (execute service d request session) := by
  unfold execute
  split
  · exact .answers _ rfl rfl
  · rename_i planned _
    cases planned with
    | sessionStatus =>
      cases session with
      | none => exact .answers _ rfl rfl
      | some session => exact askDeals request session _ _
    | sessionLogout =>
      cases session with
      | none => exact .answers _ rfl rfl
      | some session => exact askDeals request session _ _
    | application application =>
      simp only [dispatch]
      cases request.executionMode with
      | dryRun | inspect => exact .answers _ rfl rfl
      | certification | live =>
        cases gate : d.gate with
        | free => exact .enters rfl (by rw [gate]; rfl) rfl
        | looking _ _ _ | submitted _ _ _ | gone => exact .waits rfl rfl

theorem lookupDeals {request : ControlRequest} (held : d.gate.request = some request) (elapsed : Nat) :
    Proceeds request d (lookup service d elapsed) := by
  unfold lookup
  split
  · rename_i asked application session gate
    have same : asked = request := by
      rw [gate] at held
      exact Option.some.inj held
    subst same
    rcases lookupPersistedCommand service d session application.requestId with ⟨_ | result,conn⟩
    · exact .dies rfl rfl
    · dsimp only
      unfold lookedUp reserve
      repeat' split
      all_goals first | exact .ends _ rfl rfl | exact .goesOn rfl held.symm
  · exact .goesOn rfl rfl

theorem submitDeals {request : ControlRequest} (held : d.gate.request = some request) :
    Proceeds request d (submit d) := by
  unfold submit
  split
  · rename_i asked application session gate
    have same : asked = request := by
      rw [gate] at held
      exact Option.some.inj held
    subst same
    rcases ask d session (.submit application) with ⟨_ | reply,conn⟩
    · exact .dies rfl rfl
    · exact .ends _ rfl rfl
  · exact .goesOn rfl rfl

end
end FixCli.Control
