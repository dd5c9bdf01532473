import FixCli.ControlService
import FixCli.SubmitFrames

/-! What one move of the daemon can do, said once. -/
namespace FixCli.Control
open Lib Codec Store Session

abbrev Desk.shared (d : Desk) : Shared := d.conn.world.toShared

def Truthful (j : Journal) (pair : ControlRequest × ControlResponse) : Prop :=
  ∀ phase clOrdId n, pair.2.result = some (.command phase clOrdId n) → ∃ record : CommandRecord,
    j.commands[pair.1.requestId]? = some record ∧ record.clOrdId = clOrdId ∧ record.msgSeqNum = n

def Reports (j k : Journal) (before after : List (ControlRequest × ControlResponse)) : Prop :=
  ∃ new, after = new ++ before ∧ (Recorded j → ∀ pair ∈ new, Truthful k pair)

section

variable {d : Desk} {session : Nat}

open Prog

theorem askRetains (d : Desk) (session : Nat) {command : ActorCommand} (other : ∀ request, command ≠ .submit request) :
    Retains d.shared (ask d session command).2.world.toShared := by
  unfold ask
  split
  · exact allowsRetains.steps (fun _ apart => apart) d.conn (.command command)
      fun request same => absurd (Input.command.inj same) (other request)
  · exact allowsRetains.refl _

theorem commandLeaves {c : Ctx} {conn : Conn} (live : conn.live = true) (command : ActorCommand) :
    applicationFrames (Session.step c conn (.command command)).world.trace =
        applicationFrames (Session.commandResult c command conn.world).2.trace ∧
      (Session.step c conn (.command command)).world.journal = (Session.commandResult c command conn.world).2.journal := by
  simp only [Session.step,live,if_true,react,handleCommandRun]
  rcases Session.commandResult c command conn.world with ⟨halt | reply,v⟩
  · cases halt with
    | fail error =>
      cases fatal : error.isFatal with
      | true => simp only [fatal,if_true]; exact ⟨rfl,rfl⟩
      | false => simp only [fatal,Bool.false_eq_true,if_false]; exact ⟨rfl,rfl⟩
    | panic | crash => exact ⟨rfl,rfl⟩
  · exact ⟨rfl,rfl⟩

theorem askSubmit (d : Desk) (session : Nat) (application : ApplicationRequest) :
    Records d.shared (ask d session (.submit application)).2.world.toShared ∧
    (applicationFrames (ask d session (.submit application)).2.world.trace = applicationFrames d.conn.world.trace ∨
      (∃ wire, applicationFrames (ask d session (.submit application)).2.world.trace =
          wire :: applicationFrames d.conn.world.trace) ∧
        ((ask d session (.submit application)).2.world.journal.commands[application.requestId]?).isSome = true ∧
        ∀ reply, (ask d session (.submit application)).1 = some reply → releases reply = false) := by
  unfold ask
  split
  · rename_i reached
    refine ⟨allowsRecords.steps (fun _ _ => trivial) d.conn _ fun _ _ => trivial,?_⟩
    obtain ⟨frames,journal⟩ := commandLeaves (c := d.ctx) reached.2 (.submit application)
    dsimp only
    rw [frames,journal]
    have submitted := submitFrames (c := d.ctx) application (applicationFrames d.conn.world.trace) d.conn.world rfl
    rcases run : submitApplication d.ctx application d.conn.world with ⟨halt | command,v⟩
    · rw [run] at submitted
      have result : Session.commandResult d.ctx (.submit application) d.conn.world = (.error halt,v) := bindStops run
      rw [result]
      refine submitted.imp_right fun ⟨one,recorded,quit⟩ => ⟨one,recorded,fun reply same => ?_⟩
      rcases quit halt rfl with rfl | ⟨error,rfl,fatal⟩
      · cases same
      · cases same
        cases error <;> first | rfl | cases fatal
    · rw [run] at submitted
      have result : Session.commandResult d.ctx (.submit application) d.conn.world = (.ok (.command command),v) :=
        bindReturns run
      rw [result]
      exact submitted.imp_right fun ⟨one,recorded,_⟩ => ⟨one,recorded,fun reply same => by cases same; rfl⟩
  · exact ⟨.refl _,.inl rfl⟩

end

section

variable {δ : Type} {service : ControlService δ}

inductive Served (service : ControlService δ) (d : Desk) : Move → Desk → Prop
  | aside {move : Move} {v : Desk}
      (rest : v = {d with
        ctx := v.ctx, conn := v.conn, spawned := v.spawned, slot := v.slot, gate := v.gate, answers := v.answers})
      (gate : v.gate = d.gate ∨ v.gate = .gone ∨ v.gate = .free ∧ ∃ elapsed, move = .lookup elapsed)
      (kept : Retains d.shared v.shared) (reports : Reports d.shared.journal v.shared.journal d.answers v.answers) :
      Served service d move v
  | takes {request : ControlRequest} {session : Option Nat} {application : ApplicationRequest}
      (planned : plan service.crates service.planner request = .ok (.application application))
      (free : d.gate = .free) :
      Served service d (.execute request session) {d with gate := .looking request application d.slot}
  | admits {elapsed session : Nat} {request : ControlRequest} {application : ApplicationRequest} {conn : Conn}
      (looking : d.gate = .looking request application (some session))
      (lookedUp : lookupPersistedCommand service d (some session) application.requestId = (some (.ok none),conn))
      (kept : Retains d.shared conn.world.toShared)
      (unrecorded : d.shared.journal.commands[application.requestId]? = none) :
      Served service d (.lookup elapsed)
        (reserve service {d with conn := conn} (d.clock + elapsed) request application session)
  | submits {session : Nat} {request : ControlRequest} {application : ApplicationRequest}
      (submitted : d.gate = .submitted request application session) : Served service d .submit (submit d)

theorem answersAside {move : Move} {conn : Conn} {gate : Gate} {request : ControlRequest} {response : ControlResponse}
    (kept : Retains d.shared conn.world.toShared)
    (closes : gate = d.gate ∨ gate = .gone ∨ gate = .free ∧ ∃ elapsed, move = .lookup elapsed)
    (truth : Recorded d.shared.journal → Truthful conn.world.journal (request,response)) :
    Served service d move (answer request response {d with conn := conn, gate := gate}) :=
  .aside rfl closes kept ⟨[_],rfl,fun recorded pair mem => by rw [List.mem_singleton.mp mem]; exact truth recorded⟩

theorem movesAside {move : Move} {conn : Conn} {gate : Gate} (kept : Retains d.shared conn.world.toShared)
    (closes : gate = d.gate ∨ gate = .gone ∨ gate = .free ∧ ∃ elapsed, move = .lookup elapsed) :
    Served service d move {d with conn := conn, gate := gate} :=
  .aside rfl closes kept ⟨[],rfl,fun _ _ mem => by cases mem⟩

theorem answersHere {move : Move} {conn : Conn} {request : ControlRequest} {response : ControlResponse}
    (kept : Retains d.shared conn.world.toShared)
    (truth : Recorded d.shared.journal → Truthful conn.world.journal (request,response)) :
    Served service d move (answer request response {d with conn := conn}) :=
  answersAside kept (.inl rfl) truth

theorem movesHere {move : Move} {conn : Conn} (kept : Retains d.shared conn.world.toShared) :
    Served service d move {d with conn := conn} :=
  movesAside kept (.inl rfl)

theorem failedTruthful (j : Journal) (request : ControlRequest) (error : ControlErrorBody) :
    Truthful j (request,failed request.requestId error) := fun _ _ _ same => by cases same

theorem askedTruthful {taken : ActorReply → Except SessionError CommandResult}
    (other : ∀ reply phase clOrdId n, taken reply ≠ .ok (.command phase clOrdId n)) (j : Journal)
    (request : ControlRequest) (reply : Except SessionError ActorReply) :
    Truthful j (request,responseOf request.requestId (reply >>= taken)) := by
  intro phase clOrdId n same
  rcases reply with error | reply
  · cases same
  · change (responseOf request.requestId (taken reply)).result = _ at same
    cases result : taken reply with
    | error error => rw [result] at same; cases same
    | ok value =>
      rw [result] at same
      cases same
      exact absurd result (other reply _ _ _)

theorem asksAside {move : Move} (d : Desk) (request : ControlRequest) (session : Nat) {command : ActorCommand}
    (unsubmitted : ∀ application, command ≠ .submit application) {taken : ActorReply → Except SessionError CommandResult}
    (other : ∀ reply phase clOrdId n, taken reply ≠ .ok (.command phase clOrdId n)) :
    Served service d move (match ask d session command with
      | (some reply,conn) => answer request (responseOf request.requestId (reply >>= taken)) {d with conn := conn}
      | (none,conn) => {d with conn := conn, gate := .gone}) := by
  have kept := askRetains d session unsubmitted
  rcases asked : ask d session command with ⟨reply | _,conn⟩
  · rw [asked] at kept
    exact movesAside kept (.inr (.inl rfl))
  · rw [asked] at kept
    exact answersHere kept fun _ => askedTruthful other _ _ _

theorem executeCases (d : Desk) (request : ControlRequest) (session : Option Nat) :
    Served service d (.execute request session) (execute service d request session) := by
  have still : Retains d.shared d.conn.world.toShared := allowsRetains.refl _
  unfold execute
  cases planned : plan service.crates service.planner request with
  | error error => exact answersHere still fun _ => failedTruthful _ _ _
  | ok command =>
    cases command with
    | sessionStatus =>
      cases session with
      | none => exact answersHere still fun _ _ _ _ same => by cases same
      | some session =>
        exact asksAside d request session (fun _ same => by cases same) fun reply _ _ _ same => by
          cases reply <;> cases same
    | sessionLogout =>
      cases session with
      | none => exact answersHere still fun _ _ _ _ same => by cases same
      | some session =>
        exact asksAside d request session (fun _ same => by cases same) fun reply _ _ _ same => by
          cases reply <;> cases same
    | application application =>
      simp only [dispatch]
      cases request.executionMode with
      | dryRun => exact answersHere still fun _ _ _ _ same => by cases same
      | inspect => exact answersHere still fun _ _ _ _ same => by cases same
      | certification | live =>
        cases gate : d.gate with
        | free => exact .takes planned gate
        | looking _ _ _ | submitted _ _ _ | gone => exact movesHere still

theorem loadedCommand {c : Ctx} {requestId : Bytes} {w v : World} {record : Option CommandRecord}
    (ok : loadCommand c requestId w = (.ok record,v)) : w.journal.commands[requestId]? = record := by
  obtain ⟨reply,u,stored,ok⟩ := Prog.bindReturned ok
  obtain ⟨-,answer,rfl⟩ := storeReturned stored
  cases answer
  cases ok
  rfl

theorem heardOk {α : Type} {r : Except Halt α} {a : α} (ok : heard r = some (.ok a)) : r = .ok a := by
  cases r with
  | ok b => cases ok; rfl
  | error halt => cases halt <;> cases ok

variable (service) in
theorem lookupRetains (d : Desk) (session : Option Nat) (requestId : Bytes) :
    Retains d.shared (lookupPersistedCommand service d session requestId).2.world.toShared ∧
      ∀ record, (lookupPersistedCommand service d session requestId).1 = some (.ok record) →
        d.shared.journal.commands[requestId]? = record ∨ record = none ∧ session = none := by
  have loads : Prog.Moves (Sharing Retains) (loadCommand d.ctx requestId) := by
    have := allowsRetains.isRefl
    have := allowsRetains.isTrans
    refine Prog.Moves.bind (allowsRetains.store _) fun reply => ?_
    split
    · exact Prog.Moves.pure _
    · exact Prog.Moves.stop _
  unfold lookupPersistedCommand
  split
  · refine ⟨loads d.conn.world,fun record ok => .inl ?_⟩
    rcases run : loadCommand d.ctx requestId d.conn.world with ⟨result,v⟩
    simp only [run] at ok
    rw [heardOk ok] at run
    exact loadedCommand run
  · cases session with
    | none => exact ⟨allowsRetains.refl _,fun _ ok => .inr ⟨by cases ok; rfl,rfl⟩⟩
    | some session =>
      refine ⟨askRetains d session (fun _ same => by cases same),fun record ok => .inl ?_⟩
      rcases asked : ask d session (.lookupCommand requestId) with ⟨reply,conn⟩
      simp only [asked,Option.map_eq_some_iff] at ok
      obtain ⟨reply,rfl,ok⟩ := ok
      obtain ⟨reply,rfl,ok⟩ := boundOk ok
      unfold ask at asked
      split at asked
      · have given := heardOk (Prod.mk.inj asked).1
        rcases run : loadCommand d.ctx requestId d.conn.world with ⟨halt | command,v⟩
        · rw [Session.commandResult,Prog.bindStops run] at given
          cases given
        · rw [Session.commandResult,Prog.bindReturns run] at given
          cases given
          cases ok
          exact loadedCommand run
      · cases (Prod.mk.inj asked).1

def Named (d : Desk) : Prop :=
  (∀ request application session, d.gate = .looking request application session →
    application.requestId = request.requestId) ∧
  ∀ request application session, d.gate = .submitted request application session →
    application.requestId = request.requestId

variable (service) in
theorem lookupCases (named : Named d) (elapsed : Nat) :
    Served service d (.lookup elapsed) (lookup service d elapsed) := by
  unfold lookup
  split
  · rename_i request application session gate
    obtain ⟨kept,answers⟩ := lookupRetains service d session application.requestId
    rcases run : lookupPersistedCommand service d session application.requestId with ⟨_ | result,conn⟩
    · rw [run] at kept
      exact movesAside kept (.inr (.inl rfl))
    rw [run] at kept answers
    rcases result with error | record
    · exact answersAside kept (.inr (.inr ⟨rfl,_,rfl⟩)) fun _ => failedTruthful _ _ _
    have found := answers record rfl
    cases record with
    | some existing =>
      have stored : d.shared.journal.commands[application.requestId]? = some existing :=
        found.resolve_right fun none => by cases none.1
      simp only [lookedUp]
      split
      · exact answersAside kept (.inr (.inr ⟨rfl,_,rfl⟩)) fun _ => failedTruthful _ _ _
      · refine answersAside kept (.inr (.inr ⟨rfl,_,rfl⟩)) fun recorded phase clOrdId n same => ?_
        cases same
        obtain ⟨later,after,kind⟩ := (kept.grows recorded).2.commands _ _ stored
        exact ⟨later,named.1 _ _ _ gate ▸ after,kind.clOrdId,kind.msgSeqNum⟩
    | none =>
      cases session with
      | none => exact answersAside kept (.inr (.inr ⟨rfl,_,rfl⟩)) fun _ => failedTruthful _ _ _
      | some session => exact .admits gate run kept (found.resolve_right fun none => by cases none.2)
  · exact movesHere (allowsRetains.refl _)

variable (service) in
theorem serveCases (named : Named d) (move : Move) : Served service d move (serve service d move) := by
  cases move with
  | execute request session => exact executeCases d request session
  | lookup elapsed => exact lookupCases service named elapsed
  | submit =>
    change Served service d .submit (submit d)
    cases gate : d.gate with
    | submitted request application session => exact .submits gate
    | free | looking _ _ _ | gone =>
      have idle : submit d = d := by simp only [submit,gate]
      rw [idle]
      exact movesHere (allowsRetains.refl _)
  | input input outside =>
    refine movesHere (allowsRetains.steps (fun _ apart => apart) _ _ fun request same => ?_)
    subst same
    cases outside
  | spawn ctx =>
    have still : Retains d.shared d.conn.world.toShared := allowsRetains.refl _
    simp only [serve]
    split
    · exact movesHere still
    · exact .aside rfl (.inl rfl) (allowsRetains.spawns (fun _ apart => apart) _) ⟨[],rfl,fun _ _ mem => by cases mem⟩
  | replace | clear =>
    exact .aside rfl (.inl rfl) (allowsRetains.refl _) ⟨[],rfl,fun _ _ mem => by cases mem⟩

structure Submits (d : Desk) (application : ApplicationRequest) (conn : Conn) (frames : List Bytes) : Prop where
  records : Records d.shared conn.world.toShared
  grown : applicationFrames conn.world.trace = frames ++ applicationFrames d.conn.world.trace
  one : frames = [] ∨ (∃ wire, frames = [wire]) ∧ (conn.world.journal.commands[application.requestId]?).isSome = true

theorem submitReply (d : Desk) (session : Nat) (request : ControlRequest) (application : ApplicationRequest)
    (own : application.requestId = request.requestId) (recorded : Recorded d.shared.journal)
    {reply : Except SessionError ActorReply} (heard : (ask d session (.submit application)).1 = some reply) :
    Truthful (ask d session (.submit application)).2.world.journal
      (request,responseOf request.requestId (reply >>= commandOf)) := by
  intro phase clOrdId n same
  unfold ask at heard ⊢
  split at heard
  · rename_i reached
    rw [if_pos reached]
    obtain ⟨-,journal⟩ := commandLeaves (c := d.ctx) reached.2 (.submit application)
    rcases reply with error | reply
    · cases same
    · have given := heardOk heard
      rcases run : submitApplication d.ctx application d.conn.world with ⟨halt | command,v⟩
      · rw [Session.commandResult,Prog.bindStops run] at given
        cases given
      · have result : Session.commandResult d.ctx (.submit application) d.conn.world = (.ok (.command command),v) :=
          Prog.bindReturns run
        rw [result] at given journal
        cases given
        cases same
        refine ⟨command,?_,rfl,rfl⟩
        change (Session.step d.ctx d.conn _).world.journal.commands[request.requestId]? = _
        rw [journal,← own]
        exact submitReports recorded run
  · cases heard
    cases same

def released (d : Desk) : Move → Option Bytes
  | .submit => match d.gate with
    | .submitted request application session => match (ask d session (.submit application)).1 with
      | some reply => if releases reply then some request.requestId else none
      | none => none
    | _ => none
  | _ => none

def releasedFrom (limiter : RateLimitState) : Option Bytes → RateLimitState
  | some requestId => release requestId limiter
  | none => limiter

theorem submitCases {request : ControlRequest} {application : ApplicationRequest} {session : Nat}
    (own : application.requestId = request.requestId) (submitted : d.gate = .submitted request application session) :
    ∃ conn frames gate answers, Submits d application conn frames ∧
      submit d = {d with
        conn := conn
        gate := gate
        limiter := releasedFrom d.limiter (released d .submit)
        admissions := filed frames d.admissions
        answers := answers} ∧
      (gate = .free ∨ gate = .gone) ∧
      (∀ requestId, released d .submit = some requestId → requestId = request.requestId ∧ frames = []) ∧
      Reports d.shared.journal conn.world.journal d.answers answers := by
  obtain ⟨records,grown⟩ := askSubmit d session application
  have truth (recorded : Recorded d.shared.journal) (reply : Except SessionError ActorReply) :=
    @submitReply d session request application own recorded reply
  simp only [submit,released,submitted]
  generalize ask d session (.submit application) = asked at records grown truth ⊢
  obtain ⟨reply,conn⟩ := asked
  have framed : ∃ frames, (applicationFrames conn.world.trace).take ((applicationFrames conn.world.trace).length -
      (applicationFrames d.conn.world.trace).length) = frames ∧ Submits d application conn frames ∧
        (frames = [] ∨ ∀ reply', reply = some reply' → releases reply' = false) := by
    rcases grown with same | ⟨⟨wire,one⟩,recorded,keeps⟩
    · exact ⟨[],by rw [same]; simp,⟨records,same,.inl rfl⟩,.inl rfl⟩
    · exact ⟨[wire],by rw [one]; simp,⟨records,one,.inr ⟨⟨wire,rfl⟩,recorded⟩⟩,.inr keeps⟩
  obtain ⟨frames,taken,submits,keeps⟩ := framed
  rw [taken]
  cases reply with
  | none =>
    exact ⟨conn,frames,.gone,d.answers,submits,rfl,.inr rfl,fun _ none => (by cases none),[],rfl,fun _ _ mem => by cases mem⟩
  | some reply =>
    refine ⟨conn,frames,.free,_,submits,?_,.inl rfl,fun requestId lets => ?_,
      [(request,responseOf request.requestId (reply >>= commandOf))],rfl,fun recorded pair mem => ?_⟩
    · dsimp only
      cases releases reply <;> rfl
    · cases freed : releases reply with
      | false => simp [freed] at lets
      | true =>
        simp only [freed,if_true,Option.some.injEq] at lets
        refine ⟨lets.symm,keeps.resolve_right fun keeps => ?_⟩
        rw [keeps reply rfl] at freed
        cases freed
    · rw [List.mem_singleton.mp mem]
      exact truth recorded reply rfl

end
end FixCli.Control
