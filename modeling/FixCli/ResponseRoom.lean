import FixCli.ResponseFrames
import FixCli.Uncertified

/-! Which responses fit the frame that carries them. The daemon echoes a request ID before
it has looked at it, and a dry run lists every field with its own keys; nothing else that
it answers grows with the request. -/
namespace FixCli.Control
open Lib Codec Store Session

def echoed {δ : Type} (planner : CommandPlanner δ) (request : ControlRequest) : Option Nat :=
  if request.version ≠ 1 then some 161
  else if request.profile ≠ planner.profile then some 150
  else if !requestIdAccepted request.requestId then some 148
  else none

def dryRunRoom (application : ApplicationRequest) : Nat :=
  (escaped application.requestId).length + (escaped application.clOrdId).length +
    (escaped application.msgType).length + fieldsRoom application.fields + 130

def Fits {δ : Type} (service : ControlService δ) (request : ControlRequest) : Prop :=
  match echoed service.planner request with
  | some room => (escaped request.requestId).length + room ≤ ipcLimit
  | none => match request.executionMode,plan service.crates service.planner request with
    | .dryRun,.ok (.application application) => dryRunRoom application ≤ ipcLimit
    | _,_ => True

def Right {δ : Type} (service : ControlService δ) (pair : ControlRequest × ControlResponse) : Prop :=
  pair.2.json.length ≤ ipcLimit ↔ Fits service pair.1

def smallError (error : ControlError) : Prop := (ascii error.code).length ≤ 32 ∧ error.message.length ≤ 512

section

variable {δ : Type} {k : Crates δ} {planner : CommandPlanner δ} {request : ControlRequest}

theorem smallInvalid {text : Bytes} (short : text.length ≤ 512) : smallError (.invalid text) :=
  ⟨(by decide : (ascii "INVALID_REQUEST").length ≤ 32),short⟩

theorem smallPolicy {text : Bytes} (short : text.length ≤ 512) : smallError (.policy text) :=
  ⟨(by decide : (ascii "POLICY_DENIED").length ≤ 32),short⟩

theorem smallOrder (quantity : Bytes) (orderType : OrderType) (price : Option Bytes) :
    FailsOnly smallError (validateOrder k planner quantity orderType price) := by
  have positive (value : Bytes) (field : String) (short : (ascii field).length ≤ 64) :
      FailsOnly smallError (positiveDecimal k value field) := by
    have first : (ascii " is not a decimal string").length = 24 := by decide
    have second : (ascii " must be positive").length = 17 := by decide
    unfold positiveDecimal
    split
    · refine .error (smallInvalid ?_)
      rw [List.length_append]
      omega
    · split
      · refine .error (smallInvalid ?_)
        rw [List.length_append]
        omega
      · exact .ok _
  have priced : FailsOnly smallError (positivePrice k price) := by
    cases price with
    | none => exact .ok _
    | some price =>
      intro e bad
      cases parsed : positiveDecimal k price "price" with
      | error other =>
        simp only [positivePrice,parsed,Except.map] at bad
        cases bad
        exact positive price "price" (by decide) _ parsed
      | ok d => simp [positivePrice,parsed,Except.map] at bad
  have notional (quantity : δ) (price : Option δ) :
      FailsOnly smallError (checkNotional k planner quantity price) := by
    unfold checkNotional
    repeat' split
    · exact .ok _
    · exact .error (smallInvalid (by decide))
    · exact .error (smallPolicy (by decide))
    · exact .ok _
  refine .bind (positive _ _ (by decide)) fun amount => ?_
  split
  · exact .error (smallPolicy (by decide))
  refine .bind priced fun limit => ?_
  split
  · exact .error (smallInvalid (by decide))
  · exact .bind (notional _ _) fun _ => .ok _

theorem smallTagValue (tag : UInt32) (value : Bytes) : FailsOnly smallError (validateTagValue tag value) := by
  have digits := tagDigits tag
  have front : (ascii "tag ").length = 4 := by decide
  have back : (ascii " value is empty, too long, or not safe ASCII").length = 44 := by decide
  unfold validateTagValue
  split
  · refine .error (smallInvalid ?_)
    simp only [List.length_append]
    omega
  · exact .ok _

theorem smallExtraTags (tags : List (UInt32 × Bytes)) : FailsOnly smallError (validateExtraTags tags) := by
  have each (tag : UInt32) (value : Bytes) : FailsOnly smallError (validateExtraTag tag value) := by
    have digits := tagDigits tag
    have front : (ascii "extra tag ").length = 10 := by decide
    have back : (ascii " is managed by the order schema").length = 31 := by decide
    unfold validateExtraTag
    split
    · refine .error (smallInvalid ?_)
      simp only [List.length_append]
      omega
    · exact smallTagValue _ _
  induction tags with
  | nil => exact .ok _
  | cons entry rest ih => exact .bind (each _ _) fun _ => ih

theorem smallPlan (checked : echoed planner request = none) : FailsOnly smallError (plan k planner request) := by
  have envelope : FailsOnly smallError (validateEnvelope planner request) := by
    unfold echoed at checked
    unfold validateEnvelope
    repeat' split at checked
    all_goals cases checked
    rename_i version profile id
    rw [if_neg version,if_neg profile,if_neg id]
    split
    · exact .error ⟨by decide,by decide⟩
    split
    · exact .error ⟨by decide,by decide⟩
    · exact .ok _
  have original (cancel : CancelOrder) : FailsOnly smallError (origClOrdId k planner cancel) := by
    unfold origClOrdId
    repeat' split
    all_goals first | exact .ok _ | exact .error (smallInvalid (by decide))
  have maturity (value : Option Bytes) : FailsOnly smallError (validateMaturity value) := by
    cases value with
    | none => exact .ok _
    | some value => exact smallTagValue _ _
  refine .bind envelope fun _ => ?_
  unfold planCommand
  split
  · exact .ok _
  · split
    · exact .error (smallInvalid (by decide))
    · exact .ok _
  · exact .bind (smallOrder _ _ _) fun _ => .bind (maturity _) fun _ => .bind (smallExtraTags _) fun _ => .ok _
  · exact .bind (original _) fun _ => .ok _
  · exact .bind (smallOrder _ _ _) fun _ => .ok _

theorem refusalLength {room : Nat} (unchecked : echoed planner request = some room) :
    ∃ error, plan k planner request = .error error ∧
      (errorResponse request.requestId error).json.length = (escaped request.requestId).length + room := by
  have length (error : ControlError) (sum : (escaped (ascii error.code)).length + (escaped error.message).length +
      (jsonBool error.retryable).length + 86 = room) :
      (errorResponse request.requestId error).json.length = (escaped request.requestId).length + room := by
    rw [errorResponse,failedLength]
    dsimp only
    omega
  have refused {error : ControlError} (refuses : validateEnvelope planner request = .error error) :
      plan k planner request = .error error := by
    rw [plan,refuses]
    rfl
  unfold echoed at unchecked
  split at unchecked
  · rename_i version
    cases unchecked
    exact ⟨_,refused (if_pos version),length _ (by decide)⟩
  split at unchecked
  · rename_i version profile
    cases unchecked
    exact ⟨_,refused ((if_neg version).trans (if_pos profile)),length _ (by decide)⟩
  split at unchecked
  · rename_i version profile id
    cases unchecked
    exact ⟨_,refused ((if_neg version).trans ((if_neg profile).trans (if_pos id))),length _ (by decide)⟩
  · cases unchecked

theorem checkedId (checked : echoed planner request = none) : request.requestId.length ≤ 128 := by
  unfold echoed at checked
  repeat' split at checked
  all_goals cases checked
  rename_i id
  simp only [requestIdAccepted,Bool.not_eq_true',Bool.not_eq_false,Bool.and_eq_true,decide_eq_true_eq] at id
  exact id.1.2

theorem plannedChecked {planned : PlannedCommand} (ok : plan k planner request = .ok planned) :
    echoed planner request = none := by
  cases unchecked : echoed planner request with
  | none => rfl
  | some room =>
    obtain ⟨error,refused,-⟩ := refusalLength (k := k) unchecked
    cases refused.symm.trans ok

theorem plannedClOrdIdLength {application : ApplicationRequest}
    (planned : plan k planner request = .ok (.application application)) :
    application.requestId = request.requestId ∧ application.clOrdId.length ≤ 27 := by
  obtain ⟨-,msgType,fields,rfl⟩ := planShape planned
  have front : (ascii "FC-").length = 3 := by decide
  have digits (s : Bytes) : (hex s).length = 2 * s.length := by
    simp [hex,List.length_flatMap,Nat.mul_comm]
  refine ⟨rfl,?_⟩
  simp only [applicationRequest,clOrdId,List.length_append,digits,List.length_take]
  omega

end

def admitted {δ : Type} (service : ControlService δ) : Gate → Prop
  | .looking request application _ | .submitted request application _ =>
    plan service.crates service.planner request = .ok (.application application) ∧ request.executionMode ≠ .dryRun
  | .free | .gone => True

structure Modest {δ : Type} (service : ControlService δ) (d : Desk) : Prop where
  terse : Terse d.ctx
  shaped : Shaped d.conn.world
  gate : admitted service d.gate
  answers : ∀ pair ∈ d.answers, Right service pair

def briefHeard : Except SessionError ActorReply → Prop
  | .ok reply => briefReply reply
  | .error error => briefError error

section

variable {δ : Type} {service : ControlService δ} {d : Desk} {request : ControlRequest} {response : ControlResponse}

theorem plainRight (checked : echoed service.planner request = none)
    (plain : request.executionMode = .dryRun → ∀ application,
      plan service.crates service.planner request ≠ .ok (.application application))
    (small : response.json.length ≤ ipcLimit) : Right service (request,response) := by
  refine ⟨fun _ => ?_,fun _ => small⟩
  unfold Fits
  simp only [checked]
  split
  · rename_i application dry planned
    exact absurd planned (plain dry application)
  · trivial

theorem sentRight {application : ApplicationRequest}
    (admits : plan service.crates service.planner request = .ok (.application application) ∧
      request.executionMode ≠ .dryRun)
    {outcome : Except SessionError CommandResult} (brief : briefOutcome outcome) :
    Right service (request,responseOf request.requestId outcome) :=
  plainRight (plannedChecked admits.1) (fun dry => absurd dry admits.2)
    (outcomeFits (checkedId (plannedChecked admits.1)) brief)

theorem Modest.aside (h : Modest service d) {v : Desk} (ctx : v.ctx = d.ctx) (answers : v.answers = d.answers)
    (shaped : Shaped v.conn.world) (admits : admitted service v.gate) : Modest service v :=
  ⟨ctx ▸ h.terse,shaped,admits,answers ▸ h.answers⟩

theorem Modest.answered (h : Modest service d) (right : Right service (request,response)) :
    Modest service (answer request response d) := by
  refine ⟨h.terse,h.shaped,h.gate,fun pair mem => ?_⟩
  rcases List.mem_cons.mp mem with rfl | before
  · exact right
  · exact h.answers pair before

theorem heardBrief {r : Except Halt ActorReply} (replies : ∀ reply, r = .ok reply → briefReply reply)
    (halts : ∀ halt, r = .error halt → brief halt) {reply : Except SessionError ActorReply}
    (told : heard r = some reply) : briefHeard reply := by
  cases r with
  | ok a =>
    cases told
    exact replies a rfl
  | error halt =>
    cases halt with
    | fail error =>
      cases told
      exact halts _ rfl error rfl
    | panic =>
      cases told
      exact literalBrief _ (by decide)
    | crash => cases told

theorem askBrief (h : Modest service d) (typed : Typed d.conn.world) (session : Nat) (command : ActorCommand)
    (submits : ∀ application, command = .submit application →
      application.requestId.length ≤ 128 ∧ application.clOrdId.length ≤ 27) :
    Shaped (ask d session command).2.world ∧
      ∀ reply, (ask d session command).1 = some reply → briefHeard reply := by
  unfold ask
  split
  · refine ⟨shapedPermits.steps (fun _ _ => trivial) loopBrief d.conn (.command command) (fun application same => ?_)
      h.shaped,fun reply told => ?_⟩
    · refine ⟨trivial,fun op own commit committed => ?_⟩
      subst committed
      rw [own.2.2]
      exact (submits application (Input.command.inj same)).2
    · have outcome := briefResult h.terse command submits d.conn.world (h.shaped.reportable typed)
      dsimp only at told
      rcases run : Session.commandResult d.ctx command d.conn.world with ⟨halt | reply',v⟩
      · rw [run] at outcome told
        exact heardBrief (fun _ same => by cases same) (fun _ same => by cases same; exact outcome) told
      · rw [run] at outcome told
        exact heardBrief (fun _ same => by cases same; exact outcome) (fun _ same => by cases same) told
  · refine ⟨h.shaped,fun reply told => ?_⟩
    cases told
    exact literalBrief _ (by decide)

theorem takenBrief {taken : ActorReply → Except SessionError CommandResult}
    (takes : ∀ reply, briefReply reply → briefOutcome (taken reply)) {reply : Except SessionError ActorReply}
    (brief : briefHeard reply) : briefOutcome (reply >>= taken) := by
  cases reply with
  | ok reply => exact takes reply brief
  | error error => exact brief

theorem stoppedBrief : briefOutcome (.error .actorStopped) := literalBrief _ (by decide)

theorem statusTakes (reply : ActorReply) (brief : briefReply reply) : briefOutcome (statusOf reply) := by
  cases reply with
  | status status => exact statusLength brief
  | storedCommand _ | command _ | ack => exact stoppedBrief

theorem logoutTakes (reply : ActorReply) (_ : briefReply reply) : briefOutcome (logoutOf reply) := by
  cases reply with
  | ack => exact logoutLength
  | status _ | storedCommand _ | command _ => exact stoppedBrief

theorem commandTakes (reply : ActorReply) (brief : briefReply reply) : briefOutcome (commandOf reply) := by
  cases reply with
  | command command => exact commandLength brief
  | status _ | storedCommand _ | ack => exact stoppedBrief

theorem refusedRight {error : ControlError} (refused : plan service.crates service.planner request = .error error) :
    Right service (request,errorResponse request.requestId error) := by
  cases checked : echoed service.planner request with
  | some room =>
    obtain ⟨other,same,length⟩ := refusalLength (k := service.crates) checked
    cases refused.symm.trans same
    unfold Right Fits
    rw [checked,length]
  | none =>
    refine plainRight checked (fun _ application planned => by cases refused.symm.trans planned) ?_
    obtain ⟨code,message⟩ := smallPlan checked error refused
    exact failedFits (checkedId checked) code (message.trans (Nat.le_add_left _ _))

theorem dryRunRight {application : ApplicationRequest}
    (planned : plan service.crates service.planner request = .ok (.application application))
    (dry : request.executionMode = .dryRun) : Right service (request,responseOf request.requestId
      (.ok (.validated application.msgType application.clOrdId application.fields))) := by
  have room : (responseOf request.requestId (.ok (.validated application.msgType application.clOrdId
      application.fields))).json.length = dryRunRoom application := by
    rw [answeredLength,validatedLength,dryRunRoom,(plannedClOrdIdLength planned).1]
    omega
  unfold Right Fits
  rw [room]
  simp only [plannedChecked planned,dry,planned]

theorem modestAsks (h : Modest service d) (typed : Typed d.conn.world)
    (checked : echoed service.planner request = none) (plain : request.executionMode = .dryRun → ∀ application,
      plan service.crates service.planner request ≠ .ok (.application application))
    (session : Nat) {command : ActorCommand} (unsubmitted : ∀ application, command ≠ .submit application)
    {taken : ActorReply → Except SessionError CommandResult}
    (takes : ∀ reply, briefReply reply → briefOutcome (taken reply)) :
    Modest service (match ask d session command with
      | (some reply,conn) => answer request (responseOf request.requestId (reply >>= taken)) {d with conn := conn}
      | (none,conn) => {d with conn := conn, gate := .gone}) := by
  obtain ⟨shaped,told⟩ := askBrief h typed session command fun application same =>
    absurd same (unsubmitted application)
  rcases asked : ask d session command with ⟨reply | _,conn⟩
  · rw [asked] at shaped
    exact h.aside rfl rfl shaped trivial
  · rw [asked] at shaped told
    refine (h.aside (v := {d with conn := conn}) rfl rfl shaped h.gate).answered (plainRight checked plain ?_)
    exact outcomeFits (checkedId checked) (takenBrief takes (told _ rfl))

theorem modestExecute (h : Modest service d) (typed : Typed d.conn.world) (request : ControlRequest)
    (session : Option Nat) : Modest service (execute service d request session) := by
  unfold execute
  cases planned : plan service.crates service.planner request with
  | error error => exact h.answered (refusedRight planned)
  | ok command =>
    have checked := plannedChecked planned
    have other (plain : ∀ application, command ≠ .application application) (_ : request.executionMode = .dryRun)
        (application : ApplicationRequest) :
        plan service.crates service.planner request ≠ .ok (.application application) :=
      fun same => plain application (Except.ok.inj (planned.symm.trans same))
    cases command with
    | sessionStatus =>
      have plain := other (by simp)
      cases session with
      | none => exact h.answered (plainRight checked plain (outcomeFits (checkedId checked)
          (statusLength ⟨by decide,by decide,fun _ none => by cases none⟩)))
      | some session => exact modestAsks h typed checked plain session (by simp) statusTakes
    | sessionLogout =>
      have plain := other (by simp)
      cases session with
      | none => exact h.answered (plainRight checked plain (outcomeFits (checkedId checked) stoppedBrief))
      | some session => exact modestAsks h typed checked plain session (by simp) logoutTakes
    | application application =>
      simp only [dispatch]
      cases mode : request.executionMode with
      | dryRun => exact h.answered (dryRunRight planned mode)
      | inspect =>
        exact h.answered (sentRight ⟨planned,by simp [mode]⟩ (literalBrief _ (by decide)))
      | certification | live =>
        cases gate : d.gate with
        | free => exact h.aside rfl rfl h.shaped ⟨planned,by simp [mode]⟩
        | looking _ _ _ | submitted _ _ _ | gone => exact h

def briefFound : Except SessionError (Option CommandRecord) → Prop
  | .ok found => ∀ command, found = some command → Short command
  | .error error => briefError error

theorem lookupBrief (h : Modest service d) (typed : Typed d.conn.world) (session : Option Nat) (requestId : Bytes) :
    Shaped (lookupPersistedCommand service d session requestId).2.world ∧
      ∀ result, (lookupPersistedCommand service d session requestId).1 = some result → briefFound result := by
  have := shapedPermits.isRefl
  have := shapedPermits.isTrans
  have loads : Prog.Moves (fun w v => Shaped w → Shaped v) (loadCommand d.ctx requestId) := by
    refine Prog.Moves.bind (shapedPermits.store (loopBrief _ trivial)) fun reply => ?_
    split
    · exact Prog.Moves.pure _
    · exact Prog.Moves.stop _
  unfold lookupPersistedCommand
  split
  · refine ⟨loads d.conn.world h.shaped,fun result told => ?_⟩
    have outcome := briefLoad h.terse requestId d.conn.world (h.shaped.reportable typed).quotes.commands
    rcases run : loadCommand d.ctx requestId d.conn.world with ⟨halt | found,v⟩
    · simp only [run] at outcome told
      cases halt with
      | fail error =>
        cases told
        exact outcome error rfl
      | panic =>
        cases told
        exact literalBrief _ (by decide)
      | crash => cases told
    · simp only [run] at outcome told
      cases told
      exact outcome
  · cases session with
    | none => exact ⟨h.shaped,fun result told => by cases told; exact fun _ none => by cases none⟩
    | some session =>
      obtain ⟨shaped,told⟩ := askBrief h typed session (.lookupCommand requestId) fun _ same => by cases same
      refine ⟨shaped,fun result heard => ?_⟩
      obtain ⟨reply,given,rfl⟩ := Option.map_eq_some_iff.mp heard
      have brief := told reply given
      cases reply with
      | error error => exact brief
      | ok reply =>
        cases reply with
        | storedCommand found => exact brief
        | status _ | command _ | ack => exact literalBrief _ (by decide)

theorem modestReserve (h : Modest service d) (now : Nat) {application : ApplicationRequest} (session : Nat)
    (admits : plan service.crates service.planner request = .ok (.application application) ∧
      request.executionMode ≠ .dryRun) : Modest service (reserve service d now request application session) := by
  unfold reserve
  split
  · exact h.aside rfl rfl h.shaped admits
  · rename_i limiter _
    refine Modest.answered (h.aside (v := {d with gate := .free, limiter := limiter, clock := now}) rfl rfl
      h.shaped trivial) ?_
    refine plainRight (plannedChecked admits.1) (fun dry => absurd dry admits.2) ?_
    exact failedFits (checkedId (plannedChecked admits.1)) (by decide) (by decide)

theorem modestLookup (h : Modest service d) (typed : Typed d.conn.world) (elapsed : Nat) :
    Modest service (lookup service d elapsed) := by
  unfold lookup
  split
  · rename_i request application session gate
    have admits : admitted service (.looking request application session) := gate ▸ h.gate
    obtain ⟨shaped,told⟩ := lookupBrief h typed session application.requestId
    rcases run : lookupPersistedCommand service d session application.requestId with ⟨_ | result,conn⟩
    · rw [run] at shaped
      exact h.aside rfl rfl shaped trivial
    rw [run] at shaped told
    have brief := told result rfl
    have free : Modest service {d with conn := conn, gate := .free} := h.aside rfl rfl shaped trivial
    have answers (outcome : Except SessionError CommandResult) (small : briefOutcome outcome) :
        Modest service (answer request (responseOf request.requestId outcome) {d with conn := conn, gate := .free}) :=
      free.answered (sentRight admits small)
    rcases result with error | found
    · exact answers (.error error) brief
    cases found with
    | some existing =>
      simp only [lookedUp]
      split
      · have id := checkedId (plannedChecked admits.1)
        have same := (plannedClOrdIdLength admits.1).1
        refine answers (.error (reused application.requestId)) (storeText ?_)
        exact (requestText "request ID " " was reused with a different fingerprint" (same ▸ id) (by decide)).trans
          (Nat.le_add_left _ _)
      · exact answers (.ok (commandResult existing)) (commandLength (brief existing rfl))
    | none =>
      cases session with
      | none => exact answers (.error .actorStopped) stoppedBrief
      | some session =>
        exact modestReserve (h.aside (v := {d with conn := conn}) rfl rfl shaped h.gate) _ session admits
  · exact h

theorem modestSubmit (h : Modest service d) (typed : Typed d.conn.world) : Modest service (submit d) := by
  unfold submit
  split
  · rename_i request application session gate
    have admits : admitted service (.submitted request application session) := gate ▸ h.gate
    obtain ⟨same,clOrdId⟩ := plannedClOrdIdLength admits.1
    have id : application.requestId.length ≤ 128 := same ▸ checkedId (plannedChecked admits.1)
    obtain ⟨shaped,told⟩ := askBrief h typed session (.submit application) fun other own => by
      cases own
      exact ⟨id,clOrdId⟩
    rcases asked : ask d session (.submit application) with ⟨reply,conn⟩
    rw [asked] at shaped told
    cases reply with
    | none => exact h.aside rfl rfl shaped trivial
    | some reply =>
      dsimp only
      refine Modest.answered (h.aside rfl rfl shaped trivial) (sentRight admits ?_)
      exact takenBrief commandTakes (told reply rfl)
  · exact h

def terseMove : Move → Prop
  | .spawn ctx => Terse ctx
  | _ => True

theorem modestServe (h : Modest service d) (typed : Typed d.conn.world) {move : Move} (terse : terseMove move) :
    Modest service (serve service d move) := by
  cases move with
  | execute request session => exact modestExecute h typed request session
  | lookup elapsed => exact modestLookup h typed elapsed
  | submit => exact modestSubmit h typed
  | input input outside =>
    refine h.aside rfl rfl (shapedPermits.steps (fun _ _ => trivial) loopBrief d.conn input (fun request same => ?_)
      h.shaped) h.gate
    subst same
    cases outside
  | spawn ctx =>
    simp only [serve]
    split
    · exact h
    · refine ⟨terse,shapedPermits.spawns (fun _ _ => trivial) plainBrief _ ?_,h.gate,h.answers⟩
      exact ⟨h.shaped.commands,fun _ none => by cases none⟩
  | replace | clear => exact h.aside rfl rfl h.shaped h.gate

/-- In every run of the daemon over any store, whose failures are described in few words:
the response to a request goes out exactly if the request leaves room for it. -/
theorem responsesFit (service : ControlService δ) (c : Ctx) (s : Shared) (terse : Terse c)
    (recorded : ∀ (requestId : Bytes) command, s.journal.commands[requestId]? = some command →
      command.clOrdId.length ≤ 27) (moves : List Move)
    (along : Along (serve service) (fun d move => Typed d.conn.world ∧ terseMove move) (Desk.start c s) moves) :
    ∀ request response, (request,response) ∈ (served service (Desk.start c s) moves).answers →
      (response.json.length ≤ ipcLimit ↔ Fits service request) ∧
        ((∃ frame, writeJsonFrame ipcLimit response.json = .ok frame) ↔ Fits service request) := by
  have start : Modest service (Desk.start c s) :=
    ⟨terse,⟨recorded,fun _ none => by cases none⟩,trivial,fun _ mem => by cases mem⟩
  have modest : Modest service (served service (Desk.start c s) moves) :=
    foldInvariant (I := Modest service) (fun _ _ holds h => modestServe h holds.1 holds.2) start along
  intro request response mem
  have right : Right service (request,response) := modest.answers _ mem
  unfold Right at right
  exact ⟨right,(writesFrame (by decide) _).trans right⟩

end

def floodedOrder (n : Nat) : ControlRequest :=
  ⟨1,ascii "order-1",ascii "venue",.dryRun,.newOrderSingle
    ⟨ascii "IC2609",ascii "ACC",ascii "X",ascii "G",.buy,ascii "100",.market,none,.day,none,
      List.replicate n (99,ascii "x")⟩⟩

def floodedFields (n : Nat) : List Field :=
  [⟨1,ascii "ACC"⟩,⟨21,ascii "1"⟩,⟨207,ascii "X"⟩,⟨1151,ascii "G"⟩,⟨55,ascii "IC2609"⟩,⟨54,ascii "1"⟩,
    ⟨38,ascii "100"⟩,⟨40,ascii "1"⟩,⟨59,ascii "DAY"⟩] ++ List.replicate n ⟨99,ascii "x"⟩

theorem floodedPlan (n : Nat) : plan venueCrates venuePlanner (floodedOrder n) =
    .ok (.application (applicationRequest venueCrates venuePlanner (floodedOrder n) "D" (floodedFields n))) := by
  have tags : validateExtraTags (List.replicate n (99,ascii "x")) = .ok () := by
    have one : validateExtraTag 99 (ascii "x") = .ok () := by decide
    induction n with
    | zero => rfl
    | succ n ih =>
      rw [List.replicate_succ,validateExtraTags,one]
      exact ih
  have envelope : validateEnvelope venuePlanner (floodedOrder n) = .ok () := rfl
  have valid : validateOrder venueCrates venuePlanner (ascii "100") .market none = .ok ⟨ascii "100",none⟩ := rfl
  have fields (order : NewOrderSingle) (own : (floodedOrder n).command = .newOrderSingle order) :
      newOrderFields order ⟨ascii "100",none⟩ = floodedFields n := by
    cases own
    simp [newOrderFields,floodedFields,optionalField,tifThenPrice,sideCode,orderTypeCode,timeInForceCode]
  rw [plan,envelope]
  change planCommand venueCrates venuePlanner (floodedOrder n) = _
  rw [← fields _ rfl]
  simp only [planCommand,floodedOrder,valid,validateMaturity,tags]
  rfl

theorem floodedLength (n : Nat) : (floodedOrder n).json.length ≤ 9 * n + 512 := by
  have tag : (extraTagJson (99,ascii "x")).length = 8 := by decide
  let front : List (String × Bytes) := [
    ("type",jsonString (ascii "new_order_single")),("symbol",jsonString (ascii "IC2609")),
    ("account",jsonString (ascii "ACC")),("security_exchange",jsonString (ascii "X")),
    ("security_group",jsonString (ascii "G")),("side",jsonString (ascii "buy")),
    ("quantity",jsonString (ascii "100")),("ord_type",jsonString (ascii "market")),("price",jsonNull),
    ("time_in_force",jsonString (ascii "day")),("maturity_month_year",jsonNull)]
  have order : (floodedOrder n).command.json =
      jsonObject (front ++ [("extra_tags",jsonArray (List.replicate n (extraTagJson (99,ascii "x"))))]) := by
    simp [floodedOrder,Command.json,front,sideText,orderTypeText,timeInForceText,jsonOption]
  have around : (front.map fun m => (member m.1 m.2).length).sum ≤ 256 := by decide +kernel
  have count : front.length = 11 := rfl
  have key : (escaped (ascii "extra_tags")).length = 10 := by decide
  have command : (floodedOrder n).command.json.length ≤ 9 * n + 320 := by
    rw [order,jsonObjectLength,List.map_append,List.sum_append,List.length_append,count]
    generalize (front.map fun m => (member m.1 m.2).length).sum = written at around ⊢
    simp only [List.map_cons,List.map_nil,List.sum_cons,List.sum_nil,memberLength,jsonArrayLength,List.map_replicate,
      List.sum_replicate_nat,List.length_replicate,tag,key,List.length_cons,List.length_nil]
    omega
  have outer : (floodedOrder n).json = jsonObject [("version",decimal 1),("request_id",jsonString (ascii "order-1")),
      ("profile",jsonString (ascii "venue")),("execution_mode",jsonString (ascii "dry_run")),
      ("command",(floodedOrder n).command.json),("auth",jsonNull)] := rfl
  have one : (member "version" (decimal 1)).length = 11 := by decide
  have two : (member "request_id" (jsonString (ascii "order-1"))).length = 22 := by decide
  have three : (member "profile" (jsonString (ascii "venue"))).length = 17 := by decide
  have four : (member "execution_mode" (jsonString (ascii "dry_run"))).length = 26 := by decide
  have five : (escaped (ascii "command")).length = 7 := by decide
  have six : (member "auth" jsonNull).length = 11 := by decide
  rw [outer,jsonObjectLength]
  simp only [List.map_cons,List.map_nil,List.sum_cons,List.sum_nil,one,two,three,four,memberLength "command",five,six,
    List.length_cons,List.length_nil]
  omega

theorem floodedRoom (n : Nat) : 23 * n ≤ fieldsRoom (floodedFields n) := by
  have field : (decimal (99 : UInt32).toNat).length + (escaped (ascii "x")).length + 19 = 22 := by decide
  unfold fieldsRoom floodedFields
  generalize front : ([⟨1,ascii "ACC"⟩,⟨21,ascii "1"⟩,⟨207,ascii "X"⟩,⟨1151,ascii "G"⟩,⟨55,ascii "IC2609"⟩,
    ⟨54,ascii "1"⟩,⟨38,ascii "100"⟩,⟨40,ascii "1"⟩,⟨59,ascii "DAY"⟩] : List Field) = ahead
  have some' : 1 ≤ ahead.length := by
    rw [← front]
    decide
  simp only [List.map_append,List.sum_append,List.map_replicate,List.sum_replicate_nat,List.length_append,
    List.length_replicate,field]
  omega

def floodedResponse (n : Nat) : ControlResponse :=
  responseOf (ascii "order-1") (.ok (.validated (ascii "D") (clOrdId venueCrates (ascii "venue") (ascii "order-1"))
    (floodedFields n)))

theorem floodedAnswer (n : Nat) (d : Desk) (session : Option Nat) :
    execute venueService d (floodedOrder n) session = answer (floodedOrder n) (floodedResponse n) d := by
  unfold execute
  rw [show plan venueService.crates venueService.planner (floodedOrder n) = _ from floodedPlan n]
  rfl

theorem dryRunTooLarge :
    readJsonFrame ipcLimit (beBytes 4 (floodedOrder 12000).json.length ++ (floodedOrder 12000).json) =
      .ok ((floodedOrder 12000).json,[]) ∧
    (execute venueService venueDesk (floodedOrder 12000) (some 1)).answers =
      (floodedOrder 12000,floodedResponse 12000) :: venueDesk.answers ∧
    writeJsonFrame ipcLimit (floodedResponse 12000).json =
      .error (.frameTooLarge (floodedResponse 12000).json.length ipcLimit) ∧
    ¬ ∀ (d : Desk) request session response, (execute venueService d request session).answers =
        (request,response) :: d.answers → request.json.length ≤ ipcLimit → response.json.length ≤ ipcLimit := by
  have room := floodedRoom 12000
  have sent := floodedLength 12000
  have accepted : (floodedOrder 12000).json.length ≤ ipcLimit := by
    simp only [ipcLimit]
    omega
  have large : ipcLimit < (floodedResponse 12000).json.length := by
    rw [floodedResponse,answeredLength,validatedLength]
    simp only [ipcLimit]
    omega
  have answers (d : Desk) (session : Option Nat) := congrArg Desk.answers (floodedAnswer 12000 d session)
  refine ⟨?_,answers _ _,refusesFrame large,fun fits => ?_⟩
  · obtain ⟨frame,written⟩ := (writesFrame (by decide) _).mpr accepted
    have same := writtenFrame written
    rw [← same]
    simpa only [List.append_nil] using readsFrame written []
  · exact absurd (fits venueDesk (floodedOrder 12000) (some 1) _ (answers _ _) accepted) (Nat.not_le.mpr large)

theorem responsesFitAtVenue :
    (floodedOrder 0,floodedResponse 0) ∈
      (served venueService (Desk.start venueCtx fresh) [.execute (floodedOrder 0) none]).answers ∧
    ∀ request response, (request,response) ∈
        (served venueService (Desk.start venueCtx fresh) [.execute (floodedOrder 0) none]).answers →
      (response.json.length ≤ ipcLimit ↔ Fits venueService request) ∧
        ((∃ frame, writeJsonFrame ipcLimit response.json = .ok frame) ↔ Fits venueService request) := by
  have empty (requestId : Bytes) (command : CommandRecord)
      (found : fresh.journal.commands[requestId]? = some command) : False := by
    simp [fresh,Journal.empty] at found
  have typed : Typed (Desk.start venueCtx fresh).conn.world :=
    ⟨by decide,by decide,by decide,by decide,fun _ _ found => (empty _ _ found).elim,fun _ _ none => by cases none⟩
  have terse : Terse venueCtx := by
    constructor <;> (rintro tick text (failed | failed) <;> cases failed)
  refine ⟨?_,responsesFit venueService venueCtx fresh terse (fun _ _ found => (empty _ _ found).elim) _
    ⟨⟨typed,trivial⟩,trivial⟩⟩
  rw [served,List.foldl_cons,List.foldl_nil,serve,floodedAnswer]
  exact List.mem_cons_self

end FixCli.Control
