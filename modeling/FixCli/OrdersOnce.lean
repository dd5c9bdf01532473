import FixCli.Admissions

/-! Orders through the control plane go out at most once, are reported the same way each
time, and a request ID on record is refused to another content. -/
namespace FixCli.Control
open Lib Codec Store Session

structure Answered (d : Desk) : Prop where
  recorded : Recorded d.shared.journal
  answers : ∀ pair ∈ d.answers, Truthful d.shared.journal pair

def Agreeing (answers : List (ControlRequest × ControlResponse)) : Prop :=
  ∀ one ∈ answers, ∀ other ∈ answers, one.1.requestId = other.1.requestId →
    ∀ phase clOrdId n, one.2.result = some (.command phase clOrdId n) →
      ∀ later clOrdId' n', other.2.result = some (.command later clOrdId' n') → clOrdId = clOrdId' ∧ n = n'

def Conflicting (d : Desk) (requestId fingerprint : Bytes) : Prop :=
  ∃ record : CommandRecord, d.shared.journal.commands[requestId]? = some record ∧ record.fingerprint ≠ fingerprint

section

variable {δ : Type} {service : ControlService δ} {base : List Bytes} {d v : Desk}

theorem Truthful.later {j k : Journal} {pair : ControlRequest × ControlResponse} (h : Truthful j pair)
    (extends' : Extends j k) : Truthful k pair := by
  intro phase clOrdId n same
  obtain ⟨record,found,one,two⟩ := h phase clOrdId n same
  obtain ⟨later,after,kind⟩ := extends'.commands _ _ found
  exact ⟨later,after,kind.clOrdId.trans one,kind.msgSeqNum.trans two⟩

theorem Answered.moves (h : Answered d) (records : Records d.shared v.shared)
    (reports : Reports d.shared.journal v.shared.journal d.answers v.answers) : Answered v := by
  obtain ⟨recorded,extends'⟩ := records.grows h.recorded
  obtain ⟨new,same,truth⟩ := reports
  refine ⟨recorded,fun pair mem => ?_⟩
  rw [same] at mem
  rcases List.mem_append.mp mem with fresh | old
  · exact truth h.recorded pair fresh
  · exact (h.answers pair old).later extends'

theorem answeredServe (account : Accounted base d) (h : Answered d) (move : Move) :
    Answered (serve service d move) := by
  have served := serveCases service account.named move
  have silent (j k : Journal) (answers : List (ControlRequest × ControlResponse)) : Reports j k answers answers :=
    ⟨[],rfl,fun _ _ mem => by cases mem⟩
  generalize serve service d move = v at served ⊢
  cases served with
  | aside rest gate kept reports => exact h.moves kept.toRecords reports
  | takes planned free => exact h.moves (.refl _) (silent _ _ _)
  | @admits elapsed session request application conn looking lookedUp kept unrecorded =>
    unfold reserve
    split
    · exact h.moves kept.toRecords (silent _ _ _)
    · exact h.moves kept.toRecords ⟨[_],rfl,fun _ pair mem => by
        rw [List.mem_singleton.mp mem]; exact failedTruthful _ _ _⟩
  | submits submitted =>
    obtain ⟨conn,frames,gate,answers,left,shape,-,-,reports⟩ := submitCases (account.named.2 _ _ _ submitted) submitted
    rw [shape]
    exact h.moves left.records reports

theorem Answered.agreeing (h : Answered d) : Agreeing d.answers := by
  intro one mem other inside same phase clOrdId n reported later clOrdId' n' again
  obtain ⟨record,found,rfl,rfl⟩ := h.answers one mem _ _ _ reported
  obtain ⟨record',found',rfl,rfl⟩ := h.answers other inside _ _ _ again
  rw [same,found'] at found
  cases found
  exact ⟨rfl,rfl⟩

structure Waiting (d : Desk) (request : ControlRequest) (application : ApplicationRequest) (session : Option Nat)
    (v : Desk) : Prop where
  gate : v.gate = .looking request application session ∨ v.gate = .gone
  kept : Retains d.shared v.shared
  admissions : v.admissions = d.admissions

theorem Waiting.serve {request : ControlRequest} {application : ApplicationRequest} {session : Option Nat}
    (h : Waiting d request application session v) (named : Named v) {move : Move}
    (other : ∀ elapsed, move ≠ .lookup elapsed) : Waiting d request application session (serve service v move) := by
  have served := serveCases service named move
  generalize Control.serve service v move = x at served ⊢
  have held {g : Gate} (at' : v.gate = g) (apart : g ≠ .gone) : g = .looking request application session := by
    rcases h.gate with looking | gone
    · exact at'.symm.trans looking
    · exact absurd (at'.symm.trans gone) apart
  cases served with
  | aside rest gate kept =>
    refine ⟨?_,allowsRetains.trans _ _ _ h.kept kept,by rw [rest]; exact h.admissions⟩
    rcases gate with same | gone | ⟨-,elapsed,lookup⟩
    · rw [same]; exact h.gate
    · exact .inr gone
    · exact absurd lookup (other elapsed)
  | takes planned free => cases held free (by simp)
  | admits _ _ _ _ => exact absurd rfl (other _)
  | submits submitted => cases held submitted (by simp)

theorem conflictCode (requestId : Bytes) : sessionErrorCode (reused requestId) = ("IDEMPOTENCY_CONFLICT",false) := by
  have inside : ascii "different fingerprint" <:+:
      ascii "request ID " ++ requestId ++ ascii " was reused with a different fingerprint" := by
    have parts : ascii " was reused with a different fingerprint" =
        ascii " was reused with a " ++ ascii "different fingerprint" := by decide
    rw [parts,← List.append_assoc]
    exact (List.suffix_append _ _).isInfix
  simp only [reused,sessionErrorCode,if_pos inside]

theorem conflictAnswered {request : ControlRequest} {application : ApplicationRequest} {session : Option Nat}
    (named : Named v) (looking : v.gate = .looking request application session)
    (conflicting : Conflicting v request.requestId application.fingerprint)
    (reaches : service.store = true ∨ session ≠ none) (elapsed : Nat) :
    applicationFrames (lookup service v elapsed).conn.world.trace = applicationFrames v.conn.world.trace ∧
      (lookup service v elapsed).admissions = v.admissions ∧
      ∀ existing, (lookupPersistedCommand service v session request.requestId).1 = some (.ok existing) →
        ∃ response, (lookup service v elapsed).answers = (request,response) :: v.answers ∧ response.ok = false ∧
          response.error.map ControlErrorBody.code = some "IDEMPOTENCY_CONFLICT" := by
  have own := named.1 _ _ _ looking
  obtain ⟨record,found,other⟩ := conflicting
  rw [← own] at found
  have served := lookupCases service named elapsed
  have quiet : Retains v.shared (lookup service v elapsed).shared ∧ (lookup service v elapsed).admissions = v.admissions := by
    generalize lookup service v elapsed = x at served ⊢
    cases served with
    | aside rest gate kept => exact ⟨kept,by rw [rest]⟩
    | admits at' lookedUp kept unrecorded =>
      rw [looking] at at'
      cases at'
      rw [found] at unrecorded
      cases unrecorded
  refine ⟨quiet.1.frames,quiet.2,fun existing answered => ?_⟩
  rw [← own] at answered
  have answers := (lookupRetains service v session application.requestId).2 existing answered
  have same : existing = some record := by
    rcases answers with stored | ⟨rfl,rfl⟩
    · exact stored.symm.trans found
    · have stored := reaches.resolve_right (by simp)
      exfalso
      unfold lookupPersistedCommand at answered
      rw [if_pos stored] at answered
      rcases run : loadCommand v.ctx application.requestId v.conn.world with ⟨result,w⟩
      simp only [run] at answered
      rw [heardOk answered] at run
      cases (loadedCommand run).symm.trans found
  subst same
  rcases run : lookupPersistedCommand service v session application.requestId with ⟨_,conn⟩
  rw [run] at answered
  cases answered
  refine ⟨sessionErrorResponse request.requestId (reused application.requestId),?_,rfl,?_⟩
  · simp only [lookup,looking,run,lookedUp,if_pos other]
    rfl
  · simp only [sessionErrorResponse,failed,Option.map_some,conflictCode]

def Before (waiting : List Move) : Prop := ∀ move ∈ waiting, ∀ elapsed, move ≠ .lookup elapsed

theorem Waiting.served {request : ControlRequest} {application : ApplicationRequest} {session : Option Nat}
    (account : Accounted base v) (h : Waiting d request application session v) {waiting : List Move}
    (before : Before waiting) : Waiting d request application session (served service v waiting) ∧
      Accounted base (served service v waiting) := by
  induction waiting generalizing v with
  | nil => exact ⟨h,account⟩
  | cons move rest ih =>
    exact ih (accountedServe account move) (h.serve account.named (before move List.mem_cons_self))
      fun other mem => before other (List.mem_cons_of_mem _ mem)

variable (service) in
def ToldConflict (d : Desk) (request : ControlRequest) : Prop :=
  ∀ session waiting elapsed, Before waiting →
    let asked := served service (execute service d request session) waiting
    let after := serve service asked (.lookup elapsed)
    applicationFrames after.conn.world.trace = applicationFrames d.conn.world.trace ∧
      after.admissions = d.admissions ∧
      (asked.gate = .gone ∨
        ∀ existing, (lookupPersistedCommand service asked d.slot request.requestId).1 = some (.ok existing) →
          ∃ response, after.answers = (request,response) :: asked.answers ∧ response.ok = false ∧
            response.error.map ControlErrorBody.code = some "IDEMPOTENCY_CONFLICT")

theorem toldConflict (account : Accounted base d) (answered : Answered d) {request : ControlRequest}
    {application : ApplicationRequest}
    (planned : plan service.crates service.planner request = .ok (.application application))
    (certified : request.executionMode = .certification) (free : d.gate = .free)
    (conflicting : Conflicting d request.requestId application.fingerprint)
    (reaches : service.store = true ∨ d.slot ≠ none) : ToldConflict service d request := by
  intro session waiting elapsed before asked after
  have enters : execute service d request session = {d with gate := .looking request application d.slot} := by
    simp only [execute,planned,dispatch,certified,free]
  have entered : Accounted base (execute service d request session) := accountedServe account (.execute request session)
  have start : Waiting d request application d.slot (execute service d request session) := by
    rw [enters]
    exact ⟨.inl rfl,allowsRetains.refl _,rfl⟩
  obtain ⟨waits,accounted⟩ : Waiting d request application d.slot asked ∧ Accounted base asked :=
    start.served entered before
  rcases waits.gate with looking | gone
  · have later : Conflicting asked request.requestId application.fingerprint := by
      obtain ⟨record,found,other⟩ := conflicting
      obtain ⟨record',found',kind⟩ := (waits.kept.grows answered.recorded).2.commands _ _ found
      exact ⟨record',found',fun same => other (kind.fingerprint.symm.trans same)⟩
    obtain ⟨frames,admissions,told⟩ := conflictAnswered accounted.named looking later reaches elapsed
    exact ⟨frames.trans waits.kept.frames,admissions.trans waits.admissions,.inr told⟩
  · have idle : after = asked := by
      change lookup service asked elapsed = asked
      simp only [lookup,gone]
    rw [idle]
    exact ⟨waits.kept.frames,waits.admissions,.inl gone⟩

theorem ordersOnce (c : Ctx) (ops : List StoreOp) (trace : List Event) (tick : Nat) (moves : List Move) :
    (applicationFrames (served service (Desk.start c ⟨journalOf ops,trace,tick⟩) moves).conn.world.trace =
        (served service (Desk.start c ⟨journalOf ops,trace,tick⟩) moves).admissions.flatMap Admission.frames ++
          applicationFrames trace ∧
      ∀ requestId, (framesOf requestId
        (served service (Desk.start c ⟨journalOf ops,trace,tick⟩) moves).admissions).length ≤ 1) ∧
    Agreeing (served service (Desk.start c ⟨journalOf ops,trace,tick⟩) moves).answers ∧
    ∀ request application, plan service.crates service.planner request = .ok (.application application) →
      request.executionMode = .certification →
      (served service (Desk.start c ⟨journalOf ops,trace,tick⟩) moves).gate = .free →
      Conflicting (served service (Desk.start c ⟨journalOf ops,trace,tick⟩) moves) request.requestId
        application.fingerprint →
      (service.store = true ∨ (served service (Desk.start c ⟨journalOf ops,trace,tick⟩) moves).slot ≠ none) →
      ToldConflict service (served service (Desk.start c ⟨journalOf ops,trace,tick⟩) moves) request := by
  have free : Along (serve service) (fun _ _ => True) (Desk.start c ⟨journalOf ops,trace,tick⟩) moves :=
    alongAlways (fun _ _ => trivial) _ moves
  obtain ⟨account,answered⟩ : Accounted (applicationFrames trace)
        (served service (Desk.start c ⟨journalOf ops,trace,tick⟩) moves) ∧
      Answered (served service (Desk.start c ⟨journalOf ops,trace,tick⟩) moves) :=
    foldInvariant (I := fun d => Accounted (applicationFrames trace) d ∧ Answered d)
      (fun _ move _ h => ⟨accountedServe h.1 move,answeredServe h.1 h.2 move⟩)
      ⟨accountedStart c ⟨journalOf ops,trace,tick⟩,recordedJournal ops,fun _ mem => by cases mem⟩ free
  exact ⟨⟨account.frames,account.once⟩,answered.agreeing,fun request application planned certified unlocked conflicting
    reaches => toldConflict account answered planned certified unlocked conflicting reaches⟩

end

def dryRunDigest : Bytes :=
  [171, 93, 186, 255, 50, 220, 38, 6, 139, 194, 200, 172, 238, 254, 157, 84, 215, 229, 173, 152, 253, 25, 104, 160, 169,
    73, 253, 234, 22, 87, 181, 200]

def dryRunOrder : ControlRequest := {venueOrder "order-1" with executionMode := .dryRun}

def dryRunCrates : Crates Nat := {venueCrates with
  sha256 := fun input =>
    if input = fingerprintInput dryRunOrder (ascii "D") (applicationOf (venueOrder "order-1")).fields then dryRunDigest
    else venueCrates.sha256 input}

def dryRunService : ControlService Nat := {venueService with crates := dryRunCrates}

def orderedDesk : Desk := served dryRunService (Desk.start venueCtx fresh)
  [.spawn venueCtx,.replace,.input (.frame (venueLogon 1)) logonOutside,.execute (venueOrder "order-1") none,.lookup 0,.submit]

theorem dryRunUnchecked : ∃ application,
    plan dryRunCrates venuePlanner dryRunOrder = .ok (.application application) ∧
    Conflicting orderedDesk dryRunOrder.requestId application.fingerprint ∧
    (execute dryRunService orderedDesk dryRunOrder (some 1)).answers.head?.map
      (fun pair => (pair.2.ok,pair.2.error)) = some (true,none) := by
  refine ⟨⟨ascii "order-1",hex dryRunDigest,clOrdId venueCrates (ascii "venue") (ascii "order-1"),ascii "D",
    (applicationOf (venueOrder "order-1")).fields⟩,by decide +kernel,?_,by decide +kernel⟩
  exact ⟨⟨ascii "order-1",hex orderDigest,clOrdId venueCrates (ascii "venue") (ascii "order-1"),2,.written⟩,
    by decide +kernel,by decide +kernel⟩

end FixCli.Control
