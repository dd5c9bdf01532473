import FixCli.Admissions
import FixCli.PlannedAccepted
import Mathlib.Data.List.Dedup

/-! The rate window over a run of the daemon: it bounds the requests whose frames go out
as long as no admission rides on an earlier one. A reservation that a failed submit left
behind is used again for free, under the instant at which it was made. -/
namespace FixCli.Control
open Lib Codec Store Session

def sentWithin (start : Nat) (admissions : List Admission) : List Bytes :=
  (admissions.filter fun a =>
    decide (a.frames ≠ [] ∧ start ≤ a.instant ∧ a.instant < start + nanosPerSec)).map Admission.requestId

section

variable {δ : Type} (service : ControlService δ)

/-- A lookup that comes to `try_acquire` does not find a reservation under its own ID
that was made at an earlier instant and still counts. -/
def Fresh (d : Desk) : Move → Prop
  | .lookup elapsed => ∀ request application session, d.gate = .looking request application (some session) →
      (lookupPersistedCommand service d (some session) application.requestId).1 = some (.ok none) →
      ∀ instant, (instant,request.requestId) ∈ d.limiter.accepted →
        instant + nanosPerSec ≤ d.clock + elapsed ∨ instant = d.clock + elapsed
  | _ => True

structure Windowed (d : Desk) : Prop where
  orderly : Orderly service.planner.policy.maxMessagesPerSecond d.clock d.limiter
  bounded : ∀ start, (sentWithin start d.admissions).dedup.length ≤ service.planner.policy.maxMessagesPerSecond
  past : ∀ a ∈ d.admissions, a.instant ≤ d.clock
  queued : ∀ a ∈ d.admissions, a.frames ≠ [] → d.clock < a.instant + nanosPerSec →
    (a.instant,a.requestId) ∈ d.limiter.accepted
  pending : ∀ request application session, d.gate = .submitted request application session →
    ∃ rest, d.admissions = ⟨request.requestId,d.clock,[]⟩ :: rest ∧ (d.clock,request.requestId) ∈ d.limiter.accepted

variable {service} {base : List Bytes} {d : Desk}

theorem sentCons (start : Nat) (a : Admission) (rest : List Admission) : sentWithin start (a :: rest) =
    (if a.frames ≠ [] ∧ start ≤ a.instant ∧ a.instant < start + nanosPerSec then [a.requestId] else []) ++
      sentWithin start rest := by
  unfold sentWithin
  rw [List.filter_cons]
  by_cases sent : a.frames ≠ [] ∧ start ≤ a.instant ∧ a.instant < start + nanosPerSec
  · simp [sent]
  · simp only [decide_eq_true_eq,if_neg sent,List.nil_append]

theorem sentUnsent (start : Nat) (requestId : Bytes) (instant : Nat) (rest : List Admission) :
    sentWithin start (⟨requestId,instant,[]⟩ :: rest) = sentWithin start rest := by
  rw [sentCons,if_neg (by simp)]
  rfl

theorem Windowed.queue {d : Desk} {maximum clock : Nat} (orderly : Orderly maximum clock d.limiter) {ids : List Bytes}
    (queued : ∀ requestId ∈ ids, ∃ instant, (instant,requestId) ∈ d.limiter.accepted) : ids.dedup.length ≤ maximum := by
  have inside : ids.dedup ⊆ d.limiter.accepted.map Prod.snd := fun requestId mem => by
    obtain ⟨instant,held⟩ := queued requestId (List.mem_dedup.mp mem)
    exact List.mem_map.mpr ⟨_,held,rfl⟩
  have fewer := (List.subperm_of_subset (List.nodup_dedup ids) inside).length_le
  rw [List.length_map] at fewer
  exact fewer.trans orderly.bounded

theorem windowedStart (service : ControlService δ) (c : Ctx) (s : Shared) : Windowed service (Desk.start c s) where
  orderly := orderlyEmpty _ _
  bounded := fun _ => Nat.zero_le _
  past := fun _ mem => by cases mem
  queued := fun _ mem => by cases mem
  pending := fun _ _ _ gate => by cases gate

theorem Windowed.aside (h : Windowed service d) {v : Desk} (limiter : v.limiter = d.limiter) (clock : v.clock = d.clock)
    (admissions : v.admissions = d.admissions)
    (gate : ∀ request application session, v.gate = .submitted request application session → v.gate = d.gate) :
    Windowed service v := by
  refine ⟨by rw [limiter,clock]; exact h.orderly,by rw [admissions]; exact h.bounded,
    by rw [admissions,clock]; exact h.past,by rw [admissions,clock,limiter]; exact h.queued,?_⟩
  rw [admissions,clock,limiter]
  exact fun request application session at' => h.pending _ _ _ ((gate _ _ _ at').symm.trans at')

theorem Windowed.admits (h : Windowed service d) {request : ControlRequest} {application : ApplicationRequest}
    {session elapsed : Nat} (conn : Conn)
    (fresh : ∀ instant, (instant,request.requestId) ∈ d.limiter.accepted →
      instant + nanosPerSec ≤ d.clock + elapsed ∨ instant = d.clock + elapsed) :
    Windowed service (reserve service {d with conn := conn} (d.clock + elapsed) request application session) := by
  obtain ⟨orderly,young,granted⟩ := acquires request.requestId h.orderly (Nat.le_add_right _ elapsed)
  unfold reserve
  dsimp only
  rcases acquired : tryAcquire service.planner.policy.maxMessagesPerSecond (d.clock + elapsed) request.requestId d.limiter
    with ⟨grant,limiter⟩
  rw [acquired] at orderly young granted
  have past (a : Admission) (mem : a ∈ d.admissions) : a.instant ≤ d.clock + elapsed :=
    (h.past a mem).trans (Nat.le_add_right _ _)
  have queued (a : Admission) (mem : a ∈ d.admissions) (sent : a.frames ≠ [])
      (recent : d.clock + elapsed < a.instant + nanosPerSec) : (a.instant,a.requestId) ∈ limiter.accepted :=
    young _ (h.queued a mem sent (by omega)) recent
  cases grant with
  | false => exact ⟨orderly,h.bounded,past,queued,fun _ _ _ gate => by cases gate⟩
  | true =>
    obtain ⟨instant,held,now⟩ := granted rfl
    have same : instant = d.clock + elapsed := by
      rcases now with now | ⟨before,counts⟩
      · exact now
      · exact (fresh instant before).resolve_left (by omega)
    refine ⟨orderly,fun start => ?_,fun a mem => ?_,fun a mem sent recent => ?_,fun _ _ _ gate => ?_⟩
    · rw [sentUnsent]
      exact h.bounded start
    · rcases List.mem_cons.mp mem with rfl | inside
      · exact Nat.le_refl _
      · exact past a inside
    · rcases List.mem_cons.mp mem with rfl | inside
      · exact absurd rfl sent
      · exact queued a inside sent recent
    · cases gate
      exact ⟨_,rfl,same ▸ held⟩

theorem Windowed.submits (h : Windowed service d) (account : Accounted base d) {request : ControlRequest}
    {application : ApplicationRequest} {session : Nat} (submitted : d.gate = .submitted request application session) :
    Windowed service (submit d) := by
  obtain ⟨conn,frames,gate,answers,left,shape,closed,frees,-⟩ := submitCases (account.named.2 _ _ _ submitted) submitted
  obtain ⟨rest,head,held⟩ := h.pending _ _ _ submitted
  have unsent := (account.pending _ _ _ submitted).1
  rw [shape]
  have shut (request application session) : gate ≠ .submitted request application session := by
    rintro rfl
    rcases closed with closed | closed <;> cases closed
  rcases left.one with none | ⟨⟨wire,one⟩,-⟩
  · -- nothing went out, and a reservation may be released
    have same : filed frames d.admissions = d.admissions := by rw [none,head]; rfl
    rw [same]
    cases freed : released d .submit with
    | none => exact h.aside rfl rfl rfl fun _ _ _ at' => absurd at' (shut _ _ _)
    | some requestId =>
      obtain ⟨rfl,-⟩ := frees requestId freed
      obtain ⟨orderly,others⟩ := releaseKeeps h.orderly request.requestId
      refine ⟨orderly,h.bounded,h.past,fun a mem sent recent => ?_,fun _ _ _ at' => absurd at' (shut _ _ _)⟩
      refine others _ (h.queued a mem sent recent) fun own => sent ?_
      exact List.flatMap_eq_nil_iff.mp unsent a (List.mem_filter.mpr ⟨mem,by simpa using own⟩)
  · have kept : released d .submit = none := by
      cases freed : released d .submit with
      | none => rfl
      | some requestId => cases one.symm.trans (frees requestId freed).2
    rw [kept,head]
    have queued (a : Admission) (mem : a ∈ ⟨request.requestId,d.clock,frames⟩ :: rest) (sent : a.frames ≠ [])
        (recent : d.clock < a.instant + nanosPerSec) : (a.instant,a.requestId) ∈ d.limiter.accepted := by
      rcases List.mem_cons.mp mem with rfl | inside
      · exact held
      · exact h.queued a (by rw [head]; exact List.mem_cons_of_mem _ inside) sent recent
    refine ⟨h.orderly,fun start => ?_,fun a mem => ?_,queued,fun _ _ _ at' => absurd at' (shut _ _ _)⟩
    · by_cases inside : start ≤ d.clock ∧ d.clock < start + nanosPerSec
      · refine Windowed.queue h.orderly fun requestId mem => ?_
        obtain ⟨a,found,rfl⟩ := List.mem_map.mp mem
        obtain ⟨member,counts⟩ := List.mem_filter.mp found
        have counts := of_decide_eq_true counts
        exact ⟨_,queued a member counts.1 (by omega)⟩
      · have before := h.bounded start
        rw [head,sentUnsent] at before
        simp only [filed]
        rw [sentCons,if_neg fun sent => inside sent.2]
        exact before
    · rcases List.mem_cons.mp mem with rfl | inside
      · exact Nat.le_refl _
      · exact h.past a (by rw [head]; exact List.mem_cons_of_mem _ inside)

theorem windowedServe (account : Accounted base d) (h : Windowed service d) {move : Move} (fresh : Fresh service d move) :
    Windowed service (serve service d move) := by
  have served := serveCases service account.named move
  generalize serve service d move = v at served ⊢
  cases served with
  | aside rest gate kept =>
    refine h.aside (by rw [rest]) (by rw [rest]) (by rw [rest]) fun _ _ _ at' => ?_
    rcases gate with same | closed | closed
    · exact same
    · cases closed.symm.trans at'
    · cases closed.1.symm.trans at'
  | takes planned free => exact h.aside rfl rfl rfl fun _ _ _ at' => by cases at'
  | admits looking lookedUp kept unrecorded =>
    exact h.admits _ (fresh _ _ _ looking (congrArg Prod.fst lookedUp))
  | submits submitted => exact h.submits account submitted

theorem Accounted.releases (h : Accounted base d) {move : Move} {requestId : Bytes}
    (frees : released d move = some requestId) : framesOf requestId (serve service d move).admissions = [] := by
  cases move with
  | submit =>
    cases gate : d.gate with
    | submitted request application session =>
      obtain ⟨_,frames,_,_,-,shape,-,own,-⟩ := submitCases (h.named.2 _ _ _ gate) gate
      obtain ⟨rfl,none⟩ := own requestId frees
      obtain ⟨unsent,_,rest,head⟩ := h.pending _ _ _ gate
      change framesOf _ (submit d).admissions = []
      rw [shape,none,head]
      rw [head] at unsent
      exact unsent
    | free | looking _ _ _ | gone => simp [released,gate] at frees
  | _ => cases frees

/-- The window is bounded in every run whose admissions are all fresh. A release takes, in
every run, the reservation of a request that no frame went out for. -/
theorem windowBounded (c : Ctx) (s : Shared) (moves : List Move) :
    (Along (serve service) (Fresh service) (Desk.start c s) moves →
      ∀ start, (sentWithin start (served service (Desk.start c s) moves).admissions).dedup.length ≤
        service.planner.policy.maxMessagesPerSecond) ∧
    ∀ move requestId, released (served service (Desk.start c s) moves) move = some requestId →
      framesOf requestId (serve service (served service (Desk.start c s) moves) move).admissions = [] := by
  refine ⟨fun fresh => ?_,fun move requestId frees => ?_⟩
  · have both : Accounted (applicationFrames s.trace) (served service (Desk.start c s) moves) ∧
        Windowed service (served service (Desk.start c s) moves) :=
      foldInvariant (I := fun d => Accounted (applicationFrames s.trace) d ∧ Windowed service d)
        (fun _ move fresh h => ⟨accountedServe h.1 move,windowedServe h.1 h.2 fresh⟩)
        ⟨accountedStart c s,windowedStart service c s⟩ fresh
    exact both.2.bounded
  · exact (accounted c s moves).releases frees

end

def slowService : ControlService Nat := {venueService with
  planner := {venuePlanner with policy := {venuePlanner.policy with maxMessagesPerSecond := 1}}}

def opening : List Move := [.spawn venueCtx,.replace,.input (.frame (venueLogon 1)) logonOutside]

def ordering (request : ControlRequest) (elapsed : Nat) : List Move :=
  [.execute request none,.lookup elapsed,.submit]

/-- An order refused for its tags, put right 0.9 s later under the same ID, and another at
the end of the second. -/
def rideMoves : List Move := opening ++ ordering flaggedOrder 0 ++ ordering (venueOrder "order-1") 900000000 ++
  ordering (venueOrder "order-2") 100000000

theorem reservationReused : slowService.planner.policy.maxMessagesPerSecond = 1 ∧
    (sentWithin 900000000 (served slowService (Desk.start venueCtx fresh) rideMoves).admissions).dedup.length = 2 ∧
    ¬ ∀ start, (sentWithin start (served slowService (Desk.start venueCtx fresh) rideMoves).admissions).dedup.length ≤
      slowService.planner.policy.maxMessagesPerSecond := by
  have two : (sentWithin 900000000 (served slowService (Desk.start venueCtx fresh) rideMoves).admissions).dedup.length =
      2 := by decide +kernel
  refine ⟨rfl,two,fun bounded => ?_⟩
  have one := bounded 900000000
  rw [two] at one
  exact absurd one (by decide)

theorem windowBoundedAtVenue :
    (sentWithin 0 (served slowService (Desk.start venueCtx fresh)
      (opening ++ ordering (venueOrder "order-1") 0)).admissions).length = 1 ∧
    (∀ start, (sentWithin start (served slowService (Desk.start venueCtx fresh)
        (opening ++ ordering (venueOrder "order-1") 0)).admissions).dedup.length ≤ 1) ∧
    ∀ move requestId, released (served slowService (Desk.start venueCtx fresh)
        (opening ++ ordering (venueOrder "order-1") 0)) move = some requestId →
      framesOf requestId (serve slowService (served slowService (Desk.start venueCtx fresh)
        (opening ++ ordering (venueOrder "order-1") 0)) move).admissions = [] := by
  have empty : (served slowService (Desk.start venueCtx fresh)
      (opening ++ [.execute (venueOrder "order-1") none])).limiter.accepted = [] := by decide +kernel
  have free : Fresh slowService (served slowService (Desk.start venueCtx fresh)
      (opening ++ [.execute (venueOrder "order-1") none])) (.lookup 0) := by
    intro request application session _ _ instant held
    rw [empty] at held
    cases held
  obtain ⟨bounded,releases⟩ := @windowBounded _ slowService venueCtx fresh
    (opening ++ ordering (venueOrder "order-1") 0)
  exact ⟨by decide +kernel,bounded ⟨trivial,trivial,trivial,trivial,free,trivial,trivial⟩,releases⟩

end FixCli.Control
