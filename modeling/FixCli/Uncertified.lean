import FixCli.ControlService

/-! Control requests outside certification: inspections, dry runs and live requests are
answered, and nothing else comes of them. -/
namespace FixCli.Control
open Lib Codec Store Session

structure Unmoved (conn other : Conn) : Prop where
  live : other.live = conn.live
  actor : other.world.toActor = conn.world.toActor
  journal : other.world.journal = conn.world.journal
  tick : other.world.tick = conn.world.tick
  trace : ∃ new, other.world.trace = new ++ conn.world.trace ∧
    ∀ event ∈ new, ∃ status, event = .replied (.ok (.status status))

theorem Unmoved.refl (conn : Conn) : Unmoved conn conn := ⟨rfl,rfl,rfl,rfl,[],rfl,by simp⟩

theorem askStatus (d : Desk) (session : Nat) :
    ∃ reply, (ask d session .status).1 = some reply ∧ Unmoved d.conn (ask d session .status).2 := by
  unfold ask
  split
  · rename_i reached
    refine ⟨.ok (.status (sessionStatus d.conn.world)),rfl,?_⟩
    have replies : Session.step d.ctx d.conn (.command .status) =
        ⟨replied (.ok (.status (sessionStatus d.conn.world))) d.conn.world,true⟩ := by
      simp only [Session.step,reached.2,if_true]
      rfl
    rw [replies]
    exact ⟨reached.2.symm,rfl,rfl,rfl,[_],rfl,by simp⟩
  · exact ⟨_,rfl,.refl _⟩

section

variable {δ : Type} {service : ControlService δ} {request : ControlRequest}

variable (service) in
theorem liveRefused (live : request.executionMode = .live) :
    ∃ error, plan service.crates service.planner request = .error error := by
  have refused : ∃ error, validateEnvelope service.planner request = .error error := by
    unfold validateEnvelope
    rw [if_pos live]
    repeat' split
    all_goals exact ⟨_,rfl⟩
  obtain ⟨error,refused⟩ := refused
  exact ⟨error,by simp only [plan,refused]; rfl⟩

theorem logoutCertified (planned : plan service.crates service.planner request = .ok .sessionLogout) :
    request.executionMode = .certification := by
  obtain ⟨_,-,planned⟩ := boundOk planned
  unfold planCommand at planned
  split at planned
  · cases planned
  · split at planned
    · cases planned
    · rename_i certified
      exact Decidable.not_not.mp certified
  all_goals
    obtain ⟨_,-,planned⟩ := boundOk planned
    try obtain ⟨_,-,planned⟩ := boundOk planned
    try obtain ⟨_,-,planned⟩ := boundOk planned
    cases planned

theorem uncertifiedDispatch {planned : PlannedCommand} (ok : plan service.crates service.planner request = .ok planned)
    (other : request.executionMode ≠ .certification) :
    dispatch request planned = .asks .status statusOf (.ok (.status ⟨.disconnected,0,0,none⟩)) ∨
      ∃ result, dispatch request planned = .answered result := by
  cases planned with
  | sessionStatus => exact .inl rfl
  | sessionLogout => exact absurd (logoutCertified ok) other
  | application application =>
    right
    cases mode : request.executionMode with
    | certification => exact absurd mode other
    | live =>
      obtain ⟨error,refused⟩ := liveRefused service mode
      cases refused.symm.trans ok
    | inspect => exact ⟨_,by simp only [dispatch,mode]; rfl⟩
    | dryRun => exact ⟨_,by simp only [dispatch,mode]; rfl⟩

theorem uncertifiedIdle (other : request.executionMode ≠ .certification) (d : Desk) (session : Option Nat) :
    ∃ conn response, Unmoved d.conn conn ∧
      execute service d request session = answer request response {d with conn := conn} ∧
      (request.executionMode = .live → response.ok = false ∧ response.error.isSome = true) := by
  unfold execute
  cases ok : plan service.crates service.planner request with
  | error error => exact ⟨d.conn,_,.refl _,rfl,fun _ => ⟨rfl,rfl⟩⟩
  | ok planned =>
    have armed : request.executionMode ≠ .live := fun live => by
      obtain ⟨error,refused⟩ := liveRefused service live
      cases refused.symm.trans ok
    rcases uncertifiedDispatch ok other with asks | ⟨result,answered⟩
    · simp only [asks]
      cases session with
      | none => exact ⟨d.conn,_,.refl _,rfl,fun live => absurd live armed⟩
      | some session =>
        obtain ⟨reply,given,unmoved⟩ := askStatus d session
        rcases heard : ask d session .status with ⟨_,conn⟩
        rw [heard] at given unmoved
        cases given
        exact ⟨conn,_,unmoved,by simp only [heard]; rfl,fun live => absurd live armed⟩
    · simp only [answered]
      exact ⟨d.conn,_,.refl _,rfl,fun live => absurd live armed⟩

end

theorem uncertifiedIdleAtVenue : ExecutionMode.live ≠ .certification ∧
    ∃ conn response, Unmoved venueDesk.conn conn ∧
      execute venueService venueDesk {venueOrder "order-1" with executionMode := .live} (some 1) =
        answer {venueOrder "order-1" with executionMode := .live} response {venueDesk with conn := conn} ∧
      (ExecutionMode.live = .live → response.ok = false ∧ response.error.isSome = true) :=
  ⟨by decide,@uncertifiedIdle _ venueService {venueOrder "order-1" with executionMode := .live} (by simp) venueDesk
    (some 1)⟩

end FixCli.Control
