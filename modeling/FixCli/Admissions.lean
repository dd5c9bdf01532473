import FixCli.Lib.Trace
import FixCli.ServiceMoves

/-! The account of the admissions: every original frame of an application belongs to
one, and a request ID has at most one frame over all of them. -/
namespace FixCli.Control
open Lib Codec Store Session

def framesOf (requestId : Bytes) (admissions : List Admission) : List Bytes :=
  (admissions.filter fun a => decide (a.requestId = requestId)).flatMap Admission.frames

structure Accounted (base : List Bytes) (d : Desk) : Prop where
  named : Named d
  frames : applicationFrames d.conn.world.trace = d.admissions.flatMap Admission.frames ++ base
  recorded : ∀ a ∈ d.admissions, a.frames ≠ [] → (d.shared.journal.commands[a.requestId]?).isSome = true
  once : ∀ requestId, (framesOf requestId d.admissions).length ≤ 1
  pending : ∀ request application session, d.gate = .submitted request application session →
    framesOf request.requestId d.admissions = [] ∧
      ∃ instant rest, d.admissions = ⟨request.requestId,instant,[]⟩ :: rest

section

variable {δ : Type} {service : ControlService δ} {base : List Bytes} {d : Desk}

theorem accountedStart (c : Ctx) (s : Shared) : Accounted (applicationFrames s.trace) (Desk.start c s) where
  named := ⟨fun _ _ _ gate => (by cases gate),fun _ _ _ gate => (by cases gate)⟩
  frames := rfl
  recorded := fun _ mem => by cases mem
  once := fun _ => Nat.zero_le _
  pending := fun _ _ _ gate => by cases gate

theorem Accounted.aside (h : Accounted base d) {v : Desk} (admissions : v.admissions = d.admissions)
    (gate : v.gate = d.gate ∨ v.gate = .gone ∨ v.gate = .free) (kept : Retains d.shared v.shared) :
    Accounted base v := by
  have own {g : Gate} (other : g ≠ .gone ∧ g ≠ .free) (at' : v.gate = g) : d.gate = g := by
    rcases gate with same | closed | closed
    · exact same.symm.trans at'
    · exact absurd (at'.symm.trans closed) other.1
    · exact absurd (at'.symm.trans closed) other.2
  refine ⟨⟨fun request application session at' => h.named.1 _ _ _ (own (by simp) at'),
    fun request application session at' => h.named.2 _ _ _ (own (by simp) at')⟩,?_,?_,?_,?_⟩
  · rw [admissions,← h.frames]
    exact kept.frames
  · rw [admissions]
    exact fun a mem sent => kept.commands _ (h.recorded a mem sent)
  · rw [admissions]
    exact h.once
  · rw [admissions]
    exact fun request application session at' => h.pending _ _ _ (own (by simp) at')

theorem Accounted.unsent (h : Accounted base d) {requestId : Bytes}
    (unrecorded : d.shared.journal.commands[requestId]? = none) : framesOf requestId d.admissions = [] := by
  refine List.flatMap_eq_nil_iff.mpr fun a mem => ?_
  obtain ⟨inside,own⟩ := List.mem_filter.mp mem
  by_contra sent
  have found := h.recorded a inside sent
  rw [of_decide_eq_true own,unrecorded] at found
  cases found

theorem framesOfCons (requestId : Bytes) (a : Admission) (rest : List Admission) : framesOf requestId (a :: rest) =
    (if a.requestId = requestId then a.frames else []) ++ framesOf requestId rest := by
  unfold framesOf
  rw [List.filter_cons]
  by_cases own : a.requestId = requestId <;> simp [own]

theorem Accounted.admits (h : Accounted base d) {request : ControlRequest} {application : ApplicationRequest}
    {session elapsed : Nat} {conn : Conn} (looking : d.gate = .looking request application (some session))
    (kept : Retains d.shared conn.world.toShared)
    (unrecorded : d.shared.journal.commands[application.requestId]? = none) :
    Accounted base (reserve service {d with conn := conn} (d.clock + elapsed) request application session) := by
  have own := h.named.1 _ _ _ looking
  have unsent : framesOf request.requestId d.admissions = [] := h.unsent (own ▸ unrecorded)
  have after : Accounted base {d with conn := conn} := h.aside rfl (.inl rfl) kept
  unfold reserve
  split
  · rename_i limiter _
    refine ⟨⟨fun _ _ _ gate => (by cases gate),fun _ _ _ gate => (by cases gate; exact own)⟩,after.frames,?_,?_,?_⟩
    · intro a mem sent
      rcases List.mem_cons.mp mem with rfl | inside
      · exact absurd rfl sent
      · exact after.recorded a inside sent
    · intro requestId
      rw [framesOfCons,ite_self,List.nil_append]
      exact h.once requestId
    · intro _ _ _ gate
      cases gate
      exact ⟨by rw [framesOfCons,ite_self,List.nil_append]; exact unsent,_,_,rfl⟩
  · exact after.aside rfl (.inr (.inr rfl)) (allowsRetains.refl _)

theorem Accounted.submits (h : Accounted base d) {request : ControlRequest} {application : ApplicationRequest}
    {session : Nat} (submitted : d.gate = .submitted request application session) : Accounted base (submit d) := by
  have own := h.named.2 _ _ _ submitted
  obtain ⟨conn,frames,gate,answers,left,shape,closed,-,-⟩ := submitCases own submitted
  obtain ⟨unsent,instant,rest,head⟩ := h.pending _ _ _ submitted
  rw [shape]
  have shut {g : Gate} (other : g ≠ .gone ∧ g ≠ .free) : gate ≠ g := by
    rintro rfl
    exact closed.elim other.2 other.1
  have silent : framesOf request.requestId rest = [] := by
    rw [head,framesOfCons,ite_self,List.nil_append] at unsent
    exact unsent
  refine ⟨⟨fun _ _ _ at' => absurd at' (shut (by simp)),fun _ _ _ at' => absurd at' (shut (by simp))⟩,?_,?_,?_,
    fun _ _ _ at' => absurd at' (shut (by simp))⟩
  · rw [left.grown,h.frames,head]
    simp [filed]
  · simp only [head,filed]
    intro a mem sent
    rcases List.mem_cons.mp mem with rfl | inside
    · exact own ▸ (left.one.resolve_left sent).2
    · exact left.records.commands _ (h.recorded a (by rw [head]; exact List.mem_cons_of_mem _ inside) sent)
  · simp only [head,filed]
    intro requestId
    rw [framesOfCons]
    have before := h.once requestId
    rw [head,framesOfCons,ite_self,List.nil_append] at before
    by_cases mine : request.requestId = requestId
    · rw [if_pos mine,← mine,silent,List.append_nil]
      rcases left.one with none | ⟨⟨wire,one⟩,-⟩
      · simp [none]
      · simp [one]
    · rw [if_neg mine]
      exact before

theorem accountedServe (h : Accounted base d) (move : Move) : Accounted base (serve service d move) := by
  have served := serveCases service h.named move
  generalize serve service d move = v at served ⊢
  cases served with
  | aside rest gate kept => exact h.aside (by rw [rest]) (gate.imp_right (Or.imp_right And.left)) kept
  | takes planned free =>
    obtain ⟨-,_,_,same⟩ := planShape planned
    refine ⟨⟨fun _ _ _ at' => (by cases at'; rw [same]; rfl),fun _ _ _ at' => (by cases at')⟩,h.frames,h.recorded,
      h.once,fun _ _ _ at' => (by cases at')⟩
  | admits looking _ kept unrecorded => exact h.admits looking kept unrecorded
  | submits submitted => exact h.submits submitted

theorem accounted (c : Ctx) (s : Shared) (moves : List Move) :
    Accounted (applicationFrames s.trace) (served service (Desk.start c s) moves) :=
  have free : Along (serve service) (fun _ _ => True) (Desk.start c s) moves := alongAlways (fun _ _ => trivial) _ moves
  foldInvariant (I := Accounted _) (fun _ move _ h => accountedServe h move) (accountedStart c s) free

end
end FixCli.Control
