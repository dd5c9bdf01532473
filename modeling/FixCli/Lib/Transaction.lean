import FixCli.Lib.Prog
import FixCli.Lib.Text

/-! A transactional database. A transaction works on a copy of what is committed, and a
commit publishes the copy whole. Each call into the database may be refused, may lose its
answer, or may be the last that the process makes; which one is up to `fault`, call by
call. `Yields` is the rule of what comes ahead of a commit, `Concludes` that of the whole. -/
namespace FixCli.Lib

/-- What a call meets: nothing, an error with or without effect, or the end of the
process before or behind its effect. -/
inductive CallFault where
  | none
  | refused (text : Bytes)
  | lost (text : Bytes)
  | diesBefore
  | diesAfter
  deriving DecidableEq, Repr

inductive Abort (ε : Type) where
  | error (e : ε)
  | died
  deriving DecidableEq, Repr

structure Database (τ : Type) where
  committed : τ
  working : τ
  tick : Nat

abbrev Txn (τ ε α : Type) := Prog (Database τ) (Abort ε) α

namespace Txn

section

variable {τ ε α β : Type} (fault : Nat → CallFault) (backend : Bytes → ε)

def call : Txn τ ε Unit := fun s =>
  match fault s.tick with
  | .none => (.ok (),{s with tick := s.tick + 1})
  | .refused text | .lost text => (.error (.error (backend text)),{s with tick := s.tick + 1})
  | .diesBefore | .diesAfter => (.error .died,{s with tick := s.tick + 1})

def start : Txn τ ε Unit := do
  call fault backend
  Prog.change fun s => {s with working := s.committed}

def read (view : τ → α) : Txn τ ε α := do
  call fault backend
  let s ← Prog.state
  pure (view s.working)

def write (update : τ → τ) : Txn τ ε Unit := do
  call fault backend
  Prog.change fun s => {s with working := update s.working}

def fail (e : ε) : Txn τ ε α := Prog.stop (.error e)

def commit : Txn τ ε Unit := fun s =>
  match fault s.tick with
  | .none => (.ok (),{s with committed := s.working, tick := s.tick + 1})
  | .refused text => (.error (.error (backend text)),{s with tick := s.tick + 1})
  -- the answer is lost, and the copy published all the same
  | .lost text => (.error (.error (backend text)),{s with committed := s.working, tick := s.tick + 1})
  | .diesBefore => (.error .died,{s with tick := s.tick + 1})
  | .diesAfter => (.error .died,{s with committed := s.working, tick := s.tick + 1})

end

section

variable {τ ε α β : Type} {fault : Nat → CallFault} {backend : Bytes → ε} {m : Txn τ ε α} {f : α → Txn τ ε β}
  {t u v : τ} {a : α} {b : β}

def Faulted (fault : Nat → CallFault) (first last : Nat) : Prop := ∃ n, first ≤ n ∧ n < last ∧ fault n ≠ .none

theorem Faulted.wider {first last early late : Nat} (h : Faulted fault first last) (before : early ≤ first)
    (behind : last ≤ late) : Faulted fault early late := by
  obtain ⟨n,above,below,met⟩ := h
  exact ⟨n,by omega,by omega,met⟩

def faults (fault : Nat → CallFault) (first last : Nat) : Nat :=
  (List.range' first (last - first)).countP fun n => fault n ≠ .none

theorem Faulted.counts {first last : Nat} (h : Faulted fault first last) : 1 ≤ faults fault first last := by
  obtain ⟨n,above,below,met⟩ := h
  refine List.countP_pos_iff.mpr ⟨n,List.mem_range'_1.mpr ⟨above,by omega⟩,?_⟩
  simpa using met

theorem faultsSplit (fault : Nat → CallFault) {first middle last : Nat}
    (forward : first ≤ middle) (onward : middle ≤ last) :
    faults fault first last = faults fault first middle + faults fault middle last := by
  have range : List.range' first (last - first) =
      List.range' first (middle - first) ++ List.range' middle (last - middle) := by
    have ends : middle = first + 1 * (middle - first) := by omega
    have both : last - first = middle - first + (last - middle) := by omega
    rw [both,← List.range'_append]
    congr 2
    omega
  rw [faults,range,List.countP_append]
  rfl

def Cut (backend : Bytes → ε) (stop : Abort ε) : Prop := stop = .died ∨ ∃ text, stop = .error (backend text)

def Yields (fault : Nat → CallFault) (backend : Bytes → ε) (m : Txn τ ε α) (t : τ) (a : α) (u : τ) : Prop :=
  ∀ k tick, (∃ later, tick ≤ later ∧ m ⟨k,t,tick⟩ = (.ok a,⟨k,u,later⟩)) ∨
    ∃ stop left later, tick ≤ later ∧ m ⟨k,t,tick⟩ = (.error stop,⟨k,left,later⟩) ∧ Cut backend stop ∧
      Faulted fault tick later

theorem Yields.pure (a : α) (t : τ) : Yields fault backend (Pure.pure a) t a t :=
  fun _ tick => .inl ⟨tick,Nat.le_refl _,rfl⟩

theorem Yields.bind (first : Yields fault backend m t a u) (next : Yields fault backend (f a) u b v) :
    Yields fault backend (m >>= f) t b v := by
  intro k tick
  rcases first k tick with ⟨middle,forward,run⟩ | ⟨stop,left,later,forward,run,cut,faulted⟩
  · rw [Prog.bindReturns run]
    rcases next k middle with ⟨later,onward,run⟩ | ⟨stop,left,later,onward,run,cut,faulted⟩
    · exact .inl ⟨later,forward.trans onward,run⟩
    · exact .inr ⟨stop,left,later,forward.trans onward,run,cut,faulted.wider forward (Nat.le_refl _)⟩
  · exact .inr ⟨stop,left,later,forward,Prog.bindStops run,cut,faulted⟩

theorem Yields.call (t : τ) : Yields fault backend (call fault backend) t () t := by
  intro k tick
  have met (bad : fault tick ≠ .none) : Faulted fault tick (tick + 1) := ⟨tick,Nat.le_refl _,Nat.lt_succ_self _,bad⟩
  unfold Txn.call
  dsimp only
  cases here : fault tick with
  | none => exact .inl ⟨tick + 1,Nat.le_succ _,rfl⟩
  | refused text => exact .inr ⟨_,t,tick + 1,Nat.le_succ _,rfl,.inr ⟨text,rfl⟩,met (by simp [here])⟩
  | lost text => exact .inr ⟨_,t,tick + 1,Nat.le_succ _,rfl,.inr ⟨text,rfl⟩,met (by simp [here])⟩
  | diesBefore => exact .inr ⟨_,t,tick + 1,Nat.le_succ _,rfl,.inl rfl,met (by simp [here])⟩
  | diesAfter => exact .inr ⟨_,t,tick + 1,Nat.le_succ _,rfl,.inl rfl,met (by simp [here])⟩

theorem Yields.read (view : τ → α) (t : τ) : Yields fault backend (read fault backend view) t (view t) t :=
  Yields.bind (.call t) fun _ tick => .inl ⟨tick,Nat.le_refl _,rfl⟩

theorem Yields.write (update : τ → τ) (t : τ) : Yields fault backend (write fault backend update) t () (update t) :=
  Yields.bind (.call t) fun _ tick => .inl ⟨tick,Nat.le_refl _,rfl⟩

theorem Yields.ofExcept {r : Except (Abort ε) α} (ok : r = .ok a) (t : τ) :
    Yields fault backend (Prog.ofExcept r) t a t := by
  subst ok
  exact .pure a t

/-- What an operation is seen to do where its own call into the database meets a fault:
the whole of its effect, or none of it. -/
def faulted (backend : Bytes → ε) (k : τ) (answer : Except ε α) (u : τ) : CallFault → Except (Abort ε) α × τ
  | .none => match answer with
    | .ok a => (.ok a,u)
    | .error e => (.error (.error e),u)
  | .refused text => (.error (.error (backend text)),k)
  | .lost text => (.error (.error (backend text)),u)
  | .diesBefore => (.error .died,k)
  | .diesAfter => (.error .died,u)

def Concludes (fault : Nat → CallFault) (backend : Bytes → ε) (m : Txn τ ε α) (k t : τ) (answer : Except ε α)
    (u : τ) : Prop :=
  ∀ tick, ∃ seen, tick ≤ (m ⟨k,t,tick⟩).2.tick ∧
    ((m ⟨k,t,tick⟩).1,(m ⟨k,t,tick⟩).2.committed) = faulted backend k answer u seen ∧
    (seen = .none ∨ Faulted fault tick (m ⟨k,t,tick⟩).2.tick)

theorem Cut.seen {stop : Abort ε} (cut : Cut backend stop) (k : τ) (answer : Except ε α) (u : τ) :
    ∃ seen, ((.error stop,k) : Except (Abort ε) α × τ) = faulted backend k answer u seen := by
  rcases cut with rfl | ⟨text,rfl⟩
  · exact ⟨.diesBefore,rfl⟩
  · exact ⟨.refused text,rfl⟩

theorem Yields.concludes {k : τ} {answer : Except ε β} (first : Yields fault backend m t a u)
    (next : Concludes fault backend (f a) k u answer v) : Concludes fault backend (m >>= f) k t answer v := by
  intro tick
  rcases first k tick with ⟨middle,forward,run⟩ | ⟨stop,left,later,forward,run,cut,faulted⟩
  · rw [Prog.bindReturns run]
    obtain ⟨seen,onward,same,faulted⟩ := next middle
    exact ⟨seen,forward.trans onward,same,faulted.imp_right fun met => met.wider forward (Nat.le_refl _)⟩
  · rw [Prog.bindStops run]
    obtain ⟨seen,same⟩ := cut.seen k answer v
    exact ⟨seen,forward,same,.inr faulted⟩

theorem Concludes.pure (k t : τ) (a : α) : Concludes fault backend (Pure.pure a) k t (.ok a) k :=
  fun tick => ⟨.none,Nat.le_refl tick,rfl,.inl rfl⟩

theorem Concludes.fail (k t : τ) (e : ε) : Concludes fault backend (fail e : Txn τ ε α) k t (.error e) k :=
  fun tick => ⟨.none,Nat.le_refl tick,rfl,.inl rfl⟩

theorem Concludes.commit (k t : τ) (a : α) :
    Concludes fault backend (do commit fault backend; Pure.pure a) k t (.ok a) t := by
  intro tick
  have met (bad : fault tick ≠ .none) : Faulted fault tick (tick + 1) := ⟨tick,Nat.le_refl _,Nat.lt_succ_self _,bad⟩
  refine ⟨fault tick,?_⟩
  simp only [Prog.bindRun,Txn.commit]
  cases here : fault tick with
  | none => exact ⟨Nat.le_succ _,rfl,.inl rfl⟩
  | refused text => exact ⟨Nat.le_succ _,rfl,.inr (met (by simp [here]))⟩
  | lost text => exact ⟨Nat.le_succ _,rfl,.inr (met (by simp [here]))⟩
  | diesBefore => exact ⟨Nat.le_succ _,rfl,.inr (met (by simp [here]))⟩
  | diesAfter => exact ⟨Nat.le_succ _,rfl,.inr (met (by simp [here]))⟩

theorem Concludes.started {k : τ} {answer : Except ε β} {f : Unit → Txn τ ε β}
    (body : Concludes fault backend (f ()) k k answer v) (t : τ) :
    Concludes fault backend (start fault backend >>= f) k t answer v := by
  have opens : (start fault backend >>= f : Txn τ ε β) =
      call fault backend >>= fun _ => Prog.change (fun s => {s with working := s.committed}) >>= f := bind_assoc _ _ _
  rw [opens]
  exact (Yields.call t).concludes body

end
end Txn
end FixCli.Lib
