import FixCli.Lib.Prog

/-! Two programs run side by side from related states: they return or stop alike and
leave related states behind. -/
namespace FixCli.Lib.Prog

variable {σ ε α β : Type}

def Both (R : σ → σ → Prop) (a b : Except ε α × σ) : Prop := a.1 = b.1 ∧ R a.2 b.2

def Twice (R : σ → σ → Prop) (m n : Prog σ ε α) : Prop := ∀ s t, R s t → Both R (m s) (n t)

variable {R : σ → σ → Prop}

theorem Both.bind {m n : Prog σ ε α} {f g : α → Prog σ ε β} {s t : σ} (first : Both R (m s) (n t))
    (rest : ∀ a, Twice R (f a) (g a)) : Both R ((m >>= f) s) ((n >>= g) t) := by
  obtain ⟨same,after⟩ := first
  rw [bindRun,bindRun]
  rcases left : m s with ⟨r,s'⟩
  rcases right : n t with ⟨r',t'⟩
  rw [left,right] at same after
  cases same
  cases r with
  | ok a => exact rest a s' t' after
  | error e => exact ⟨rfl,after⟩

namespace Twice

theorem pure (a : α) : Twice R (Pure.pure a : Prog σ ε α) (Pure.pure a) := fun _ _ related => ⟨rfl,related⟩

theorem stop (e : ε) : Twice R (Prog.stop e : Prog σ ε α) (Prog.stop e) := fun _ _ related => ⟨rfl,related⟩

theorem ofExcept (r : Except ε α) : Twice R (Prog.ofExcept r) (Prog.ofExcept r) := by
  cases r with
  | ok a => exact pure a
  | error e => exact stop e

theorem change {f g : σ → σ} (h : ∀ s t, R s t → R (f s) (g t)) :
    Twice R (Prog.change f : Prog σ ε Unit) (Prog.change g) := fun s t related => ⟨rfl,h s t related⟩

theorem bind {m n : Prog σ ε α} {f g : α → Prog σ ε β} (first : Twice R m n) (rest : ∀ a, Twice R (f a) (g a)) :
    Twice R (m >>= f) (n >>= g) := fun s t related => (first s t related).bind rest

theorem read {f g : σ → Prog σ ε β} (h : ∀ s t, R s t → Twice R (f s) (g t)) :
    Twice R (Prog.state >>= f) (Prog.state >>= g) := fun s t related => h s t related s t related

theorem ite {p q : Prop} [Decidable p] [Decidable q] {m n m' n' : Prog σ ε α} (same : p ↔ q)
    (yes : Twice R m n) (no : Twice R m' n') : Twice R (if p then m else m') (if q then n else n') := by
  by_cases here : p
  · rw [if_pos here,if_pos (same.mp here)]
    exact yes
  · rw [if_neg here,if_neg fun there => here (same.mpr there)]
    exact no

theorem attempt {δ : Type} {catches : ε → Option δ} {m n : Prog σ ε α} (h : Twice R m n) :
    Twice R (Prog.attempt catches m) (Prog.attempt catches n) := by
  intro s t related
  obtain ⟨same,after⟩ := h s t related
  unfold Prog.attempt
  rcases left : m s with ⟨r,s'⟩
  rcases right : n t with ⟨r',t'⟩
  rw [left,right] at same after
  cases same
  cases r with
  | ok a => exact ⟨rfl,after⟩
  | error e =>
    cases caught : catches e with
    | some d => simpa only [Both,caught,true_and] using after
    | none => simpa only [Both,caught,true_and] using after

end Twice
end FixCli.Lib.Prog
