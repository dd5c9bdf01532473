import Mathlib.Order.Defs.Unbundled
import Mathlib.Tactic.Cases

/-! Programs over a state that either return or stop early, the state surviving
a stop. Two ways to reason about one: `Moves`, what every step does to the state
whatever the outcome, and `Meets`, a triple with one postcondition for a return
and one for a stop. Both are closed under the ways programs are put together. -/
namespace FixCli.Lib

theorem boundOk {ε α β : Type} {r : Except ε α} {f : α → Except ε β} {b : β} (ok : (r >>= f) = .ok b) :
    ∃ a, r = .ok a ∧ f a = .ok b := by
  cases r with
  | error e => cases ok
  | ok a => exact ⟨a,rfl,ok⟩

def FailsOnly {ε α : Type} (P : ε → Prop) (r : Except ε α) : Prop := ∀ e, r = .error e → P e

namespace FailsOnly

variable {ε α β : Type} {P : ε → Prop}

theorem ok (a : α) : FailsOnly P (.ok a : Except ε α) := fun _ bad => nomatch bad

theorem error {e : ε} (h : P e) : FailsOnly P (.error e : Except ε α) := fun _ bad => by cases bad; exact h

theorem bind {r : Except ε α} {f : α → Except ε β} (first : FailsOnly P r) (rest : ∀ a, FailsOnly P (f a)) :
    FailsOnly P (r >>= f) := by
  cases r with
  | error e => exact error (first e rfl)
  | ok a => exact rest a

end FailsOnly

def Prog (σ ε α : Type) := σ → Except ε α × σ

namespace Prog

variable {σ ε α β : Type}

instance : Monad (Prog σ ε) where
  pure a := fun s => (.ok a, s)
  bind m f := fun s => match m s with
    | (.ok a, t) => f a t
    | (.error e, t) => (.error e, t)

def stop (e : ε) : Prog σ ε α := fun s => (.error e, s)

def state : Prog σ ε σ := fun s => (.ok s, s)

def change (f : σ → σ) : Prog σ ε Unit := fun s => (.ok (), f s)

def ofExcept : Except ε α → Prog σ ε α
  | .ok a => pure a
  | .error e => stop e

def attempt {δ : Type} (catches : ε → Option δ) (m : Prog σ ε α) : Prog σ ε (Except δ α) := fun s =>
  match m s with
  | (.ok a, t) => (.ok (.ok a), t)
  | (.error e, t) => match catches e with
    | some d => (.ok (.error d), t)
    | none => (.error e, t)

@[simp] theorem pureRun (a : α) (s : σ) : (pure a : Prog σ ε α) s = (.ok a, s) := rfl
@[simp] theorem stopRun (e : ε) (s : σ) : (stop e : Prog σ ε α) s = (.error e, s) := rfl
@[simp] theorem stateRun (s : σ) : (state : Prog σ ε σ) s = (.ok s, s) := rfl
@[simp] theorem changeRun (f : σ → σ) (s : σ) : (change f : Prog σ ε Unit) s = (.ok (), f s) := rfl

theorem iteRun {p : Prop} [Decidable p] (m n : Prog σ ε α) (s : σ) :
    (if p then m else n) s = if p then m s else n s := by
  split <;> rfl

theorem bindRun (m : Prog σ ε α) (f : α → Prog σ ε β) (s : σ) :
    (m >>= f) s = match m s with
      | (.ok a, t) => f a t
      | (.error e, t) => (.error e, t) := rfl

theorem bindReturns {m : Prog σ ε α} {f : α → Prog σ ε β} {s t : σ} {a : α}
    (first : m s = (.ok a, t)) : (m >>= f) s = f a t := by
  simp only [bindRun,first]

theorem bindStops {m : Prog σ ε α} {f : α → Prog σ ε β} {s t : σ} {e : ε}
    (first : m s = (.error e, t)) : (m >>= f) s = (.error e, t) := by
  simp only [bindRun,first]

theorem bindReturned {m : Prog σ ε α} {f : α → Prog σ ε β} {s t : σ} {b : β}
    (ok : (m >>= f) s = (.ok b, t)) : ∃ a u, m s = (.ok a, u) ∧ f a u = (.ok b, t) := by
  rw [bindRun] at ok
  split at ok
  · rename_i a u first
    exact ⟨a,u,first,ok⟩
  · cases ok

instance : LawfulMonad (Prog σ ε) := LawfulMonad.mk' _
  (by
    intro α m; funext s
    change (match m s with | (.ok a, t) => (Except.ok (id a), t) | (.error e, t) => (.error e, t)) = m s
    cases h : m s with
    | mk r t => cases r <;> rfl)
  (by intros; rfl)
  (by
    intro α β γ m f g; funext s
    simp only [bindRun]
    cases h : m s with
    | mk r t => cases r <;> rfl)

@[simp] theorem ofExceptOk (a : α) : (ofExcept (.ok a) : Prog σ ε α) = pure a := rfl
@[simp] theorem ofExceptError (e : ε) : (ofExcept (.error e) : Prog σ ε α) = stop e := rfl

def Moves (R : σ → σ → Prop) (m : Prog σ ε α) : Prop := ∀ s, R s (m s).2

namespace Moves

variable {R : σ → σ → Prop}

theorem pure [Std.Refl R] (a : α) : Moves R (Pure.pure a : Prog σ ε α) := fun s => Std.Refl.refl s

theorem stop [Std.Refl R] (e : ε) : Moves R (Prog.stop e : Prog σ ε α) := fun s => Std.Refl.refl s

theorem state [Std.Refl R] : Moves R (Prog.state : Prog σ ε σ) := fun s => Std.Refl.refl s

theorem change {f : σ → σ} (h : ∀ s, R s (f s)) : Moves R (Prog.change f : Prog σ ε Unit) := h

theorem ofExcept [Std.Refl R] (r : Except ε α) : Moves R (Prog.ofExcept r : Prog σ ε α) := by
  cases r with
  | ok a => exact pure a
  | error e => exact stop e

theorem bind [IsTrans σ R] {m : Prog σ ε α} {f : α → Prog σ ε β}
    (first : Moves R m) (rest : ∀ a, Moves R (f a)) : Moves R (m >>= f) := by
  intro s
  rw [bindRun]
  have here := first s
  split
  · rename_i a t h
    rw [h] at here
    exact IsTrans.trans s t _ here (rest a t)
  · rename_i e t h
    rwa [h] at here

theorem after [Std.Refl R] {m : Prog σ ε α} {f : α → Prog σ ε β} (rest : ∀ a, Moves R (f a)) (s : σ) :
    R (m s).2 ((m >>= f) s).2 := by
  rw [bindRun]
  split
  · rename_i a t h
    rw [h]
    exact rest a t
  · rename_i e t h
    rw [h]
    exact Std.Refl.refl t

theorem attempt {δ : Type} {catches : ε → Option δ} {m : Prog σ ε α} (h : Moves R m) :
    Moves R (Prog.attempt catches m) := by
  intro s
  have here := h s
  unfold Prog.attempt
  split
  · rename_i a t hm; rwa [hm] at here
  · rename_i e t hm
    rw [hm] at here
    split <;> exact here

theorem weaken {S : σ → σ → Prop} {m : Prog σ ε α} (h : Moves R m)
    (weaker : ∀ s t, R s t → S s t) : Moves S m := fun s => weaker s _ (h s)

end Moves

def Meets (P : σ → Prop) (m : Prog σ ε α) (Q : α → σ → Prop) (E : ε → σ → Prop) : Prop :=
  ∀ s, P s → match m s with
    | (.ok a, t) => Q a t
    | (.error e, t) => E e t

namespace Meets

variable {P P' : σ → Prop} {Q Q' : α → σ → Prop} {E E' : ε → σ → Prop}

theorem pure {a : α} (h : ∀ s, P s → Q a s) : Meets P (Pure.pure a : Prog σ ε α) Q E := h

theorem stop {e : ε} (h : ∀ s, P s → E e s) : Meets P (Prog.stop e : Prog σ ε α) Q E := h

theorem state {Q : σ → σ → Prop} (h : ∀ s, P s → Q s s) : Meets P (Prog.state : Prog σ ε σ) Q E := h

theorem change {f : σ → σ} {Q : Unit → σ → Prop} (h : ∀ s, P s → Q () (f s)) :
    Meets P (Prog.change f : Prog σ ε Unit) Q E := h

theorem ofExcept {r : Except ε α} (ok : ∀ a, r = .ok a → ∀ s, P s → Q a s)
    (bad : ∀ e, r = .error e → ∀ s, P s → E e s) : Meets P (Prog.ofExcept r) Q E := by
  cases r with
  | ok a => exact ok a rfl
  | error e => exact bad e rfl

theorem bind {m : Prog σ ε α} {f : α → Prog σ ε β} {R : β → σ → Prop}
    (first : Meets P m Q E) (rest : ∀ a, Meets (Q a) (f a) R E) : Meets P (m >>= f) R E := by
  intro s pre
  have here := first s pre
  simp only [bindRun]
  cases h : m s with
  | mk r t =>
    rw [h] at here
    cases r with
    | ok a => exact rest a t here
    | error e => exact here

theorem weaken {m : Prog σ ε α} (h : Meets P' m Q' E') (pre : ∀ s, P s → P' s)
    (post : ∀ a s, Q' a s → Q a s) (stopped : ∀ e s, E' e s → E e s) : Meets P m Q E := by
  intro s hs
  have here := h s (pre s hs)
  split at here
  · exact post _ _ here
  · exact stopped _ _ here

theorem each {m : Prog σ ε α} (h : ∀ s, P s → Meets (· = s) m Q E) : Meets P m Q E :=
  fun s hs => h s hs s rfl

theorem returned {m : Prog σ ε α} (h : Meets P m Q E) {s t : σ} {a : α} (pre : P s)
    (ok : m s = (.ok a, t)) : Q a t := by
  have here := h s pre
  rwa [ok] at here

theorem stopped {m : Prog σ ε α} (h : Meets P m Q E) {s t : σ} {e : ε} (pre : P s)
    (bad : m s = (.error e, t)) : E e t := by
  have here := h s pre
  rwa [bad] at here

theorem both {m : Prog σ ε α} (h : Meets P m Q E) (g : Meets P m Q' E') :
    Meets P m (fun a s => Q a s ∧ Q' a s) (fun e s => E e s ∧ E' e s) := by
  intro s hs
  have first := h s hs
  have second := g s hs
  split <;> simp_all

theorem outcome {J : σ → Prop} {F : ε → σ → Prop} {r : Except ε α × σ} : J r.2 → (∀ e t, J t → F e t) →
    match r with
    | (.ok _, t) => J t
    | (.error e, t) => F e t := by
  intro h weaker
  obtain ⟨e | _,t⟩ := r
  · exact weaker e t h
  · exact h

theorem ofMoves {R : σ → σ → Prop} {J F : σ → Prop} {m : Prog σ ε α} (moves : Moves R m)
    (closed : ∀ s t, R s t → P s → J t) (weaker : ∀ t, J t → F t) :
    Meets P m (fun _ => J) (fun _ => F) := by
  intro s hs
  exact outcome (closed s _ (moves s) hs) fun _ => weaker

end Meets

def StopsOnly (P : ε → Prop) (m : Prog σ ε α) : Prop :=
  Meets (fun _ => True) m (fun _ _ => True) (fun e _ => P e)

namespace StopsOnly

variable {P : ε → Prop}

theorem pure (a : α) : StopsOnly P (Pure.pure a : Prog σ ε α) := fun _ _ => trivial

theorem stop {e : ε} (h : P e) : StopsOnly P (Prog.stop e : Prog σ ε α) := fun _ _ => h

theorem state : StopsOnly P (Prog.state : Prog σ ε σ) := fun _ _ => trivial

theorem change (f : σ → σ) : StopsOnly P (Prog.change f : Prog σ ε Unit) := fun _ _ => trivial

theorem ofExcept {r : Except ε α} (h : FailsOnly P r) : StopsOnly P (Prog.ofExcept r : Prog σ ε α) := by
  cases r with
  | ok a => exact pure a
  | error e => exact stop (h e rfl)

theorem bind {m : Prog σ ε α} {f : α → Prog σ ε β} (first : StopsOnly P m) (rest : ∀ a, StopsOnly P (f a)) :
    StopsOnly P (m >>= f) :=
  Meets.bind (Q := fun _ _ => True) first rest

theorem weaken {Q : ε → Prop} {m : Prog σ ε α} (h : StopsOnly P m) (weaker : ∀ e, P e → Q e) : StopsOnly Q m :=
  Meets.weaken h (fun _ pre => pre) (fun _ _ post => post) fun e _ stopped => weaker e stopped

end StopsOnly

end Prog
end FixCli.Lib
