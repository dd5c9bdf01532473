import Mathlib.Data.List.Basic

/-! Codes that tell where they end, and lists of them written one after the other. -/
namespace FixCli.Lib

def Delimits {α β : Type} (P : α → Prop) (code : α → List β) : Prop :=
  ∀ a b, P a → P b → ∀ x y, code a ++ x = code b ++ y → a = b ∧ x = y

section

variable {α β : Type} {P : α → Prop} {code : α → List β}

theorem Delimits.flatMap (h : Delimits P code) (some' : ∀ a, P a → code a ≠ []) {as bs : List α}
    (inA : ∀ a ∈ as, P a) (inB : ∀ b ∈ bs, P b) (same : as.flatMap code = bs.flatMap code) : as = bs := by
  induction as generalizing bs with
  | nil =>
    cases bs with
    | nil => rfl
    | cons b rest =>
      rw [List.flatMap_nil,List.flatMap_cons] at same
      exact absurd (List.append_eq_nil_iff.mp same.symm).1 (some' b (inB b List.mem_cons_self))
  | cons a rest ih =>
    cases bs with
    | nil =>
      rw [List.flatMap_nil,List.flatMap_cons] at same
      exact absurd (List.append_eq_nil_iff.mp same).1 (some' a (inA a List.mem_cons_self))
    | cons b others =>
      rw [List.flatMap_cons,List.flatMap_cons] at same
      obtain ⟨rfl,tails⟩ := h a b (inA a List.mem_cons_self) (inB b List.mem_cons_self) _ _ same
      rw [ih (fun c mem => inA c (List.mem_cons_of_mem _ mem)) (fun c mem => inB c (List.mem_cons_of_mem _ mem)) tails]

end

end FixCli.Lib
