import Mathlib.Data.List.Basic
import Mathlib.Tactic.Cases

/-! Consecutive half-open intervals: pieces that run from a start to a stop without
overlap or hole. -/
namespace FixCli.Lib

variable {α : Type} {front back : α → Nat}

inductive Span (front back : α → Nat) : Nat → List α → Nat → Prop where
  | nil (start : Nat) : Span front back start [] start
  | cons {a : α} {as : List α} {stop : Nat} : front a < back a → Span front back (back a) as stop →
      Span front back (front a) (a :: as) stop

namespace Span

variable {a : α} {as bs : List α} {start middle stop n : Nat}

theorem append (h : Span front back start as middle) (g : Span front back middle bs stop) :
    Span front back start (as ++ bs) stop := by
  induction h with
  | nil => exact g
  | cons positive _ ih => exact .cons positive (ih g)

theorem snoc (h : Span front back start as (front a)) (positive : front a < back a) :
    Span front back start (as ++ [a]) (back a) := h.append (.cons positive (.nil _))

theorem ordered (h : Span front back start as stop) : start ≤ stop := by
  induction h with
  | nil => exact Nat.le_refl _
  | cons positive _ ih => omega

theorem bounds (h : Span front back start as stop) (mem : a ∈ as) :
    start ≤ front a ∧ front a < back a ∧ back a ≤ stop := by
  induction h with
  | nil => cases mem
  | cons positive tail ih =>
    rcases List.mem_cons.mp mem with rfl | later
    · exact ⟨Nat.le_refl _,positive,tail.ordered⟩
    · obtain ⟨after,own,before⟩ := ih later
      exact ⟨by omega,own,before⟩

theorem covers (h : Span front back start as stop) (first : start ≤ n) (last : n < stop) :
    ∃ a ∈ as, front a ≤ n ∧ n < back a := by
  induction h with
  | nil => omega
  | @cons a as stop positive tail ih =>
    rcases Nat.lt_or_ge n (back a) with inside | behind
    · exact ⟨a,List.mem_cons_self,first,inside⟩
    · obtain ⟨b,mem,here⟩ := ih behind last
      exact ⟨b,List.mem_cons_of_mem _ mem,here⟩

end Span
end FixCli.Lib
