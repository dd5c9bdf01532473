import FixCli.Lib.Table

/-! Tables built by assignments, of which the last one to a key counts, and the overlay of
one such table on another. -/
namespace FixCli.Lib

section

variable {κ α : Type} [DecidableEq κ]

def lastOf : List (κ × α) → κ → Option α
  | [], _ => none
  | (key,value) :: rest, k => (lastOf rest k).or (if key = k then some value else none)

theorem lastAppend (earlier later : List (κ × α)) (k : κ) :
    lastOf (earlier ++ later) k = (lastOf later k).or (lastOf earlier k) := by
  induction earlier with
  | nil => simp [lastOf]
  | cons entry rest ih => rw [List.cons_append,lastOf,lastOf,ih,Option.or_assoc]

end

section

variable {κ α : Type} [DecidableEq κ] [Ord κ] [Std.TransOrd κ]

def Tabulates (t : Table κ α) (entries : List (κ × α)) : Prop := ∀ k, t[k]? = lastOf entries k

namespace Tabulates

variable {t own : Table κ α} {entries given : List (κ × α)}

theorem empty : Tabulates (∅ : Table κ α) [] := fun _ => Std.ExtTreeMap.getElem?_empty

theorem overlay (h : Tabulates t entries) (g : Tabulates own given) (k : κ) :
    (t ∪ own)[k]? = (lastOf given k).or (lastOf entries k) := by
  rw [Std.ExtTreeMap.getElem?_union,g k,h k]

variable [Std.LawfulEqOrd κ]

theorem insert (h : Tabulates t entries) (key : κ) (value : α) :
    Tabulates (t.insert key value) (entries ++ [(key,value)]) := by
  intro k
  rw [lastAppend,Std.ExtTreeMap.getElem?_insert,lastOf,lastOf,Option.none_or,h k]
  simp only [Std.LawfulEqOrd.compare_eq_iff_eq]
  split <;> simp

theorem unique (h : Tabulates t entries) (g : Tabulates own entries) : t = own :=
  Std.ExtTreeMap.ext_getElem? fun k => (h k).trans (g k).symm

end Tabulates

end

end FixCli.Lib
