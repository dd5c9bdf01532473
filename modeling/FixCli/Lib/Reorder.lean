import FixCli.Lib.Table
import Mathlib.Data.List.Perm.Basic

/-! A reorder buffer: numbered items come in any order, leave in ascending order, and
wait in a table as long as an earlier one is missing. -/
namespace FixCli.Lib

variable {α : Type}

def Holding (item : Nat → α) (got : List Nat) (next : Nat) (held : Table Nat α) : Prop :=
  ∀ n, held[n]? = if n ∈ got ∧ next ≤ n then some (item n) else none

namespace Holding

variable {item : Nat → α} {next n : Nat} {got : List Nat} {held : Table Nat α}

theorem empty (item : Nat → α) (next : Nat) : Holding item [] next ∅ := fun n => by simp

theorem entry {value : α} (h : Holding item got next held) (found : held[n]? = some value) :
    n ∈ got ∧ next ≤ n ∧ value = item n := by
  rw [h n] at found
  split at found
  · rename_i inside
    cases found
    exact ⟨inside.1,inside.2,rfl⟩
  · cases found

theorem waiting (h : Holding item got next held) (present : n ∈ held) : n ∈ got ∧ next ≤ n := by
  obtain ⟨value,found⟩ := Table.getOfMem present
  exact ⟨(h.entry found).1,(h.entry found).2.1⟩

theorem missing (h : Holding item got next held) (absent : held[next]? = none) : next ∉ got := by
  intro inside
  rw [h next,if_pos ⟨inside,Nat.le_refl _⟩] at absent
  cases absent

theorem hold (h : Holding item got next held) (ahead : next < n) :
    Holding item (n :: got) next (held.insertIfNew n (item n)) := by
  intro k
  rw [Std.ExtTreeMap.getElem?_insertIfNew,h k]
  by_cases same : n = k
  · subst same
    by_cases present : n ∈ held
    · simp [present,h.waiting present]
    · simp [present,Nat.le_of_lt ahead]
  · have other : k ∈ n :: got ↔ k ∈ got := by simp [Ne.symm same]
    simp only [Std.LawfulEqCmp.compare_eq_iff_eq,same,false_and,if_false,other]

theorem pass (h : Holding item got next held) (absent : next ∉ got) :
    Holding item got (next + 1) held := by
  intro k
  rw [h k]
  have same : (k ∈ got ∧ next ≤ k) ↔ (k ∈ got ∧ next + 1 ≤ k) := by
    constructor
    · rintro ⟨inside,late⟩
      have other : k ≠ next := by rintro rfl; exact absent inside
      exact ⟨inside,by omega⟩
    · rintro ⟨inside,late⟩
      exact ⟨inside,by omega⟩
  simp only [same]

theorem behind (h : Holding item got next held) (gone : n < next) : Holding item (n :: got) next held := by
  intro k
  rw [h k]
  have same : (k ∈ got ∧ next ≤ k) ↔ (k ∈ n :: got ∧ next ≤ k) := by
    constructor
    · rintro ⟨inside,late⟩
      exact ⟨List.mem_cons_of_mem _ inside,late⟩
    · rintro ⟨inside,late⟩
      rcases List.mem_cons.mp inside with rfl | inside
      · omega
      · exact ⟨inside,late⟩
  simp only [same]

theorem skip {later : Nat} (h : Holding item got next held) (moved : next ≤ later) :
    Holding item got later (held.keepKeys fun n => later ≤ n) := by
  intro k
  rw [Table.keepKeysGet,h k]
  by_cases late : later ≤ k
  · have early : next ≤ k := by omega
    simp [late,early]
  · simp [late]

theorem take (h : Holding item got next held) : Holding item got (next + 1) (held.erase next) := by
  intro k
  rw [Std.ExtTreeMap.getElem?_erase,h k]
  by_cases own : next = k
  · subst own
    simp
  · have same : next ≤ k ↔ next + 1 ≤ k := by omega
    simp only [Std.LawfulEqCmp.compare_eq_iff_eq,own,if_false,same]

theorem room {all : List Nat} (h : Holding item got next held) (inside : ∀ k ∈ got, k ∈ all) (absent : next ∉ got)
    (ahead : next < n) (member : n ∈ all) (new : n ∉ got) :
    held.size < (all.filter fun k => decide (next < k)).length := by
  have keys : ∀ k ∈ held, k ∈ (all.filter fun k => decide (next < k)).erase n := by
    intro k present
    obtain ⟨arrived,late⟩ := h.waiting present
    have other : k ≠ next := by rintro rfl; exact absent arrived
    have old : k ≠ n := by rintro rfl; exact new arrived
    have later : next < k := by omega
    exact (List.mem_erase_of_ne old).mpr (List.mem_filter.mpr ⟨inside k arrived,by simpa using later⟩)
  have bound := Table.sizeLe keys
  have own : n ∈ all.filter fun k => decide (next < k) := List.mem_filter.mpr ⟨member,by simpa using ahead⟩
  have positive := List.length_pos_of_mem own
  rw [List.length_erase_of_mem own] at bound
  omega

theorem drained (h : Holding item got next held) (before : ∀ k ∈ got, k < next) : held = ∅ := by
  refine Std.ExtTreeMap.ext_getElem? fun k => ?_
  have none : ¬ (k ∈ got ∧ next ≤ k) := fun inside => absurd (before k inside.1) (by omega)
  rw [h k,if_neg none]
  simp

end Holding

/-- Of the items from `first` on, those numbered `got` came in, those below `next` left
again, and `held` has the rest of them. -/
structure Reordered (item : Nat → α) (first : Nat) (got : List Nat) (next : Nat) (held : Table Nat α) : Prop where
  start : first ≤ next
  front : ∀ n, first ≤ n → n < next → n ∈ got
  held : Holding item got next held

namespace Reordered

variable {item : Nat → α} {first next n : Nat} {got : List Nat} {held : Table Nat α}

theorem empty (item : Nat → α) (first : Nat) : Reordered item first [] first ∅ :=
  ⟨Nat.le_refl _,fun n above below => absurd below (by omega),.empty item first⟩

theorem hold (h : Reordered item first got next held) (ahead : next < n) :
    Reordered item first (n :: got) next (held.insertIfNew n (item n)) :=
  ⟨h.start,fun k above below => List.mem_cons_of_mem _ (h.front k above below),h.held.hold ahead⟩

theorem complete {count : Nat} (h : Reordered item first got next held) (absent : next ∉ got)
    (all : ∀ k, k ∈ got ↔ first ≤ k ∧ k < first + count) : next = first + count ∧ held = ∅ := by
  have start := h.start
  have reached : next = first + count := by
    have enough : ¬ next < first + count := fun below => absent ((all next).mpr ⟨h.start,below⟩)
    by_contra other
    have past := h.front (first + count) (by omega) (by omega)
    have inside := (all _).mp past
    omega
  refine ⟨reached,h.held.drained fun k inside => ?_⟩
  have bound := (all k).mp inside
  omega

end Reordered
end FixCli.Lib
