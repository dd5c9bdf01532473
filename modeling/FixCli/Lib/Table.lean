import Mathlib.Data.List.Perm.Subperm
import Mathlib.Tactic.Common

/-! Ordered finite maps, as a B-tree map or a database table keeps them, with the
facts about key filters and key counts that their users need. -/
namespace FixCli.Lib

abbrev Table (κ α : Type) [Ord κ] := Std.ExtTreeMap κ α compare

namespace Table

variable {κ α : Type} [Ord κ] [Std.TransOrd κ]

theorem memOfGet {t : Table κ α} {k : κ} {v : α} (found : t[k]? = some v) : k ∈ t := by
  rw [Std.ExtTreeMap.mem_iff_isSome_getElem?,found]
  rfl

theorem getOfMem {t : Table κ α} {k : κ} (present : k ∈ t) : ∃ v, t[k]? = some v := by
  rw [Std.ExtTreeMap.mem_iff_isSome_getElem?] at present
  exact Option.isSome_iff_exists.mp present

theorem eraseSize {t : Table κ α} {k : κ} (present : k ∈ t) : (t.erase k).size < t.size := by
  have some : t.size ≠ 0 := fun none => by
    have empty : t.isEmpty = true := by rw [Std.ExtTreeMap.isEmpty_eq_size_beq_zero,none]; rfl
    rw [Std.ExtTreeMap.isEmpty_iff.mp empty] at present
    exact absurd present (by simp)
  have contains : t.contains k = true := Std.ExtTreeMap.contains_iff_mem.mpr present
  rw [Std.ExtTreeMap.size_erase]
  simp only [contains,if_true]
  omega

def keepKeys (t : Table κ α) (keep : κ → Bool) : Table κ α := t.filter (fun k _ => keep k)

theorem keepKeysSize (t : Table κ α) (keep : κ → Bool) : (t.keepKeys keep).size ≤ t.size :=
  Std.ExtTreeMap.size_filter_le_size

variable [Std.LawfulEqOrd κ]

@[simp] theorem keepKeysGet (t : Table κ α) (keep : κ → Bool) (k : κ) :
    (t.keepKeys keep)[k]? = if keep k then t[k]? else none := by
  rw [keepKeys,Std.ExtTreeMap.getElem?_filter']
  cases t[k]? with
  | none => simp
  | some v => rfl

theorem keepKeysAll {t : Table κ α} {keep : κ → Bool} (all : ∀ k ∈ t, keep k = true) :
    t.keepKeys keep = t := by
  apply Std.ExtTreeMap.ext_getElem?
  intro k
  rw [keepKeysGet]
  by_cases present : k ∈ t
  · rw [if_pos (all k present)]
  · rw [Std.ExtTreeMap.getElem?_eq_none present]
    split <;> rfl

theorem ofEntries [BEq κ] [LawfulBEq κ] (t : Table κ α) : Std.ExtTreeMap.ofList t.toList compare = t := by
  apply Std.ExtTreeMap.ext_getElem?
  intro key
  cases found : t[key]? with
  | some value =>
    exact Std.ExtTreeMap.getElem?_ofList_of_mem Std.ReflCmp.compare_self Std.ExtTreeMap.distinct_keys_toList
      (Std.ExtTreeMap.mem_toList_iff_getElem?_eq_some.mpr found)
  | none =>
    have absent : key ∉ t := fun mem => by
      obtain ⟨value,here⟩ := getOfMem mem
      rw [found] at here
      cases here
    apply Std.ExtTreeMap.getElem?_ofList_of_contains_eq_false
    rw [Std.ExtTreeMap.map_fst_toList_eq_keys,List.contains_eq_mem,decide_eq_false_iff_not,Std.ExtTreeMap.mem_keys]
    exact absent

theorem sizeLe [BEq κ] [LawfulBEq κ] {t : Table κ α} {ks : List κ} (inside : ∀ k ∈ t, k ∈ ks) :
    t.size ≤ ks.length := by
  rw [← Std.ExtTreeMap.length_keys]
  have sub : t.keys ⊆ ks := fun k hk => inside k (Std.ExtTreeMap.mem_keys.mp hk)
  exact (List.subperm_of_subset Std.ExtTreeMap.nodup_keys sub).length_le

end Table
end FixCli.Lib
