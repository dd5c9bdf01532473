import FixCli.Lib.Table

/-! The rows of a table under the numbers 1, 2 and so on, up to the next one to come. -/
namespace FixCli.Lib.Table

variable {α β : Type} {t : Table Nat α} {next m : Nat} {row old : α} {f : α → β}

def below (t : Table Nat α) (next : Nat) (f : α → β) : List β :=
  (List.range' 1 (next - 1)).filterMap fun n => (t[n]?).map f

theorem belowEmpty (next : Nat) (f : α → β) : below ∅ next f = [] := by
  simp [below]

theorem belowCongr {u : Table Nat α} (same : ∀ n < next, (t[n]?).map f = (u[n]?).map f) :
    below t next f = below u next f := by
  refine List.filterMap_congr fun n mem => same n ?_
  have bound := List.mem_range'_1.mp mem
  omega

theorem belowAppend (positive : 0 < next) (t : Table Nat α) (row : α) (f : α → β) :
    below (t.insert next row) (next + 1) f = below t next f ++ [f row] := by
  have range : List.range' 1 (next + 1 - 1) = List.range' 1 (next - 1) ++ [next] := by
    have last : next + 1 - 1 = next - 1 + 1 := by omega
    have ends : 1 + (next - 1) = next := by omega
    rw [last,List.range'_1_concat,ends]
  have old : below (t.insert next row) next f = below t next f := belowCongr fun n before => by
    rw [Std.ExtTreeMap.getElem?_insert,if_neg]
    simpa using Nat.ne_of_gt before
  rw [below,range,List.filterMap_append]
  refine congrArg₂ (· ++ ·) old ?_
  simp

theorem belowRewrite (here : t[m]? = some old) (same : f row = f old) (next : Nat) :
    below (t.insert m row) next f = below t next f := by
  refine belowCongr fun n _ => ?_
  rw [Std.ExtTreeMap.getElem?_insert]
  split
  · rename_i equal
    rw [Std.LawfulEqOrd.compare_eq_iff_eq] at equal
    rw [← equal,here,Option.map_some,Option.map_some,same]
  · rfl

end FixCli.Lib.Table
