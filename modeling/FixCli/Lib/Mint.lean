import Mathlib.Data.List.Nodup
import Mathlib.Order.Defs.PartialOrder

/-! Names minted from a stamp that only ever moves forward are never minted twice. -/
namespace FixCli.Lib

variable {ι τ κ : Type} [Preorder τ]

structure Spent (name : ι → τ → κ) (now : τ) (names : List κ) : Prop where
  distinct : names.Nodup
  behind : ∀ n ∈ names, ∃ i t, t < now ∧ n = name i t

namespace Spent

variable {name : ι → τ → κ} {now next : τ} {names : List κ}

theorem none : Spent name now [] := ⟨List.nodup_nil,by simp⟩

theorem forward (h : Spent name now names) (onward : now ≤ next) : Spent name next names :=
  ⟨h.distinct,fun n mem => by
    obtain ⟨i,t,past,same⟩ := h.behind n mem
    exact ⟨i,t,lt_of_lt_of_le past onward,same⟩⟩

theorem mint (h : Spent name now names) (stamped : ∀ i j s t, name i s = name j t → s = t) (i : ι) {t : τ}
    (ahead : now ≤ t) (spent : t < next) : Spent name next (name i t :: names) := by
  refine ⟨List.nodup_cons.mpr ⟨fun twice => ?_,h.distinct⟩,fun n mem => ?_⟩
  · obtain ⟨j,s,past,same⟩ := h.behind _ twice
    rw [stamped i j t s same] at ahead
    exact lt_irrefl s (lt_of_lt_of_le past ahead)
  · rcases List.mem_cons.mp mem with rfl | older
    · exact ⟨i,t,spent,rfl⟩
    · obtain ⟨j,s,past,same⟩ := h.behind n older
      exact ⟨j,s,lt_trans past (lt_of_le_of_lt ahead spent),same⟩

end Spent
end FixCli.Lib
