import FixCli.Lib.Text
import Mathlib.Data.List.TakeWhile
import Mathlib.Data.Rat.Defs
import Mathlib.Algebra.Field.Rat

/-! The exact value of a decimal text: digits, perhaps a fraction behind a point, perhaps
a minus sign. -/
namespace FixCli.Lib

def fractional (whole fraction : Bytes) : Option ℚ :=
  if whole = [] ∨ (whole ++ fraction).any (fun b => !isDigit b) then none
  else some ((valueOf 0 (whole ++ fraction) : ℚ) / 10 ^ fraction.length)

def unsignedRational (text : Bytes) : Option ℚ :=
  fractional (text.takeWhile (· != 0x2E)) ((text.dropWhile (· != 0x2E)).drop 1)

def rational : Bytes → Option ℚ
  | 0x2D :: rest => (unsignedRational rest).map fun q => -q
  | text => unsignedRational text

theorem unsignedDecimal (n : Nat) : unsignedRational (decimal n) = some (n : ℚ) := by
  have digits := decimalDigits n
  have pointless : ∀ b ∈ decimal n, (b != 0x2E) = true := by
    intro b mem
    have own := digits b mem
    rw [bne_iff_ne]
    rintro rfl
    cases own
  have whole : (decimal n).takeWhile (· != 0x2E) = decimal n := List.takeWhile_eq_self_iff.mpr pointless
  have rest : (decimal n).dropWhile (· != 0x2E) = [] := List.dropWhile_eq_nil_iff.mpr pointless
  have fits : ¬ (decimal n = [] ∨ (decimal n).any (fun b => !isDigit b) = true) := by
    rintro (empty | other)
    · exact decimalNonempty n empty
    · obtain ⟨b,mem,bad⟩ := List.any_eq_true.mp other
      rw [digits b mem] at bad
      cases bad
  simp only [unsignedRational,whole,rest,fractional,List.drop_nil,List.append_nil,if_neg fits,decimalValue,
    List.length_nil,pow_zero,div_one]

theorem rationalDecimal (n : Nat) : rational (decimal n) = some (n : ℚ) := by
  unfold rational
  split
  · rename_i rest same
    have minus := decimalDigits n 0x2D (by rw [same]; exact List.mem_cons_self)
    cases minus
  · exact unsignedDecimal n

example : rational (ascii "187.25") = some (749 / 4) := by decide +kernel

end FixCli.Lib
