import Mathlib.Data.List.Basic
import Mathlib.Tactic.Ring
import Mathlib.Tactic.NormNum

/-! Byte texts: ASCII literals, decimal numerals with a machine bound, UTF-8
validity, bounds-checked slices and the first occurrence of a delimiter. -/
namespace FixCli.Lib

abbrev Bytes := List UInt8

def ascii (s : String) : Bytes := s.toByteArray.data.toList

def isDigit (b : UInt8) : Bool := 48 ≤ b && b ≤ 57

def digit (b : UInt8) : Nat := b.toNat - 48

def decimal (n : Nat) : Bytes := (Nat.toDigits 10 n).map (fun c => c.toNat.toUInt8)

/-- Reads digits with both the multiplication and the addition checked against
`limit`, the first integer that the machine type does not hold. -/
def readDigits (limit : Nat) : Nat → Bytes → Option Nat
  | value, [] => some value
  | value, b :: rest =>
    if value * 10 < limit then
      if value * 10 + digit b < limit then readDigits limit (value * 10 + digit b) rest else none
    else none

def valueOf (value : Nat) (bs : Bytes) : Nat := bs.foldl (fun v b => v * 10 + digit b) value

theorem valueGrows (value : Nat) (bs : Bytes) : value ≤ valueOf value bs := by
  induction bs generalizing value with
  | nil => exact Nat.le_refl _
  | cons b rest ih =>
    have step : value ≤ value * 10 + digit b := by omega
    exact step.trans (ih _)

theorem readDigitsExact (limit value : Nat) (bs : Bytes) (fits : value < limit) :
    readDigits limit value bs = if valueOf value bs < limit then some (valueOf value bs) else none := by
  induction bs generalizing value with
  | nil => simp [readDigits,valueOf,fits]
  | cons b rest ih =>
    have grows := valueGrows (value * 10 + digit b) rest
    change _ = if valueOf (value * 10 + digit b) rest < limit then
      some (valueOf (value * 10 + digit b) rest) else none
    simp only [readDigits]
    by_cases add : value * 10 + digit b < limit
    · have mul : value * 10 < limit := by omega
      rw [if_pos mul,if_pos add,ih _ add]
    · have beyond : ¬ valueOf (value * 10 + digit b) rest < limit := by omega
      rw [if_neg add,if_neg beyond]
      split <;> rfl

theorem digitCharByte {c : Char} (h : c.isDigit = true) :
    isDigit c.toNat.toUInt8 = true ∧ digit c.toNat.toUInt8 = c.toNat - '0'.toNat := by
  have low : 48 ≤ c.toNat ∧ c.toNat ≤ 57 := by
    simp only [Char.isDigit,Bool.and_eq_true,decide_eq_true_eq,UInt32.le_iff_toNat_le] at h
    exact h
  have small : c.toNat.toUInt8.toNat = c.toNat := by
    simp only [Nat.toUInt8,UInt8.toNat_ofNat']
    omega
  constructor
  · simp only [isDigit,Bool.and_eq_true,decide_eq_true_eq,UInt8.le_iff_toNat_le,small]
    exact low
  · simp only [digit,small]
    rfl

theorem decimalDigits (n : Nat) : ∀ b ∈ decimal n, isDigit b = true := by
  intro b mem
  obtain ⟨c,hc,rfl⟩ := List.mem_map.mp mem
  exact (digitCharByte (Nat.isDigit_of_mem_toDigits (by decide) (by decide) hc)).1

theorem decimalNonempty (n : Nat) : decimal n ≠ [] := by
  simp [decimal,Nat.toDigits_ne_nil]

theorem decimalLength {n k : Nat} (some' : 0 < k) (small : n < 10 ^ k) : (decimal n).length ≤ k := by
  rw [decimal,List.length_map]
  exact (Nat.length_toDigits_le_iff (by decide) some').mpr small

theorem decimalValue (n : Nat) : valueOf 0 (decimal n) = n := by
  have digits : ∀ c ∈ Nat.toDigits 10 n, c.isDigit = true := fun c hc =>
    Nat.isDigit_of_mem_toDigits (by decide) (by decide) hc
  have fold : ∀ (cs : List Char) (v : Nat), (∀ c ∈ cs, c.isDigit = true) →
      valueOf v (cs.map (fun c => c.toNat.toUInt8)) = Nat.ofDigitChars 10 cs v := by
    intro cs
    induction cs with
    | nil => intros; rfl
    | cons c cs ih =>
      intro v all
      have head := digitCharByte (all c List.mem_cons_self)
      rw [Nat.ofDigitChars_cons,← ih _ fun d hd => all d (List.mem_cons_of_mem c hd)]
      simp only [List.map_cons,valueOf,List.foldl_cons,head.2,Nat.mul_comm v 10]
  rw [decimal,fold _ _ digits,Nat.ofDigitChars_ten_toDigits]

theorem decimalInjective {n m : Nat} (same : decimal n = decimal m) : n = m := by
  have h := congrArg (valueOf 0) same
  simpa only [decimalValue] using h

theorem readDecimal {limit n : Nat} (fits : n < limit) :
    readDigits limit 0 (decimal n) = some n := by
  rw [readDigitsExact _ _ _ (by omega),decimalValue,if_pos fits]

theorem decimalWithout {n : Nat} {d : UInt8} (other : isDigit d = false) : d ∉ decimal n := by
  intro mem
  have := decimalDigits n d mem
  simp_all

def isContinuation (b : UInt8) : Bool := 0x80 ≤ b && b ≤ 0xBF

/-- Well-formed UTF-8: the byte ranges of the encoding's definition, which leave
out overlong forms, surrogates and what lies above the last code point. -/
def isUtf8 : Bytes → Bool
  | [] => true
  | a :: rest =>
    if a < 0x80 then isUtf8 rest
    else if 0xC2 ≤ a && a ≤ 0xDF then
      match rest with
      | b :: rest => isContinuation b && isUtf8 rest
      | [] => false
    else if 0xE0 ≤ a && a ≤ 0xEF then
      match rest with
      | b :: c :: rest => isContinuation b && isContinuation c &&
          (a != 0xE0 || 0xA0 ≤ b) && (a != 0xED || b ≤ 0x9F) && isUtf8 rest
      | _ => false
    else if 0xF0 ≤ a && a ≤ 0xF4 then
      match rest with
      | b :: c :: d :: rest => isContinuation b && isContinuation c && isContinuation d &&
          (a != 0xF0 || 0x90 ≤ b) && (a != 0xF4 || b ≤ 0x8F) && isUtf8 rest
      | _ => false
    else false

theorem utf8OfAscii {bs : Bytes} (low : ∀ b ∈ bs, b < 0x80) : isUtf8 bs = true := by
  induction bs with
  | nil => rfl
  | cons a rest ih =>
    rw [isUtf8.eq_def]
    simp only [if_pos (low a List.mem_cons_self)]
    exact ih fun b hb => low b (List.mem_cons_of_mem a hb)

theorem utf8OfDecimal (n : Nat) : isUtf8 (decimal n) = true := by
  apply utf8OfAscii
  intro b mem
  have h := decimalDigits n b mem
  simp only [isDigit,Bool.and_eq_true,decide_eq_true_eq,UInt8.le_iff_toNat_le] at h
  rw [UInt8.lt_iff_toNat_lt]
  exact Nat.lt_of_le_of_lt h.2 (by decide)

def utf8Width (a : UInt8) : Nat :=
  if a < 0x80 then 1
  else if 0xC2 ≤ a && a ≤ 0xDF then 2
  else if 0xE0 ≤ a && a ≤ 0xEF then 3
  else if 0xF0 ≤ a && a ≤ 0xF4 then 4
  else 0

def mayFollow (a b : UInt8) : Bool :=
  2 ≤ utf8Width a && isContinuation b && (a != 0xE0 || 0xA0 ≤ b) && (a != 0xED || b ≤ 0x9F) &&
    (a != 0xF0 || 0x90 ≤ b) && (a != 0xF4 || b ≤ 0x8F)

def followers (a : UInt8) : Bytes → Nat
  | [] => 0
  | b :: rest => if mayFollow a b then 1 + ((rest.take (utf8Width a - 2)).takeWhile isContinuation).length else 0

def replacementCharacter : Bytes := [0xEF, 0xBF, 0xBD]

def utf8Lossy : Bytes → Bytes
  | [] => []
  | a :: rest =>
    (if followers a rest + 1 = utf8Width a then a :: rest.take (followers a rest) else replacementCharacter) ++
      utf8Lossy (rest.drop (followers a rest))
termination_by text => text.length
decreasing_by
  rw [List.length_drop,List.length_cons]
  omega

def slice (bs : Bytes) (start stop : Nat) : Option Bytes :=
  if start ≤ stop ∧ stop ≤ bs.length then some ((bs.take stop).drop start) else none

theorem sliceMiddle (a b c : Bytes) : slice (a ++ (b ++ c)) a.length (a.length + b.length) = some b := by
  have inside : a.length ≤ a.length + b.length ∧ a.length + b.length ≤ (a ++ (b ++ c)).length := by
    simp only [List.length_append]; omega
  rw [slice,if_pos inside,← List.append_assoc,← List.length_append,List.take_left,List.drop_left]

theorem findDelimiter {x : Bytes} {d : UInt8} (absent : d ∉ x) (rest : Bytes) :
    (x ++ d :: rest).findIdx? (· == d) = some x.length := by
  induction x with
  | nil => simp [List.findIdx?_cons]
  | cons a x ih =>
    have first : a ≠ d := fun same => absent (by simp [same])
    have later : d ∉ x := fun mem => absent (List.mem_cons_of_mem a mem)
    simp [List.findIdx?_cons,first,ih later]

theorem splitFirst {d : UInt8} {a b x y : Bytes} (noA : d ∉ a) (noX : d ∉ x)
    (same : a ++ d :: b = x ++ d :: y) : a = x ∧ b = y := by
  have here := findDelimiter noA b
  rw [same,findDelimiter noX y] at here
  obtain ⟨front,back⟩ := List.append_inj same (Option.some.inj here).symm
  exact ⟨front,(List.cons.inj back).2⟩

theorem splitLast {d : UInt8} {a b x y : Bytes} (noB : d ∉ b) (noY : d ∉ y)
    (same : a ++ d :: b = x ++ d :: y) : a = x ∧ b = y := by
  rcases List.append_eq_append_iff.mp same with ⟨middle,front,back⟩ | ⟨middle,front,back⟩
  · cases middle with
    | nil => exact ⟨by simpa using front.symm,(List.cons.inj back).2⟩
    | cons m rest =>
      refine absurd ?_ noB
      rw [(List.cons.inj back).2]
      simp
  · cases middle with
    | nil => exact ⟨by simpa using front,(List.cons.inj back).2.symm⟩
    | cons m rest =>
      refine absurd ?_ noY
      rw [(List.cons.inj back).2]
      simp

example : isUtf8 [0xE4, 0xB8, 0xAD, 0x41] = true ∧ isUtf8 [0xC0, 0x80] = false := by decide

end FixCli.Lib
