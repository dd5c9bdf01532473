import FixCli.Lib.Text
import Mathlib.Algebra.BigOperators.Group.List.Basic

/-! Compact JSON, as a serializer writes it without blanks, and how long it gets. -/
namespace FixCli.Lib

def hexDigit (n : Nat) : UInt8 := (ascii "0123456789abcdef").getD n 0

def escapeByte (b : UInt8) : Bytes :=
  if b = 0x22 ∨ b = 0x5C then [0x5C,b]
  else if b = 0x08 then ascii "\\b"
  else if b = 0x09 then ascii "\\t"
  else if b = 0x0A then ascii "\\n"
  else if b = 0x0C then ascii "\\f"
  else if b = 0x0D then ascii "\\r"
  else if b < 0x20 then ascii "\\u00" ++ [hexDigit (b.toNat / 16),hexDigit (b.toNat % 16)]
  else [b]

def escaped (s : Bytes) : Bytes := s.flatMap escapeByte

def jsonString (s : Bytes) : Bytes := 0x22 :: (escaped s ++ [0x22])

def jsonBool (b : Bool) : Bytes := if b then ascii "true" else ascii "false"

def jsonNull : Bytes := ascii "null"

def jsonOption {α : Type} (value : α → Bytes) : Option α → Bytes
  | some a => value a
  | none => jsonNull

def commaed : List Bytes → Bytes
  | [] => []
  | [item] => item
  | item :: rest => item ++ 0x2C :: commaed rest

def jsonArray (items : List Bytes) : Bytes := 0x5B :: (commaed items ++ [0x5D])

def member (key : String) (value : Bytes) : Bytes := jsonString (ascii key) ++ 0x3A :: value

def jsonObject (members : List (String × Bytes)) : Bytes :=
  0x7B :: (commaed (members.map fun (key,value) => member key value) ++ [0x7D])

theorem escapeByteBounds (b : UInt8) : 1 ≤ (escapeByte b).length ∧ (escapeByte b).length ≤ 6 := by
  have unicode : (ascii "\\u00").length = 4 := by decide
  unfold escapeByte
  repeat' split
  all_goals first | decide | simp [unicode]

theorem escapedBounds (s : Bytes) : s.length ≤ (escaped s).length ∧ (escaped s).length ≤ 6 * s.length := by
  induction s with
  | nil => exact ⟨Nat.le_refl _,Nat.le_refl _⟩
  | cons b rest ih =>
    have here := escapeByteBounds b
    simp only [escaped,List.flatMap_cons,List.length_append,List.length_cons] at ih ⊢
    omega

theorem jsonStringLength (s : Bytes) : (jsonString s).length = (escaped s).length + 2 := by
  simp [jsonString]

theorem commaedLength (items : List Bytes) :
    (commaed items).length = (items.map List.length).sum + (items.length - 1) := by
  induction items with
  | nil => rfl
  | cons item rest ih =>
    cases rest with
    | nil => simp [commaed]
    | cons next others =>
      simp only [commaed,List.length_append,List.length_cons,ih,List.map_cons,List.sum_cons]
      omega

theorem jsonArrayLength (items : List Bytes) :
    (jsonArray items).length = (items.map List.length).sum + (items.length - 1) + 2 := by
  simp [jsonArray,commaedLength]

theorem memberLength (key : String) (value : Bytes) :
    (member key value).length = (escaped (ascii key)).length + 3 + value.length := by
  simp [member,jsonStringLength]
  omega

theorem jsonObjectLength (members : List (String × Bytes)) :
    (jsonObject members).length =
      (members.map fun m => (member m.1 m.2).length).sum + (members.length - 1) + 2 := by
  simp [jsonObject,commaedLength,Function.comp_def]

end FixCli.Lib
