import FixCli.ApplicationWire

/-! The frames that two parties exchange, as each of them writes, frames and reads them. -/
namespace FixCli.Session
open Lib Codec

structure Letter (beginString sender target : Bytes) (n : Nat) (msgType : Bytes) (body : List Field) (wire : Bytes) :
    Prop where
  encodes : ∃ time, SOH ∉ time ∧
    encodeMessage beginString (headerFields msgType sender target n time ++ body) = .ok wire
  plain : SOH ∉ msgType ∧ ∀ f ∈ body, sohFree f

structure PlainNames (sender target : Bytes) : Prop where
  sender : SOH ∉ sender
  target : SOH ∉ target

section

variable {b sender target msgType wire time : Bytes} {n : Nat} {body : List Field} {checksum : UInt8}

theorem headerPlain (names : PlainNames sender target) (typed : SOH ∉ msgType) (clock : SOH ∉ time) :
    ∀ f ∈ headerFields msgType sender target n time, sohFree f := by
  intro f mem
  simp only [headerFields,List.mem_cons,List.not_mem_nil,or_false] at mem
  rcases mem with rfl | rfl | rfl | rfl | rfl
  · exact typed
  · exact names.sender
  · exact names.target
  · exact sohNotIn n
  · exact clock

def lettered (b msgType sender target : Bytes) (n : Nat) (time : Bytes) (body : List Field) (checksum : UInt8) :
    ParsedMessage := ⟨b,headerFields msgType sender target n time ++ body,checksum⟩

theorem Letter.parsed (h : Letter b sender target n msgType body wire) (names : PlainNames sender target)
    (fits : wire.length < usizeLimit) : ∃ time checksum,
      parseFrame wire = .ok (lettered b msgType sender target n time body checksum) ∧
        ∀ f ∈ (lettered b msgType sender target n time body checksum).fields, sohFree f := by
  obtain ⟨time,clock,encodes⟩ := h.encodes
  have plain := List.forall_mem_append.mpr ⟨headerPlain (n := n) names h.plain.1 clock,h.plain.2⟩
  obtain ⟨checksum,parsed⟩ := encodedParses encodes plain fits
  exact ⟨time,checksum,parsed,plain⟩

theorem letteredValues (tag : UInt32) : (lettered b msgType sender target n time body checksum).values tag =
    valuesOf (headerFields msgType sender target n time) tag ++ valuesOf body tag :=
  valuesAppend _ _ _

theorem letteredType : ((lettered b msgType sender target n time body checksum).values 35).head? = some msgType := by
  rw [letteredValues]
  rfl

theorem letteredSender : ((lettered b msgType sender target n time body checksum).values 49).head? = some sender := by
  rw [letteredValues]
  rfl

theorem letteredTarget : ((lettered b msgType sender target n time body checksum).values 56).head? = some target := by
  rw [letteredValues]
  rfl

theorem letteredNumber : ((lettered b msgType sender target n time body checksum).values 34).head? = some (decimal n) := by
  rw [letteredValues]
  rfl

theorem letteredBody {tag : UInt32} (other : tag ∉ [35, 49, 56, 34, 52]) :
    (lettered b msgType sender target n time body checksum).values tag = valuesOf body tag := by
  rw [letteredValues]
  have none : valuesOf (headerFields msgType sender target n time) tag = [] := by
    simp only [List.mem_cons,List.not_mem_nil,or_false,not_or] at other
    obtain ⟨a,b,c,d,e⟩ := other
    simp [valuesOf,headerFields,beq_eq_false_iff_ne.mpr (Ne.symm a),beq_eq_false_iff_ne.mpr (Ne.symm b),
      beq_eq_false_iff_ne.mpr (Ne.symm c),beq_eq_false_iff_ne.mpr (Ne.symm d),beq_eq_false_iff_ne.mpr (Ne.symm e)]
  rw [none,List.nil_append]

theorem letterEncodes {b : Bytes} (usable : b ≠ [] ∧ SOH ∉ b ∧ EQ ∉ b) (msgType sender target : Bytes) (n : Nat)
    (time : Bytes) (body : List Field) (tags : ∀ f ∈ body, f.tag ≠ 0 ∧ f.tag ∉ [8, 9, 10]) :
    ∃ wire, encodeMessage b (headerFields msgType sender target n time ++ body) = .ok wire := by
  have all : ∀ f ∈ headerFields msgType sender target n time ++ body, f.tag ≠ 0 ∧ f.tag ∉ [8, 9, 10] := by
    intro f mem
    rcases List.mem_append.mp mem with header | behind
    · simp only [headerFields,List.mem_cons,List.not_mem_nil,or_false] at header
      rcases header with rfl | rfl | rfl | rfl | rfl <;> simp
    · exact tags f behind
  exact ⟨_,encodeFrom ⟨usable,rfl,(encodeBodyExact _ _).mpr ⟨all,rfl⟩⟩⟩

end
end FixCli.Session
