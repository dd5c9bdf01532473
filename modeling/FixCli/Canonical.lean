import FixCli.BodyFields
import FixCli.Lib.Delimited

/-! Which accepted frames the encoder would have written. The parser reads padded numbers,
tags that the encoder keeps for itself and any BeginString; a frame without these is encoded
back to its own bytes. -/
namespace FixCli.Codec
open Lib

structure RawField where
  digits : Bytes
  value : Bytes

def RawField.bytes (raw : RawField) : Bytes := raw.digits ++ EQ :: (raw.value ++ [SOH])

structure Unpadded (digits : Bytes) : Prop where
  some' : digits ≠ []
  all : ∀ d ∈ digits, isDigit d = true
  head : digits.head? ≠ some 0x30

structure Cut.Canonical (cut : Cut) (raws : List RawField) : Prop where
  begins : cut.beginString ≠ [] ∧ SOH ∉ cut.beginString ∧ EQ ∉ cut.beginString
  lengthDigits : Unpadded cut.lengthDigits
  body : cut.body = raws.flatMap RawField.bytes
  tags : ∀ raw ∈ raws, Unpadded raw.digits ∧ raw.digits ∉ [ascii "8", ascii "9", ascii "10"]
  values : ∀ raw ∈ raws, SOH ∉ raw.value
  three : cut.sumDigits.length = 3

def Canonical (frame : Bytes) : Prop := ∃ cut raws, frame = cut.bytes ∧ Cut.Canonical cut raws

section

variable {digits as bs : Bytes} {n : Nat}

theorem valueAppend (init : Bytes) (d : UInt8) : valueOf 0 (init ++ [d]) = valueOf 0 init * 10 + digit d := by
  rw [valueOf,List.foldl_append]
  rfl

theorem digitPrinted {d : UInt8} (own : isDigit d = true) : digit d < 10 ∧ decimal (digit d) = [d] := by
  have every : ∀ n : Fin 256, isDigit (UInt8.ofFin n) = true →
      digit (UInt8.ofFin n) < 10 ∧ decimal (digit (UInt8.ofFin n)) = [UInt8.ofFin n] := by decide +kernel
  simpa using every d.toFin (by simpa using own)

theorem decimalStep {v k : Nat} (some' : 0 < v) (small : k < 10) : decimal (v * 10 + k) = decimal v ++ decimal k := by
  rw [decimal,decimal,decimal,← List.map_append,Nat.toDigits_append_toDigits (by decide) some' small,Nat.mul_comm]

theorem unpaddedPrinted (unpadded : Unpadded digits) : 0 < valueOf 0 digits ∧ decimal (valueOf 0 digits) = digits := by
  obtain ⟨some',all,head⟩ := unpadded
  induction digits using List.reverseRecOn with
  | nil => exact absurd rfl some'
  | append_singleton init d ih =>
    obtain ⟨small,printed⟩ := digitPrinted (all d (by simp))
    rw [valueAppend]
    by_cases first : init = []
    · subst first
      have zero : valueOf 0 [] = 0 := rfl
      have positive : 0 < digit d := by
        by_contra none
        have : digit d = 0 := by omega
        rw [this] at printed
        exact head (by rw [List.nil_append,← printed]; rfl)
      rw [zero,Nat.zero_mul,Nat.zero_add]
      exact ⟨positive,printed⟩
    · obtain ⟨positive,before⟩ := ih first (fun b mem => all b (by simp [mem])) fun zero =>
        head (by rw [List.head?_append,zero]; rfl)
      exact ⟨by omega,by rw [decimalStep positive small,before,printed]⟩

theorem decimalUnpadded (positive : 0 < n) : Unpadded (decimal n) := by
  refine ⟨decimalNonempty n,decimalDigits n,?_⟩
  induction n using Nat.strongRecOn with
  | ind n ih =>
    by_cases one : n < 10
    · have every : ∀ k : Fin 10, 0 < k.val → (decimal k.val).head? ≠ some 0x30 := by decide
      exact every ⟨n,one⟩ positive
    · have split := decimalStep (v := n / 10) (k := n % 10) (by omega) (by omega)
      rw [Nat.div_add_mod' n 10] at split
      rw [split,List.head?_append_of_ne_nil _ (decimalNonempty _)]
      exact ih (n / 10) (by omega) (by omega)

theorem parseDecimalRead (read : parseDecimal digits = .ok n) :
    digits ≠ [] ∧ (∀ d ∈ digits, isDigit d = true) ∧ valueOf 0 digits = n := by
  unfold parseDecimal at read
  split at read
  · cases read
  · rename_i plain
    simp only [not_or,List.any_eq_true,Bool.not_eq_true',not_exists,not_and,Bool.not_eq_false] at plain
    refine ⟨plain.1,plain.2,?_⟩
    rw [readDigitsExact _ _ _ (by decide)] at read
    split at read
    · rename_i found
      split at found
      · cases found
        cases read
        rfl
      · cases found
    · cases read

theorem readUnpadded (read : parseDecimal digits = .ok n) : Unpadded digits ↔ 0 < n ∧ digits = decimal n := by
  obtain ⟨-,-,rfl⟩ := parseDecimalRead read
  constructor
  · intro unpadded
    obtain ⟨positive,printed⟩ := unpaddedPrinted unpadded
    exact ⟨positive,printed.symm⟩
  · rintro ⟨positive,printed⟩
    rw [printed]
    exact decimalUnpadded positive

theorem valueInjective (widths : as.length = bs.length) (allA : ∀ d ∈ as, isDigit d = true)
    (allB : ∀ d ∈ bs, isDigit d = true) (same : valueOf 0 as = valueOf 0 bs) : as = bs := by
  induction as using List.reverseRecOn generalizing bs with
  | nil => exact (List.length_eq_zero_iff.mp widths.symm).symm
  | append_singleton as a ih =>
    rcases List.eq_nil_or_concat bs with rfl | ⟨bs,b,rfl⟩
    · simp at widths
    · obtain ⟨smallA,printA⟩ := digitPrinted (allA a (by simp))
      obtain ⟨smallB,printB⟩ := digitPrinted (allB b (by simp))
      rw [List.concat_eq_append] at widths allB same ⊢
      rw [valueAppend,valueAppend] at same
      have last : digit a = digit b := by omega
      have front : as = bs := ih (by simpa using widths) (fun d mem => allA d (by simp [mem]))
        (fun d mem => allB d (by simp [mem])) (by omega)
      rw [front,List.append_cancel_left_eq,← printA,← printB,last]

end

section

structure Reads (raw : RawField) (field : Field) : Prop where
  tag : parseDecimal raw.digits = .ok field.tag.toNat
  value : raw.value = field.value
  free : SOH ∉ raw.value

theorem Reads.equalsFree {raw : RawField} {field : Field} (reads : Reads raw field) : EQ ∉ raw.digits := by
  intro mem
  have digit := (parseDecimalRead reads.tag).2.1 EQ mem
  rw [byteNotDigit.2] at digit
  cases digit

theorem rawDelimits : Delimits (fun raw => EQ ∉ raw.digits ∧ SOH ∉ raw.value) RawField.bytes := by
  rintro ⟨digits,value⟩ ⟨digits',value'⟩ ⟨equals,free⟩ ⟨equals',free'⟩ x y same
  simp only [RawField.bytes,List.append_assoc,List.cons_append,List.nil_append] at same
  obtain ⟨rfl,behind⟩ := splitFirst equals equals' same
  obtain ⟨rfl,rest⟩ := splitFirst free free' behind
  exact ⟨rfl,rest⟩

theorem fieldsOfParts {fuel : Nat} {body : Bytes} {fields : List Field} (read : fieldsOf fuel body = .ok fields)
    (fits : body.length ≤ fuel) : ∃ raws, body = raws.flatMap RawField.bytes ∧ List.Forall₂ Reads raws fields := by
  induction fuel generalizing body fields with
  | zero =>
    cases read
    exact ⟨[],List.length_eq_zero_iff.mp (by omega),.nil⟩
  | succ fuel ih =>
    unfold fieldsOf at read
    split at read
    · rename_i empty
      cases read
      exact ⟨[],empty,.nil⟩
    split at read
    · cases read
    rename_i equals found
    obtain ⟨split,-,-⟩ := findSplit found
    split at read
    · cases read
    rename_i tagValue number
    split at read
    · cases read
    rename_i small
    split at read
    · cases read
    rename_i size closed
    obtain ⟨split',free,-⟩ := findSplit closed
    obtain ⟨tail,later,done⟩ := boundOk read
    cases done
    obtain ⟨raws,rest,all⟩ := ih later (by rw [List.length_drop]; omega)
    refine ⟨⟨body.take equals,(body.drop (equals + 1)).take size⟩ :: raws,?_,.cons ⟨?_,rfl,free⟩ all⟩
    · rw [List.flatMap_cons,← rest,RawField.bytes]
      conv_lhs => rw [split,split']
      simp [List.drop_drop]
    · rw [number]
      have exact' : tagValue.toUInt32.toNat = tagValue := UInt32.toNat_ofNat_of_lt' (Nat.lt_of_not_le small)
      rw [exact']

theorem cutUnique {cut other : Cut} (beginString : SOH ∉ cut.beginString) (beginString' : SOH ∉ other.beginString)
    (digits : SOH ∉ cut.lengthDigits) (digits' : SOH ∉ other.lengthDigits) (three : cut.sumDigits.length = 3)
    (three' : other.sumDigits.length = 3) (same : cut.bytes = other.bytes) : cut = other := by
  obtain ⟨b,d,body,s⟩ := cut
  obtain ⟨b',d',body',s'⟩ := other
  simp only [Cut.bytes,Cut.header,List.append_assoc,List.cons_append,List.append_cancel_left_eq,List.nil_append] at same
  obtain ⟨rfl,behind⟩ := splitFirst beginString beginString' same
  rw [List.append_cancel_left_eq] at behind
  obtain ⟨rfl,rest⟩ := splitFirst digits digits' behind
  have width : (ascii "10=" ++ (s ++ [SOH])).length = (ascii "10=" ++ (s' ++ [SOH])).length := by
    simp only [List.length_append,three,three']
  obtain ⟨rfl,trailer⟩ := List.append_inj' rest width
  rw [List.append_cancel_left_eq] at trailer
  rw [List.append_cancel_right trailer]

def printed (field : Field) : RawField := ⟨decimal field.tag.toNat,field.value⟩

theorem printedBytes (field : Field) : (printed field).bytes = fieldBytes field := by
  simp [printed,RawField.bytes,fieldBytes]

def cutOf (beginString body : Bytes) : Cut :=
  ⟨beginString,decimal body.length,body,checksumDigits (byteSum (frameHeader beginString body.length ++ body))⟩

theorem cutOfBytes (beginString body : Bytes) : (cutOf beginString body).bytes = frameOf beginString body := by
  simp [cutOf,Cut.bytes,Cut.header,frameOf,frameHeader,checksumField]

theorem cutOfFramed {beginString body : Bytes} : (cutOf beginString body).sumDigits.length = 3 :=
  (checksumDigitsRead _).1

end

section

variable {cut : Cut} {raws : List RawField} {fields : List Field} {sum : Nat}

theorem Cut.Framed.sumPrinted (framed : cut.Framed sum) :
    cut.sumDigits = checksumDigits (byteSum (cut.header ++ cut.body)) := by
  obtain ⟨width,read⟩ := checksumDigitsRead (byteSum (cut.header ++ cut.body))
  obtain ⟨-,digits,value⟩ := parseDecimalRead framed.claimed
  obtain ⟨-,digits',value'⟩ := parseDecimalRead read
  refine valueInjective (framed.three.trans width.symm) digits digits' ?_
  rw [value,value',framed.checksum]
  exact (UInt8.toNat_ofNat_of_lt' (Nat.lt_succ_of_le framed.byte)).symm

theorem readTag {raw : RawField} {field : Field} (reads : Reads raw field) :
    (Unpadded raw.digits ∧ raw.digits ∉ [ascii "8", ascii "9", ascii "10"]) ↔
      raw = printed field ∧ field.tag ≠ 0 ∧ field.tag ∉ [8, 9, 10] := by
  have reserved : [ascii "8", ascii "9", ascii "10"] = [8, 9, 10].map decimal := by decide
  have managed : decimal field.tag.toNat ∈ [8, 9, 10].map decimal ↔ field.tag ∈ [8, 9, 10] := by
    rw [List.mem_map_of_injective fun _ _ => decimalInjective]
    simp only [List.mem_cons,List.not_mem_nil,or_false,← UInt32.toNat_inj]
    rfl
  have zero : 0 < field.tag.toNat ↔ field.tag ≠ 0 := by
    rw [Nat.pos_iff_ne_zero,ne_eq,ne_eq,← UInt32.toNat_inj]
    rfl
  have whole : raw = printed field ↔ raw.digits = decimal field.tag.toNat := by
    obtain ⟨digits,value⟩ := raw
    simp [printed,reads.value.symm]
  rw [readUnpadded reads.tag,reserved,whole,zero]
  constructor
  · rintro ⟨⟨positive,printed⟩,free⟩
    exact ⟨printed,positive,fun mem => free (printed ▸ managed.mpr mem)⟩
  · rintro ⟨printed,positive,free⟩
    exact ⟨⟨positive,printed⟩,fun mem => free (managed.mp (printed ▸ mem))⟩

theorem readsPrinted (reads : List.Forall₂ Reads raws fields) :
    (∀ raw ∈ raws, Unpadded raw.digits ∧ raw.digits ∉ [ascii "8", ascii "9", ascii "10"]) ↔
      raws = fields.map printed ∧ ∀ field ∈ fields, field.tag ≠ 0 ∧ field.tag ∉ [8, 9, 10] := by
  induction reads with
  | nil => simp
  | cons here rest ih =>
    simp only [List.forall_mem_cons,readTag here,ih,List.map_cons,List.cons.injEq]
    tauto

theorem readsFree (reads : List.Forall₂ Reads raws fields) :
    ∀ raw ∈ raws, EQ ∉ raw.digits ∧ SOH ∉ raw.value := by
  induction reads with
  | nil => simp
  | cons here rest ih => exact List.forall_mem_cons.mpr ⟨⟨here.equalsFree,here.free⟩,ih⟩

theorem readsPlain (reads : List.Forall₂ Reads raws fields) : ∀ field ∈ fields, sohFree field := by
  induction reads with
  | nil => simp
  | cons here rest ih => exact List.forall_mem_cons.mpr ⟨fun mem => here.free (here.value ▸ mem),ih⟩

theorem Unpadded.without {digits : Bytes} {d : UInt8} (unpadded : Unpadded digits) (other : isDigit d = false) :
    d ∉ digits := fun mem => by
  rw [unpadded.all d mem] at other
  cases other

theorem Cut.Framed.isCutOf (framed : cut.Framed sum) (unpadded : Unpadded cut.lengthDigits) :
    cut = cutOf cut.beginString cut.body := by
  have length : cut.lengthDigits = decimal cut.body.length := ((readUnpadded framed.bodyLength).mp unpadded).2
  have header : cut.header = frameHeader cut.beginString cut.body.length := by
    rw [Cut.header,length]
    simp [frameHeader]
  have sums := framed.sumPrinted
  rw [header] at sums
  obtain ⟨b,d,body,s⟩ := cut
  simp only [cutOf,Cut.mk.injEq,true_and]
  exact ⟨length,sums⟩

theorem messageOfOk {beginString body : Bytes} {checksum : UInt8} {m : ParsedMessage}
    (ok : messageOf beginString body checksum = .ok m) : ∃ fields, fieldsOf body.length body = .ok fields ∧
      fields.head?.map Field.tag = some 35 ∧ m = ⟨beginString,fields,checksum⟩ := by
  obtain ⟨fields,read,rest⟩ := boundOk ok
  split at rest
  · cases rest
  · rename_i first
    cases rest
    exact ⟨fields,read,Classical.not_not.mp first,rfl⟩

theorem framedCanonical (framed : cut.Framed sum) (reads : List.Forall₂ Reads raws fields)
    (body : cut.body = raws.flatMap RawField.bytes) (first : fields.head?.map Field.tag = some 35) :
    encodeMessage cut.beginString fields = .ok cut.bytes ↔ Canonical cut.bytes := by
  have free := readsFree reads
  constructor
  · intro encodes
    obtain ⟨written,enc,same⟩ := encoded encodes
    obtain ⟨plain,rfl⟩ := (encodeBodyExact fields written).mp enc.body
    rw [← cutOfBytes] at same
    have parts : cut = cutOf cut.beginString (fields.flatMap fieldBytes) :=
      cutUnique framed.beginString enc.beginString.2.1 framed.lengthDigits (sohNotIn _) framed.three cutOfFramed same
    have bodies : cut.body = fields.flatMap fieldBytes := congrArg Cut.body parts
    have positive : 0 < (fields.flatMap fieldBytes).length := by
      cases fields with
      | nil => cases first
      | cons field rest => simp [fieldBytes]
    have own : ∀ raw ∈ fields.map printed, EQ ∉ raw.digits ∧ SOH ∉ raw.value := by
      intro raw mem
      obtain ⟨field,there,rfl⟩ := List.mem_map.mp mem
      exact ⟨decimalWithout byteNotDigit.2,readsPlain reads field there⟩
    have written : raws.flatMap RawField.bytes = (fields.map printed).flatMap RawField.bytes := by
      rw [← body,bodies,List.flatMap_map]
      simp only [printedBytes]
    have printed' : raws = fields.map printed :=
      rawDelimits.flatMap (fun raw _ => by simp [RawField.bytes]) free own written
    refine ⟨cut,raws,rfl,enc.beginString,?_,body,(readsPrinted reads).mpr ⟨printed',plain⟩,fun raw mem => (free raw mem).2,
      framed.three⟩
    rw [congrArg Cut.lengthDigits parts]
    exact decimalUnpadded positive
  · rintro ⟨other,raws',same,canonical⟩
    obtain rfl : cut = other := cutUnique framed.beginString canonical.begins.2.1 framed.lengthDigits
      (canonical.lengthDigits.without byteNotDigit.1) framed.three canonical.three same
    have own : ∀ raw ∈ raws', EQ ∉ raw.digits ∧ SOH ∉ raw.value := fun raw mem =>
      ⟨(canonical.tags raw mem).1.without byteNotDigit.2,canonical.values raw mem⟩
    obtain rfl : raws = raws' := rawDelimits.flatMap (fun raw _ => by simp [RawField.bytes]) free own
      (body.symm.trans canonical.body)
    obtain ⟨printed',plain⟩ := (readsPrinted reads).mp canonical.tags
    have written : cut.body = fields.flatMap fieldBytes := by
      rw [body,printed',List.flatMap_map]
      simp only [printedBytes]
    have encodes := encodeFrom ⟨canonical.begins,first,(encodeBodyExact fields cut.body).mpr ⟨plain,written⟩⟩
    rw [encodes,← cutOfBytes,← framed.isCutOf canonical.lengthDigits]

end

/-- The encoder gives back an accepted frame exactly when the frame is canonical. -/
theorem acceptedCanonical {frame : Bytes} {m : ParsedMessage} (parsed : parseFrame frame = .ok m) :
    encodeMessage m.beginString m.fields = .ok frame ↔ Canonical frame := by
  rcases parseFrameCases frame with ⟨⟨e,refused⟩,-⟩ | ⟨cut,sum,framed,rfl,run⟩
  · rw [refused] at parsed
    cases parsed
  · rw [run] at parsed
    cases read : messageOf cut.beginString cut.body (byteSum (cut.header ++ cut.body)) with
    | error e =>
      rw [read] at parsed
      cases parsed
    | ok message =>
      rw [read] at parsed
      cases parsed
      obtain ⟨fields,these,first,rfl⟩ := messageOfOk read
      obtain ⟨raws,body,reads⟩ := fieldsOfParts these (Nat.le_refl _)
      exact framedCanonical framed reads body first

def paddedFrame : Bytes :=
  let checked := ascii "8=FIX.4.4" ++ SOH :: (ascii "9=06" ++ SOH :: (ascii "035=0" ++ [SOH]))
  checked ++ checksumField (byteSum checked)

def plainFrame : Bytes := frameOf (ascii "FIX.4.4") (ascii "35=0" ++ [SOH])

theorem acceptedCanonicalHeartbeat :
    parseFrame plainFrame = .ok ⟨ascii "FIX.4.4",[⟨35,ascii "0"⟩],163⟩ ∧
      (encodeMessage (ascii "FIX.4.4") [⟨35,ascii "0"⟩] = .ok plainFrame ↔ Canonical plainFrame) := by
  have parsed : parseFrame plainFrame = .ok ⟨ascii "FIX.4.4",[⟨35,ascii "0"⟩],163⟩ := by decide +kernel
  exact ⟨parsed,acceptedCanonical parsed⟩

theorem paddedAccepted :
    parseFrame paddedFrame = .ok ⟨ascii "FIX.4.4",[⟨35,ascii "0"⟩],4⟩ ∧
      encodeMessage (ascii "FIX.4.4") [⟨35,ascii "0"⟩] ≠ .ok paddedFrame := by
  decide +kernel

end FixCli.Codec
