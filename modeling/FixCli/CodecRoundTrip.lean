import FixCli.Codec
import FixCli.Lib.Prog

/-! What the encoder writes, the framer cuts out and the parser reads back: the
layout of an encoded message, its frame inside a longer buffer, and its fields.
Values are free of SOH; nothing else is asked of their content. -/
namespace FixCli.Codec
open Lib

def sohFree (field : Field) : Prop := SOH ∉ field.value

instance (field : Field) : Decidable (sohFree field) := by unfold sohFree; infer_instance

def checksumField (sum : UInt8) : Bytes := ascii "10=" ++ checksumDigits sum ++ [SOH]

def frameOf (beginString body : Bytes) : Bytes :=
  frameHeader beginString body.length ++ body ++
    checksumField (byteSum (frameHeader beginString body.length ++ body))

structure Encodes (beginString : Bytes) (fields : List Field) (body : Bytes) : Prop where
  beginString : beginString ≠ [] ∧ SOH ∉ beginString ∧ EQ ∉ beginString
  first : fields.head?.map Field.tag = some 35
  body : encodeBody fields = .ok body

theorem encoded {b fields wire} (ok : encodeMessage b fields = .ok wire) :
    ∃ body, Encodes b fields body ∧ wire = frameOf b body := by
  unfold encodeMessage at ok
  split at ok
  · cases ok
  · rename_i plain
    split at ok
    · cases ok
    · rename_i first
      cases hb : encodeBody fields with
      | error e => rw [hb] at ok; cases ok
      | ok body =>
        rw [hb] at ok
        cases ok
        simp only [not_or] at plain
        exact ⟨body,⟨plain,Classical.not_not.mp first,hb⟩,rfl⟩

theorem encodeFrom {b fields body} (h : Encodes b fields body) :
    encodeMessage b fields = .ok (frameOf b body) := by
  have plain : ¬ (b = [] ∨ SOH ∈ b ∨ EQ ∈ b) := by simpa only [not_or] using h.beginString
  unfold encodeMessage
  rw [if_neg plain,if_neg (by simp only [h.first,ne_eq,not_true_eq_false,not_false_eq_true]),h.body]
  rfl

theorem encodeBodyExact (fields : List Field) (body : Bytes) :
    encodeBody fields = .ok body ↔
      (∀ f ∈ fields, f.tag ≠ 0 ∧ f.tag ∉ [8, 9, 10]) ∧ body = fields.flatMap fieldBytes := by
  induction fields generalizing body with
  | nil => simp [encodeBody,eq_comm]
  | cons f rest ih =>
    simp only [encodeBody]
    by_cases zero : f.tag = 0
    · simp [zero]
    · by_cases managed : f.tag ∈ [8, 9, 10]
      · rw [if_neg zero,if_pos managed]
        constructor
        · intro h; cases h
        · intro h; exact absurd managed (h.1 f List.mem_cons_self).2
      · rw [if_neg zero,if_neg managed]
        cases hr : encodeBody rest with
        | error e =>
          constructor
          · intro h; cases h
          · intro h
            have tail := (ih (rest.flatMap fieldBytes)).mpr
              ⟨fun g hg => h.1 g (List.mem_cons_of_mem f hg),rfl⟩
            rw [hr] at tail
            cases tail
        | ok tail =>
          have rest := (ih tail).mp hr
          change Except.ok (fieldBytes f ++ tail) = Except.ok body ↔ _
          simp only [Except.ok.injEq,List.flatMap_cons,List.forall_mem_cons,rest.2]
          constructor
          · intro same; exact ⟨⟨⟨zero,managed⟩,rest.1⟩,same.symm⟩
          · intro h; exact h.2.symm

theorem byteNotDigit : isDigit SOH = false ∧ isDigit EQ = false := by decide

theorem parseDecimalPrinted {n : Nat} (fits : n < usizeLimit) : parseDecimal (decimal n) = .ok n := by
  have digits : ¬ (decimal n = [] ∨ (decimal n).any (fun b => !isDigit b) = true) := by
    simp only [not_or,List.any_eq_true,Bool.not_eq_true']
    refine ⟨decimalNonempty n,?_⟩
    rintro ⟨b,mem,bad⟩
    rw [decimalDigits n b mem] at bad
    cases bad
  rw [parseDecimal,if_neg digits,readDecimal fits]

theorem sliceAt {ε : Type} {bs a b c : Bytes} {start stop : Nat} (parts : bs = a ++ (b ++ c))
    (begins : start = a.length) (ends : stop = a.length + b.length) :
    (sliceOf bs start stop : Except (Stop ε) Bytes) = .ok b := by
  subst parts begins ends
  rw [sliceOf,sliceMiddle]

theorem findSohAt {i a x r : Bytes} {s : Nat} (parts : i = a ++ (x ++ SOH :: r))
    (begins : s = a.length) (absent : SOH ∉ x) : findSoh i s = some (a.length + x.length) := by
  subst parts begins
  have inside : a.length ≤ (a ++ (x ++ SOH :: r)).length := by simp
  rw [findSoh,if_pos inside,List.drop_left,findDelimiter absent]
  rfl

theorem checksumDigitsRead (sum : UInt8) :
    (checksumDigits sum).length = 3 ∧ parseDecimal (checksumDigits sum) = .ok sum.toNat := by
  have all : ∀ n : Fin 256, (checksumDigits (UInt8.ofFin n)).length = 3 ∧
      parseDecimal (checksumDigits (UInt8.ofFin n)) = .ok (UInt8.ofFin n).toNat := by decide +kernel
  simpa using all sum.toFin

theorem checksumFieldShape (sum : UInt8) :
    (ascii "10=").isPrefixOf (checksumField sum) = true ∧ (checksumField sum)[6]? = some SOH ∧
      (checksumField sum).length = CHECKSUM_FIELD_LEN := by
  have len := (checksumDigitsRead sum).1
  have tag : (ascii "10=").length = 3 := by decide
  refine ⟨?_,?_,?_⟩
  · rw [List.isPrefixOf_iff_prefix]
    exact ⟨checksumDigits sum ++ [SOH],by simp [checksumField]⟩
  · rw [checksumField,List.getElem?_append_right (by simp [tag,len])]
    simp [tag,len]
  · simp [checksumField,tag,len,CHECKSUM_FIELD_LEN]

theorem headerLength (b : Bytes) (n : Nat) :
    (frameHeader b n).length = b.length + (decimal n).length + 6 := by
  have eight : (ascii "8=").length = 2 := by decide
  have nine : (ascii "9=").length = 2 := by decide
  simp [frameHeader,eight,nine]
  omega

theorem sohNotIn (n : Nat) : SOH ∉ decimal n := decimalWithout byteNotDigit.1

def bodyLengthAt (b : Bytes) : Nat := 2 + b.length + 1

def bodyAt (b body : Bytes) : Nat := bodyLengthAt b + 2 + (decimal body.length).length + 1

def checksumAt (b body : Bytes) : Nat := bodyAt b body + body.length

def trailer (b body : Bytes) : Bytes :=
  checksumField (byteSum (frameHeader b body.length ++ body))

section Layout

variable (b body rest : Bytes)

theorem eightBytes : ascii "8=" = [0x38, 0x3D] := by decide
theorem nineBytes : ascii "9=" = [0x39, 0x3D] := by decide

theorem frameParts : frameOf b body ++ rest = ascii "8=" ++ b ++ [SOH] ++ ascii "9=" ++
    decimal body.length ++ [SOH] ++ body ++ trailer b body ++ rest := by
  simp only [frameOf,frameHeader,trailer,List.append_assoc]

theorem trailerLength : (trailer b body).length = 7 := (checksumFieldShape _).2.2

theorem frameLength : (frameOf b body).length = checksumAt b body + 7 := by
  simp only [frameOf,List.length_append,headerLength,(checksumFieldShape _).2.2,CHECKSUM_FIELD_LEN,
    checksumAt,bodyAt,bodyLengthAt]
  omega

theorem frameFirstSoh (plain : SOH ∉ b) :
    findSoh (frameOf b body ++ rest) 0 = some (2 + b.length) := by
  have absent : SOH ∉ ascii "8=" ++ b := by
    rw [List.mem_append,not_or]
    exact ⟨by decide,plain⟩
  have found := findSohAt (a := []) (x := ascii "8=" ++ b) (s := 0)
    (r := ascii "9=" ++ decimal body.length ++ [SOH] ++ body ++ trailer b body ++ rest)
    (i := frameOf b body ++ rest) (by rw [frameParts]; simp) rfl absent
  rw [found]
  simp [eightBytes]
  omega

theorem frameSecondSoh : findSoh (frameOf b body ++ rest) (bodyLengthAt b) =
    some (bodyLengthAt b + 2 + (decimal body.length).length) := by
  have absent : SOH ∉ ascii "9=" ++ decimal body.length := by
    rw [List.mem_append,not_or]
    exact ⟨by decide,sohNotIn _⟩
  have found := findSohAt (a := ascii "8=" ++ b ++ [SOH]) (x := ascii "9=" ++ decimal body.length)
    (r := body ++ trailer b body ++ rest) (s := bodyLengthAt b)
    (i := frameOf b body ++ rest) (by rw [frameParts]; simp)
    (by simp [eightBytes,bodyLengthAt]; omega) absent
  rw [found]
  simp [eightBytes,nineBytes,bodyLengthAt]
  omega

variable {ε : Type}

theorem frameAfterBegin : (sliceOf (frameOf b body ++ rest) (bodyLengthAt b)
    (frameOf b body ++ rest).length : Except (Stop ε) Bytes) =
    .ok (ascii "9=" ++ (decimal body.length ++ [SOH] ++ body ++ trailer b body ++ rest)) := by
  refine sliceAt (a := ascii "8=" ++ b ++ [SOH]) (c := []) (by rw [frameParts]; simp)
    (by simp [eightBytes,bodyLengthAt]; omega) ?_
  rw [frameParts]
  simp only [List.length_append]
  omega

theorem frameLengthDigits : (sliceOf (frameOf b body ++ rest) (bodyLengthAt b + 2)
    (bodyLengthAt b + 2 + (decimal body.length).length) : Except (Stop ε) Bytes) =
    .ok (decimal body.length) := by
  refine sliceAt (a := ascii "8=" ++ b ++ [SOH] ++ ascii "9=")
    (c := [SOH] ++ body ++ trailer b body ++ rest) (by rw [frameParts]; simp) ?_ ?_ <;>
  · simp [eightBytes,nineBytes,bodyLengthAt]; omega

theorem frameChecksum : (sliceOf (frameOf b body ++ rest) (checksumAt b body)
    (checksumAt b body + 7) : Except (Stop ε) Bytes) = .ok (trailer b body) := by
  refine sliceAt (a := frameHeader b body.length ++ body) (c := rest)
    (by simp only [frameOf,trailer,List.append_assoc]) ?_ ?_
  · simp only [List.length_append,headerLength,checksumAt,bodyAt,bodyLengthAt]; omega
  · simp only [List.length_append,headerLength,trailerLength,checksumAt,bodyAt,bodyLengthAt]; omega

theorem frameChecked : (sliceOf (frameOf b body ++ rest) 0 (checksumAt b body) :
    Except (Stop ε) Bytes) = .ok (frameHeader b body.length ++ body) := by
  refine sliceAt (a := []) (c := trailer b body ++ rest)
    (by simp only [frameOf,trailer,List.append_assoc,List.nil_append]) rfl ?_
  simp only [List.length_append,headerLength,List.length_nil,checksumAt,bodyAt,bodyLengthAt]; omega

theorem trailerDigits : (sliceOf (trailer b body) 3 6 : Except (Stop ε) Bytes) =
    .ok (checksumDigits (byteSum (frameHeader b body.length ++ body))) :=
  sliceAt (a := ascii "10=") (c := [SOH]) (by simp [trailer,checksumField]) (by decide)
    (by rw [(checksumDigitsRead _).1]; decide)

theorem frameStarts : (ascii "8=").isPrefixOf (frameOf b body ++ rest) = true := by
  rw [List.isPrefixOf_iff_prefix,frameParts]
  simp only [List.append_assoc,List.prefix_append]

theorem frameEndEncoded (maxBodyLength : Nat) (plain : SOH ∉ b) (within : body.length ≤ maxBodyLength)
    (fits : (frameOf b body).length < usizeLimit) :
    frameEnd (frameOf b body ++ rest) maxBodyLength = .ok (some (frameOf b body).length) := by
  have len := frameLength b body
  have total : (frameOf b body ++ rest).length = (frameOf b body).length + rest.length := by simp
  have at1 : bodyLengthAt b = 2 + b.length + 1 := rfl
  have at2 : bodyAt b body = bodyLengthAt b + 2 + (decimal body.length).length + 1 := rfl
  have at3 : checksumAt b body = bodyAt b body + body.length := rfl
  have startsNine : (ascii "9=").isPrefixOf
      (ascii "9=" ++ (decimal body.length ++ [SOH] ++ body ++ trailer b body ++ rest)) = true :=
    List.isPrefixOf_iff_prefix.mpr (List.prefix_append _ _)
  have shape := checksumFieldShape (byteSum (frameHeader b body.length ++ body))
  have digits := checksumDigitsRead (byteSum (frameHeader b body.length ++ body))
  have small := (byteSum (frameHeader b body.length ++ body)).toNat_lt
  have add1 : checkedAdd (bodyLengthAt b + 2 + (decimal body.length).length) 1 =
      .ok (bodyAt b body) := by rw [checkedAdd,if_pos (by omega)]; rfl
  have add2 : checkedAdd (bodyAt b body) body.length = .ok (checksumAt b body) := by
    rw [checkedAdd,if_pos (by omega)]; rfl
  have add3 : checkedAdd (checksumAt b body) CHECKSUM_FIELD_LEN = .ok (checksumAt b body + 7) := by
    rw [checkedAdd,if_pos (by simp only [CHECKSUM_FIELD_LEN]; omega)]; rfl
  unfold frameEnd
  rw [if_neg (by omega),if_neg (by rw [frameStarts]; simp),frameFirstSoh b body rest plain]
  simp only [← at1]
  rw [if_neg (by omega),frameAfterBegin]
  simp only [bind,Except.bind]
  rw [if_neg (by rw [startsNine]; simp),frameSecondSoh]
  simp only [frameLengthDigits,parseDecimalPrinted (show body.length < usizeLimit by omega),raise]
  rw [if_neg (by omega)]
  simp only [add1,add2,add3]
  rw [if_neg (by omega),frameChecksum]
  simp only []
  rw [if_neg (by simp only [trailer,shape.1,shape.2.1]; simp),trailerDigits]
  simp only [digits.2]
  rw [if_neg (by omega),frameChecked]
  simp [len]

theorem tryTakeEncoded (maxBodyLength : Nat) (plain : SOH ∉ b) (within : body.length ≤ maxBodyLength)
    (fits : (frameOf b body).length < usizeLimit) :
    tryTakeFrame (frameOf b body ++ rest) maxBodyLength = .ok (some (frameOf b body,rest)) := by
  unfold tryTakeFrame
  rw [frameEndEncoded b body rest maxBodyLength plain within fits]
  simp [bind,Except.bind]

end Layout

theorem fieldBytesSplit (f : Field) (rest : Bytes) : fieldBytes f ++ rest =
    decimal f.tag.toNat ++ EQ :: (f.value ++ SOH :: rest) := by
  simp [fieldBytes]

theorem fieldTagRead (f : Field) : parseDecimal (decimal f.tag.toNat) = .ok f.tag.toNat ∧
    ¬ 2 ^ 32 ≤ f.tag.toNat ∧ f.tag.toNat.toUInt32 = f.tag := by
  have small := f.tag.toNat_lt
  refine ⟨parseDecimalPrinted (Nat.lt_trans small (by decide)),by omega,?_⟩
  simp

theorem parseFieldsEncoded (fields : List Field) (plain : ∀ f ∈ fields, sohFree f)
    (before after : Bytes) (fuel : Nat) (enough : fields.length ≤ fuel) :
    parseFields (before ++ (fields.flatMap fieldBytes ++ after))
      (before.length + (fields.flatMap fieldBytes).length) fuel before.length = .ok fields := by
  induction fields generalizing before fuel with
  | nil =>
    cases fuel with
    | zero => rfl
    | succ fuel => simp [parseFields]
  | cons f fs ih =>
    obtain ⟨fuel,rfl⟩ : ∃ n, fuel = n + 1 := ⟨fuel - 1,by simp only [List.length_cons] at enough; omega⟩
    set tail := fs.flatMap fieldBytes with htail
    set tag := decimal f.tag.toNat with htag
    have tagRead : parseDecimal tag = .ok f.tag.toNat := (fieldTagRead f).1
    have whole : before ++ ((f :: fs).flatMap fieldBytes ++ after) =
        before ++ (tag ++ EQ :: (f.value ++ SOH :: (tail ++ after))) := by
      rw [List.flatMap_cons,List.append_assoc,fieldBytesSplit]
    have size : ((f :: fs).flatMap fieldBytes).length = tag.length + 1 + f.value.length + 1 + tail.length := by
      rw [List.flatMap_cons,fieldBytesSplit]
      simp only [List.length_append,List.length_cons,htag,htail]
      omega
    have restHere : (sliceOf (before ++ (tag ++ EQ :: (f.value ++ SOH :: (tail ++ after)))) before.length
        (before.length + ((f :: fs).flatMap fieldBytes).length) : Except (Stop ParseError) Bytes) =
        .ok (tag ++ EQ :: (f.value ++ SOH :: tail)) :=
      sliceAt (a := before) (c := after) (by simp) rfl (by rw [size]; simp; omega)
    have equals : (tag ++ EQ :: (f.value ++ SOH :: tail)).findIdx? (· == EQ) = some tag.length :=
      findDelimiter (decimalWithout byteNotDigit.2) _
    have digits : (sliceOf (before ++ (tag ++ EQ :: (f.value ++ SOH :: (tail ++ after)))) before.length
        (before.length + tag.length) : Except (Stop ParseError) Bytes) = .ok tag :=
      sliceAt (a := before) (c := EQ :: (f.value ++ SOH :: (tail ++ after))) (by simp) rfl rfl
    have soh : findSoh (before ++ (tag ++ EQ :: (f.value ++ SOH :: (tail ++ after))))
        (before.length + tag.length + 1) = some (before.length + tag.length + 1 + f.value.length) := by
      rw [findSohAt (a := before ++ tag ++ [EQ]) (x := f.value) (r := tail ++ after) (by simp)
        (by simp; omega) (plain f List.mem_cons_self)]
      simp
      omega
    have value : (sliceOf (before ++ (tag ++ EQ :: (f.value ++ SOH :: (tail ++ after))))
        (before.length + tag.length + 1) (before.length + tag.length + 1 + f.value.length) :
        Except (Stop ParseError) Bytes) = .ok f.value :=
      sliceAt (a := before ++ tag ++ [EQ]) (c := SOH :: (tail ++ after)) (by simp) (by simp; omega)
        (by simp; omega)
    have next := ih (fun g hg => plain g (List.mem_cons_of_mem f hg))
      (before ++ tag ++ [EQ] ++ f.value ++ [SOH]) fuel (by simpa using enough)
    have shape : before ++ tag ++ [EQ] ++ f.value ++ [SOH] ++ (tail ++ after) =
        before ++ (tag ++ EQ :: (f.value ++ SOH :: (tail ++ after))) := by simp
    have cursor : (before ++ tag ++ [EQ] ++ f.value ++ [SOH]).length =
        before.length + tag.length + 1 + f.value.length + 1 := by simp; omega
    rw [shape,cursor] at next
    have stop : before.length + ((f :: fs).flatMap fieldBytes).length =
        before.length + tag.length + 1 + f.value.length + 1 + tail.length := by omega
    rw [whole,parseFields,if_pos (by omega),restHere]
    simp only [bind,Except.bind,equals,digits,tagRead,raise,inParse]
    rw [if_neg (fieldTagRead f).2.1,soh]
    simp only [Option.filter_some]
    rw [if_pos (by simp only [decide_eq_true_eq]; omega)]
    simp only [value,stop,next,(fieldTagRead f).2.2]

theorem fieldCount (fields : List Field) : fields.length ≤ (fields.flatMap fieldBytes).length := by
  induction fields with
  | nil => simp
  | cons f fs ih => simp only [List.flatMap_cons,List.length_append,List.length_cons,fieldBytes,
      List.length_nil]; omega

theorem parseFrameEncoded {b body : Bytes} {fields : List Field} (enc : Encodes b fields body)
    (plain : ∀ f ∈ fields, sohFree f) (fits : (frameOf b body).length < usizeLimit) :
    parseFrame (frameOf b body) =
      .ok ⟨b,fields,byteSum (frameHeader b body.length ++ body)⟩ := by
  have len := frameLength b body
  have at2 : bodyAt b body = bodyLengthAt b + 2 + (decimal body.length).length + 1 := rfl
  have at3 : checksumAt b body = bodyAt b body + body.length := rfl
  have take := tryTakeEncoded b body [] (frameOf b body).length enc.beginString.2.1 (by omega) fits
  have soh1 := frameFirstSoh b body [] enc.beginString.2.1
  have soh2 := frameSecondSoh b body []
  have digits := frameLengthDigits b body [] (ε := ParseError)
  have begins : (sliceOf (frameOf b body) 2 (2 + b.length) : Except (Stop ParseError) Bytes) = .ok b :=
    sliceAt (a := ascii "8=") (c := [SOH] ++ ascii "9=" ++ decimal body.length ++ [SOH] ++ body ++ trailer b body)
      (by simp only [frameOf,frameHeader,trailer,List.append_assoc]) (by simp [eightBytes])
      (by simp [eightBytes])
  have sumDigits : (sliceOf (frameOf b body) (checksumAt b body + 3) (checksumAt b body + 6) :
      Except (Stop ParseError) Bytes) =
      .ok (checksumDigits (byteSum (frameHeader b body.length ++ body))) := by
    have three := (checksumDigitsRead (byteSum (frameHeader b body.length ++ body))).1
    have ten : (ascii "10=").length = 3 := by decide
    refine sliceAt (a := frameHeader b body.length ++ body ++ ascii "10=") (c := [SOH])
      (by simp only [frameOf,checksumField,List.append_assoc]) ?_ ?_
    · simp only [List.length_append,headerLength,checksumAt,bodyAt,bodyLengthAt,ten]; omega
    · simp only [List.length_append,headerLength,checksumAt,bodyAt,bodyLengthAt,ten,three]; omega
  have bodyIs := ((encodeBodyExact fields body).mp enc.body).2
  have fieldsHere : parseFields (frameOf b body) (checksumAt b body) (frameOf b body).length (bodyAt b body) =
      .ok fields := by
    have run := parseFieldsEncoded fields plain (frameHeader b body.length) (trailer b body)
      (frameOf b body).length (by have := fieldCount fields; rw [← bodyIs] at this; omega)
    have start : (frameHeader b body.length).length = bodyAt b body := by
      rw [headerLength,at2,bodyLengthAt]; omega
    rw [start,← bodyIs,← at3] at run
    simpa only [frameOf,trailer,List.append_assoc] using run
  have add : checkedAdd (bodyAt b body) body.length = .ok (checksumAt b body) := by
    rw [checkedAdd,if_pos (by omega)]; rfl
  have small : body.length < usizeLimit := by omega
  have first := enc.first
  simp only [List.append_nil] at take soh1 soh2 digits
  have at1 : bodyLengthAt b = 2 + b.length + 1 := rfl
  unfold parseFrame
  simp only [take,bind,Except.bind,inParse]
  rw [if_neg (by simp)]
  simp only [soh1,← at1,soh2,digits,parseDecimalPrinted small,raise,add,← at2,fieldsHere]
  rw [if_neg (by simp [first])]
  simp only [sumDigits,(checksumDigitsRead _).2,begins]
  simp

theorem slicePlain {ε : Type} {bs part : Bytes} {start stop : Nat} (found : findSoh bs start = some stop)
    (ok : (sliceOf bs start stop : Except (Stop ε) Bytes) = .ok part) : SOH ∉ part := by
  unfold findSoh at found
  split at found
  · obtain ⟨offset,here,rfl⟩ := Option.map_eq_some_iff.mp found
    unfold sliceOf slice at ok
    split at ok
    · rename_i whole inside
      split at inside <;> cases inside
      cases ok
      intro mem
      rw [List.drop_take,Nat.add_sub_cancel_left] at mem
      obtain ⟨i,small,value⟩ := List.mem_take_iff_getElem.mp mem
      have before := (List.findIdx?_eq_some_iff_getElem.mp here).2.2 i (by omega)
      rw [value] at before
      exact before rfl
    · cases ok
  · cases found

theorem parseFieldsPlain {frame : Bytes} {checksumStart : Nat} (fuel : Nat) {cursor : Nat} {fields : List Field}
    (ok : parseFields frame checksumStart fuel cursor = .ok fields) : ∀ f ∈ fields, sohFree f := by
  induction fuel generalizing cursor fields with
  | zero => cases ok; simp
  | succ fuel ih =>
    unfold parseFields at ok
    split at ok
    · obtain ⟨rest,-,ok⟩ := boundOk ok
      split at ok
      · cases ok
      · obtain ⟨tagDigits,-,ok⟩ := boundOk ok
        obtain ⟨tagValue,-,ok⟩ := boundOk ok
        split at ok
        · cases ok
        · dsimp only at ok
          split at ok
          · cases ok
          · rename_i found
            obtain ⟨value,sliced,ok⟩ := boundOk ok
            obtain ⟨tail,parsed,ok⟩ := boundOk ok
            cases ok
            intro f mem
            rcases List.mem_cons.mp mem with rfl | later
            · exact slicePlain (Option.filter_eq_some_iff.mp found).1 sliced
            · exact ih parsed f later
    · cases ok; simp

theorem parsedPlain {frame : Bytes} {message : ParsedMessage} (ok : parseFrame frame = .ok message) :
    ∀ f ∈ message.fields, sohFree f := by
  unfold parseFrame at ok
  obtain ⟨taken,-,ok⟩ := boundOk ok
  split at ok
  · cases ok
  split at ok
  · cases ok
  split at ok
  · cases ok
  dsimp only at ok
  split at ok
  · cases ok
  obtain ⟨_,-,ok⟩ := boundOk ok
  obtain ⟨_,-,ok⟩ := boundOk ok
  obtain ⟨_,-,ok⟩ := boundOk ok
  obtain ⟨fields,parsed,ok⟩ := boundOk ok
  split at ok
  · cases ok
  obtain ⟨_,-,ok⟩ := boundOk ok
  obtain ⟨_,-,ok⟩ := boundOk ok
  obtain ⟨_,-,ok⟩ := boundOk ok
  cases ok
  exact parseFieldsPlain _ parsed

theorem frameOfInjective {b body body' : Bytes} (same : frameOf b body = frameOf b body') : body = body' := by
  simp only [frameOf,frameHeader,List.append_assoc,List.append_cancel_left_eq,List.nil_append,
    List.cons_append,List.cons.injEq,true_and] at same
  obtain ⟨lengths,rest⟩ := splitFirst (sohNotIn _) (sohNotIn _) same
  exact (List.append_inj rest (decimalInjective lengths)).1

theorem fieldBytesInjective {fs gs : List Field} (tags : fs.map Field.tag = gs.map Field.tag)
    (plain : ∀ f ∈ fs, sohFree f) (plain' : ∀ g ∈ gs, sohFree g)
    (same : fs.flatMap fieldBytes = gs.flatMap fieldBytes) : fs = gs := by
  induction fs generalizing gs with
  | nil => exact (List.map_eq_nil_iff.mp tags.symm).symm
  | cons f fs ih =>
    cases gs with
    | nil => cases tags
    | cons g gs =>
      obtain ⟨tag,others⟩ := List.cons.inj tags
      rw [List.flatMap_cons,List.flatMap_cons,fieldBytesSplit,fieldBytesSplit,tag] at same
      obtain ⟨value,rest⟩ := splitFirst (plain f List.mem_cons_self) (plain' g List.mem_cons_self)
        (List.cons.inj (List.append_cancel_left same)).2
      rw [ih others (fun x hx => plain x (List.mem_cons_of_mem _ hx))
        (fun x hx => plain' x (List.mem_cons_of_mem _ hx)) rest]
      obtain ⟨t,v⟩ := f
      obtain ⟨t',v'⟩ := g
      cases tag
      cases value
      rfl

theorem wiresDiffer {b wire : Bytes} {front fs gs : List Field} (tags : fs.map Field.tag = gs.map Field.tag)
    (plain : ∀ f ∈ fs, sohFree f) (plain' : ∀ g ∈ gs, sohFree g)
    (one : encodeMessage b (front ++ fs) = .ok wire) (other : encodeMessage b (front ++ gs) = .ok wire) :
    fs = gs := by
  obtain ⟨body,enc,rfl⟩ := encoded one
  obtain ⟨body',enc',same⟩ := encoded other
  have bodies := frameOfInjective same
  rw [((encodeBodyExact _ _).mp enc.body).2,((encodeBodyExact _ _).mp enc'.body).2,List.flatMap_append,
    List.flatMap_append] at bodies
  exact fieldBytesInjective tags plain plain' (List.append_cancel_left bodies)

theorem encodeBodyAlike {fs gs : List Field} (tags : fs.map Field.tag = gs.map Field.tag) :
    (∃ e, encodeBody fs = .error e ∧ encodeBody gs = .error e) ∨
      ∃ body body', encodeBody fs = .ok body ∧ encodeBody gs = .ok body' := by
  induction fs generalizing gs with
  | nil =>
    cases gs with
    | nil => exact .inr ⟨[],[],rfl,rfl⟩
    | cons _ _ => cases tags
  | cons f fs ih =>
    cases gs with
    | nil => cases tags
    | cons g gs =>
      obtain ⟨tag,others⟩ := List.cons.inj tags
      simp only [encodeBody,tag]
      by_cases zero : g.tag = 0
      · exact .inl ⟨_,if_pos zero,if_pos zero⟩
      · rw [if_neg zero,if_neg zero]
        by_cases managed : g.tag ∈ [8, 9, 10]
        · exact .inl ⟨_,if_pos managed,if_pos managed⟩
        · rw [if_neg managed,if_neg managed]
          rcases ih others with ⟨e,one,other⟩ | ⟨body,body',one,other⟩
          · exact .inl ⟨e,by rw [one]; rfl,by rw [other]; rfl⟩
          · exact .inr ⟨_,_,by rw [one]; rfl,by rw [other]; rfl⟩

theorem encodesAlike (b : Bytes) {fs gs : List Field} (tags : fs.map Field.tag = gs.map Field.tag) :
    (∃ e, encodeMessage b fs = .error e ∧ encodeMessage b gs = .error e) ∨
      ∃ wire wire', encodeMessage b fs = .ok wire ∧ encodeMessage b gs = .ok wire' := by
  have heads : fs.head?.map Field.tag = gs.head?.map Field.tag := by
    rw [← List.head?_map,← List.head?_map,tags]
  unfold encodeMessage
  rw [heads]
  by_cases plain : b = [] ∨ SOH ∈ b ∨ EQ ∈ b
  · exact .inl ⟨_,if_pos plain,if_pos plain⟩
  · rw [if_neg plain,if_neg plain]
    by_cases first : gs.head?.map Field.tag ≠ some 35
    · exact .inl ⟨_,if_pos first,if_pos first⟩
    · rw [if_neg first,if_neg first]
      rcases encodeBodyAlike tags with ⟨e,one,other⟩ | ⟨body,body',one,other⟩
      · exact .inl ⟨e,by rw [one]; rfl,by rw [other]; rfl⟩
      · exact .inr ⟨_,_,by rw [one]; rfl,by rw [other]; rfl⟩

end FixCli.Codec
