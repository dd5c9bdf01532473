import FixCli.CodecRoundTrip
import FixCli.Framing

/-! The parts of a frame: what the framer has established of one that it takes, and what
is left for the parser to read, the fields of the body. -/
namespace FixCli.Codec
open Lib

structure Cut where
  beginString : Bytes
  lengthDigits : Bytes
  body : Bytes
  sumDigits : Bytes

def Cut.header (cut : Cut) : Bytes :=
  ascii "8=" ++ (cut.beginString ++ SOH :: (ascii "9=" ++ (cut.lengthDigits ++ [SOH])))

def Cut.bytes (cut : Cut) : Bytes := cut.header ++ (cut.body ++ (ascii "10=" ++ (cut.sumDigits ++ [SOH])))

def headerSize (beginString digits : Bytes) : Nat := 2 + beginString.length + 1 + 2 + digits.length + 1

theorem literalSizes : (ascii "8=").length = 2 ∧ (ascii "9=").length = 2 ∧ (ascii "10=").length = 3 := by decide

theorem Cut.headerLength (cut : Cut) : cut.header.length = headerSize cut.beginString cut.lengthDigits := by
  simp only [Cut.header,headerSize,List.length_append,List.length_cons,List.length_nil,literalSizes]
  omega

theorem Cut.size {cut : Cut} (three : cut.sumDigits.length = 3) :
    cut.bytes.length = headerSize cut.beginString cut.lengthDigits + cut.body.length + 7 := by
  simp only [Cut.bytes,List.length_append,List.length_cons,List.length_nil,Cut.headerLength,literalSizes,three]
  omega

structure Cut.Framed (cut : Cut) (sum : Nat) : Prop where
  beginString : SOH ∉ cut.beginString
  lengthDigits : SOH ∉ cut.lengthDigits
  bodyLength : parseDecimal cut.lengthDigits = .ok cut.body.length
  three : cut.sumDigits.length = 3
  claimed : parseDecimal cut.sumDigits = .ok sum
  byte : sum ≤ 255
  checksum : byteSum (cut.header ++ cut.body) = sum.toUInt8
  fits : cut.bytes.length < usizeLimit

section

variable {b x y rest : Bytes} {i start stop : Nat}

theorem findSplit {d : UInt8} (found : b.findIdx? (· == d) = some i) :
    b = b.take i ++ d :: b.drop (i + 1) ∧ d ∉ b.take i ∧ (b.take i).length = i := by
  obtain ⟨inside,here,before⟩ := List.findIdx?_eq_some_iff_getElem.mp found
  have value : b[i] = d := by simpa using here
  refine ⟨?_,fun mem => ?_,by rw [List.length_take]; omega⟩
  · rw [← value,← List.drop_eq_getElem_cons inside,List.take_append_drop]
  · obtain ⟨k,small,same⟩ := List.mem_take_iff_getElem.mp mem
    exact before k (by omega) (by simp [same])

theorem findSohSplit (pre : Bytes) (found : findSoh (pre ++ rest) pre.length = some stop) :
    ∃ x y, rest = x ++ SOH :: y ∧ SOH ∉ x ∧ stop = pre.length + x.length := by
  unfold findSoh at found
  rw [if_pos (by rw [List.length_append]; omega),List.drop_left] at found
  obtain ⟨k,here,rfl⟩ := Option.map_eq_some_iff.mp found
  obtain ⟨split,free,size⟩ := findSplit here
  exact ⟨rest.take k,rest.drop (k + 1),split,free,by rw [size]⟩

theorem prefixSplit {p : Bytes} (front : p.isPrefixOf b = true) : ∃ rest, b = p ++ rest := by
  obtain ⟨rest,same⟩ := List.isPrefixOf_iff_prefix.mp front
  exact ⟨rest,same.symm⟩

theorem splitBehind {p : Bytes} {d : UInt8} (same : p ++ rest = x ++ d :: y) (freeP : d ∉ p) (freeX : d ∉ x) :
    ∃ z, x = p ++ z ∧ rest = z ++ d :: y ∧ d ∉ z := by
  rcases List.append_eq_append_iff.mp same with ⟨z,front,back⟩ | ⟨z,front,back⟩
  · exact ⟨z,front,back,fun mem => freeX (front ▸ List.mem_append_right _ mem)⟩
  · cases z with
    | nil => exact ⟨[],by simpa using front.symm,by simpa using back.symm,by simp⟩
    | cons a others =>
      refine absurd ?_ freeP
      rw [front,← (List.cons.inj back).1]
      simp

end

structure Headed (b : Bytes) (beginString digits rest : Bytes) : Prop where
  bytes : b = ascii "8=" ++ (beginString ++ SOH :: (ascii "9=" ++ (digits ++ [SOH]))) ++ rest
  beginString : SOH ∉ beginString
  digits : SOH ∉ digits

def Sized (b : Bytes) (maxBodyLength : Nat) : Except (Stop FrameError) (Option (Nat × Nat)) → Prop
  | .ok none => True
  | .error e => e ≠ .panic
  | .ok (some (checksumStart,frameStop)) => ∃ beginString digits rest n, Headed b beginString digits rest ∧
      parseDecimal digits = .ok n ∧ n ≤ maxBodyLength ∧ checksumStart = headerSize beginString digits + n ∧
      frameStop = checksumStart + 7 ∧ frameStop < usizeLimit

theorem checkedAddCases (a n : Nat) : checkedAdd a n = .error (.error .lengthOverflow) ∨
    checkedAdd a n = .ok (a + n) ∧ a + n < usizeLimit := by
  unfold checkedAdd
  split
  · exact .inr ⟨rfl,by assumption⟩
  · exact .inl rfl

theorem raiseSafe {ε α : Type} {r : Except ε α} {stop : Stop ε} (bad : raise r = .error stop) : stop ≠ .panic := by
  cases r with
  | ok a => cases bad
  | error e => cases bad; exact fun same => nomatch same

theorem frameSizeSized (b : Bytes) (maxBodyLength : Nat) : Sized b maxBodyLength (frameSize b maxBodyLength) := by
  have safe (text : String) : Sized b maxBodyLength (malformedFrame text) := fun same => nomatch same
  have two := literalSizes
  unfold frameSize
  split
  · trivial
  split
  · exact safe _
  rename_i begins
  obtain ⟨rest,rfl⟩ := prefixSplit (Classical.not_not.mp begins)
  split
  · trivial
  rename_i endBegin found
  have plain : SOH ∉ ascii "8=" ∧ SOH ∉ ascii "9=" := by decide
  obtain ⟨x,afterBegin,first,freeX,rfl⟩ := findSohSplit [] found
  obtain ⟨beginString,rfl,rfl,freeBegin⟩ := splitBehind first plain.1 freeX
  have size1 : ([] : Bytes).length + (ascii "8=" ++ beginString).length + 1 =
      (ascii "8=" ++ (beginString ++ [SOH])).length := by
    simp only [List.length_append,List.length_cons,List.length_nil]
    omega
  have bytes1 : ascii "8=" ++ (beginString ++ SOH :: afterBegin) =
      (ascii "8=" ++ (beginString ++ [SOH])) ++ afterBegin := by simp
  dsimp only
  split
  · trivial
  rw [size1,bytes1,sliceRest (by simp),List.drop_left]
  simp only [bind,Except.bind]
  split
  · exact safe _
  rename_i second
  obtain ⟨afterNine,rfl⟩ := prefixSplit (Classical.not_not.mp second)
  split
  · trivial
  rename_i endLength found'
  obtain ⟨y,behind,third,freeY,rfl⟩ := findSohSplit _ found'
  obtain ⟨digits,rfl,rfl,freeDigits⟩ := splitBehind third plain.2 freeY
  have bytes2 : ascii "8=" ++ (beginString ++ [SOH]) ++ (ascii "9=" ++ (digits ++ SOH :: behind)) =
      (ascii "8=" ++ (beginString ++ SOH :: ascii "9=")) ++ (digits ++ SOH :: behind) := by simp
  rw [sliceAt bytes2 (by simp [two.2.1]; omega) (by simp [two.2.1]; omega)]
  simp only
  split
  · rename_i e bad
    exact raiseSafe bad
  rename_i n number
  have parsed : parseDecimal digits = .ok n := by
    cases read : parseDecimal digits with
    | ok m => rw [read] at number; cases number; rfl
    | error e => rw [read] at number; cases number
  split
  · exact fun same => nomatch same
  rename_i small
  have overflows : Sized (ascii "8=" ++ (beginString ++ [SOH]) ++ (ascii "9=" ++ (digits ++ SOH :: behind))) maxBodyLength
      (.error (.error .lengthOverflow)) := fun same => nomatch same
  rcases checkedAddCases ((ascii "8=" ++ (beginString ++ [SOH])).length + (ascii "9=" ++ digits).length) 1 with
    beyond | ⟨sum,-⟩
  · rw [beyond]
    exact overflows
  rw [sum]
  simp only
  rcases checkedAddCases ((ascii "8=" ++ (beginString ++ [SOH])).length + (ascii "9=" ++ digits).length + 1) n with
    beyond | ⟨sum,-⟩
  · rw [beyond]
    exact overflows
  rw [sum]
  simp only
  rcases checkedAddCases ((ascii "8=" ++ (beginString ++ [SOH])).length + (ascii "9=" ++ digits).length + 1 + n)
    CHECKSUM_FIELD_LEN with beyond | ⟨sum,below⟩
  · rw [beyond]
    exact overflows
  rw [sum]
  refine ⟨beginString,digits,behind,n,⟨by simp,freeBegin,freeDigits⟩,parsed,by omega,?_,rfl,below⟩
  simp only [headerSize,List.length_append,List.length_cons,List.length_nil,two]
  omega

theorem trailerSplit {t : Bytes} (size : t.length = 7) (front : (ascii "10=").isPrefixOf t = true)
    (closed : t[6]? = some SOH) : ∃ digits, digits.length = 3 ∧ t = ascii "10=" ++ (digits ++ [SOH]) := by
  obtain ⟨rest,rfl⟩ := prefixSplit front
  have three := literalSizes.2.2
  rw [List.length_append,three] at size
  refine ⟨rest.take 3,by rw [List.length_take]; omega,?_⟩
  rw [List.getElem?_append_right (by rw [three]; omega),three] at closed
  have last : rest.drop 3 = [SOH] := by
    obtain ⟨inside,value⟩ := List.getElem?_eq_some_iff.mp closed
    rw [List.drop_eq_getElem_cons inside,value,List.drop_of_length_le (by omega)]
  rw [← last,List.take_append_drop]

def Ended (b : Bytes) (maxBodyLength : Nat) : Except (Stop FrameError) (Option Nat) → Prop
  | .ok none => True
  | .error e => e ≠ .panic
  | .ok (some stop) => ∃ cut sum, Cut.Framed cut sum ∧ b.take stop = cut.bytes ∧ cut.body.length ≤ maxBodyLength

theorem checkTrailerEnded {beginString digits body trailer : Bytes} {maxBodyLength : Nat} (more : Bytes)
    (freeBegin : SOH ∉ beginString) (freeDigits : SOH ∉ digits) (length : parseDecimal digits = .ok body.length)
    (small : body.length ≤ maxBodyLength) (seven : trailer.length = 7)
    (fits : headerSize beginString digits + body.length + 7 < usizeLimit) :
    let b := (ascii "8=" ++ (beginString ++ SOH :: (ascii "9=" ++ (digits ++ [SOH])))) ++ (body ++ (trailer ++ more))
    Ended b maxBodyLength (checkTrailer b (headerSize beginString digits + body.length)
      (headerSize beginString digits + body.length + 7)) := by
  intro b
  have safe (text : String) : Ended b maxBodyLength (malformedFrame text) := fun same => nomatch same
  have two := literalSizes
  set header := ascii "8=" ++ (beginString ++ SOH :: (ascii "9=" ++ (digits ++ [SOH]))) with head
  have size : header.length = headerSize beginString digits := by
    simp only [head,headerSize,List.length_append,List.length_cons,List.length_nil,two]
    omega
  have bytes : b = (header ++ body) ++ (trailer ++ more) := by simp only [b,head,List.append_assoc]
  unfold checkTrailer
  rw [sliceAt bytes (by rw [List.length_append,size]) (by rw [List.length_append,size,seven])]
  simp only [bind,Except.bind]
  split
  · exact safe _
  rename_i shaped
  simp only [not_or,Classical.not_not] at shaped
  obtain ⟨sumDigits,three,rfl⟩ := trailerSplit seven shaped.1 shaped.2
  rw [sliceAt (ε := FrameError) (rfl : ascii "10=" ++ (sumDigits ++ [SOH]) = _) two.2.2.symm (by rw [two.2.2,three])]
  simp only
  split
  · rename_i e bad
    exact raiseSafe bad
  rename_i sum number
  have parsed : parseDecimal sumDigits = .ok sum := by
    cases read : parseDecimal sumDigits with
    | ok m => rw [read] at number; cases number; rfl
    | error e => rw [read] at number; cases number
  split
  · exact safe _
  rename_i byte
  have front : (sliceOf b 0 (headerSize beginString digits + body.length) : Except (Stop FrameError) Bytes) =
      .ok (header ++ body) := sliceAt (a := []) bytes rfl (by rw [List.length_append,size]; simp)
  rw [front]
  simp only
  split
  · exact safe _
  rename_i checksum
  have whole : (Cut.bytes ⟨beginString,digits,body,sumDigits⟩).length = _ := Cut.size three
  refine ⟨⟨beginString,digits,body,sumDigits⟩,sum,⟨freeBegin,freeDigits,length,three,parsed,by omega,
    Classical.not_not.mp checksum,by rw [whole]; exact fits⟩,?_,small⟩
  have all : b = Cut.bytes ⟨beginString,digits,body,sumDigits⟩ ++ more := by
    simp [b,Cut.bytes,Cut.header]
  rw [all,← whole,List.take_left]

theorem frameEndEnded (b : Bytes) (maxBodyLength : Nat) : Ended b maxBodyLength (frameEnd b maxBodyLength) := by
  have sized := frameSizeSized b maxBodyLength
  rw [frameEndParts]
  rcases size : frameSize b maxBodyLength with e | _ | ⟨checksumStart,frameStop⟩ <;> rw [size] at sized
  · exact sized
  · trivial
  · obtain ⟨beginString,digits,rest,n,⟨rfl,freeBegin,freeDigits⟩,length,small,rfl,rfl,fits⟩ := sized
    simp only [Except.bind]
    split
    · trivial
    rename_i long
    have two := literalSizes
    have room : n + 7 ≤ rest.length := by
      simp only [headerSize,List.length_append,List.length_cons,List.length_nil,two] at long
      omega
    have body : (rest.take n).length = n := by rw [List.length_take]; omega
    have parts : rest = rest.take n ++ ((rest.drop n).take 7 ++ (rest.drop n).drop 7) := by
      rw [List.take_append_drop,List.take_append_drop]
    have within : (rest.take n).length ≤ maxBodyLength := by rw [body]; exact small
    have seven : ((rest.drop n).take 7).length = 7 := by rw [List.length_take,List.length_drop]; omega
    have ended := checkTrailerEnded ((rest.drop n).drop 7) freeBegin freeDigits (by rw [body]; exact length)
      within seven (by rw [body]; exact fits)
    rw [body,← parts] at ended
    exact ended

namespace Cut

variable {cut : Cut} {sum : Nat}

theorem bytesParts (cut : Cut) (rest : Bytes) : cut.bytes ++ rest = ascii "8=" ++ (cut.beginString ++ SOH :: (ascii "9=" ++
    (cut.lengthDigits ++ SOH :: (cut.body ++ (ascii "10=" ++ (cut.sumDigits ++ [SOH]) ++ rest))))) := by
  simp [bytes,header]

theorem firstSoh (framed : cut.Framed sum) (rest : Bytes) :
    findSoh (cut.bytes ++ rest) 0 = some (2 + cut.beginString.length) := by
  have plain : SOH ∉ ascii "8=" ++ cut.beginString := by
    rw [List.mem_append,not_or]
    exact ⟨by decide,framed.beginString⟩
  refine (findSohAt (a := []) (x := ascii "8=" ++ cut.beginString)
    (by rw [bytesParts,List.nil_append,List.append_assoc (ascii "8=")]) rfl plain).trans ?_
  simp [literalSizes]

theorem secondSoh (framed : cut.Framed sum) (rest : Bytes) : findSoh (cut.bytes ++ rest) (2 + cut.beginString.length + 1) =
    some (2 + cut.beginString.length + 1 + 2 + cut.lengthDigits.length) := by
  have plain : SOH ∉ ascii "9=" ++ cut.lengthDigits := by
    rw [List.mem_append,not_or]
    exact ⟨by decide,framed.lengthDigits⟩
  have parts : cut.bytes ++ rest = (ascii "8=" ++ (cut.beginString ++ [SOH])) ++ ((ascii "9=" ++ cut.lengthDigits) ++
      SOH :: (cut.body ++ (ascii "10=" ++ (cut.sumDigits ++ [SOH]) ++ rest))) := by simp [bytesParts]
  rw [findSohAt parts (by simp [literalSizes]; omega) plain]
  simp [literalSizes]
  omega

theorem afterBegin {ε : Type} (cut : Cut) (rest : Bytes) : (sliceOf (cut.bytes ++ rest) (2 + cut.beginString.length + 1)
    (cut.bytes ++ rest).length : Except (Stop ε) Bytes) = .ok (ascii "9=" ++ (cut.lengthDigits ++ SOH ::
      (cut.body ++ (ascii "10=" ++ (cut.sumDigits ++ [SOH]) ++ rest)))) := by
  refine sliceAt (a := ascii "8=" ++ (cut.beginString ++ [SOH])) (c := []) (by simp [bytesParts])
    (by simp [literalSizes]; omega) ?_
  rw [bytesParts]
  simp only [List.length_append,List.length_cons,List.length_nil]
  omega

theorem digitsAt {ε : Type} (cut : Cut) (rest : Bytes) : (sliceOf (cut.bytes ++ rest) (2 + cut.beginString.length + 1 + 2)
    (2 + cut.beginString.length + 1 + 2 + cut.lengthDigits.length) : Except (Stop ε) Bytes) = .ok cut.lengthDigits := by
  refine sliceAt (a := ascii "8=" ++ (cut.beginString ++ SOH :: ascii "9="))
    (c := SOH :: (cut.body ++ (ascii "10=" ++ (cut.sumDigits ++ [SOH]) ++ rest))) (by simp [bytesParts]) ?_ ?_ <;>
  · simp only [List.length_append,List.length_cons,literalSizes]
    omega

theorem trailerAt {ε : Type} (three : cut.sumDigits.length = 3) (rest : Bytes) : (sliceOf (cut.bytes ++ rest)
    (headerSize cut.beginString cut.lengthDigits + cut.body.length)
    (headerSize cut.beginString cut.lengthDigits + cut.body.length + 7) : Except (Stop ε) Bytes) =
    .ok (ascii "10=" ++ (cut.sumDigits ++ [SOH])) := by
  refine sliceAt (a := cut.header ++ cut.body) (c := rest) (by simp [bytes]) ?_ ?_ <;>
  simp [headerLength,literalSizes,three]

theorem sumAt {ε : Type} (three : cut.sumDigits.length = 3) (rest : Bytes) : (sliceOf (cut.bytes ++ rest)
    (headerSize cut.beginString cut.lengthDigits + cut.body.length + 3)
    (headerSize cut.beginString cut.lengthDigits + cut.body.length + 6) : Except (Stop ε) Bytes) = .ok cut.sumDigits := by
  refine sliceAt (a := cut.header ++ (cut.body ++ ascii "10=")) (c := SOH :: rest) (by simp [bytes]) ?_ ?_ <;>
  simp [headerLength,literalSizes,three] <;> omega

theorem checkedAt {ε : Type} (cut : Cut) (rest : Bytes) : (sliceOf (cut.bytes ++ rest) 0
    (headerSize cut.beginString cut.lengthDigits + cut.body.length) : Except (Stop ε) Bytes) =
    .ok (cut.header ++ cut.body) := by
  refine sliceAt (a := []) (c := ascii "10=" ++ (cut.sumDigits ++ [SOH]) ++ rest) (by simp [bytes]) rfl ?_
  simp [headerLength]

theorem ends (framed : cut.Framed sum) {maxBodyLength : Nat} (within : cut.body.length ≤ maxBodyLength) (rest : Bytes) :
    frameEnd (cut.bytes ++ rest) maxBodyLength = .ok (some cut.bytes.length) := by
  have size := cut.size framed.three
  have fits := framed.fits
  have long : (cut.bytes ++ rest).length = cut.bytes.length + rest.length := List.length_append
  have begins : (ascii "8=").isPrefixOf (cut.bytes ++ rest) = true :=
    List.isPrefixOf_iff_prefix.mpr (by rw [bytesParts]; exact List.prefix_append _ _)
  have second (more : Bytes) : (ascii "9=").isPrefixOf (ascii "9=" ++ more) = true :=
    List.isPrefixOf_iff_prefix.mpr (List.prefix_append _ _)
  have third : (ascii "10=").isPrefixOf (ascii "10=" ++ (cut.sumDigits ++ [SOH])) = true :=
    List.isPrefixOf_iff_prefix.mpr (List.prefix_append _ _)
  have closed : (ascii "10=" ++ (cut.sumDigits ++ [SOH]))[6]? = some SOH := by
    rw [← List.append_assoc,List.getElem?_append_right (by simp [literalSizes,framed.three])]
    simp [literalSizes,framed.three]
  have digits : (sliceOf (ascii "10=" ++ (cut.sumDigits ++ [SOH])) 3 6 : Except (Stop FrameError) Bytes) = .ok cut.sumDigits :=
    sliceAt rfl literalSizes.2.2.symm (by rw [literalSizes.2.2,framed.three])
  simp only [headerSize] at size
  have add1 : checkedAdd (2 + cut.beginString.length + 1 + 2 + cut.lengthDigits.length) 1 =
      .ok (headerSize cut.beginString cut.lengthDigits) := by rw [checkedAdd,if_pos (by omega)]; rfl
  have add2 : checkedAdd (headerSize cut.beginString cut.lengthDigits) cut.body.length =
      .ok (headerSize cut.beginString cut.lengthDigits + cut.body.length) := by
    rw [checkedAdd,if_pos (by simp only [headerSize]; omega)]
  have add3 : checkedAdd (headerSize cut.beginString cut.lengthDigits + cut.body.length) CHECKSUM_FIELD_LEN =
      .ok (headerSize cut.beginString cut.lengthDigits + cut.body.length + 7) := by
    rw [checkedAdd,if_pos (by simp only [headerSize,CHECKSUM_FIELD_LEN]; omega)]
    rfl
  unfold frameEnd
  rw [if_neg (by omega),if_neg (by rw [begins]; simp),firstSoh framed]
  simp only
  rw [if_neg (by omega),afterBegin]
  simp only [bind,Except.bind]
  rw [if_neg (by rw [second]; simp),secondSoh framed]
  simp only [digitsAt,framed.bodyLength,raise]
  rw [if_neg (by omega)]
  simp only [add1,add2,add3]
  rw [if_neg (by simp only [headerSize]; omega),trailerAt framed.three]
  simp only
  rw [if_neg (by rw [third,closed]; simp),digits]
  simp only [framed.claimed]
  rw [if_neg (by have := framed.byte; omega),checkedAt]
  simp only
  rw [if_neg (by rw [framed.checksum]; simp),cut.size framed.three]

theorem taken (framed : cut.Framed sum) {maxBodyLength : Nat} (within : cut.body.length ≤ maxBodyLength) (rest : Bytes) :
    tryTakeFrame (cut.bytes ++ rest) maxBodyLength = .ok (some (cut.bytes,rest)) := by
  unfold tryTakeFrame
  rw [ends framed within]
  simp only [bind,Except.bind,List.take_left,List.drop_left]

end Cut
end FixCli.Codec
