import FixCli.FrameGrammar

/-! The parser reads a frame that the framer took: of its errors only those of the fields
in the body are left, and no index is out of range. -/
namespace FixCli.Codec
open Lib

def fieldsOf : Nat → Bytes → Except ParseError (List Field)
  | 0, _ => .ok []
  | fuel + 1, body =>
    if body = [] then .ok []
    else match body.findIdx? (· == EQ) with
    | none => .error (.malformed (ascii "field is missing '='"))
    | some equals =>
      match parseDecimal (body.take equals) with
      | .error e => .error (.frame e)
      | .ok tagValue =>
        if 2 ^ 32 ≤ tagValue then .error (.malformed (ascii "field tag exceeds u32"))
        else match (body.drop (equals + 1)).findIdx? (· == SOH) with
        | none => .error (.malformed (ascii "field is missing SOH delimiter"))
        | some size => do
          let tail ← fieldsOf fuel (body.drop (equals + 1 + (size + 1)))
          .ok (⟨tagValue.toUInt32,(body.drop (equals + 1)).take size⟩ :: tail)

def messageOf (beginString body : Bytes) (checksum : UInt8) : Except ParseError ParsedMessage := do
  let fields ← fieldsOf body.length body
  if fields.head?.map Field.tag ≠ some 35 then .error (.malformed (ascii "MsgType(35) must be third"))
  else .ok ⟨beginString,fields,checksum⟩

section

variable {pre part post body : Bytes}

theorem findSohWithin (pre part post : Bytes) : (findSoh (pre ++ (part ++ post)) pre.length).filter
    (fun stop => decide (stop < pre.length + part.length)) = (part.findIdx? (· == SOH)).map (pre.length + ·) := by
  rw [findSoh,if_pos (by rw [List.length_append]; omega),List.drop_left,List.findIdx?_append]
  cases inside : part.findIdx? (· == SOH) with
  | some i =>
    have small : i < part.length := (List.findIdx?_eq_some_iff_findIdx_eq.mp inside).1
    simp [Option.filter,small]
  | none =>
    cases later : post.findIdx? (· == SOH) with
    | none => simp
    | some i => simp [Option.filter]

theorem parseFieldsBody (fuel : Nat) (pre body post : Bytes) :
    parseFields (pre ++ (body ++ post)) (pre.length + body.length) fuel pre.length = raise (fieldsOf fuel body) := by
  induction fuel generalizing pre body with
  | zero => rfl
  | succ fuel ih =>
    unfold parseFields fieldsOf
    by_cases empty : body = []
    · rw [if_neg (by simp [empty]),if_pos empty]
      rfl
    have room : 0 < body.length := List.length_pos_iff.mpr empty
    rw [if_pos (by omega),if_neg empty,sliceAt (rfl : pre ++ (body ++ post) = _) rfl rfl]
    simp only [bind,Except.bind]
    cases found : body.findIdx? (· == EQ) with
    | none => rfl
    | some equals =>
      obtain ⟨split,-,size⟩ := findSplit found
      have bytes : pre ++ (body ++ post) = pre ++ (body.take equals ++ (EQ :: body.drop (equals + 1) ++ post)) := by
        conv_lhs => rw [split]
        simp
      simp only
      rw [sliceAt bytes rfl (by rw [size])]
      simp only
      cases number : parseDecimal (body.take equals) with
      | error e => rfl
      | ok tagValue =>
        simp only [raise,inParse]
        split
        · rfl
        have ahead : (pre ++ (body.take equals ++ [EQ])).length = pre.length + equals + 1 := by
          simp only [List.length_append,List.length_cons,List.length_nil,size]
          omega
        have inside : equals < body.length := (List.findIdx?_eq_some_iff_findIdx_eq.mp found).1
        have bytes' : pre ++ (body ++ post) = (pre ++ (body.take equals ++ [EQ])) ++ (body.drop (equals + 1) ++ post) := by
          rw [bytes]
          simp
        have stops : pre.length + body.length = (pre ++ (body.take equals ++ [EQ])).length + (body.drop (equals + 1)).length := by
          rw [ahead,List.length_drop]
          omega
        have next := findSohWithin (pre ++ (body.take equals ++ [EQ])) (body.drop (equals + 1)) post
        rw [← bytes',← stops,ahead] at next
        simp only [next]
        cases closed : (body.drop (equals + 1)).findIdx? (· == SOH) with
        | none => rfl
        | some size' =>
          obtain ⟨split',-,size'Is⟩ := findSplit closed
          have valued : pre ++ (body ++ post) = (pre ++ (body.take equals ++ [EQ])) ++
              ((body.drop (equals + 1)).take size' ++ (SOH :: (body.drop (equals + 1)).drop (size' + 1) ++ post)) := by
            rw [bytes']
            conv_lhs => rw [split']
            simp
          have short : size' < (body.drop (equals + 1)).length := (List.findIdx?_eq_some_iff_findIdx_eq.mp closed).1
          rw [List.length_drop] at short
          have later := ih (pre ++ body.take (equals + 1 + (size' + 1))) (body.drop (equals + 1 + (size' + 1)))
          have turned : pre ++ body.take (equals + 1 + (size' + 1)) ++ (body.drop (equals + 1 + (size' + 1)) ++ post) =
              pre ++ (body ++ post) := by
            rw [List.append_assoc,← List.append_assoc (body.take _),List.take_append_drop]
          have cursor : (pre ++ body.take (equals + 1 + (size' + 1))).length = pre.length + equals + 1 + size' + 1 := by
            rw [List.length_append,List.length_take]
            omega
          have ends : (pre ++ body.take (equals + 1 + (size' + 1))).length +
              (body.drop (equals + 1 + (size' + 1))).length = pre.length + body.length := by
            rw [cursor,List.length_drop]
            omega
          rw [turned,ends,cursor] at later
          simp only [Option.map_some]
          rw [sliceAt valued ahead.symm (by rw [ahead,size'Is])]
          simp only [later]
          cases fieldsOf fuel (body.drop (equals + 1 + (size' + 1))) <;> rfl

def BodyError (e : ParseError) : Prop :=
  e = .frame (.malformed (ascii "expected an unsigned decimal value")) ∨ e = .frame .lengthOverflow ∨
    e ∈ ["field is missing '='", "field tag exceeds u32", "field is missing SOH delimiter",
      "MsgType(35) must be third"].map fun text => ParseError.malformed (ascii text)

theorem parseDecimalErrors {digits : Bytes} {e : FrameError} (bad : parseDecimal digits = .error e) :
    e = .malformed (ascii "expected an unsigned decimal value") ∨ e = .lengthOverflow := by
  unfold parseDecimal at bad
  split at bad
  · cases bad
    exact .inl rfl
  · split at bad <;> cases bad
    exact .inr rfl

theorem fieldsOfErrors {fuel : Nat} {e : ParseError} (bad : fieldsOf fuel body = .error e) : BodyError e := by
  induction fuel generalizing body with
  | zero => cases bad
  | succ fuel ih =>
    unfold fieldsOf at bad
    split at bad
    · cases bad
    split at bad
    · cases bad
      exact .inr (.inr (by simp))
    split at bad
    · rename_i number
      cases bad
      rcases parseDecimalErrors number with rfl | rfl
      · exact .inl rfl
      · exact .inr (.inl rfl)
    split at bad
    · cases bad
      exact .inr (.inr (by simp))
    split at bad
    · cases bad
      exact .inr (.inr (by simp))
    · cases later : fieldsOf fuel _ with
      | error other =>
        rw [later] at bad
        cases bad
        exact ih later
      | ok tail =>
        rw [later] at bad
        cases bad

theorem messageOfErrors {beginString : Bytes} {checksum : UInt8} {e : ParseError}
    (bad : messageOf beginString body checksum = .error e) : BodyError e := by
  unfold messageOf at bad
  cases read : fieldsOf body.length body with
  | error other =>
    rw [read] at bad
    cases bad
    exact fieldsOfErrors read
  | ok fields =>
    simp only [read,bind,Except.bind] at bad
    split at bad
    · cases bad
      exact .inr (.inr (by simp))
    · cases bad

end

theorem fuelEnough {n m : Nat} {body : Bytes} (fitsN : body.length ≤ n) (fitsM : body.length ≤ m) :
    fieldsOf n body = fieldsOf m body := by
  induction n generalizing m body with
  | zero =>
    have empty : body = [] := List.length_eq_zero_iff.mp (by omega)
    cases m <;> simp [fieldsOf,empty]
  | succ n ih =>
    cases m with
    | zero =>
      have empty : body = [] := List.length_eq_zero_iff.mp (by omega)
      simp [fieldsOf,empty]
    | succ m =>
      unfold fieldsOf
      have later (i : Nat) (some' : body ≠ []) : fieldsOf n (body.drop (i + 1)) = fieldsOf m (body.drop (i + 1)) := by
        have room := List.length_pos_iff.mpr some'
        exact ih (by rw [List.length_drop]; omega) (by rw [List.length_drop]; omega)
      split
      · rfl
      rename_i some'
      split
      · rfl
      split
      · rfl
      split
      · rfl
      split
      · rfl
      · rw [← Nat.add_assoc,later _ some']

namespace Cut

variable {cut : Cut} {sum : Nat}

theorem parses (framed : cut.Framed sum) : parseFrame cut.bytes =
    raise (messageOf cut.beginString cut.body (byteSum (cut.header ++ cut.body))) := by
  have size := cut.size framed.three
  have fits := framed.fits
  have take : tryTakeFrame cut.bytes cut.bytes.length = .ok (some (cut.bytes,[])) := by
    have whole : tryTakeFrame (cut.bytes ++ []) cut.bytes.length = .ok (some (cut.bytes,[])) :=
      taken framed (by omega) []
    rwa [List.append_nil] at whole
  have soh1 := firstSoh framed []
  have soh2 := secondSoh framed []
  have digits := digitsAt (ε := ParseError) cut []
  have sums := sumAt (ε := ParseError) framed.three []
  have begins : (sliceOf cut.bytes 2 (2 + cut.beginString.length) : Except (Stop ParseError) Bytes) = .ok cut.beginString :=
    sliceAt (a := ascii "8=") (c := SOH :: (ascii "9=" ++ (cut.lengthDigits ++ [SOH] ++
      (cut.body ++ (ascii "10=" ++ (cut.sumDigits ++ [SOH])))))) (by simp [bytes,header]) literalSizes.1.symm
      (by rw [literalSizes.1])
  have add : checkedAdd (2 + cut.beginString.length + 1 + 2 + cut.lengthDigits.length + 1) cut.body.length =
      .ok (headerSize cut.beginString cut.lengthDigits + cut.body.length) := by
    rw [checkedAdd,if_pos (by simp only [headerSize] at size; omega)]
    rfl
  have read : parseFields cut.bytes (headerSize cut.beginString cut.lengthDigits + cut.body.length) cut.bytes.length
      (2 + cut.beginString.length + 1 + 2 + cut.lengthDigits.length + 1) = raise (fieldsOf cut.body.length cut.body) := by
    have run := parseFieldsBody cut.bytes.length cut.header cut.body (ascii "10=" ++ (cut.sumDigits ++ [SOH]))
    rw [headerLength] at run
    exact run.trans (congrArg raise (fuelEnough (by omega) (Nat.le_refl _)))
  rw [List.append_nil] at soh1 soh2 digits sums
  unfold parseFrame messageOf
  simp only [take,bind,Except.bind,inParse]
  rw [if_neg (by simp)]
  simp only [soh1,soh2,digits,framed.bodyLength,raise,add,read]
  cases fieldsOf cut.body.length cut.body with
  | error e => rfl
  | ok fields =>
    simp only
    split
    · rfl
    · simp only [sums,framed.claimed,begins,framed.checksum]

end Cut

theorem parseFrameCases (frame : Bytes) : (∃ e, parseFrame frame = .error (.error e)) ∧
      tryTakeFrame frame frame.length ≠ .ok (some (frame,[])) ∨
    ∃ cut sum, Cut.Framed cut sum ∧ frame = cut.bytes ∧
      parseFrame frame = raise (messageOf cut.beginString cut.body (byteSum (cut.header ++ cut.body))) := by
  have ended := frameEndEnded frame frame.length
  cases found : frameEnd frame frame.length with
  | error e =>
    have take := tryTakeFails.mpr found
    rw [found] at ended
    left
    rw [parseFrame,take]
    cases e with
    | panic => exact absurd rfl ended
    | error e => exact ⟨⟨_,rfl⟩,fun same => nomatch same⟩
  | ok stop =>
    cases stop with
    | none =>
      have take : tryTakeFrame frame frame.length = .ok none := by rw [tryTakeFrame,found]; rfl
      left
      rw [parseFrame,take]
      exact ⟨⟨_,rfl⟩,fun same => nomatch same⟩
    | some stop =>
      have take : tryTakeFrame frame frame.length = .ok (some (frame.take stop,frame.drop stop)) := by
        rw [tryTakeFrame,found]
        rfl
      rw [found] at ended
      obtain ⟨cut,sum,framed,bytes,-⟩ := ended
      by_cases whole : frame.length ≤ stop
      · right
        rw [List.take_of_length_le whole] at bytes
        exact ⟨cut,sum,framed,bytes,bytes ▸ cut.parses framed⟩
      · left
        have left' : frame.drop stop ≠ [] := by
          rw [ne_eq,List.drop_eq_nil_iff]
          exact whole
        rw [parseFrame,take]
        refine ⟨⟨_,if_pos (.inl left')⟩,fun same => left' ?_⟩
        simp only [Except.ok.injEq,Option.some.injEq,Prod.mk.injEq] at same
        exact same.2

theorem scansCut {maxBodyLength : Nat} {b left : Bytes} {frames : List Bytes} {stop : Option (Stop FrameError)}
    (scan : Scans (framer maxBodyLength) b frames stop left) :
    (∀ frame ∈ frames, ∃ cut sum, Cut.Framed cut sum ∧ frame = cut.bytes) ∧ stop ≠ some .panic := by
  induction scan with
  | waits => exact ⟨by simp,by simp⟩
  | @fails b e failed =>
    refine ⟨by simp,fun same => ?_⟩
    cases same
    have ended := frameEndEnded b maxBodyLength
    rw [tryTakeFails.mp failed] at ended
    exact ended rfl
  | @takes b _ _ _ _ _ taken rest ih =>
    obtain ⟨stop,found,rfl,rfl⟩ := tryTakeSource taken
    have ended := frameEndEnded b maxBodyLength
    rw [found] at ended
    obtain ⟨cut,sum,framed,bytes,-⟩ := ended
    refine ⟨fun frame mem => ?_,ih.2⟩
    rcases List.mem_cons.mp mem with rfl | later
    · exact ⟨cut,sum,framed,bytes⟩
    · exact ih.1 frame later

theorem feedCut (decoder : FrameDecoder) (chunks : List Bytes) :
    (∀ frame ∈ (feed decoder chunks).1, ∃ cut sum, Cut.Framed cut sum ∧ frame = cut.bytes) ∧
      (feed decoder chunks).2 ≠ .error .panic := by
  induction chunks generalizing decoder with
  | nil => exact ⟨by simp [feed],by simp [feed]⟩
  | cons chunk rest ih =>
    obtain ⟨frames,stop,left,scan,run⟩ := ingestScans decoder chunk
    obtain ⟨cuts,safe⟩ := scansCut scan
    unfold feed
    rw [run]
    cases stop with
    | some e => exact ⟨by simp,fun same => safe (by cases same; rfl)⟩
    | none =>
      cases refused : leftError decoder.maxBodyLength left with
      | some e =>
        refine ⟨by simp,fun same => ?_⟩
        cases same
        unfold leftError at refused
        rcases checkedAddCases decoder.maxBodyLength 1024 with beyond | ⟨sum,-⟩
        · rw [beyond] at refused
          cases refused
        · rw [sum] at refused
          simp only at refused
          split at refused <;> cases refused
      | none =>
        obtain ⟨later,calm⟩ := ih {decoder with buffer := left}
        exact ⟨fun frame mem => (List.mem_append.mp mem).elim (cuts frame) (later frame),calm⟩

theorem raiseError {ε α : Type} {r : Except ε α} {stop : Stop ε} (bad : raise r = .error stop) :
    ∃ e, stop = .error e ∧ r = .error e := by
  cases r with
  | ok a => cases bad
  | error e => cases bad; exact ⟨e,rfl,rfl⟩

/-- No index is out of range, and the parser agrees with the framer on every frame that it
delivers: what is left to refuse is the body. -/
theorem framedParses (maxBodyLength : Nat) (chunks : List Bytes) :
    (ingestAll maxBodyLength chunks).2 ≠ .error .panic ∧
    (∀ buffer, tryTakeFrame buffer maxBodyLength ≠ .error .panic) ∧ (∀ bytes, parseFrame bytes ≠ .error .panic) ∧
    ∀ frame ∈ (ingestAll maxBodyLength chunks).1, tryTakeFrame frame frame.length = .ok (some (frame,[])) ∧
      (∃ cut : Cut, frame = cut.bytes ∧
        parseFrame frame = raise (messageOf cut.beginString cut.body (byteSum (cut.header ++ cut.body)))) ∧
      ∀ stop, parseFrame frame = .error stop → ∃ e, stop = .error e ∧ BodyError e := by
  obtain ⟨cuts,safe⟩ := feedCut (.new maxBodyLength) chunks
  refine ⟨safe,fun buffer bad => ?_,fun bytes bad => ?_,fun frame mem => ?_⟩
  · have ended := frameEndEnded buffer maxBodyLength
    rw [tryTakeFails.mp bad] at ended
    exact ended rfl
  · rcases parseFrameCases bytes with ⟨⟨e,refused⟩,-⟩ | ⟨cut,sum,-,-,parsed⟩
    · rw [refused] at bad
      cases bad
    · rw [parsed] at bad
      obtain ⟨e,same,-⟩ := raiseError bad
      cases same
  · obtain ⟨cut,sum,framed,rfl⟩ := cuts frame mem
    have parsed := cut.parses framed
    have take : tryTakeFrame (cut.bytes ++ []) cut.bytes.length = .ok (some (cut.bytes,[])) :=
      cut.taken framed (by rw [cut.size framed.three]; omega) []
    rw [List.append_nil] at take
    refine ⟨take,⟨cut,rfl,parsed⟩,fun stop bad => ?_⟩
    rw [parsed] at bad
    obtain ⟨e,same,refused⟩ := raiseError bad
    exact ⟨e,same,messageOfErrors refused⟩

end FixCli.Codec
