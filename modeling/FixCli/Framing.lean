import FixCli.Codec
import FixCli.Lib.Scanner

/-! The framer over a stream that arrives in chunks. What `frameEnd` decides stands
when more bytes arrive, so the extraction loop is a scanner and `ingest` feeds it. -/
namespace FixCli.Codec
open Lib

section

variable {b more p : Bytes} {i start stop : Nat}

theorem prefixStable (long : p.length ≤ b.length) : p.isPrefixOf (b ++ more) = p.isPrefixOf b := by
  rw [Bool.eq_iff_iff,List.isPrefixOf_iff_prefix,List.isPrefixOf_iff_prefix]
  exact ⟨fun front => List.prefix_of_prefix_length_le front (List.prefix_append _ _) long,
    fun front => front.trans (List.prefix_append _ _)⟩

theorem findSohStable (found : findSoh b start = some i) : findSoh (b ++ more) start = some i := by
  unfold findSoh at found ⊢
  by_cases inside : start ≤ b.length
  · rw [if_pos inside] at found
    rw [if_pos (by rw [List.length_append]; omega),List.drop_append_of_le_length inside]
    obtain ⟨k,at_k,rfl⟩ := Option.map_eq_some_iff.mp found
    rw [List.findIdx?_append,at_k]
    rfl
  · rw [if_neg inside] at found
    cases found

theorem findSohInside (found : findSoh b start = some i) : start ≤ i ∧ i < b.length := by
  unfold findSoh at found
  split at found
  · obtain ⟨k,at_k,rfl⟩ := Option.map_eq_some_iff.mp found
    have inside := (List.findIdx?_eq_some_iff_findIdx_eq.mp at_k).1
    rw [List.length_drop] at inside
    omega
  · cases found

theorem sliceStable {ε : Type} (inside : stop ≤ b.length) :
    (sliceOf (b ++ more) start stop : Except (Stop ε) Bytes) = sliceOf b start stop := by
  have longer : stop ≤ (b ++ more).length := by rw [List.length_append]; omega
  simp only [sliceOf,slice,inside,longer,and_true,List.take_append_of_le_length inside]

theorem sliceRest {ε : Type} (inside : start ≤ b.length) :
    (sliceOf b start b.length : Except (Stop ε) Bytes) = .ok (b.drop start) := by
  simp only [sliceOf,slice,inside,Nat.le_refl,and_self,if_true,List.take_length]

def frameSize (buffer : Bytes) (maxBodyLength : Nat) : Except (Stop FrameError) (Option (Nat × Nat)) :=
  if buffer.length < 2 then .ok none
  else if ¬ (ascii "8=").isPrefixOf buffer then malformedFrame "BeginString(8) must be first"
  else match findSoh buffer 0 with
  | none => .ok none
  | some endBeginString =>
    let bodyLengthStart := endBeginString + 1
    if buffer.length < bodyLengthStart + 2 then .ok none
    else do
      let afterBegin ← sliceOf buffer bodyLengthStart buffer.length
      if ¬ (ascii "9=").isPrefixOf afterBegin then malformedFrame "BodyLength(9) must be second"
      else match findSoh buffer bodyLengthStart with
      | none => .ok none
      | some endBodyLength => do
        let lengthDigits ← sliceOf buffer (bodyLengthStart + 2) endBodyLength
        let bodyLength ← raise (parseDecimal lengthDigits)
        if bodyLength > maxBodyLength then .error (.error .bodyTooLarge)
        else do
          let bodyStart ← checkedAdd endBodyLength 1
          let checksumStart ← checkedAdd bodyStart bodyLength
          let frameStop ← checkedAdd checksumStart CHECKSUM_FIELD_LEN
          .ok (some (checksumStart,frameStop))

def checkTrailer (buffer : Bytes) (checksumStart frameStop : Nat) : Except (Stop FrameError) (Option Nat) := do
  let checksumField ← sliceOf buffer checksumStart frameStop
  if ¬ (ascii "10=").isPrefixOf checksumField ∨ checksumField[6]? ≠ some SOH then
    malformedFrame "CheckSum(10) is not at the BodyLength boundary"
  else do
    let claimedDigits ← sliceOf checksumField 3 6
    let claimed ← raise (parseDecimal claimedDigits)
    if claimed > 255 then malformedFrame "CheckSum(10) must fit in one byte"
    else do
      let checked ← sliceOf buffer 0 checksumStart
      if byteSum checked ≠ claimed.toUInt8 then malformedFrame "CheckSum(10) mismatch"
      else .ok (some frameStop)

theorem frameEndParts (buffer : Bytes) (maxBodyLength : Nat) : frameEnd buffer maxBodyLength =
    (frameSize buffer maxBodyLength).bind fun size => match size with
      | none => .ok none
      | some (checksumStart,frameStop) =>
        if buffer.length < frameStop then .ok none else checkTrailer buffer checksumStart frameStop := by
  unfold frameEnd frameSize checkTrailer
  simp only [bind,Except.bind]
  by_cases short : buffer.length < 2
  · simp only [if_pos short]
  simp only [if_neg short]
  by_cases begins : ¬ (ascii "8=").isPrefixOf buffer = true
  · simp only [if_pos begins,malformedFrame]
  simp only [if_neg begins]
  cases findSoh buffer 0 with
  | none => rfl
  | some endBegin =>
  by_cases header : buffer.length < endBegin + 1 + 2
  · simp only [if_pos header]
  simp only [if_neg header]
  cases (sliceOf buffer (endBegin + 1) buffer.length : Except (Stop FrameError) Bytes) with
  | error _ => rfl
  | ok afterBegin =>
  by_cases second : ¬ (ascii "9=").isPrefixOf afterBegin = true
  · simp only [if_pos second,malformedFrame]
  simp only [if_neg second]
  cases findSoh buffer (endBegin + 1) with
  | none => rfl
  | some endLength =>
  simp only
  cases (sliceOf buffer (endBegin + 1 + 2) endLength : Except (Stop FrameError) Bytes) with
  | error _ => rfl
  | ok digits =>
  simp only
  cases (raise (parseDecimal digits) : Except (Stop FrameError) Nat) with
  | error _ => rfl
  | ok bodyLength =>
  simp only
  by_cases large : bodyLength > maxBodyLength
  · simp only [if_pos large]
  simp only [if_neg large]
  cases checkedAdd endLength 1 with
  | error _ => rfl
  | ok bodyStart =>
  simp only
  cases checkedAdd bodyStart bodyLength with
  | error _ => rfl
  | ok checksumStart =>
  simp only
  cases checkedAdd checksumStart CHECKSUM_FIELD_LEN <;> rfl

theorem frameSizeStable (maxBodyLength : Nat) (decided : frameSize b maxBodyLength ≠ .ok none) (more : Bytes) :
    frameSize (b ++ more) maxBodyLength = frameSize b maxBodyLength := by
  have longer : (b ++ more).length = b.length + more.length := List.length_append
  unfold frameSize at decided ⊢
  by_cases short : b.length < 2
  · exact absurd (if_pos short) decided
  rw [if_neg short] at decided ⊢
  rw [if_neg (show ¬ (b ++ more).length < 2 by omega),prefixStable (show (ascii "8=").length ≤ b.length by
    rw [show (ascii "8=").length = 2 by decide]; omega)]
  by_cases begins : (ascii "8=").isPrefixOf b = true
  swap
  · rw [if_pos begins,if_pos begins]
  rw [if_neg (not_not.mpr begins)] at decided ⊢
  rw [if_neg (not_not.mpr begins)]
  cases first : findSoh b 0 with
  | none => exact absurd (by rw [first]) decided
  | some endBegin =>
  simp only [first,findSohStable first] at decided ⊢
  by_cases header : b.length < endBegin + 1 + 2
  · exact absurd (if_pos header) decided
  rw [if_neg header] at decided ⊢
  have inside : endBegin + 1 ≤ b.length := by omega
  rw [if_neg (show ¬ (b ++ more).length < endBegin + 1 + 2 by omega),sliceRest inside,
    sliceRest (show endBegin + 1 ≤ (b ++ more).length by omega),List.drop_append_of_le_length inside]
  rw [sliceRest inside] at decided
  simp only [bind,Except.bind] at decided ⊢
  rw [prefixStable (show (ascii "9=").length ≤ (b.drop (endBegin + 1)).length by
    rw [show (ascii "9=").length = 2 by decide,List.length_drop]; omega)]
  by_cases second : (ascii "9=").isPrefixOf (b.drop (endBegin + 1)) = true
  swap
  · rw [if_pos second,if_pos second]
  rw [if_neg (not_not.mpr second)] at decided ⊢
  rw [if_neg (not_not.mpr second)]
  cases third : findSoh b (endBegin + 1) with
  | none => exact absurd (by rw [third]) decided
  | some endLength =>
  have lengthInside := (findSohInside third).2
  simp only [findSohStable third,sliceStable (show endLength ≤ b.length by omega)]

theorem checkTrailerStable {checksumStart frameStop : Nat} (inside : frameStop ≤ b.length)
    (before : checksumStart ≤ frameStop) (more : Bytes) :
    checkTrailer (b ++ more) checksumStart frameStop = checkTrailer b checksumStart frameStop := by
  simp only [checkTrailer,sliceStable inside,sliceStable (show checksumStart ≤ b.length by omega)]

theorem checkTrailerStop {checksumStart frameStop : Nat} {stop : Option Nat}
    (ok : checkTrailer b checksumStart frameStop = .ok stop) : stop = some frameStop := by
  unfold checkTrailer at ok
  simp only [bind,Except.bind] at ok
  repeat' split at ok
  all_goals first | (cases ok; done) | skip
  cases ok
  rfl

theorem checkedAddSum {a c n : Nat} (ok : checkedAdd a c = .ok n) : n = a + c := by
  unfold checkedAdd at ok
  split at ok
  · cases ok; rfl
  · cases ok

theorem frameSizeBounds {maxBodyLength checksumStart frameStop : Nat}
    (ok : frameSize b maxBodyLength = .ok (some (checksumStart,frameStop))) :
    frameStop = checksumStart + CHECKSUM_FIELD_LEN := by
  unfold frameSize at ok
  simp only [bind,Except.bind] at ok
  repeat' split at ok
  all_goals first | (cases ok; done) | skip
  rename_i sum
  cases ok
  exact checkedAddSum sum

theorem frameEndStable (maxBodyLength : Nat) (decided : frameEnd b maxBodyLength ≠ .ok none) (more : Bytes) :
    frameEnd (b ++ more) maxBodyLength = frameEnd b maxBodyLength := by
  rw [frameEndParts] at decided ⊢
  rw [frameEndParts b]
  have sized : frameSize b maxBodyLength ≠ .ok none := fun waits => decided (by rw [waits]; rfl)
  rw [frameSizeStable maxBodyLength sized more]
  cases size : frameSize b maxBodyLength with
  | error e => rfl
  | ok found =>
    cases found with
    | none => exact absurd size sized
    | some parts =>
      obtain ⟨checksumStart,frameStop⟩ := parts
      have bounds := frameSizeBounds size
      simp only [size,Except.bind] at decided ⊢
      by_cases waits : b.length < frameStop
      · exact absurd (if_pos waits) decided
      · have longer : (b ++ more).length = b.length + more.length := List.length_append
        rw [if_neg waits,if_neg (show ¬ (b ++ more).length < frameStop by omega),
          checkTrailerStable (by omega) (by omega)]

theorem frameEndBounds {maxBodyLength : Nat} (ok : frameEnd b maxBodyLength = .ok (some stop)) :
    0 < stop ∧ stop ≤ b.length := by
  rw [frameEndParts] at ok
  cases size : frameSize b maxBodyLength with
  | error e => rw [size] at ok; cases ok
  | ok found =>
    cases found with
    | none => rw [size] at ok; cases ok
    | some parts =>
      obtain ⟨checksumStart,frameStop⟩ := parts
      have bounds : frameStop = checksumStart + 7 := frameSizeBounds size
      simp only [size,Except.bind] at ok
      by_cases waits : b.length < frameStop
      · rw [if_pos waits] at ok
        cases ok
      · rw [if_neg waits] at ok
        cases checkTrailerStop ok
        omega

theorem tryTakeSource {maxBodyLength : Nat} {frame rest : Bytes}
    (ok : tryTakeFrame b maxBodyLength = .ok (some (frame,rest))) :
    ∃ stop, frameEnd b maxBodyLength = .ok (some stop) ∧ frame = b.take stop ∧ rest = b.drop stop := by
  unfold tryTakeFrame at ok
  cases found : frameEnd b maxBodyLength with
  | error e => simp only [found,bind,Except.bind] at ok; cases ok
  | ok end? =>
    cases end? with
    | none => simp only [found,bind,Except.bind] at ok; cases ok
    | some stop =>
      simp only [found,bind,Except.bind] at ok
      cases ok
      exact ⟨stop,rfl,rfl,rfl⟩

theorem tryTakeFails {maxBodyLength : Nat} {e : Stop FrameError} :
    tryTakeFrame b maxBodyLength = .error e ↔ frameEnd b maxBodyLength = .error e := by
  unfold tryTakeFrame
  cases frameEnd b maxBodyLength with
  | error e => simp only [bind,Except.bind,Except.error.injEq]
  | ok found => cases found <;> simp [bind,Except.bind]

def framer (maxBodyLength : Nat) : Scanner Bytes UInt8 (Stop FrameError) where
  take buffer := tryTakeFrame buffer maxBodyLength
  takes {b frame rest} ok more := by
    obtain ⟨stop,found,rfl,rfl⟩ := tryTakeSource ok
    have stable := frameEndStable maxBodyLength (by rw [found]; simp) more
    rw [tryTakeFrame,stable,found]
    have inside := (frameEndBounds found).2
    simp only [bind,Except.bind,List.take_append_of_le_length inside,List.drop_append_of_le_length inside]
  fails {b e} failed more := by
    rw [tryTakeFails] at failed ⊢
    rw [frameEndStable maxBodyLength (by rw [failed]; simp) more,failed]
  shrinks {b frame rest} ok := by
    obtain ⟨stop,found,rfl,rfl⟩ := tryTakeSource ok
    have bounds := frameEndBounds found
    rw [List.length_drop]
    omega

end

def leftError (maxBodyLength : Nat) (left : Bytes) : Option (Stop FrameError) :=
  match checkedAdd maxBodyLength 1024 with
  | .error e => some e
  | .ok bound => if left.length > bound then some (.error .bufferedDataTooLarge) else none

theorem takeFramesScans (maxBodyLength : Nat) {fuel : Nat} (b : Bytes) (enough : b.length < fuel) :
    ∃ frames stop left, Scans (framer maxBodyLength) b frames stop left ∧
      takeFrames maxBodyLength fuel b = match stop with
        | none => .ok (frames,left)
        | some e => .error e := by
  induction fuel generalizing b with
  | zero => omega
  | succ fuel ih =>
    unfold takeFrames
    cases here : tryTakeFrame b maxBodyLength with
    | error e => exact ⟨[],some e,b,.fails here,rfl⟩
    | ok item =>
      cases item with
      | none => exact ⟨[],none,b,.waits here,rfl⟩
      | some item =>
        obtain ⟨frame,rest⟩ := item
        have shorter := (framer maxBodyLength).shrinks here
        obtain ⟨frames,stop,left,scan,run⟩ := ih rest (by omega)
        refine ⟨frame :: frames,stop,left,.takes here scan,?_⟩
        simp only [bind,Except.bind,run]
        cases stop <;> rfl

theorem ingestScans (decoder : FrameDecoder) (chunk : Bytes) :
    ∃ frames stop left, Scans (framer decoder.maxBodyLength) (decoder.buffer ++ chunk) frames stop left ∧
      ingest decoder chunk = match stop with
        | some e => .error e
        | none => match leftError decoder.maxBodyLength left with
          | some e => .error e
          | none => .ok (frames,{decoder with buffer := left}) := by
  obtain ⟨frames,stop,left,scan,run⟩ := takeFramesScans decoder.maxBodyLength (decoder.buffer ++ chunk)
    (Nat.lt_succ_self _)
  refine ⟨frames,stop,left,scan,?_⟩
  simp only [ingest,run,bind,Except.bind]
  unfold leftError
  cases stop with
  | some e => rfl
  | none =>
    cases checkedAdd decoder.maxBodyLength 1024 with
    | error e => rfl
    | ok bound =>
      by_cases large : left.length > bound
      · simp only [if_pos large]
      · simp only [if_neg large]

def feed (decoder : FrameDecoder) : List Bytes → List Bytes × Except (Stop FrameError) FrameDecoder
  | [] => ([],.ok decoder)
  | chunk :: rest => match ingest decoder chunk with
    | .error e => ([],.error e)
    | .ok (frames,after) => (frames ++ (feed after rest).1,(feed after rest).2)

theorem feedFeeds (decoder : FrameDecoder) (chunks : List Bytes) :
    Feeds (framer decoder.maxBodyLength) (leftError decoder.maxBodyLength) decoder.buffer chunks
      (feed decoder chunks).1 ((feed decoder chunks).2.map FrameDecoder.buffer) ∧
    ∀ after, (feed decoder chunks).2 = .ok after → after.maxBodyLength = decoder.maxBodyLength := by
  induction chunks generalizing decoder with
  | nil => exact ⟨.done decoder.buffer,fun after ok => by cases ok; rfl⟩
  | cons chunk rest ih =>
    obtain ⟨frames,stop,left,scan,run⟩ := ingestScans decoder chunk
    unfold feed
    rw [run]
    cases stop with
    | some e => exact ⟨.scanFails scan,fun after ok => by cases ok⟩
    | none =>
      cases refused : leftError decoder.maxBodyLength left with
      | some e => exact ⟨.checkFails scan refused,fun after ok => by cases ok⟩
      | none =>
        obtain ⟨feeds,kept⟩ := ih {decoder with buffer := left}
        exact ⟨.next scan refused feeds,kept⟩

theorem leftErrorBound {maxBodyLength : Nat} (fits : maxBodyLength + 1024 < usizeLimit) {left : Bytes}
    {e : Stop FrameError} (refused : leftError maxBodyLength left = some e) :
    e = .error .bufferedDataTooLarge := by
  unfold leftError checkedAdd at refused
  rw [if_pos fits] at refused
  by_cases large : left.length > maxBodyLength + 1024
  · simp only [if_pos large] at refused
    exact (Option.some.inj refused).symm
  · simp only [if_neg large] at refused
    cases refused

theorem leftErrorNone {maxBodyLength : Nat} (fits : maxBodyLength + 1024 < usizeLimit) {left : Bytes}
    (short : left.length ≤ maxBodyLength + 1024) : leftError maxBodyLength left = none := by
  unfold leftError checkedAdd
  rw [if_pos fits]
  simp only [if_neg (show ¬ left.length > maxBodyLength + 1024 by omega)]

def FrameDecoder.new (maxBodyLength : Nat) : FrameDecoder := ⟨[],maxBodyLength⟩

theorem newWaits (maxBodyLength : Nat) :
    (framer maxBodyLength).take (FrameDecoder.new maxBodyLength).buffer = .ok none := rfl

def ingestAll (maxBodyLength : Nat) (chunks : List Bytes) : List Bytes × Except (Stop FrameError) FrameDecoder :=
  feed (.new maxBodyLength) chunks

theorem mapError {ε α γ : Type} {f : α → γ} {r : Except ε α} {e : ε} : r.map f = .error e ↔ r = .error e := by
  cases r <;> simp [Except.map]

/-- Two ways to cut one stream give the same frames and decoder where neither fails, the
same error where neither runs into the buffer bound, and at worst a part of each
other's frames: what a failing call took out before it failed is lost with it. -/
theorem framingAcrossCuts (maxBodyLength : Nat) (xs ys : List Bytes) (same : xs.flatten = ys.flatten) :
    ((ingestAll maxBodyLength xs).1 <+: (ingestAll maxBodyLength ys).1 ∨
      (ingestAll maxBodyLength ys).1 <+: (ingestAll maxBodyLength xs).1) ∧
    (∀ after after', (ingestAll maxBodyLength xs).2 = .ok after → (ingestAll maxBodyLength ys).2 = .ok after' →
      ingestAll maxBodyLength xs = ingestAll maxBodyLength ys) ∧
    (maxBodyLength + 1024 < usizeLimit →
      (ingestAll maxBodyLength xs).2 ≠ .error (.error .bufferedDataTooLarge) →
      (ingestAll maxBodyLength ys).2 ≠ .error (.error .bufferedDataTooLarge) →
      ∀ e, (ingestAll maxBodyLength xs).2 = .error e ↔ (ingestAll maxBodyLength ys).2 = .error e) := by
  unfold ingestAll
  obtain ⟨one,keptOne⟩ := feedFeeds (.new maxBodyLength) xs
  obtain ⟨other,keptOther⟩ := feedFeeds (.new maxBodyLength) ys
  obtain ⟨comparable,complete,alike⟩ := feedsAgree (newWaits maxBodyLength) same one other
  refine ⟨comparable,fun after after' ok ok' => ?_,fun fits within within' e => ?_⟩
  · obtain ⟨frames,buffers⟩ := complete after.buffer after'.buffer (by rw [ok]; rfl) (by rw [ok']; rfl)
    have limits := (keptOne after ok).trans (keptOther after' ok').symm
    have decoders : after = after' := by
      cases after
      cases after'
      rw [FrameDecoder.mk.injEq]
      exact ⟨buffers,limits⟩
    exact Prod.ext frames (ok.trans (decoders ▸ ok'.symm))
  · rw [← mapError (f := FrameDecoder.buffer),← mapError (f := FrameDecoder.buffer) (r := (feed _ ys).2)]
    refine alike (fun waits e' refused => ?_) e
    rw [leftErrorBound fits refused]
    exact ⟨fun failed => within (mapError.mp failed),fun failed => within' (mapError.mp failed)⟩

def heartbeatFrame : Bytes :=
  ascii "8=FIX.4.2" ++ [SOH] ++ ascii "9=5" ++ [SOH] ++ ascii "35=0" ++ [SOH] ++ ascii "10=161" ++ [SOH]

theorem framingAcrossCutsHeartbeat :
    (ingestAll 32 [heartbeatFrame ++ ascii "8=",ascii "x" ++ [SOH] ++ ascii "7="]).2 =
        .error (.error (.malformed (ascii "BodyLength(9) must be second"))) ↔
      (ingestAll 32 [heartbeatFrame,ascii "8=x" ++ [SOH] ++ ascii "7="]).2 =
        .error (.error (.malformed (ascii "BodyLength(9) must be second"))) :=
  (framingAcrossCuts 32 [heartbeatFrame ++ ascii "8=",ascii "x" ++ [SOH] ++ ascii "7="]
    [heartbeatFrame,ascii "8=x" ++ [SOH] ++ ascii "7="] (by decide +kernel)).2.2
      (by decide) (by decide +kernel) (by decide +kernel) _

theorem framingLosesFrame : ¬ ∀ maxBodyLength (xs ys : List Bytes), xs.flatten = ys.flatten →
    (ingestAll maxBodyLength xs).1 = (ingestAll maxBodyLength ys).1 ∧
      ∀ e, (ingestAll maxBodyLength xs).2 = .error e ↔ (ingestAll maxBodyLength ys).2 = .error e := by
  intro agree
  have frames := (agree 32 [heartbeatFrame ++ ascii "xx"] [heartbeatFrame,ascii "xx"] (by decide +kernel)).1
  exact absurd frames (by decide +kernel)

end FixCli.Codec
