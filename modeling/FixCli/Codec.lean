import FixCli.Lib.Text

/-! The TagValue codec of `fix-protocol`: the encoder, the incremental framer and
the parser, with every slice bounds-checked (`Stop.panic` is an index out of
range). A `usize` is 64 bits wide. -/
namespace FixCli.Codec
open Lib

def SOH : UInt8 := 0x01
def EQ : UInt8 := 0x3D
def CHECKSUM_FIELD_LEN : Nat := 7
def usizeLimit : Nat := 2 ^ 64
def u64Limit : Nat := 2 ^ 64

inductive FrameError where
  | malformed (text : Bytes)
  | bodyTooLarge
  | bufferedDataTooLarge
  | lengthOverflow
  deriving DecidableEq, Repr

def FrameError.text : FrameError → Bytes
  | .malformed text => ascii "malformed FIX frame: " ++ text
  | .bodyTooLarge => ascii "FIX BodyLength exceeds the configured maximum"
  | .bufferedDataTooLarge => ascii "buffered FIX data exceeds the configured maximum"
  | .lengthOverflow => ascii "FIX frame length overflow"

structure Field where
  tag : UInt32
  value : Bytes
  deriving DecidableEq, Repr

inductive CodecError where
  | msgTypeMustBeFirst
  | managedField (tag : UInt32)
  | invalidTag
  | invalidBeginString
  deriving DecidableEq, Repr

def CodecError.text : CodecError → Bytes
  | .msgTypeMustBeFirst => ascii "MsgType(35) must be the first body field"
  | .managedField tag =>
      ascii "field " ++ decimal tag.toNat ++ ascii " is managed by the FIX encoder"
  | .invalidTag => ascii "field tag must be non-zero"
  | .invalidBeginString => ascii "BeginString contains a delimiter"

structure ParsedMessage where
  beginString : Bytes
  fields : List Field
  checksum : UInt8
  deriving DecidableEq, Repr

def ParsedMessage.msgType (m : ParsedMessage) : Option Bytes :=
  (m.fields.head?.filter (fun field => field.tag == 35)).map Field.value

def ParsedMessage.values (m : ParsedMessage) (tag : UInt32) : List Bytes :=
  (m.fields.filter (fun field => field.tag == tag)).map Field.value

inductive ParseError where
  | frame (error : FrameError)
  | malformed (text : Bytes)
  deriving DecidableEq, Repr

def ParseError.text : ParseError → Bytes
  | .frame error => error.text
  | .malformed text => ascii "malformed FIX message: " ++ text

inductive Stop (ε : Type) where
  | error (e : ε)
  | panic
  deriving DecidableEq, Repr

def fieldBytes (field : Field) : Bytes :=
  decimal field.tag.toNat ++ [EQ] ++ field.value ++ [SOH]

def encodeBody : List Field → Except CodecError Bytes
  | [] => .ok []
  | field :: rest =>
    if field.tag = 0 then .error .invalidTag
    else if field.tag ∈ [8, 9, 10] then .error (.managedField field.tag)
    else do
      let tail ← encodeBody rest
      .ok (fieldBytes field ++ tail)

def byteSum (bs : Bytes) : UInt8 := bs.foldl (· + ·) 0

def checksumDigits (sum : UInt8) : Bytes :=
  List.replicate (3 - (decimal sum.toNat).length) 0x30 ++ decimal sum.toNat

def frameHeader (beginString : Bytes) (bodyLength : Nat) : Bytes :=
  ascii "8=" ++ beginString ++ [SOH] ++ ascii "9=" ++ decimal bodyLength ++ [SOH]

def encodeMessage (beginString : Bytes) (fields : List Field) : Except CodecError Bytes :=
  if beginString = [] ∨ SOH ∈ beginString ∨ EQ ∈ beginString then .error .invalidBeginString
  else if fields.head?.map Field.tag ≠ some 35 then .error .msgTypeMustBeFirst
  else do
    let body ← encodeBody fields
    let wire := frameHeader beginString body.length ++ body
    .ok (wire ++ (ascii "10=" ++ checksumDigits (byteSum wire) ++ [SOH]))

def findSoh (input : Bytes) (start : Nat) : Option Nat :=
  if start ≤ input.length then
    ((input.drop start).findIdx? (· == SOH)).map (start + ·)
  else none

def parseDecimal (input : Bytes) : Except FrameError Nat :=
  if input = [] ∨ input.any (fun b => !isDigit b) then
    .error (.malformed (ascii "expected an unsigned decimal value"))
  else match readDigits usizeLimit 0 input with
    | some value => .ok value
    | none => .error .lengthOverflow

def checkedAdd (a b : Nat) : Except (Stop FrameError) Nat :=
  if a + b < usizeLimit then .ok (a + b) else .error (.error .lengthOverflow)

def sliceOf {ε : Type} (bs : Bytes) (start stop : Nat) : Except (Stop ε) Bytes :=
  match slice bs start stop with
  | some part => .ok part
  | none => .error .panic

def raise {ε α : Type} : Except ε α → Except (Stop ε) α
  | .ok a => .ok a
  | .error e => .error (.error e)

def malformedFrame {α : Type} (text : String) : Except (Stop FrameError) α :=
  .error (.error (.malformed (ascii text)))

def frameEnd (buffer : Bytes) (maxBodyLength : Nat) : Except (Stop FrameError) (Option Nat) :=
  if buffer.length < 2 then .ok none
  else if ¬ (ascii "8=").isPrefixOf buffer then malformedFrame "BeginString(8) must be first"
  else match findSoh buffer 0 with
  | none => .ok none
  | some endBeginString =>
    let bodyLengthStart := endBeginString + 1
    if buffer.length < bodyLengthStart + 2 then .ok none
    else do
      let afterBegin ← sliceOf buffer bodyLengthStart buffer.length
      if ¬ (ascii "9=").isPrefixOf afterBegin then malformedFrame "BodyLength(9) must be second"
      else match findSoh buffer bodyLengthStart with
      | none => .ok none
      | some endBodyLength => do
        let lengthDigits ← sliceOf buffer (bodyLengthStart + 2) endBodyLength
        let bodyLength ← raise (parseDecimal lengthDigits)
        if bodyLength > maxBodyLength then .error (.error .bodyTooLarge)
        else do
          let bodyStart ← checkedAdd endBodyLength 1
          let checksumStart ← checkedAdd bodyStart bodyLength
          let frameStop ← checkedAdd checksumStart CHECKSUM_FIELD_LEN
          if buffer.length < frameStop then .ok none
          else do
            let checksumField ← sliceOf buffer checksumStart frameStop
            if ¬ (ascii "10=").isPrefixOf checksumField ∨ checksumField[6]? ≠ some SOH then
              malformedFrame "CheckSum(10) is not at the BodyLength boundary"
            else do
              let claimedDigits ← sliceOf checksumField 3 6
              let claimed ← raise (parseDecimal claimedDigits)
              if claimed > 255 then malformedFrame "CheckSum(10) must fit in one byte"
              else do
                let checked ← sliceOf buffer 0 checksumStart
                if byteSum checked ≠ claimed.toUInt8 then malformedFrame "CheckSum(10) mismatch"
                else .ok (some frameStop)

def tryTakeFrame (buffer : Bytes) (maxBodyLength : Nat) :
    Except (Stop FrameError) (Option (Bytes × Bytes)) := do
  match ← frameEnd buffer maxBodyLength with
  | none => .ok none
  | some stop => .ok (some (buffer.take stop, buffer.drop stop))

def malformedMessage {α : Type} (text : String) : Except (Stop ParseError) α :=
  .error (.error (.malformed (ascii text)))

def inParse {α : Type} : Except (Stop FrameError) α → Except (Stop ParseError) α
  | .ok a => .ok a
  | .error (.error e) => .error (.error (.frame e))
  | .error .panic => .error .panic

/-- The field loop; `fuel` bounds its turns, and the length of the frame is enough
because every turn moves the cursor past a SOH. -/
def parseFields (frame : Bytes) (checksumStart : Nat) :
    Nat → Nat → Except (Stop ParseError) (List Field)
  | 0, _ => .ok []
  | fuel + 1, cursor =>
    if cursor < checksumStart then do
      let rest ← sliceOf frame cursor checksumStart
      match rest.findIdx? (· == EQ) with
      | none => malformedMessage "field is missing '='"
      | some equalsOffset => do
        let equals := cursor + equalsOffset
        let tagDigits ← sliceOf frame cursor equals
        let tagValue ← inParse (raise (parseDecimal tagDigits))
        if 2 ^ 32 ≤ tagValue then malformedMessage "field tag exceeds u32"
        else
          let valueStart := equals + 1
          -- the SOH has to stand ahead of the checksum field
          match (findSoh frame valueStart).filter (fun stop => decide (stop < checksumStart)) with
          | none => malformedMessage "field is missing SOH delimiter"
          | some valueEnd => do
            let value ← sliceOf frame valueStart valueEnd
            let tail ← parseFields frame checksumStart fuel (valueEnd + 1)
            .ok (⟨tagValue.toUInt32,value⟩ :: tail)
    else .ok []

def parseFrame (frame : Bytes) : Except (Stop ParseError) ParsedMessage := do
  match ← inParse (tryTakeFrame frame frame.length) with
  | none => malformedMessage "incomplete frame"
  | some (extracted,checked) =>
    if checked ≠ [] ∨ extracted.length ≠ frame.length then
      malformedMessage "input contains more than one frame"
    else match findSoh frame 0 with
    | none => malformedMessage "missing BeginString delimiter"
    | some endBeginString =>
      let bodyLengthStart := endBeginString + 1
      match findSoh frame bodyLengthStart with
      | none => malformedMessage "missing BodyLength delimiter"
      | some endBodyLength => do
        let lengthDigits ← sliceOf frame (bodyLengthStart + 2) endBodyLength
        let bodyLength ← inParse (raise (parseDecimal lengthDigits))
        let bodyStart := endBodyLength + 1
        let checksumStart ← inParse (checkedAdd bodyStart bodyLength)
        let fields ← parseFields frame checksumStart frame.length bodyStart
        if fields.head?.map Field.tag ≠ some 35 then malformedMessage "MsgType(35) must be third"
        else do
          let checksumValue ← sliceOf frame (checksumStart + 3) (checksumStart + 6)
          let checksum ← inParse (raise (parseDecimal checksumValue))
          let beginString ← sliceOf frame 2 endBeginString
          .ok ⟨beginString,fields,checksum.toUInt8⟩

structure FrameDecoder where
  buffer : Bytes
  maxBodyLength : Nat
  deriving DecidableEq, Repr

def takeFrames (maxBodyLength : Nat) : Nat → Bytes → Except (Stop FrameError) (List Bytes × Bytes)
  | 0, buffer => .ok ([],buffer)
  | fuel + 1, buffer => do
    match ← tryTakeFrame buffer maxBodyLength with
    | none => .ok ([],buffer)
    | some (frame,rest) => do
      let (frames,left) ← takeFrames maxBodyLength fuel rest
      .ok (frame :: frames,left)

def ingest (decoder : FrameDecoder) (chunk : Bytes) :
    Except (Stop FrameError) (List Bytes × FrameDecoder) := do
  let buffered := decoder.buffer ++ chunk
  let (frames,left) ← takeFrames decoder.maxBodyLength (buffered.length + 1) buffered
  let maxBufferLength ← checkedAdd decoder.maxBodyLength 1024
  if left.length > maxBufferLength then .error (.error .bufferedDataTooLarge)
  else .ok (frames,{decoder with buffer := left})

end FixCli.Codec
