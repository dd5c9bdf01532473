import FixCli.SessionRun

/-! The mock acceptor of `fix-mock`: one session over a stream, answering each message
as it is taken, with a heartbeat whenever it has been silent for an interval. Like the
actor it consumes one tick of its environment for every reading of a clock and every
write. -/
namespace FixCli.Mock
open Lib Codec Session

structure MockConfig where
  beginString : Bytes
  senderCompId : Bytes
  targetCompId : Bytes
  heartbeatIntervalSecs : Nat
  deriving DecidableEq, Repr

inductive MockError where
  | frame (text : Bytes)
  | parse (text : Bytes)
  | encode (text : Bytes)
  | protocol (text : Bytes)
  | transport (text : Bytes)
  deriving DecidableEq, Repr

def MockError.text : MockError → Bytes
  | .frame text => ascii "FIX framing failed: " ++ text
  | .parse text => ascii "FIX parsing failed: " ++ text
  | .encode text => ascii "FIX encoding failed: " ++ text
  | .protocol text => ascii "FIX protocol violation: " ++ text
  | .transport text => ascii "transport failed: " ++ text

structure MockEnv where
  sendingTime : Nat → Bytes
  instant : Nat → Nat
  ioFault : Nat → Option Bytes

structure MockState where
  decoder : FrameDecoder
  nextIn : Nat
  nextOut : Nat
  nextExecutionId : Nat
  established : Bool
  lastOutbound : Nat
  tick : Nat
  written : List Bytes
  log : List LogRecord

inductive Ending where
  | returned
  | failed (error : MockError)
  | panicked
  deriving DecidableEq, Repr

abbrev MockAct (α : Type) := Prog MockState Ending α

def mockFailed {α : Type} (error : MockError) : MockAct α := Prog.stop (.failed error)

def mockResult {α : Type} : Except MockError α → Except Ending α
  | .ok a => .ok a
  | .error error => .error (.failed error)

def note (record : LogRecord) : MockAct Unit := Prog.change fun s => {s with log := record :: s.log}

def mockSendingTime (env : MockEnv) : MockAct Bytes := fun s => (.ok (env.sendingTime s.tick),{s with tick := s.tick + 1})

def mockNow (env : MockEnv) : MockAct Nat := fun s => (.ok (env.instant s.tick),{s with tick := s.tick + 1})

def addOne (n : Nat) (text : String) : Except MockError Nat :=
  if n + 1 < u64Limit then .ok (n + 1) else .error (.protocol (ascii text))

def required (message : ParsedMessage) (tag : UInt32) : Except MockError Bytes :=
  match (message.values tag).head? with
  | some value => .ok value
  | none => .error (.protocol (ascii "required tag " ++ decimal tag.toNat ++ ascii " is missing"))

def parseNumber (value : Bytes) (tag : UInt32) : Except MockError Nat :=
  if !isUtf8 value then .error (.protocol (ascii "tag " ++ decimal tag.toNat ++ ascii " is not ASCII"))
  else match parseU64 value with
    | some n => .ok n
    | none => .error (.protocol (ascii "tag " ++ decimal tag.toNat ++ ascii " is not an unsigned integer"))

def validateEnvelope (k : MockConfig) (message : ParsedMessage) (expectedSequence : Nat) : Except MockError Unit :=
  if message.beginString ≠ k.beginString then .error (.protocol (ascii "BeginString mismatch"))
  else do
    let sender ← required message 49
    if sender ≠ k.targetCompId then .error (.protocol (ascii "SenderCompID mismatch"))
    else do
      let target ← required message 56
      if target ≠ k.senderCompId then .error (.protocol (ascii "TargetCompID mismatch"))
      else do
        let value ← required message 34
        let sequence ← parseNumber value 34
        if sequence ≠ expectedSequence then
          .error (.protocol (ascii "expected MsgSeqNum " ++ decimal expectedSequence ++ ascii ", got " ++ decimal sequence))
        else .ok ()

def mockHeader (k : MockConfig) (time : Bytes) (sequence : Nat) (msgType : String) : List Field :=
  [⟨35,ascii msgType⟩,⟨49,k.senderCompId⟩,⟨56,k.targetCompId⟩,⟨34,decimal sequence⟩,⟨52,time⟩]

def logonFields (k : MockConfig) (time : Bytes) (sequence : Nat) : List Field :=
  mockHeader k time sequence "A" ++ [⟨98,ascii "0"⟩,⟨108,decimal k.heartbeatIntervalSecs⟩]

def heartbeatFields (k : MockConfig) (time : Bytes) (sequence : Nat) (testRequestId : Option Bytes) : List Field :=
  mockHeader k time sequence "0" ++ (testRequestId.map fun id => (⟨112,id⟩ : Field)).toList

def logoutFields (k : MockConfig) (time : Bytes) (sequence : Nat) : List Field := mockHeader k time sequence "5"

def orderOutcome (requestType orderQty : Bytes) : Except MockError (Bytes × Bytes × Bytes) :=
  if requestType = ascii "D" then .ok (ascii "0",ascii "0",orderQty)
  else if requestType = ascii "F" then .ok (ascii "4",ascii "4",ascii "0")
  else if requestType = ascii "G" then .ok (ascii "5",ascii "0",orderQty)
  else .error (.protocol (ascii "execution report requested for non-order message"))

def copied (request : ParsedMessage) (tag : UInt32) : List Field :=
  (request.values tag).head?.toList.map fun value => ⟨tag,value⟩

def executionReportFields (k : MockConfig) (env : MockEnv) (sequence executionId : Nat) (request : ParsedMessage) :
    MockAct (List Field) := do
  let requestType ← Prog.ofExcept (mockResult (required request 35))
  let clOrdId ← Prog.ofExcept (mockResult (required request 11))
  let (execType,orderStatus,leavesQty) ← Prog.ofExcept (mockResult
    (orderOutcome requestType ((request.values 38).head?.getD (ascii "0"))))
  let time ← mockSendingTime env
  pure (mockHeader k time sequence "8" ++
    [⟨37,ascii "MOCK-ORDER-" ++ decimal executionId⟩,⟨11,clOrdId⟩] ++ copied request 41 ++
    [⟨17,ascii "MOCK-EXEC-" ++ decimal executionId⟩,⟨39,orderStatus⟩,⟨150,execType⟩] ++ copied request 55 ++
    copied request 54 ++ [⟨151,leavesQty⟩,⟨14,ascii "0"⟩])

/-- `encode_message`, `write_all` and `flush`; a write that fails hands nothing over. -/
def writeMessage (k : MockConfig) (env : MockEnv) (fields : List Field) : MockAct Unit := do
  let wire ← Prog.ofExcept (mockResult (match encodeMessage k.beginString fields with
    | .ok wire => .ok wire
    | .error error => .error (.encode error.text)))
  -- logged ahead of the write
  note (.outgoing wire)
  let s ← Prog.state
  match env.ioFault s.tick with
  | some text => do
    Prog.change fun s => {s with tick := s.tick + 1}
    mockFailed (.transport text)
  | none => Prog.change fun s => {s with written := wire :: s.written, tick := s.tick + 1}

def countOutbound (env : MockEnv) : MockAct Unit := do
  let s ← Prog.state
  let nextOut ← Prog.ofExcept (mockResult (addOne s.nextOut "outbound sequence overflow"))
  let at' ← mockNow env
  Prog.change fun s => {s with nextOut := nextOut, lastOutbound := at'}

def answerOf (k : MockConfig) (env : MockEnv) (message : ParsedMessage) (msgType : Bytes) :
    MockAct (Option (List Field)) := do
  let s ← Prog.state
  if msgType = ascii "A" then do
    note (.info (ascii "Received logon request"))
    note (.info (ascii "Responding to logon request"))
    Prog.change fun s => {s with established := true}
    let time ← mockSendingTime env
    pure (some (logonFields k time s.nextOut ++
      (if (message.values 141).head? = some (ascii "Y") then [⟨141,ascii "Y"⟩] else [])))
  else if msgType = ascii "0" then pure none
  else if msgType = ascii "1" then do
    let time ← mockSendingTime env
    pure (some (heartbeatFields k time s.nextOut (message.values 112).head?))
  else if msgType = ascii "D" ∨ msgType = ascii "F" ∨ msgType = ascii "G" then do
    let fields ← executionReportFields k env s.nextOut s.nextExecutionId message
    let next ← Prog.ofExcept (mockResult (addOne s.nextExecutionId "execution identifier overflow"))
    Prog.change fun s => {s with nextExecutionId := next}
    pure (some fields)
  else if msgType = ascii "5" then do
    note (.info (ascii "Received logout request"))
    note (.info (ascii "Sending logout response"))
    let time ← mockSendingTime env
    writeMessage k env (logoutFields k time s.nextOut)
    Prog.stop .returned
  else do
    let error : MockError := .protocol (ascii "unsupported MsgType " ++ utf8Lossy msgType)
    note (.error error.text)
    mockFailed error

def parsedResult : Except (Stop ParseError) ParsedMessage → Except Ending ParsedMessage
  | .ok message => .ok message
  | .error (.error error) => .error (.failed (.parse error.text))
  | .error .panic => .error .panicked

def mockHandle (k : MockConfig) (env : MockEnv) (frame : Bytes) : MockAct Unit := do
  note (.incoming frame)
  let message ← Prog.ofExcept (parsedResult (parseFrame frame))
  let s ← Prog.state
  match validateEnvelope k message s.nextIn with
  | .error error => do
    note (.info (ascii "rejecting message: " ++ error.text))
    mockFailed error
  | .ok () => do
    let nextIn ← Prog.ofExcept (mockResult (addOne s.nextIn "inbound sequence overflow"))
    Prog.change fun s => {s with nextIn := nextIn}
    let msgType ← Prog.ofExcept (mockResult (required message 35))
    match ← answerOf k env message msgType with
    | some fields => do
      writeMessage k env fields
      countOutbound env
    | none => pure ()

def framesResult : Except (Stop FrameError) (List Bytes × FrameDecoder) → Except Ending (List Bytes × FrameDecoder)
  | .ok frames => .ok frames
  | .error (.error error) => .error (.failed (.frame error.text))
  | .error .panic => .error .panicked

def mockRead (chunk : Bytes) : MockAct (List Bytes) :=
  -- the end of the stream
  if chunk = [] then Prog.stop .returned
  else do
    let s ← Prog.state
    let (frames,decoder) ← Prog.ofExcept (framesResult (ingest s.decoder chunk))
    Prog.change fun s => {s with decoder := decoder}
    pure frames

def mockInterval (k : MockConfig) : Nat := max k.heartbeatIntervalSecs 1 * nanosPerSec

/-- The timer arm: nothing before `last_outbound` lies one interval back. -/
def mockTimer (k : MockConfig) (env : MockEnv) : MockAct Unit := do
  let s ← Prog.state
  let woken ← mockNow env
  if woken < s.lastOutbound + mockInterval k then pure ()
  else if s.established then do
    let time ← mockSendingTime env
    writeMessage k env (heartbeatFields k time s.nextOut none)
    countOutbound env
  else pure ()

structure MockSession where
  state : MockState
  pending : List Bytes
  ended : Option Ending

def mockStart (env : MockEnv) : MockSession :=
  ⟨⟨⟨[],decoderLimit⟩,1,1,1,false,env.instant 0,1,[],[]⟩,[],none⟩

def mockSettle : Except Ending (List Bytes) × MockState → MockSession
  | (.ok pending, s) => ⟨s,pending,none⟩
  | (.error ending, s) => ⟨s,[],some ending⟩

inductive MockInput where
  | read (chunk : Bytes)
  | handle
  | timer
  deriving DecidableEq, Repr

def mockStep (k : MockConfig) (env : MockEnv) (m : MockSession) (input : MockInput) : MockSession :=
  if m.ended.isSome then m
  else match m.pending, input with
    | [], .read chunk => mockSettle (mockRead chunk m.state)
    | [], .timer => mockSettle ((do mockTimer k env; pure []) m.state)
    | frame :: rest, .handle => mockSettle ((do mockHandle k env frame; pure rest) m.state)
    | _, _ => m

end FixCli.Mock
