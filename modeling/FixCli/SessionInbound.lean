import FixCli.SessionSends

/-! The inbound half of the session actor: envelope validation, the PossDup
check, the expected frame with everything it triggers, the gap buffer and the
drain loop behind it. -/
namespace FixCli.Session
open Lib Codec Store

def parseInbound (c : Ctx) (frame : Bytes) : Except Halt ParsedMessage := do
  let message ← codecResult (parseFrame frame)
  if message.beginString ≠ c.config.beginString then
    .error (.fail (.protocol (ascii "BeginString mismatch")))
  else do
    let sender ← inSession (requiredValue message 49)
    if sender ≠ c.config.targetCompId then
      .error (.fail (.protocol (ascii "inbound SenderCompID does not match TargetCompID")))
    else do
      let target ← inSession (requiredValue message 56)
      if target ≠ c.config.senderCompId then
        .error (.fail (.protocol (ascii "inbound TargetCompID does not match SenderCompID")))
      else match message.fields.find? (fun field => isSensitiveTag c field.tag) with
        | some field => .error (.fail (.protocol (ascii "inbound sensitive tag " ++
            decimal field.tag.toNat ++ ascii " is forbidden from persistent session input")))
        | none => .ok message

structure Envelope (c : Ctx) (frame : Bytes) (message : ParsedMessage) : Prop where
  parsed : parseFrame frame = .ok message
  beginString : message.beginString = c.config.beginString
  sender : requiredValue message 49 = .ok c.config.targetCompId
  target : requiredValue message 56 = .ok c.config.senderCompId
  plain : message.fields.find? (fun field => isSensitiveTag c field.tag) = none

theorem codecOk {α : Type} {r : Except (Stop ParseError) α} {a : α} (ok : codecResult r = .ok a) : r = .ok a := by
  cases r with
  | ok b => cases ok; rfl
  | error stop => cases stop <;> cases ok

theorem parseInboundSource {c : Ctx} {frame : Bytes} {message : ParsedMessage}
    (ok : parseInbound c frame = .ok message) : Envelope c frame message := by
  unfold parseInbound at ok
  obtain ⟨found,parsed,ok⟩ := boundOk ok
  split at ok
  · cases ok
  rename_i begins
  obtain ⟨sender,hsender,ok⟩ := boundOk ok
  split at ok
  · cases ok
  rename_i sent
  obtain ⟨target,htarget,ok⟩ := boundOk ok
  split at ok
  · cases ok
  rename_i addressed
  split at ok
  · cases ok
  rename_i plain
  cases ok
  exact ⟨codecOk parsed,Classical.not_not.mp begins,Classical.not_not.mp sent ▸ inSessionOk hsender,
    Classical.not_not.mp addressed ▸ inSessionOk htarget,plain⟩

theorem parseInboundEnvelope {c : Ctx} {frame : Bytes} {message : ParsedMessage}
    (h : Envelope c frame message) : parseInbound c frame = .ok message := by
  simp only [parseInbound,h.parsed,codecResult,bind,Except.bind,h.beginString,h.sender,h.target,inSession,h.plain,
    ne_eq,not_true_eq_false,if_false]

def verifyTimes (replay : ParsedMessage) : Except SessionError Bytes := do
  if (replay.values 43).length ≠ 1 ∨ (replay.values 52).length ≠ 1 ∨ (replay.values 122).length ≠ 1 then
    .error (.protocol
      (ascii "PossDup requires exactly one PossDupFlag, SendingTime and OrigSendingTime"))
  else do
    let origSendingTime ← requiredValue replay 122
    let sendingTime ← requiredValue replay 52
    if sendingTime < origSendingTime then
      .error (.protocol (ascii "OrigSendingTime is later than SendingTime"))
    else .ok origSendingTime

def verifyOriginal (replay : ParsedMessage) (msgSeqNum : Nat) (origSendingTime : Bytes)
    (original : InboundRecord) : Except Halt Unit := do
  let original ← codecResult (parseFrame original.wire)
  let originalSendingTime ← inSession (requiredValue original 52)
  -- where the record is a copy itself, its own 52 is compared and not its 122
  if originalSendingTime ≠ origSendingTime ∨ original.beginString ≠ replay.beginString ∨
      !sameReplayPayload original replay then
    .error (.fail (.protocol (ascii "PossDup payload mismatch for sequence " ++ decimal msgSeqNum)))
  else .ok ()

def verifyPossdup (c : Ctx) (replay : ParsedMessage) (msgSeqNum : Nat) : Act Unit := do
  let origSendingTime ← Prog.ofExcept (inSession (verifyTimes replay))
  let reply ← storeApply c (.loadInbound msgSeqNum)
  match reply with
  | .storedInbound (some original) =>
    Prog.ofExcept (verifyOriginal replay msgSeqNum origSendingTime original)
  | _ => failProtocol (ascii "PossDup sequence " ++ decimal msgSeqNum ++
      ascii " has no committed original")

structure Expected where
  msgType : Bytes
  requestedResend : Option (Nat × Nat)
  heartbeatResponse : Option Bytes
  nextInAfter : Nat
  deriving DecidableEq, Repr

def inboundMsgType (message : ParsedMessage) : Except SessionError Bytes :=
  match message.msgType with
  | none => .error (.protocol (ascii "MsgType is missing"))
  | some msgType =>
    if isUtf8 msgType then .ok msgType else .error (.protocol (ascii "MsgType is not ASCII"))

def requestedResend (nextOut : Nat) (message : ParsedMessage) (msgType : Bytes) :
    Except SessionError (Option (Nat × Nat)) :=
  if msgType = ascii "2" then do
    let beginSeqNum ← requiredU64 message 7
    let endSeqNum ← requiredU64 message 16
    let range ← validateReplayRange nextOut beginSeqNum endSeqNum
    .ok (some range)
  else .ok none

def heartbeatResponse (message : ParsedMessage) (msgType : Bytes) : Except SessionError (Option Bytes) :=
  if msgType = ascii "1" then do
    let id ← requiredValue message 112
    .ok (some id)
  else .ok none

def checkHeartBtInt (c : Ctx) (message : ParsedMessage) (msgType : Bytes) : Except SessionError Unit :=
  if msgType = ascii "A" then do
    let heartbeat ← requiredU64 message 108
    if heartbeat ≠ c.config.heartbeatIntervalSecs then
      .error (.protocol (ascii "peer HeartBtInt " ++ decimal heartbeat ++
        ascii " does not match configured " ++ decimal c.config.heartbeatIntervalSecs))
    else .ok ()
  else .ok ()

def nextInAfter (c : Ctx) (baseline msgSeqNum : Nat) (message : ParsedMessage) (msgType : Bytes) :
    Except Halt Nat :=
  if msgType = ascii "4" then do
    let gapFill ← inSession (requiredValue message 123)
    if gapFill ≠ ascii "Y" then
      .error (.fail (.protocol (ascii "non-GapFill SequenceReset is disabled")))
    else do
      let newSeqNum ← inSession (requiredU64 message 36)
      if newSeqNum ≤ baseline then
        .error (.fail (.protocol (ascii "SequenceReset NewSeqNo " ++ decimal newSeqNum ++
          ascii " must be greater than " ++ decimal baseline)))
      else .ok newSeqNum
  -- every other message counts one up, unchecked
  else plusOne c msgSeqNum

def inboundChecks (c : Ctx) (nextOut baseline msgSeqNum : Nat) (message : ParsedMessage) :
    Except Halt Expected := do
  let msgType ← inSession (inboundMsgType message)
  let resend ← inSession (requestedResend nextOut message msgType)
  let response ← inSession (heartbeatResponse message msgType)
  inSession (checkHeartBtInt c message msgType)
  let next ← nextInAfter c baseline msgSeqNum message msgType
  .ok ⟨msgType,resend,response,next⟩

structure Checked (c : Ctx) (nextOut baseline msgSeqNum : Nat) (message : ParsedMessage) (e : Expected) :
    Prop where
  msgType : inboundMsgType message = .ok e.msgType
  resend : requestedResend nextOut message e.msgType = .ok e.requestedResend
  response : heartbeatResponse message e.msgType = .ok e.heartbeatResponse
  heartBtInt : checkHeartBtInt c message e.msgType = .ok ()
  next : nextInAfter c baseline msgSeqNum message e.msgType = .ok e.nextInAfter

theorem checksSource {c : Ctx} {nextOut baseline msgSeqNum : Nat} {message : ParsedMessage} {e : Expected}
    (ok : inboundChecks c nextOut baseline msgSeqNum message = .ok e) :
    Checked c nextOut baseline msgSeqNum message e := by
  unfold inboundChecks at ok
  obtain ⟨msgType,htype,ok⟩ := boundOk ok
  obtain ⟨resend,hresend,ok⟩ := boundOk ok
  obtain ⟨response,hresponse,ok⟩ := boundOk ok
  obtain ⟨_,hheartbeat,ok⟩ := boundOk ok
  obtain ⟨next,hnext,ok⟩ := boundOk ok
  cases ok
  exact ⟨inSessionOk htype,inSessionOk hresend,inSessionOk hresponse,inSessionOk hheartbeat,hnext⟩

theorem inboundMsgTypeSource {message : ParsedMessage} {msgType : Bytes}
    (ok : inboundMsgType message = .ok msgType) : message.msgType = some msgType ∧ isUtf8 msgType = true := by
  unfold inboundMsgType at ok
  split at ok
  · cases ok
  · rename_i found here
    split at ok
    · rename_i utf8
      cases ok
      exact ⟨here,utf8⟩
    · cases ok

def inboundDetails (msgType : Bytes) (msgSeqNum : Nat) : Table Bytes Bytes :=
  ((∅ : Table Bytes Bytes).insert (ascii "msg_type") msgType).insert (ascii "msg_seq_num") (decimal msgSeqNum)

def desyncText (expected actual : Nat) : Bytes :=
  ascii "sequence desync at logon: expected " ++ decimal expected ++ ascii ", got " ++ decimal actual ++
    ascii "; realigning to counterparty"

def unexpectedSequence (expected actual : Nat) : SessionError :=
  .protocol (ascii "expected inbound sequence " ++ decimal expected ++ ascii ", got " ++ decimal actual)

def logonReceived (msgType : Bytes) : Act Unit := do
  let w ← Prog.state
  if msgType = ascii "A" ∧ w.phase = .logonSent then do
    info (ascii "Received logon response")
    setPhase .established
  else pure ()

def testRequestAnswered (message : ParsedMessage) (msgType : Bytes) : Act Unit :=
  Prog.change fun w =>
    match w.testRequest, (message.values 112).head? with
    | some outstanding, some testReqId =>
      if msgType = ascii "0" ∧ outstanding.id = testReqId then {w with testRequest := none} else w
    | _, _ => w

def answerLogout (c : Ctx) : Act Unit := do
  let w ← Prog.state
  -- behind a Logout of its own the actor takes this one for the answer
  if w.phase ≠ .logoutSent then sendLogout c none else pure ()

def logoutReceived (c : Ctx) (msgType : Bytes) : Act Unit := do
  if msgType = ascii "5" then do
    info (ascii "Received logout request")
    answerLogout c
    setPhase .disconnected
  else pure ()

def answerResendRequest (c : Ctx) : Option (Nat × Nat) → Act Unit
  | some (beginSeqNum,endSeqNum) => replayValidatedRange c beginSeqNum endSeqNum
  | none => pure ()

def answerTestRequest (c : Ctx) : Option Bytes → Act Unit
  | some testRequestId => sendHeartbeatResponse c (some testRequestId)
  | none => pure ()

def afterCommit (c : Ctx) (message : ParsedMessage) (expected : Expected) : Act Unit := do
  logonReceived expected.msgType
  testRequestAnswered message expected.msgType
  logoutReceived c expected.msgType
  answerResendRequest c expected.requestedResend
  answerTestRequest c expected.heartbeatResponse

/-- The realign branch ahead of the checks; tells whether it was taken. -/
def noticeDesync (msgSeqNum : Nat) : Act Bool := do
  let w ← Prog.state
  if msgSeqNum ≠ w.nextIn then
    if w.phase ≠ .logonSent then fail (unexpectedSequence w.nextIn msgSeqNum)
    else do
      info (desyncText w.nextIn msgSeqNum)
      pure true
  else pure false

def inboundCommit (w : World) (msgSeqNum : Nat) (frame : Bytes) (expected : Expected) : InboundCommit :=
  ⟨msgSeqNum,expected.nextInAfter,expected.msgType,frame,
    ⟨w.nextEvent,eventKind expected.msgType,inboundDetails expected.msgType msgSeqNum⟩⟩

def commitChecked (c : Ctx) (message : ParsedMessage) (msgSeqNum : Nat) (frame : Bytes)
    (expected : Expected) : Act Unit := do
  let w ← Prog.state
  let _ ← storeApply c (.commitInbound (inboundCommit w msgSeqNum frame expected))
  setNextIn expected.nextInAfter
  Prog.change fun w => {w with nextEvent := w.nextEvent + 1}
  afterCommit c message expected

def commitExpected (c : Ctx) (message : ParsedMessage) (frame : Bytes) : Act Unit := do
  let msgSeqNum ← Prog.ofExcept (inSession (requiredU64 message 34))
  let realigned ← noticeDesync msgSeqNum
  let w ← Prog.state
  -- behind a realignment a SequenceReset is measured by the frame's own number
  let baseline := if realigned then msgSeqNum else w.nextIn
  let expected ← Prog.ofExcept (inboundChecks c w.nextOut baseline msgSeqNum message)
  commitChecked c message msgSeqNum frame expected

def gapBufferLimit : Nat := 1024

def bufferGap (c : Ctx) (msgSeqNum : Nat) (frame : Bytes) : Act Unit := do
  let w ← Prog.state
  if gapBufferLimit ≤ w.gapBuffer.size then failProtocol (ascii "inbound gap buffer limit exceeded")
  else do
    -- the first frame under a number stays
    Prog.change fun w => {w with gapBuffer := w.gapBuffer.insertIfNew msgSeqNum frame}
    let w ← Prog.state
    if w.phase ≠ .recovering then do
      sendResendRequest c w.nextIn
      setPhase .recovering
    else pure ()

def resyncDetails (expected realignTo : Nat) : Table Bytes Bytes :=
  ((∅ : Table Bytes Bytes).insert (ascii "expected") (decimal expected)).insert (ascii "realign_to")
    (decimal realignTo)

def realign (c : Ctx) (msgSeqNum : Nat) : Act Unit := do
  let w ← Prog.state
  if w.phase = .logonSent then do
    info (desyncText w.nextIn msgSeqNum)
    let _ ← storeApply c (.resyncInbound
      ⟨msgSeqNum,⟨w.nextEvent,ascii "sequence_resync",resyncDetails w.nextIn msgSeqNum⟩⟩)
    Prog.change fun w => {w with nextEvent := w.nextEvent + 1}
    setNextIn msgSeqNum
  else fail (unexpectedSequence w.nextIn msgSeqNum)

/-- The drain loop; every turn but the last takes an entry out of the buffer, so
one turn more than its size is enough. -/
def drain (c : Ctx) : Nat → Act Unit
  | 0 => pure ()
  | fuel + 1 => do
    Prog.change fun w => {w with gapBuffer := w.gapBuffer.keepKeys (fun sequence => w.nextIn ≤ sequence)}
    let w ← Prog.state
    match w.gapBuffer[w.nextIn]? with
    | none => pure ()
    | some buffered => do
      Prog.change fun w => {w with gapBuffer := w.gapBuffer.erase w.nextIn}
      let message ← Prog.ofExcept (parseInbound c buffered)
      commitExpected c message buffered
      drain c fuel

def drainBuffer (c : Ctx) : Act Unit := do
  let w ← Prog.state
  drain c (w.gapBuffer.size + 1)

def endRecovery : Act Unit := do
  let w ← Prog.state
  if w.phase = .recovering ∧ w.gapBuffer.isEmpty then setPhase .established else pure ()

def realignIfLow (c : Ctx) (msgSeqNum : Nat) : Act Unit := do
  let w ← Prog.state
  if msgSeqNum < w.nextIn then realign c msgSeqNum else pure ()

/-- A frame that is neither ahead nor a PossDup: realign if it is low, commit it,
then whatever the buffer holds next. -/
def acceptFrame (c : Ctx) (message : ParsedMessage) (msgSeqNum : Nat) (frame : Bytes) : Act Unit := do
  realignIfLow c msgSeqNum
  commitExpected c message frame
  drainBuffer c
  endRecovery

def possDup (message : ParsedMessage) : Bool := decide ((message.values 43).head? = some (ascii "Y"))

def handleInbound (c : Ctx) (frame : Bytes) : Act Unit := do
  let message ← Prog.ofExcept (parseInbound c frame)
  let arrived ← now c
  Prog.change fun w => {w with lastInbound := arrived}
  let msgSeqNum ← Prog.ofExcept (inSession (requiredU64 message 34))
  let w ← Prog.state
  if w.nextIn < msgSeqNum then bufferGap c msgSeqNum frame
  else if msgSeqNum < w.nextIn ∧ possDup message then verifyPossdup c message msgSeqNum
  else acceptFrame c message msgSeqNum frame

def arrivedAt (c : Ctx) (w : World) : World :=
  {w with lastInbound := c.env.instant w.tick, tick := w.tick + 1}

def buffering (n : Nat) (frame : Bytes) (w : World) : World := {w with gapBuffer := w.gapBuffer.insertIfNew n frame}

def sequenced (c : Ctx) (message : ParsedMessage) (msgSeqNum : Nat) (frame : Bytes) (w : World) :
    Except Halt Unit × World :=
  if w.nextIn < msgSeqNum then bufferGap c msgSeqNum frame w
  else if msgSeqNum < w.nextIn ∧ possDup message then verifyPossdup c message msgSeqNum w
  else acceptFrame c message msgSeqNum frame w

section

variable {c : Ctx} {frame : Bytes} {w : World} {message : ParsedMessage} {msgSeqNum : Nat}

theorem handleUnparsed {halt : Halt} (bad : parseInbound c frame = .error halt) :
    handleInbound c frame w = (.error halt,w) := by
  simp only [handleInbound,bad]
  rfl

theorem handleUnsequenced {error : SessionError} (parsed : parseInbound c frame = .ok message)
    (bad : requiredU64 message 34 = .error error) :
    handleInbound c frame w = (.error (.fail error),arrivedAt c w) := by
  simp only [handleInbound,parsed,Prog.ofExceptOk,pure_bind,bad]
  rfl

theorem handleSequenced (parsed : parseInbound c frame = .ok message)
    (sequence : requiredU64 message 34 = .ok msgSeqNum) :
    handleInbound c frame w = sequenced c message msgSeqNum frame (arrivedAt c w) := by
  simp only [handleInbound,parsed,Prog.ofExceptOk,pure_bind,sequence,inSession]
  simp only [Prog.bindRun,now,Prog.changeRun,Prog.stateRun,Prog.iteRun]
  rfl

theorem bufferGapRun (frame : Bytes) (room : w.gapBuffer.size < gapBufferLimit) : bufferGap c msgSeqNum frame w =
    if w.phase = .recovering then (.ok (),buffering msgSeqNum frame w)
    else (do sendResendRequest c w.nextIn; setPhase .recovering : Act Unit) (buffering msgSeqNum frame w) := by
  simp only [bufferGap,Prog.bindRun,Prog.stateRun,Prog.iteRun,if_neg (Nat.not_le.mpr room),Prog.changeRun,ne_eq,
    ite_not]
  rfl

theorem commitExpectedRun (frame : Bytes) (sequence : requiredU64 message 34 = .ok msgSeqNum)
    (expected : w.nextIn = msgSeqNum) : commitExpected c message frame w =
      match inboundChecks c w.nextOut msgSeqNum msgSeqNum message with
      | .error halt => (.error halt,w)
      | .ok expected => commitChecked c message msgSeqNum frame expected w := by
  subst expected
  simp only [commitExpected,sequence,inSession,Prog.ofExceptOk,pure_bind]
  simp only [noticeDesync,Prog.bindRun,Prog.stateRun,Prog.iteRun,Prog.pureRun,ne_eq,not_true_eq_false,
    if_false,ite_self]
  cases inboundChecks c w.nextOut w.nextIn w.nextIn message <;> rfl

def realigned (msgSeqNum : Nat) (v : World) : World :=
  {v with nextEvent := v.nextEvent + 1, nextIn := msgSeqNum, trace := .expecting msgSeqNum :: v.trace}

def resyncCommit (w : World) (msgSeqNum : Nat) : ResyncInboundCommit :=
  ⟨msgSeqNum,⟨w.nextEvent,ascii "sequence_resync",resyncDetails w.nextIn msgSeqNum⟩⟩

def desynced (w : World) (msgSeqNum : Nat) : World :=
  {w with trace := .logged (.info (desyncText w.nextIn msgSeqNum)) :: w.trace}

theorem realignRun (phase : w.phase = .logonSent) : realign c msgSeqNum w =
    match storeApply c (.resyncInbound (resyncCommit w msgSeqNum)) (desynced w msgSeqNum) with
    | (.ok _, v) => (.ok (),realigned msgSeqNum v)
    | (.error halt, v) => (.error halt,v) := by
  rcases stored : storeApply c (.resyncInbound (resyncCommit w msgSeqNum)) (desynced w msgSeqNum) with
    ⟨_ | _,v⟩
  all_goals
    simp only [resyncCommit,desynced] at stored
    simp only [realign,Prog.bindRun,Prog.stateRun,phase,if_true,Prog.iteRun,info,emit,Prog.changeRun,
      setNextIn,stored,realigned]

end

end FixCli.Session
