import FixCli.SessionState

/-! The outbound half of the session actor: Logon, the administrative sends, the
application submit and the replay of a requested range. The five administrative
paths share one commit, write, mark and advance sequence. -/
namespace FixCli.Session
open Lib Codec Store

def adminKey (kind : Bytes) (nextOut nextEvent : Nat) : Bytes :=
  ascii "session:" ++ kind ++ ascii ":" ++ decimal nextOut ++ ascii ":" ++ decimal nextEvent

structure AdminSend where
  path : SendPath
  requestId : Bytes
  fingerprint : Bytes
  /-- The copy that the journal keeps; only a Logon's differs from the wire. -/
  journalWire : Bytes
  wire : Bytes
  wrongRecord : String

def sendAdmin (c : Ctx) (send : AdminSend) (afterWrite : Act Unit) : Act Unit := do
  let w ← Prog.state
  let reply ← storeApply c (.commitOutbound
    ⟨send.requestId,send.fingerprint,[],w.nextOut,send.journalWire⟩)
  match reply with
  | .command command => do
    writeWire c send.path send.wire
    afterWrite
    -- the number is that of the command on record, which the commit may have found there
    let _ ← storeApply c (.markOutboundWritten ⟨send.requestId,command.msgSeqNum⟩)
    Prog.change fun w => {w with nextOut := command.msgSeqNum + 1}
  | _ => fail (.store (ascii send.wrongRecord))

def redacted (c : Ctx) (field : Field) : Field :=
  if isSensitiveTag c field.tag then ⟨field.tag,ascii "<redacted>"⟩ else field

def resetOnLogon (c : Ctx) : Act Unit := do
  let reply ← storeApply c .resetSequences
  match reply with
  | .sequencesReset nextEvent => do
    Prog.change fun w => {w with nextOut := 1, nextEvent := nextEvent}
    setNextIn 1
    info (ascii "Resetting sequence numbers to 1 (ResetSeqNumFlag=Y)")
  | _ => fail (.store (ascii "sequence reset returned the wrong record type"))

def resetIfConfigured (c : Ctx) : Act Unit := if c.config.resetOnLogon then resetOnLogon c else pure ()

def opened (c : Ctx) (j : Journal) : Journal := if c.config.resetOnLogon then (resetSequences j).2 else j

def logonBody (c : Ctx) : List Field :=
  [⟨98,ascii "0"⟩,⟨108,decimal c.config.heartbeatIntervalSecs⟩] ++
    (if c.config.resetOnLogon then [⟨141,ascii "Y"⟩] else []) ++ c.logonFields

def sendLogon (c : Ctx) : Act Unit := do
  Prog.ofExcept (inSession (validateCustomLogonFields c.logonFields []))
  resetIfConfigured c
  let header ← standardHeader c (ascii "A")
  let fields := header ++ logonBody c
  let wire ← Prog.ofExcept (inSession (encodeOutbound c fields))
  let journalWire ← Prog.ofExcept (inSession (encodeOutbound c (fields.map (redacted c))))
  let w ← Prog.state
  sendAdmin c
    ⟨.logon,adminKey (ascii "logon") w.nextOut w.nextEvent,ascii "admin:A:" ++ decimal w.nextOut,
      journalWire,wire,"outbound commit returned an inbound record"⟩
    (info (ascii "Sent logon request"))

def sendResendRequest (c : Ctx) (beginSeqNum : Nat) : Act Unit := do
  let header ← standardHeader c (ascii "2")
  let fields := header ++ [⟨7,decimal beginSeqNum⟩,⟨16,ascii "0"⟩]
  let wire ← Prog.ofExcept (inSession (encodeOutbound c fields))
  let w ← Prog.state
  sendAdmin c
    ⟨.resendRequest,adminKey (ascii "resend-request") w.nextOut w.nextEvent,
      ascii "admin:2:" ++ decimal w.nextOut ++ ascii ":" ++ decimal beginSeqNum,
      wire,wire,"outbound commit returned an inbound record"⟩
    (pure ())

def sendHeartbeatResponse (c : Ctx) (testRequestId : Option Bytes) : Act Unit := do
  let header ← standardHeader c (ascii "0")
  let fields := header ++ (testRequestId.map (fun id => (⟨112,id⟩ : Field))).toList
  let wire ← Prog.ofExcept (inSession (encodeOutbound c fields))
  let w ← Prog.state
  sendAdmin c
    ⟨.heartbeat,adminKey (ascii "heartbeat") w.nextOut w.nextEvent,ascii "admin:0:" ++ decimal w.nextOut,
      wire,wire,"heartbeat commit returned the wrong record type"⟩
    (pure ())

def sendHeartbeat (c : Ctx) : Act Unit := sendHeartbeatResponse c none

def sendTestRequest (c : Ctx) (responseTimeout : Nat) : Act Unit := do
  let w ← Prog.state
  let testReqId := ascii "TEST-" ++ decimal w.nextOut
  let header ← standardHeader c (ascii "1")
  let wire ← Prog.ofExcept (inSession (encodeOutbound c (header ++ [⟨112,testReqId⟩])))
  sendAdmin c
    ⟨.testRequest,adminKey (ascii "test-request") w.nextOut w.nextEvent,
      ascii "admin:1:" ++ decimal w.nextOut ++ ascii ":" ++ testReqId,
      wire,wire,"TestRequest commit returned the wrong record type"⟩
    (pure ())
  -- the deadline counts from behind the write
  let sent ← now c
  Prog.change fun w => {w with testRequest := some ⟨testReqId,sent + responseTimeout⟩}

def mayLogout : SessionPhase → Bool
  | .logonSent | .synchronizing | .established | .recovering => true
  | .disconnected | .connecting | .logoutSent | .blocked => false

def sendLogout (c : Ctx) (text : Option Bytes) : Act Unit := do
  let w ← Prog.state
  if !mayLogout w.phase then fail .notEstablished
  else do
    let header ← standardHeader c (ascii "5")
    let fields := header ++ (text.map (fun text => (⟨58,text⟩ : Field))).toList
    let wire ← Prog.ofExcept (inSession (encodeOutbound c fields))
    let w ← Prog.state
    sendAdmin c
      ⟨.logout,adminKey (ascii "logout") w.nextOut w.nextEvent,ascii "admin:5:" ++ decimal w.nextOut,
        wire,wire,"Logout commit returned the wrong record type"⟩
      (pure ())
    setPhase .logoutSent

def managedSubmitTags : List UInt32 := [8, 9, 10, 11, 34, 35, 43, 49, 52, 56, 60, 122]

/-- Copies the body, adding TransactTime(60) behind each Side(54) where the
message requires it; the flag tells whether one was added. -/
def appendBody (c : Ctx) (requiresTransactTime : Bool) : List Field → Act (List Field × Bool)
  | [] => pure ([],false)
  | field :: rest => do
    if requiresTransactTime && field.tag == 54 then
      let time ← sendingTime c
      let (tail,_) ← appendBody c requiresTransactTime rest
      pure (field :: ⟨60,time⟩ :: tail,true)
    else do
      let (tail,added) ← appendBody c requiresTransactTime rest
      pure (field :: tail,added)

def splitOrigClOrdId (request : ApplicationRequest) : Except SessionError (List Field × List Field) :=
  if request.msgType = ascii "F" ∨ request.msgType = ascii "G" then
    match request.fields with
    | field :: rest =>
      if field.tag = 41 then .ok ([field],rest)
      else .error (.invalidApplication (ascii "F/G requires OrigClOrdID(41) as the first field"))
    | [] => .error (.invalidApplication (ascii "F/G requires OrigClOrdID(41) as the first field"))
  else .ok ([],request.fields)

def validateSubmit (request : ApplicationRequest) : Except SessionError Unit :=
  if request.msgType = [] ∨ EQ ∈ request.msgType ∨ SOH ∈ request.msgType then
    .error (.invalidApplication (ascii "MsgType is empty or contains a delimiter"))
  else if request.fields.any (fun field => decide (field.tag ∈ managedSubmitTags)) then
    .error (.invalidApplication (ascii "request contains a daemon-managed tag"))
  else .ok ()

def submitFields (c : Ctx) (request : ApplicationRequest) : Act (List Field) := do
  let header ← standardHeader c request.msgType
  let requiresTransactTime := decide (request.msgType = ascii "D" ∨ request.msgType = ascii "G")
  let (orig,body) ← Prog.ofExcept (inSession (splitOrigClOrdId request))
  let (tail,transactTimeAdded) ← appendBody c requiresTransactTime body
  if requiresTransactTime && !transactTimeAdded then
    fail (.invalidApplication (ascii "order message is missing Side(54)"))
  else pure (header ++ orig ++ [⟨11,request.clOrdId⟩] ++ tail)

def submitApplication (c : Ctx) (request : ApplicationRequest) : Act CommandRecord := do
  let w ← Prog.state
  if w.phase ≠ .established then fail .notEstablished
  else do
    Prog.ofExcept (inSession (validateSubmit request))
    let fields ← submitFields c request
    let wire ← Prog.ofExcept (inSession (encodeOutbound c fields))
    let reply ← storeApply c (.commitOutbound
      ⟨request.requestId,request.fingerprint,request.clOrdId,w.nextOut,wire⟩)
    match reply with
    | .command command =>
      -- on record from an earlier submit: the frame does not go out again
      if command.msgSeqNum < w.nextOut then pure command
      else if command.msgSeqNum ≠ w.nextOut then
        fail (.store (ascii "store returned future outbound sequence " ++ decimal command.msgSeqNum))
      else do
        writeWire c .application wire
        let reply ← storeApply c (.markOutboundWritten ⟨request.requestId,command.msgSeqNum⟩)
        match reply with
        | .command command => do
          Prog.change fun w => {w with nextOut := command.msgSeqNum + 1}
          pure command
        | _ => fail (.store (ascii "mark written returned an inbound record"))
    | _ => fail (.store (ascii "outbound commit returned an inbound record"))

def validateReplayRange (nextOut beginSeqNum requestedEndSeqNum : Nat) : Except SessionError (Nat × Nat) :=
  -- an EndSeqNo of 0 stands for all that was sent
  let endSeqNum := if requestedEndSeqNum = 0 then nextOut - 1 else min requestedEndSeqNum (nextOut - 1)
  if beginSeqNum = 0 ∨ beginSeqNum > endSeqNum then
    .error (.protocol (ascii "invalid ResendRequest range " ++ decimal beginSeqNum ++ ascii "..=" ++
      decimal requestedEndSeqNum))
  else .ok (beginSeqNum,endSeqNum)

def writeReplayTransmission (c : Ctx) (path : SendPath) (msgSeqNum : Nat) (kind : String) (wire : Bytes) :
    Act Unit := do
  let reply ← storeApply c (.commitTransmission ⟨msgSeqNum,ascii kind,wire⟩)
  match reply with
  | .transmission transmission => do
    writeWire c path wire
    let _ ← storeApply c (.markTransmissionWritten ⟨transmission.id⟩)
    pure ()
  | _ => fail (.store (ascii "transmission commit returned the wrong record type"))

/-- The field rewriting of a replay: PossDupFlag behind 34, a fresh 52 with the
original one as 122, earlier 43 and 122 dropped. Each 52 reads the clock. -/
def replayFields (c : Ctx) (originalSendingTime : Bytes) : List Field → Act (List Field)
  | [] => pure []
  | field :: rest => do
    if field.tag = 43 ∨ field.tag = 122 then replayFields c originalSendingTime rest
    else if field.tag = 34 then do
      let tail ← replayFields c originalSendingTime rest
      pure (field :: ⟨43,ascii "Y"⟩ :: tail)
    else if field.tag = 52 then do
      let time ← sendingTime c
      let tail ← replayFields c originalSendingTime rest
      pure (⟨52,time⟩ :: ⟨122,originalSendingTime⟩ :: tail)
    else do
      let tail ← replayFields c originalSendingTime rest
      pure (field :: tail)

def writeApplicationReplay (c : Ctx) (wire : Bytes) : Act Unit := do
  let original ← Prog.ofExcept (codecResult (parseFrame wire))
  let msgSeqNum ← Prog.ofExcept (inSession (requiredU64 original 34))
  let originalSendingTime ← Prog.ofExcept (inSession (requiredValue original 52))
  let fields ← replayFields c originalSendingTime original.fields
  let replay ← Prog.ofExcept (inSession (encodeOutbound c fields))
  writeReplayTransmission c .applicationReplay msgSeqNum "application_replay" replay

def gapFillFields (c : Ctx) (time : Bytes) (gapStart newSeqNum : Nat) : List Field :=
  [⟨35,ascii "4"⟩,⟨49,c.config.senderCompId⟩,⟨56,c.config.targetCompId⟩,⟨34,decimal gapStart⟩,
    ⟨43,ascii "Y"⟩,⟨52,time⟩,⟨122,time⟩,⟨123,ascii "Y"⟩,⟨36,decimal newSeqNum⟩]

def writeGapFill (c : Ctx) (gapStart newSeqNum : Nat) : Act Unit := do
  let time ← sendingTime c
  let wire ← Prog.ofExcept (inSession (encodeOutbound c (gapFillFields c time gapStart newSeqNum)))
  writeReplayTransmission c .gapFill gapStart "gap_fill" wire

def closeGap (c : Ctx) (gapStart : Option Nat) (newSeqNum : Nat) : Act Unit :=
  match gapStart with
  | some start => writeGapFill c start newSeqNum
  | none => pure ()

def replayLoop (c : Ctx) (records : Table Nat OutboundRecord) (endSeqNum : Nat) :
    List Nat → Option Nat → Act Unit
  | [], gapStart => closeGap c gapStart (endSeqNum + 1)
  | sequence :: rest, gapStart =>
    match records[sequence]? with
    | some record =>
      if record.command.clOrdId ≠ [] then do
        closeGap c gapStart sequence
        writeApplicationReplay c record.wire
        replayLoop c records endSeqNum rest none
      else replayLoop c records endSeqNum rest (some (gapStart.getD sequence))
    -- nothing is on record: filled like an administrative message
    | none => replayLoop c records endSeqNum rest (some (gapStart.getD sequence))

def bySequence (records : List OutboundRecord) : Table Nat OutboundRecord :=
  records.foldl (fun table record => table.insert record.command.msgSeqNum record) ∅

def replayValidatedRange (c : Ctx) (beginSeqNum endSeqNum : Nat) : Act Unit := do
  let reply ← storeApply c (.loadOutboundRange ⟨beginSeqNum,endSeqNum⟩)
  match reply with
  | .outbound records =>
    replayLoop c (bySequence records) endSeqNum
      (List.range' beginSeqNum (endSeqNum + 1 - beginSeqNum)) none
  | _ => fail (.store (ascii "outbound range query returned the wrong record type"))

end FixCli.Session
