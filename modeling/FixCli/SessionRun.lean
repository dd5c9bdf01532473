import FixCli.SessionInbound

/-! The actor's task: spawning it over a store, its select loop one input at a
time, and how it ends. Frames reach the loop through the incremental framer. -/
namespace FixCli.Session
open Lib Codec Store

def nanosPerSec : Nat := 10 ^ 9

def heartbeatInterval (c : Ctx) : Nat := max c.config.heartbeatIntervalSecs 1 * nanosPerSec

def sessionStatus (w : World) : SessionStatus :=
  ⟨w.phase,w.nextOut,w.nextIn,w.testRequest.map TestRequestOutstanding.id⟩

def loadCommand (c : Ctx) (requestId : Bytes) : Act (Option CommandRecord) := do
  let reply ← storeApply c (.loadCommand requestId)
  match reply with
  | .storedCommand command => pure command
  | _ => fail (.store (ascii "command lookup returned the wrong record type"))

def commandResult (c : Ctx) : ActorCommand → Act ActorReply
  | .status => do
    let w ← Prog.state
    pure (.status (sessionStatus w))
  | .lookupCommand requestId => do
    let command ← loadCommand c requestId
    pure (.storedCommand command)
  | .submit request => do
    let command ← submitApplication c request
    pure (.command command)
  | .logout text => do
    sendLogout c text
    pure .ack

def sessionErrors : Halt → Option SessionError
  | .fail error => some error
  | .panic | .crash => none

/-- Every command is answered; only a fatal error also ends the loop. -/
def handleCommand (c : Ctx) (command : ActorCommand) : Act Unit := do
  let result ← Prog.attempt sessionErrors (commandResult c command)
  emit (.replied result)
  match result with
  | .error error => if error.isFatal then fail error else pure ()
  | .ok _ => pure ()

def replied (reply : Except SessionError ActorReply) (w : World) : World :=
  {w with trace := .replied reply :: w.trace}

theorem handleCommandRun (c : Ctx) (command : ActorCommand) (w : World) : handleCommand c command w =
    match commandResult c command w with
    | (.ok reply, v) => (.ok (),replied (.ok reply) v)
    | (.error (.fail error), v) =>
      (if error.isFatal then .error (.fail error) else .ok (),replied (.error error) v)
    | (.error .panic, v) => (.error .panic,v)
    | (.error .crash, v) => (.error .crash,v) := by
  rcases run : commandResult c command w with ⟨_ | _,v⟩
  · rename_i halt
    cases halt with
    | fail error =>
      simp only [handleCommand,Prog.bindRun,Prog.attempt,run,sessionErrors,emit,Prog.changeRun,Prog.iteRun]
      split <;> rfl
    | panic | crash => simp only [handleCommand,Prog.bindRun,Prog.attempt,run,sessionErrors]
  · simp only [handleCommand,Prog.bindRun,Prog.attempt,run,emit,Prog.changeRun]
    rfl

def testRequestTimeout : Bytes := ascii "TestRequest response timeout"

def heartbeatIfEstablished (c : Ctx) : Act Unit := do
  let w ← Prog.state
  if w.phase = .established then sendHeartbeat c else pure ()

def testRequestDue (c : Ctx) : Act Unit := do
  let w ← Prog.state
  match w.testRequest with
  | some outstanding => do
    let at' ← now c
    if outstanding.deadline ≤ at' then do
      sendLogout c (some testRequestTimeout)
      failProtocol testRequestTimeout
    else pure ()
  | none =>
    if w.phase = .established then do
      let at' ← now c
      if heartbeatInterval c + heartbeatInterval c ≤ at' - w.lastInbound then
        sendTestRequest c (heartbeatInterval c)
      else pure ()
    else pure ()

def heartbeatDue (c : Ctx) : Act Unit := do
  let w ← Prog.state
  let woken ← now c
  -- `sleep_until` is not over before `last_outbound` lies one interval back
  if woken < w.lastOutbound + heartbeatInterval c then pure ()
  else do
    heartbeatIfEstablished c
    testRequestDue c

def handleFrame (c : Ctx) (frame : Bytes) : Act Unit := do
  emit (.logged (.incoming frame))
  handleInbound c frame

inductive Input where
  | command (command : ActorCommand)
  | handlesDropped
  | frame (wire : Bytes)
  | endOfStream
  | readFailed (text : Bytes)
  | decodeFailed (stop : Stop FrameError)
  | timer
  deriving DecidableEq, Repr

structure Conn where
  world : World
  live : Bool

def announceBlocked (error : SessionError) (w : World) : World :=
  {w with
    phase := .blocked
    trace := .protocolError error.text :: .phaseChanged .blocked :: .logged (.error error.text) ::
      .logged (.info (ascii "Disconnecting")) :: w.trace}

def leave (w : World) : Conn :=
  ⟨{w with trace := .logged (.info (ascii "Disconnecting")) :: w.trace},false⟩

def settle : Except Halt Unit × World → Conn
  | (.ok _, w) => ⟨w,true⟩
  | (.error (.fail error), w) => ⟨announceBlocked error w,false⟩
  -- the task or the process is gone without a word
  | (.error .panic, w) | (.error .crash, w) => ⟨w,false⟩

def hangUp (w : World) : World :=
  {w with phase := .disconnected, trace := .transportClosed :: .phaseChanged .disconnected :: w.trace}

def decodeHalt : Stop FrameError → Halt
  | .error error => .fail (.codec error.text)
  | .panic => .panic

def react (c : Ctx) (w : World) : Input → Conn
  | .command command => settle (handleCommand c command w)
  | .handlesDropped => leave w
  | .frame wire => settle (handleFrame c wire w)
  | .endOfStream => leave (hangUp w)
  | .readFailed text => settle (fail (.transport text) w)
  | .decodeFailed stop => settle (.error (decodeHalt stop),w)
  | .timer => settle (heartbeatDue c w)

def step (c : Ctx) (conn : Conn) (input : Input) : Conn :=
  if conn.live then react c conn.world input else conn

def run (c : Ctx) (conn : Conn) (inputs : List Input) : Conn := inputs.foldl (step c) conn

def entering (c : Ctx) (s : Shared) : World :=
  let recovery := recover s.journal
  {toActor := ⟨.connecting,recovery.nextOut,recovery.nextIn,recovery.nextEvent,∅,
      c.env.instant (s.tick + 1),c.env.instant (s.tick + 2),none⟩
   toShared := {s with tick := s.tick + 3}}

def unrecovered (c : Ctx) (s : Shared) (text : Bytes) : World :=
  {entering c s with
    phase := .blocked
    trace := .protocolError (StoreError.backend text).text :: .phaseChanged .blocked :: s.trace}

def logon (c : Ctx) : Act Unit := do
  sendLogon c
  setPhase .logonSent

def spawn (c : Ctx) (s : Shared) : Conn :=
  match c.env.storeFault s.tick with
  | .none => settle (logon c (entering c s))
  -- `recover` failed: the loop is never entered
  | .refused text | .lost text => ⟨unrecovered c s text,false⟩
  | .crashBefore | .crashAfter => ⟨entering c s,false⟩

def decoderLimit : Nat := 1024 * 1024

def venueTime : Bytes := ascii "20240102-03:04:05.678"

def venueCtx : Ctx where
  config := ⟨ascii "FIX.4.4",ascii "CLIENT",ascii "VENUE",30,false⟩
  logonFields := []
  env := ⟨fun _ => venueTime,fun _ => 0,fun _ => .none,fun _ => .none,true⟩

def venueFrame (msgType : String) (msgSeqNum : Nat) (body : List Field) : Bytes :=
  match encodeMessage (ascii "FIX.4.4") ([⟨35,ascii msgType⟩,⟨49,ascii "VENUE"⟩,⟨56,ascii "CLIENT"⟩,
      ⟨34,decimal msgSeqNum⟩,⟨52,venueTime⟩] ++ body) with
  | .ok wire => wire
  | .error _ => []

def parsedOf (frame : Bytes) : ParsedMessage :=
  match parseFrame frame with
  | .ok message => message
  | .error _ => ⟨[],[],0⟩

def venueLogon (msgSeqNum : Nat) : Bytes := venueFrame "A" msgSeqNum [⟨98,ascii "0"⟩,⟨108,ascii "30"⟩]

def venueConn (s : Shared) (inputs : List Input) : Conn := run venueCtx (spawn venueCtx s) inputs

def fresh : Shared := ⟨.empty,[],0⟩

def atVenue : World := (venueConn fresh [.frame (venueLogon 1)]).world

example : sessionStatus atVenue = ⟨.established,2,2,none⟩ := by
  decide +kernel

end FixCli.Session
