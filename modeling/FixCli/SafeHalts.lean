import FixCli.BodyFields
import FixCli.SessionLoop

/-! Where the actor can panic. Its sends, its replays and its commands stop with an error
or with their process; what is left is the number behind an inbound message. -/
namespace FixCli.Session
open Lib Codec Store

def safe (halt : Halt) : Prop := halt ≠ .panic

theorem failSafe (error : SessionError) : safe (.fail error) := fun same => nomatch same

theorem quitsSafe (halt : Halt) (h : quits halt) : safe halt := by
  rcases h with rfl | ⟨error,rfl,-⟩ <;> exact fun same => nomatch same

theorem safeSession {α : Type} (r : Except SessionError α) : FailsOnly safe (inSession r) := by
  intro halt bad same
  subst same
  cases r <;> cases bad

theorem parseFrameSafe {bytes : Bytes} {stop : Stop ParseError} (bad : parseFrame bytes = .error stop) :
    stop ≠ .panic := by
  rcases parseFrameCases bytes with ⟨⟨e,refused⟩,-⟩ | ⟨cut,sum,-,-,parsed⟩
  · rw [refused] at bad
    cases bad
    exact fun same => nomatch same
  · rw [parsed] at bad
    exact raiseSafe bad

theorem safeParse (bytes : Bytes) : FailsOnly safe (codecResult (parseFrame bytes)) := by
  intro halt bad same
  subst same
  cases parsed : parseFrame bytes with
  | ok message => rw [parsed] at bad; cases bad
  | error stop =>
    have orderly := parseFrameSafe parsed
    rw [parsed] at bad
    cases stop with
    | error e => cases bad
    | panic => exact orderly rfl

section

variable {c : Ctx} {α : Type}

open Prog

theorem safeStops {text : Bytes} : StopsOnly safe (fail (.store text) : Act α) := .stop (failSafe _)

theorem safeChecked (r : Except SessionError α) : StopsOnly safe (Prog.ofExcept (inSession r) : Act α) :=
  .ofExcept (safeSession r)

theorem safeStore (op : StoreOp) : StopsOnly safe (storeApply c op) := (quitsStore op).weaken quitsSafe

theorem safeWire (path : SendPath) (wire : Bytes) : StopsOnly safe (writeWire c path wire) :=
  (quitsWire path wire).weaken quitsSafe

theorem safeNow : StopsOnly safe (now c) := fun _ _ => trivial

theorem safeHeader (msgType : Bytes) : StopsOnly safe (standardHeader c msgType) := fun _ _ => trivial

theorem safeAdmin (send : AdminSend) : StopsOnly safe (sendAdmin c send (pure ())) := by
  refine .bind .state fun w => .bind (safeStore _) fun reply => ?_
  split
  · exact .bind (safeWire _ _) fun _ => .bind (.pure _) fun _ => .bind (safeStore _) fun _ => .change _
  · exact safeStops

theorem safeResendRequest (beginSeqNum : Nat) : StopsOnly safe (sendResendRequest c beginSeqNum) :=
  .bind (safeHeader _) fun _ => .bind (safeChecked _) fun _ => .bind .state fun _ => safeAdmin _

theorem safeHeartbeat (testRequestId : Option Bytes) : StopsOnly safe (sendHeartbeatResponse c testRequestId) :=
  .bind (safeHeader _) fun _ => .bind (safeChecked _) fun _ => .bind .state fun _ => safeAdmin _

theorem safeTestRequest (timeout : Nat) : StopsOnly safe (sendTestRequest c timeout) :=
  .bind .state fun _ => .bind (safeHeader _) fun _ => .bind (safeChecked _) fun _ => .bind (safeAdmin _) fun _ =>
    .bind safeNow fun _ => .change _

theorem safeLogout (text : Option Bytes) : StopsOnly safe (sendLogout c text) := by
  refine .bind .state fun w => ?_
  split
  · exact .stop (failSafe _)
  · exact .bind (safeHeader _) fun _ => .bind (safeChecked _) fun _ => .bind .state fun _ =>
      .bind (safeAdmin _) fun _ => .change _

theorem safeSubmit (request : ApplicationRequest) : StopsOnly safe (submitApplication c request) := by
  have body (required : Bool) (fields : List Field) : StopsOnly safe (appendBody c required fields) := by
    induction fields with
    | nil => exact .pure _
    | cons field rest ih =>
      rw [appendBody]
      split
      · exact .bind (fun _ _ => trivial) fun _ => .bind ih fun _ => .pure _
      · exact .bind ih fun _ => .pure _
  have fields : StopsOnly safe (submitFields c request) := by
    refine .bind (safeHeader _) fun _ => .bind (safeChecked _) fun split => .bind (body _ _) fun tail => ?_
    dsimp only
    split
    · exact .stop (failSafe _)
    · exact .pure _
  refine .bind .state fun w => ?_
  split
  · exact .stop (failSafe _)
  · exact .bind (safeChecked _) fun _ => .bind fields fun _ => .bind (safeChecked _) fun _ =>
      (quitsCommit request w.nextOut _).weaken quitsSafe

theorem safeTransmission (path : SendPath) (msgSeqNum : Nat) (kind : String) (wire : Bytes) :
    StopsOnly safe (writeReplayTransmission c path msgSeqNum kind wire) := by
  refine .bind (safeStore _) fun reply => ?_
  split
  · exact .bind (safeWire _ _) fun _ => .bind (safeStore _) fun _ => .pure _
  · exact safeStops

theorem safeReplayFields (time : Bytes) (fields : List Field) : StopsOnly safe (replayFields c time fields) := by
  induction fields with
  | nil => exact .pure _
  | cons field rest ih =>
    rw [replayFields]
    split
    · exact ih
    split
    · exact .bind ih fun _ => .pure _
    split
    · exact .bind (fun _ _ => trivial) fun _ => .bind ih fun _ => .pure _
    · exact .bind ih fun _ => .pure _

theorem safeApplicationReplay (wire : Bytes) : StopsOnly safe (writeApplicationReplay c wire) :=
  .bind (.ofExcept (safeParse _)) fun _ => .bind (safeChecked _) fun _ => .bind (safeChecked _) fun _ =>
    .bind (safeReplayFields _ _) fun _ => .bind (safeChecked _) fun _ => safeTransmission _ _ _ _

theorem safeCloseGap (gapStart : Option Nat) (newSeqNum : Nat) : StopsOnly safe (closeGap c gapStart newSeqNum) := by
  cases gapStart with
  | none => exact .pure _
  | some start => exact .bind (fun _ _ => trivial) fun _ => .bind (safeChecked _) fun _ => safeTransmission _ _ _ _

theorem safeReplayLoop (records : Table Nat OutboundRecord) (endSeqNum : Nat) (sequences : List Nat)
    (gapStart : Option Nat) : StopsOnly safe (replayLoop c records endSeqNum sequences gapStart) := by
  induction sequences generalizing gapStart with
  | nil => exact safeCloseGap _ _
  | cons sequence rest ih =>
    rw [replayLoop]
    split
    · split
      · exact .bind (safeCloseGap _ _) fun _ => .bind (safeApplicationReplay _) fun _ => ih none
      · exact ih _
    · exact ih _

theorem safeReplay (beginSeqNum endSeqNum : Nat) : StopsOnly safe (replayValidatedRange c beginSeqNum endSeqNum) := by
  refine .bind (safeStore _) fun reply => ?_
  split
  · exact safeReplayLoop _ _ _ _
  · exact safeStops

theorem safeParseInbound (frame : Bytes) : FailsOnly safe (parseInbound c frame) := by
  have fails (text : Bytes) : FailsOnly safe (.error (.fail (.protocol text)) : Except Halt ParsedMessage) :=
    .error (failSafe _)
  refine .bind (safeParse _) fun message => ?_
  split
  · exact fails _
  refine .bind (safeSession _) fun sender => ?_
  split
  · exact fails _
  refine .bind (safeSession _) fun target => ?_
  split
  · exact fails _
  split
  · exact fails _
  · exact .ok _

theorem safePossdup (replay : ParsedMessage) (msgSeqNum : Nat) :
    StopsOnly safe (verifyPossdup c replay msgSeqNum) := by
  refine .bind (safeChecked _) fun _ => .bind (safeStore _) fun reply => ?_
  split
  · refine .ofExcept (.bind (safeParse _) fun _ => .bind (safeSession _) fun _ => ?_)
    split
    · exact .error (failSafe _)
    · exact .ok _
  · exact .stop (failSafe _)

theorem safeBufferGap (msgSeqNum : Nat) (frame : Bytes) : StopsOnly safe (bufferGap c msgSeqNum frame) := by
  refine .bind .state fun w => ?_
  split
  · exact .stop (failSafe _)
  · refine .bind (.change _) fun _ => .bind .state fun w => ?_
    split
    · exact .bind (safeResendRequest _) fun _ => .change _
    · exact .pure _

theorem safeRealign (msgSeqNum : Nat) : StopsOnly safe (realign c msgSeqNum) := by
  refine .bind .state fun w => ?_
  split
  · exact .bind (.change _) fun _ => .bind (safeStore _) fun _ => .bind (.change _) fun _ => .change _
  · exact .stop (failSafe _)

theorem safeAfterCommit (m : ParsedMessage) (e : Expected) : StopsOnly safe (afterCommit c m e) := by
  have logon : StopsOnly safe (logonReceived e.msgType) := by
    refine .bind .state fun w => ?_
    split
    · exact .bind (.change _) fun _ => .change _
    · exact .pure _
  have answers : StopsOnly safe (answerLogout c) := by
    refine .bind .state fun w => ?_
    split
    · exact safeLogout none
    · exact .pure _
  have logout : StopsOnly safe (logoutReceived c e.msgType) := by
    unfold logoutReceived
    split
    · exact .bind (.change _) fun _ => .bind answers fun _ => .change _
    · exact .pure _
  refine .bind logon fun _ => .bind (.change _) fun _ => .bind logout fun _ => .bind ?_ fun _ => ?_
  · cases e.requestedResend with
    | none => exact .pure _
    | some range => exact safeReplay _ _
  · cases e.heartbeatResponse with
    | none => exact .pure _
    | some id => exact safeHeartbeat _

theorem safeCommand (command : ActorCommand) : StopsOnly safe (handleCommand c command) := by
  have result : StopsOnly safe (commandResult c command) := by
    cases command with
    | status => exact .bind .state fun _ => .pure _
    | lookupCommand requestId =>
      refine .bind (.bind (safeStore _) fun reply => ?_) fun _ => .pure _
      split
      · exact .pure _
      · exact safeStops
    | submit request => exact .bind (safeSubmit _) fun _ => .pure _
    | logout text => exact .bind (safeLogout _) fun _ => .pure _
  intro w _
  have here := result w trivial
  rw [handleCommandRun]
  rcases run : commandResult c command w with ⟨halt | reply,v⟩
  · rw [run] at here
    cases halt with
    | fail error =>
      dsimp only
      split
      · rename_i out
        trivial
      · rename_i out
        split at out
        · cases out
          exact failSafe _
        · cases out
    | panic => exact here
    | crash => exact here
  · trivial

theorem safeTimer : StopsOnly safe (heartbeatDue c) := by
  have beats : StopsOnly safe (heartbeatIfEstablished c) := by
    refine .bind .state fun w => ?_
    split
    · exact safeHeartbeat none
    · exact .pure _
  have asks : StopsOnly safe (testRequestDue c) := by
    refine .bind .state fun w => ?_
    split
    · refine .bind safeNow fun _ => ?_
      split
      · exact .bind (safeLogout _) fun _ => .stop (failSafe _)
      · exact .pure _
    · split
      · refine .bind safeNow fun _ => ?_
        split
        · exact safeTestRequest _
        · exact .pure _
      · exact .pure _
  refine .bind .state fun w => .bind safeNow fun _ => ?_
  split
  · exact .pure _
  · exact .bind beats fun _ => asks

end
end FixCli.Session
