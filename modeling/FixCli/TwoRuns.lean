import FixCli.Lib.Twice
import FixCli.SessionRun

/-! Two actors whose custom Logon fields have the same tags, side by side: behind
the Logon they do the same, whatever tells their traces apart. -/
namespace FixCli.Session
open Lib Codec Store Prog

abbrev Ctx.withFields (c : Ctx) (fields : List Field) : Ctx := {c with logonFields := fields}

class Follows (T : List Event → List Event → Prop) : Prop where
  cons : ∀ event t t', T t t' → T (event :: t) (event :: t')

def Like (T : List Event → List Event → Prop) (w v : World) : Prop :=
  ∃ trace, v = {w with trace := trace} ∧ T w.trace trace

section

variable {T : List Event → List Event → Prop} {c : Ctx} {fields : List Field}

theorem likeChange {f : World → World} (deaf : ∀ w trace, f {w with trace := trace} = {f w with trace := trace})
    (quiet : ∀ w, (f w).trace = w.trace) : Twice (Like T) (Prog.change f : Act Unit) (Prog.change f) := by
  refine Twice.change ?_
  rintro w _ ⟨trace,rfl,related⟩
  exact ⟨trace,deaf w trace,by rw [quiet]; exact related⟩

theorem likeRead {β : Type} {k k' : World → Act β} (h : ∀ w trace, Twice (Like T) (k w) (k' {w with trace := trace})) :
    Twice (Like T) (Prog.state >>= k) (Prog.state >>= k') := by
  refine Twice.read ?_
  rintro w _ ⟨trace,rfl,-⟩
  exact h w trace

theorem likeTime : Twice (Like T) (sendingTime c) (sendingTime (c.withFields fields)) := by
  rintro w _ ⟨trace,rfl,related⟩
  exact ⟨rfl,trace,rfl,related⟩

theorem likeNow : Twice (Like T) (now c) (now (c.withFields fields)) := by
  rintro w _ ⟨trace,rfl,related⟩
  exact ⟨rfl,trace,rfl,related⟩

theorem likeSocket {path : SendPath} {wire wire' : Bytes}
    (writes : ∀ j t t', T t t' → T (.wrote path wire j :: t) (.wrote path wire' j :: t')) :
    Twice (Like T) (socketWrite c path wire) (socketWrite (c.withFields fields) path wire') := by
  rintro w _ ⟨trace,rfl,related⟩
  simp only [socketWrite]
  cases c.env.ioFault w.tick with
  | none | lost _ | crashAfter => exact ⟨rfl,_,rfl,writes _ _ _ related⟩
  | refused _ | crashBefore => exact ⟨rfl,_,rfl,related⟩

theorem likeHeader (msgType : Bytes) :
    Twice (Like T) (standardHeader c msgType) (standardHeader (c.withFields fields) msgType) :=
  Twice.bind likeTime fun _ => likeRead fun _ _ => Twice.pure _

theorem likeBody (requiresTransactTime : Bool) (body : List Field) : Twice (Like T)
    (appendBody c requiresTransactTime body) (appendBody (c.withFields fields) requiresTransactTime body) := by
  induction body with
  | nil => exact Twice.pure _
  | cons field rest ih =>
    simp only [appendBody]
    exact Twice.ite Iff.rfl (Twice.bind likeTime fun _ => Twice.bind ih fun _ => Twice.pure _)
      (Twice.bind ih fun _ => Twice.pure _)

theorem likeReplayFields (time : Bytes) (body : List Field) :
    Twice (Like T) (replayFields c time body) (replayFields (c.withFields fields) time body) := by
  induction body with
  | nil => exact Twice.pure _
  | cons field rest ih =>
    simp only [replayFields]
    refine Twice.ite Iff.rfl ih (Twice.ite Iff.rfl (Twice.bind ih fun _ => Twice.pure _) ?_)
    exact Twice.ite Iff.rfl (Twice.bind likeTime fun _ => Twice.bind ih fun _ => Twice.pure _)
      (Twice.bind ih fun _ => Twice.pure _)

theorem likeSubmitFields (request : ApplicationRequest) :
    Twice (Like T) (submitFields c request) (submitFields (c.withFields fields) request) :=
  Twice.bind (likeHeader _) fun _ => Twice.bind (Twice.ofExcept _) fun _ => Twice.bind (likeBody _ _) fun _ =>
    Twice.ite Iff.rfl (Twice.stop _) (Twice.pure _)

theorem likeAnswered (message : ParsedMessage) (msgType : Bytes) :
    Twice (Like T) (testRequestAnswered message msgType) (testRequestAnswered message msgType) := by
  refine likeChange (fun w trace => ?_) (fun w => ?_)
  · dsimp only
    split
    · split <;> rfl
    · rfl
  · split
    · split <;> rfl
    · rfl

variable [Follows T]

theorem likeEmit (event : Event) : Twice (Like T) (emit event) (emit event) := by
  refine Twice.change ?_
  rintro w _ ⟨trace,rfl,related⟩
  exact ⟨event :: trace,rfl,Follows.cons event _ _ related⟩

theorem likePhase (phase : SessionPhase) : Twice (Like T) (setPhase phase) (setPhase phase) := by
  refine Twice.change ?_
  rintro w _ ⟨trace,rfl,related⟩
  exact ⟨.phaseChanged phase :: trace,rfl,Follows.cons _ _ _ related⟩

theorem likeNextIn (nextIn : Nat) : Twice (Like T) (setNextIn nextIn) (setNextIn nextIn) := by
  refine Twice.change ?_
  rintro w _ ⟨trace,rfl,related⟩
  exact ⟨.expecting nextIn :: trace,rfl,Follows.cons _ _ _ related⟩

theorem likeStore (op : StoreOp) : Twice (Like T) (storeApply c op) (storeApply (c.withFields fields) op) := by
  rintro w _ ⟨trace,rfl,related⟩
  simp only [storeApply]
  cases c.env.storeFault w.tick with
  | none => cases (apply w.journal op).1 <;> exact ⟨rfl,_,rfl,Follows.cons _ _ _ related⟩
  | refused _ | lost _ | crashAfter => exact ⟨rfl,_,rfl,Follows.cons _ _ _ related⟩
  | crashBefore => exact ⟨rfl,_,rfl,related⟩

theorem likeWrite (path : SendPath) (wire : Bytes) :
    Twice (Like T) (writeWire c path wire) (writeWire (c.withFields fields) path wire) :=
  Twice.bind (likeEmit _) fun _ => Twice.bind (likeSocket fun _ _ _ => Follows.cons _ _ _) fun _ =>
    Twice.bind likeNow fun _ => likeChange (fun _ _ => rfl) (fun _ => rfl)

theorem likeAdmin (send : AdminSend) {after after' : Act Unit} (h : Twice (Like T) after after') :
    Twice (Like T) (sendAdmin c send after) (sendAdmin (c.withFields fields) send after') := by
  refine likeRead fun w trace => Twice.bind (likeStore _) fun reply => ?_
  cases reply with
  | command command =>
    exact Twice.bind (likeWrite _ _) fun _ => Twice.bind h fun _ => Twice.bind (likeStore _) fun _ =>
      likeChange (fun _ _ => rfl) (fun _ => rfl)
  | _ => exact Twice.stop _

theorem likeResend (beginSeqNum : Nat) :
    Twice (Like T) (sendResendRequest c beginSeqNum) (sendResendRequest (c.withFields fields) beginSeqNum) :=
  Twice.bind (likeHeader _) fun _ => Twice.bind (Twice.ofExcept _) fun _ =>
    likeRead fun _ _ => likeAdmin _ (Twice.pure _)

theorem likeHeartbeat (testRequestId : Option Bytes) : Twice (Like T) (sendHeartbeatResponse c testRequestId)
    (sendHeartbeatResponse (c.withFields fields) testRequestId) :=
  Twice.bind (likeHeader _) fun _ => Twice.bind (Twice.ofExcept _) fun _ =>
    likeRead fun _ _ => likeAdmin _ (Twice.pure _)

theorem likeTestRequest (responseTimeout : Nat) : Twice (Like T) (sendTestRequest c responseTimeout)
    (sendTestRequest (c.withFields fields) responseTimeout) :=
  likeRead fun _ _ => Twice.bind (likeHeader _) fun _ => Twice.bind (Twice.ofExcept _) fun _ =>
    Twice.bind (likeAdmin _ (Twice.pure _)) fun _ => Twice.bind likeNow fun _ =>
      likeChange (fun _ _ => rfl) (fun _ => rfl)

theorem likeLogout (text : Option Bytes) :
    Twice (Like T) (sendLogout c text) (sendLogout (c.withFields fields) text) :=
  likeRead fun _ _ => Twice.ite Iff.rfl (Twice.stop _) <|
    Twice.bind (likeHeader _) fun _ => Twice.bind (Twice.ofExcept _) fun _ =>
      likeRead fun _ _ => Twice.bind (likeAdmin _ (Twice.pure _)) fun _ => likePhase _

theorem likeSubmit (request : ApplicationRequest) :
    Twice (Like T) (submitApplication c request) (submitApplication (c.withFields fields) request) := by
  refine likeRead fun w trace => Twice.ite Iff.rfl (Twice.stop _) ?_
  refine Twice.bind (Twice.ofExcept _) fun _ => Twice.bind (likeSubmitFields request) fun _ =>
    Twice.bind (Twice.ofExcept _) fun _ => Twice.bind (likeStore _) fun reply => ?_
  cases reply with
  | command command =>
    refine Twice.ite Iff.rfl (Twice.pure _) (Twice.ite Iff.rfl (Twice.stop _) ?_)
    refine Twice.bind (likeWrite _ _) fun _ => Twice.bind (likeStore _) fun reply => ?_
    cases reply with
    | command command => exact Twice.bind (likeChange (fun _ _ => rfl) (fun _ => rfl)) fun _ => Twice.pure _
    | _ => exact Twice.stop _
  | _ => exact Twice.stop _

theorem likeTransmission (path : SendPath) (msgSeqNum : Nat) (kind : String) (wire : Bytes) :
    Twice (Like T) (writeReplayTransmission c path msgSeqNum kind wire)
      (writeReplayTransmission (c.withFields fields) path msgSeqNum kind wire) := by
  refine Twice.bind (likeStore _) fun reply => ?_
  cases reply with
  | transmission record =>
    exact Twice.bind (likeWrite _ _) fun _ => Twice.bind (likeStore _) fun _ => Twice.pure _
  | _ => exact Twice.stop _

theorem likeApplicationReplay (wire : Bytes) :
    Twice (Like T) (writeApplicationReplay c wire) (writeApplicationReplay (c.withFields fields) wire) :=
  Twice.bind (Twice.ofExcept _) fun _ => Twice.bind (Twice.ofExcept _) fun _ =>
    Twice.bind (Twice.ofExcept _) fun _ => Twice.bind (likeReplayFields _ _) fun _ =>
      Twice.bind (Twice.ofExcept _) fun _ => likeTransmission _ _ _ _

theorem likeGapFill (gapStart newSeqNum : Nat) :
    Twice (Like T) (writeGapFill c gapStart newSeqNum) (writeGapFill (c.withFields fields) gapStart newSeqNum) :=
  Twice.bind likeTime fun _ => Twice.bind (Twice.ofExcept _) fun _ => likeTransmission _ _ _ _

theorem likeCloseGap (gapStart : Option Nat) (newSeqNum : Nat) :
    Twice (Like T) (closeGap c gapStart newSeqNum) (closeGap (c.withFields fields) gapStart newSeqNum) := by
  cases gapStart with
  | none => exact Twice.pure _
  | some start => exact likeGapFill _ _

theorem likeReplayLoop (records : Table Nat OutboundRecord) (endSeqNum : Nat) (sequences : List Nat)
    (gapStart : Option Nat) : Twice (Like T) (replayLoop c records endSeqNum sequences gapStart)
      (replayLoop (c.withFields fields) records endSeqNum sequences gapStart) := by
  induction sequences generalizing gapStart with
  | nil => exact likeCloseGap _ _
  | cons sequence rest ih =>
    simp only [replayLoop]
    cases records[sequence]? with
    | none => exact ih _
    | some record =>
      exact Twice.ite Iff.rfl (Twice.bind (likeCloseGap _ _) fun _ =>
        Twice.bind (likeApplicationReplay _) fun _ => ih none) (ih _)

theorem likeReplay (beginSeqNum endSeqNum : Nat) : Twice (Like T) (replayValidatedRange c beginSeqNum endSeqNum)
    (replayValidatedRange (c.withFields fields) beginSeqNum endSeqNum) := by
  refine Twice.bind (likeStore _) fun reply => ?_
  cases reply with
  | outbound records => exact likeReplayLoop _ _ _ _
  | _ => exact Twice.stop _

theorem likeVerify (replay : ParsedMessage) (msgSeqNum : Nat) :
    Twice (Like T) (verifyPossdup c replay msgSeqNum) (verifyPossdup (c.withFields fields) replay msgSeqNum) := by
  refine Twice.bind (Twice.ofExcept _) fun _ => Twice.bind (likeStore _) fun reply => ?_
  cases reply with
  | storedInbound record =>
    cases record with
    | none => exact Twice.stop _
    | some original => exact Twice.ofExcept _
  | _ => exact Twice.stop _

theorem likeLogonReceived (msgType : Bytes) : Twice (Like T) (logonReceived msgType) (logonReceived msgType) :=
  likeRead fun _ _ => Twice.ite Iff.rfl (Twice.bind (likeEmit _) fun _ => likePhase _) (Twice.pure _)

theorem likeLogoutReceived (msgType : Bytes) :
    Twice (Like T) (logoutReceived c msgType) (logoutReceived (c.withFields fields) msgType) := by
  refine Twice.ite Iff.rfl (Twice.bind (likeEmit _) fun _ => Twice.bind ?_ fun _ => likePhase _) (Twice.pure _)
  exact likeRead fun _ _ => Twice.ite Iff.rfl (likeLogout none) (Twice.pure _)

theorem likeAfterCommit (message : ParsedMessage) (expected : Expected) :
    Twice (Like T) (afterCommit c message expected) (afterCommit (c.withFields fields) message expected) := by
  refine Twice.bind (likeLogonReceived _) fun _ => Twice.bind (likeAnswered _ _) fun _ =>
    Twice.bind (likeLogoutReceived _) fun _ => Twice.bind ?_ fun _ => ?_
  · cases expected.requestedResend with
    | none => exact Twice.pure _
    | some range => exact likeReplay _ _
  · cases expected.heartbeatResponse with
    | none => exact Twice.pure _
    | some testRequestId => exact likeHeartbeat _

theorem likeCommit (message : ParsedMessage) (frame : Bytes) :
    Twice (Like T) (commitExpected c message frame) (commitExpected (c.withFields fields) message frame) := by
  refine Twice.bind (Twice.ofExcept _) fun msgSeqNum => Twice.bind ?_ fun realigned => ?_
  · exact likeRead fun _ _ => Twice.ite Iff.rfl (Twice.ite Iff.rfl (Twice.stop _)
      (Twice.bind (likeEmit _) fun _ => Twice.pure _)) (Twice.pure _)
  · refine likeRead fun w trace => Twice.bind (Twice.ofExcept _) fun expected => likeRead fun v behind => ?_
    exact Twice.bind (likeStore _) fun _ => Twice.bind (likeNextIn _) fun _ =>
      Twice.bind (likeChange (fun _ _ => rfl) (fun _ => rfl)) fun _ => likeAfterCommit _ _

theorem likeBuffer (msgSeqNum : Nat) (frame : Bytes) :
    Twice (Like T) (bufferGap c msgSeqNum frame) (bufferGap (c.withFields fields) msgSeqNum frame) :=
  likeRead fun _ _ => Twice.ite Iff.rfl (Twice.stop _) <|
    Twice.bind (likeChange (fun _ _ => rfl) (fun _ => rfl)) fun _ => likeRead fun _ _ =>
      Twice.ite Iff.rfl (Twice.bind (likeResend _) fun _ => likePhase _) (Twice.pure _)

theorem likeRealign (msgSeqNum : Nat) :
    Twice (Like T) (realignIfLow c msgSeqNum) (realignIfLow (c.withFields fields) msgSeqNum) := by
  refine likeRead fun _ _ => Twice.ite Iff.rfl (likeRead fun _ _ => Twice.ite Iff.rfl ?_ (Twice.stop _))
    (Twice.pure _)
  exact Twice.bind (likeEmit _) fun _ => Twice.bind (likeStore _) fun _ =>
    Twice.bind (likeChange (fun _ _ => rfl) (fun _ => rfl)) fun _ => likeNextIn _

theorem likeCommand (command : ActorCommand) :
    Twice (Like T) (handleCommand c command) (handleCommand (c.withFields fields) command) := by
  refine Twice.bind (Twice.attempt ?_) fun result => Twice.bind (likeEmit _) fun _ => ?_
  · cases command with
    | status => exact likeRead fun _ _ => Twice.pure _
    | lookupCommand requestId =>
      refine Twice.bind (Twice.bind (likeStore _) fun reply => ?_) fun _ => Twice.pure _
      cases reply <;> first | exact Twice.pure _ | exact Twice.stop _
    | submit request => exact Twice.bind (likeSubmit request) fun _ => Twice.pure _
    | logout text => exact Twice.bind (likeLogout text) fun _ => Twice.pure _
  · cases result with
    | error error => exact Twice.ite Iff.rfl (Twice.stop _) (Twice.pure _)
    | ok _ => exact Twice.pure _

theorem likeDue : Twice (Like T) (heartbeatDue c) (heartbeatDue (c.withFields fields)) := by
  refine likeRead fun w trace => Twice.bind likeNow fun woken => Twice.ite Iff.rfl (Twice.pure _) ?_
  refine Twice.bind (likeRead fun _ _ => Twice.ite Iff.rfl (likeHeartbeat none) (Twice.pure _)) fun _ =>
    likeRead fun v behind => ?_
  dsimp only
  cases v.testRequest with
  | some outstanding =>
    exact Twice.bind likeNow fun _ => Twice.ite Iff.rfl
      (Twice.bind (likeLogout _) fun _ => Twice.stop _) (Twice.pure _)
  | none =>
    exact Twice.ite Iff.rfl (Twice.bind likeNow fun _ => Twice.ite Iff.rfl (likeTestRequest _) (Twice.pure _))
      (Twice.pure _)

def LikeConn (T : List Event → List Event → Prop) (a b : Conn) : Prop := a.live = b.live ∧ Like T a.world b.world

theorem likeSettle {a b : Except Halt Unit × World} (both : Both (Like T) a b) :
    LikeConn T (settle a) (settle b) := by
  obtain ⟨r,w⟩ := a
  obtain ⟨same,trace,worlds,related⟩ := both
  obtain rfl : b = (r,{w with trace := trace}) := Prod.ext same.symm worlds
  cases r with
  | ok _ => exact ⟨rfl,trace,rfl,related⟩
  | error halt =>
    cases halt with
    | fail error => exact ⟨rfl,_,rfl,Follows.cons _ _ _ (Follows.cons _ _ _ (Follows.cons _ _ _ (Follows.cons _ _ _ related)))⟩
    | panic | crash => exact ⟨rfl,trace,rfl,related⟩

end

theorem sameSensitive {c : Ctx} {fields : List Field}
    (tags : fields.map Field.tag = c.logonFields.map Field.tag) : isSensitiveTag (c.withFields fields) = isSensitiveTag c := by
  funext tag
  have any : ∀ fs : List Field, fs.any (fun field => field.tag == tag) = (fs.map Field.tag).any (· == tag) := by
    intro fs
    rw [List.any_map]
    rfl
  simp only [isSensitiveTag,any,tags]

theorem sameParse {c : Ctx} {fields : List Field} (tags : fields.map Field.tag = c.logonFields.map Field.tag)
    (frame : Bytes) : parseInbound (c.withFields fields) frame = parseInbound c frame := by
  simp only [parseInbound,sameSensitive tags]

section

variable {T : List Event → List Event → Prop} [Follows T] {c : Ctx} {fields : List Field}
  (tags : fields.map Field.tag = c.logonFields.map Field.tag)
include tags

theorem likeDrain (fuel : Nat) : Twice (Like T) (drain c fuel) (drain (c.withFields fields) fuel) := by
  induction fuel with
  | zero => exact Twice.pure _
  | succ fuel ih =>
    simp only [drain]
    refine Twice.bind (likeChange (fun _ _ => rfl) (fun _ => rfl)) fun _ => likeRead fun w trace => ?_
    dsimp only
    cases w.gapBuffer[w.nextIn]? with
    | none => exact Twice.pure _
    | some buffered =>
      simp only [sameParse tags]
      exact Twice.bind (likeChange (fun _ _ => rfl) (fun _ => rfl)) fun _ => Twice.bind (Twice.ofExcept _) fun _ =>
        Twice.bind (likeCommit _ _) fun _ => ih

theorem likeHandle (frame : Bytes) :
    Twice (Like T) (handleInbound c frame) (handleInbound (c.withFields fields) frame) := by
  simp only [handleInbound,sameParse tags]
  refine Twice.bind (Twice.ofExcept _) fun message => Twice.bind likeNow fun _ =>
    Twice.bind (likeChange (fun _ _ => rfl) (fun _ => rfl)) fun _ => Twice.bind (Twice.ofExcept _) fun msgSeqNum =>
      likeRead fun _ _ => Twice.ite Iff.rfl (likeBuffer _ _) (Twice.ite Iff.rfl (likeVerify _ _) ?_)
  refine Twice.bind (likeRealign _) fun _ => Twice.bind (likeCommit _ _) fun _ => Twice.bind ?_ fun _ => ?_
  · exact likeRead fun _ _ => likeDrain tags _
  · exact likeRead fun _ _ => Twice.ite Iff.rfl (likePhase _) (Twice.pure _)

theorem likeStep {a b : Conn} (like : LikeConn T a b) (input : Input) :
    LikeConn T (step c a input) (step (c.withFields fields) b input) := by
  obtain ⟨live,same⟩ := like
  unfold step
  rw [← live]
  by_cases going : a.live = true
  swap
  · rw [if_neg going,if_neg going]
    exact ⟨live,same⟩
  rw [if_pos going,if_pos going]
  have leaves : ∀ {w v : World}, Like T w v → LikeConn T (leave w) (leave v) := by
    rintro w _ ⟨trace,rfl,related⟩
    exact ⟨rfl,_,rfl,Follows.cons _ _ _ related⟩
  cases input with
  | command command => exact likeSettle (likeCommand command _ _ same)
  | handlesDropped => exact leaves same
  | frame wire => exact likeSettle (Twice.bind (likeEmit _) (fun _ => likeHandle tags wire) _ _ same)
  | endOfStream =>
    obtain ⟨trace,worlds,related⟩ := same
    refine leaves ⟨_,?_,Follows.cons _ _ _ (Follows.cons _ _ _ related)⟩
    rw [worlds]
    rfl
  | readFailed text => exact likeSettle (Twice.stop _ _ _ same)
  | decodeFailed stop => exact likeSettle (Twice.stop (decodeHalt stop) _ _ same)
  | timer => exact likeSettle (likeDue _ _ same)

theorem likeRun {a b : Conn} (like : LikeConn T a b) (inputs : List Input) :
    LikeConn T (run c a inputs) (run (c.withFields fields) b inputs) := by
  induction inputs generalizing a b with
  | nil => exact like
  | cons input rest ih => exact ih (likeStep tags like input)

end
end FixCli.Session
