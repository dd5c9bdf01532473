import FixCli.SessionCarry
import FixCli.Lib.Trace

/-! What reaches the inbound journal. Wherever a frame comes from, the wire itself, a
realignment or the gap buffer, its envelope was read again and its content checked
against the counters of the moment it is committed. -/
namespace FixCli.Session
open Lib Codec Store

def nextOutAt (start : Nat) : List Event → Nat
  | [] => start
  | .stored (.markOutboundWritten mark) (.ok _) :: _ => mark.msgSeqNum + 1
  | .stored .resetSequences (.ok _) :: _ => 1
  | _ :: past => nextOutAt start past

def resendStop (nextOut requested : Nat) : Nat := if requested = 0 then nextOut - 1 else min requested (nextOut - 1)

structure ValidInbound (c : Ctx) (nextOut msgSeqNum : Nat) (wire : Bytes) (message : ParsedMessage) : Prop where
  parsed : parseFrame wire = .ok message
  beginString : message.beginString = c.config.beginString
  sender : (message.values 49).head? = some c.config.targetCompId
  target : (message.values 56).head? = some c.config.senderCompId
  sequence : requiredU64 message 34 = .ok msgSeqNum
  plain : ∀ field ∈ message.fields, field.tag ∉ [553, 554, 925] ∧ ∀ custom ∈ c.logonFields, custom.tag ≠ field.tag
  logon : message.msgType = some (ascii "A") → requiredU64 message 108 = .ok c.config.heartbeatIntervalSecs
  gapFill : message.msgType = some (ascii "4") → (message.values 123).head? = some (ascii "Y") ∧
    ∃ newSeqNum, requiredU64 message 36 = .ok newSeqNum ∧ msgSeqNum < newSeqNum
  resend : message.msgType = some (ascii "2") → ∃ first last, requiredU64 message 7 = .ok first ∧
    requiredU64 message 16 = .ok last ∧ 1 ≤ first ∧ first ≤ resendStop nextOut last ∧
    resendStop nextOut last ≤ nextOut - 1

def commitsValid (c : Ctx) (start : Nat) (event : Event) (past : List Event) : Prop :=
  ∀ commit answer, event = .stored (.commitInbound commit) answer →
    ∃ message, ValidInbound c (nextOutAt start past) commit.msgSeqNum commit.wire message

section

variable {c : Ctx} {message : ParsedMessage} {nextOut n start : Nat}

theorem resendValid {range : Option (Nat × Nat)}
    (ok : requestedResend nextOut message (ascii "2") = .ok range) : ∃ first last,
      requiredU64 message 7 = .ok first ∧ requiredU64 message 16 = .ok last ∧ 1 ≤ first ∧
      first ≤ resendStop nextOut last ∧ resendStop nextOut last ≤ nextOut - 1 := by
  rw [requestedResend,if_pos rfl] at ok
  obtain ⟨first,asked,ok⟩ := boundOk ok
  obtain ⟨last,upTo,ok⟩ := boundOk ok
  obtain ⟨bounds,inside,-⟩ := boundOk ok
  change (if first = 0 ∨ first > resendStop nextOut last then _ else _) = _ at inside
  split at inside
  · cases inside
  rename_i within
  simp only [not_or] at within
  refine ⟨first,last,asked,upTo,by omega,by omega,?_⟩
  unfold resendStop
  split <;> omega

theorem gapFillValid {next : Nat} (ok : nextInAfter c n n message (ascii "4") = .ok next) :
    (message.values 123).head? = some (ascii "Y") ∧
      ∃ newSeqNum, requiredU64 message 36 = .ok newSeqNum ∧ n < newSeqNum := by
  rw [nextInAfter,if_pos rfl] at ok
  obtain ⟨flag,flagged,ok⟩ := boundOk ok
  split at ok
  · cases ok
  rename_i fills
  obtain ⟨newSeqNum,asked,ok⟩ := boundOk ok
  split at ok
  · cases ok
  rename_i above
  have given := requiredHead.mp (inSessionOk flagged)
  rw [Classical.not_not.mp fills] at given
  exact ⟨given,newSeqNum,inSessionOk asked,by omega⟩

theorem heartBtIntValid (ok : checkHeartBtInt c message (ascii "A") = .ok ()) :
    requiredU64 message 108 = .ok c.config.heartbeatIntervalSecs := by
  rw [checkHeartBtInt,if_pos rfl] at ok
  obtain ⟨heartbeat,asked,ok⟩ := boundOk ok
  split at ok
  · cases ok
  · rename_i same
    rw [asked,Classical.not_not.mp same]

theorem checkedValid {frame : Bytes} {e : Expected} (sequenced : Sequenced c frame message n)
    (checks : inboundChecks c nextOut n n message = .ok e) : ValidInbound c nextOut n frame message := by
  have envelope := parseInboundSource sequenced.parsed
  have checked := checksSource checks
  have typed := (inboundMsgTypeSource checked.msgType).1
  have own {msgType : Bytes} (is : message.msgType = some msgType) : e.msgType = msgType :=
    Option.some.inj (typed.symm.trans is)
  refine ⟨envelope.parsed,envelope.beginString,requiredHead.mp envelope.sender,requiredHead.mp envelope.target,
    sequenced.sequence,fun field mem => ?_,fun is => ?_,fun is => ?_,fun is => ?_⟩
  · have plain := List.find?_eq_none.mp envelope.plain field mem
    simp only [isSensitiveTag,Bool.or_eq_true,decide_eq_true_eq,List.any_eq_true,not_or,not_exists,not_and] at plain
    exact ⟨plain.1,fun custom inside same => plain.2 custom inside (by simp [same])⟩
  · exact heartBtIntValid (own is ▸ checked.heartBtInt)
  · exact gapFillValid (own is ▸ checked.next)
  · exact resendValid (own is ▸ checked.resend)

end

structure Heard (c : Ctx) (start : Nat) (base : List Event) (w : World) (new : List Event) : Prop where
  trace : w.trace = new ++ base
  valid : Always (commitsValid c start) new

structure Tracked (c : Ctx) (start : Nat) (base : List Event) (w : World) (new : List Event) : Prop
    extends Heard c start base w new where
  nextOut : w.nextOut = nextOutAt start new
  buffered : Buffered c w

section

variable {c : Ctx} {start n : Nat} {base new : List Event} {w v : World} {requestId : Bytes}

open Prog

theorem idleKeeps (c : Ctx) (start : Nat) {event : Event} (idle : idleEvent event) (past : List Event) :
    commitsValid c start event past ∧ nextOutAt start (event :: past) = nextOutAt start past := by
  refine ⟨fun commit answer same => ?_,?_⟩
  · subst same
    rcases idle.1 with aside | aside <;> cases aside
  · cases event with
    | stored op answer =>
      rcases idle.1 with aside | aside <;> cases op <;> first | rfl | cases aside
    | _ => rfl

theorem idlesKeep {more : List Event} (idle : ∀ event ∈ more, idleEvent event) (valid : Always (commitsValid c start) new) :
    Always (commitsValid c start) (more ++ new) ∧ nextOutAt start (more ++ new) = nextOutAt start new := by
  induction more with
  | nil => exact ⟨valid,rfl⟩
  | cons event rest ih =>
    obtain ⟨kept,same⟩ := ih fun other mem => idle other (List.mem_cons_of_mem _ mem)
    obtain ⟨here,still⟩ := idleKeeps c start (idle event List.mem_cons_self) (rest ++ new)
    exact ⟨⟨here,kept⟩,still.trans same⟩

theorem Heard.idle (h : Heard c start base w new) (moved : Idle w v) :
    ∃ more, Heard c start base v (more ++ new) ∧ nextOutAt start (more ++ new) = nextOutAt start new := by
  obtain ⟨more,trace,idle⟩ := moved.trace
  obtain ⟨valid,same⟩ := idlesKeep idle h.valid
  exact ⟨more,⟨by rw [trace,h.trace,List.append_assoc],valid⟩,same⟩

theorem Tracked.idle (h : Tracked c start base w new) (moved : Idle w v) : ∃ new, Tracked c start base v new := by
  obtain ⟨more,heard,same⟩ := h.toHeard.idle moved
  exact ⟨more ++ new,heard,by rw [moved.nextOut,h.nextOut,same],h.buffered.same moved.gapBuffer⟩

theorem Heard.stores (h : Heard c start base w new) {op : StoreOp}
    (other : ∀ answer, commitsValid c start (.stored op answer) new) :
    ∃ more, Heard c start base (storeApply c op w).2 (more ++ new) ∧
      (more = [] ∨ ∃ answer, more = [.stored op answer]) := by
  obtain ⟨-,same | ⟨answer,same⟩⟩ := storeTrace c op w
  · exact ⟨[],⟨same.trans h.trace,h.valid⟩,.inl rfl⟩
  · exact ⟨[_],⟨by rw [same,h.trace]; rfl,other answer,h.valid⟩,.inr ⟨answer,rfl⟩⟩

theorem Heard.emits (h : Heard c start base w new) {event : Event} (other : commitsValid c start event new)
    (trace : v.trace = event :: w.trace) : Heard c start base v (event :: new) :=
  ⟨by rw [trace,h.trace]; rfl,other,h.valid⟩

theorem Tracked.stored (h : Tracked c start base w new) {op : StoreOp} {reply : StoreReply}
    (run : storeApply c op w = (.ok reply,v)) (valid : ∀ answer, commitsValid c start (.stored op answer) new)
    (still : ∀ answer, nextOutAt start (.stored op answer :: new) = nextOutAt start new) :
    ∃ new, Tracked c start base v new := by
  obtain ⟨-,-,rfl⟩ := storeReturned run
  exact ⟨_,h.toHeard.emits (valid _) rfl,h.nextOut.trans (still _).symm,h.buffered.same rfl⟩

theorem heardStops (h : Heard c start base w new) {op : StoreOp} {halt : Halt}
    (run : storeApply c op w = (.error halt,v)) (valid : ∀ answer, commitsValid c start (.stored op answer) new) :
    ∃ new, Heard c start base v new := by
  obtain ⟨more,heard,-⟩ := h.stores valid
  rw [run] at heard
  exact ⟨_,heard⟩

theorem trackedOutbound (commit : OutboundCommit) :
    Meets (fun w => ∃ new, Tracked c start base w new) (storeApply c (.commitOutbound commit))
      (fun reply w => ∃ command, reply = .command command ∧ ∃ new, Tracked c start base w new)
      (fun _ w => ∃ new, Heard c start base w new) := by
  rintro w ⟨new,h⟩
  have valid : ∀ answer, commitsValid c start (.stored (.commitOutbound commit) answer) new :=
    fun answer _ _ same => by cases same
  rcases run : storeApply c (.commitOutbound commit) w with ⟨halt | reply,v⟩
  · exact heardStops h.toHeard run valid
  · obtain ⟨-,answer,-⟩ := storeReturned run
    have tracked := h.stored run valid fun _ => rfl
    rcases commitOutboundSource answer with ⟨existing,-,-,rfl,-⟩ | ⟨-,-,rfl,-⟩
    · exact ⟨existing,rfl,tracked⟩
    · exact ⟨_,rfl,tracked⟩

theorem trackedMark : Meets (fun w => ∃ new, Tracked c start base w new)
    (storeApply c (.markOutboundWritten ⟨requestId,n⟩))
    (fun reply w => (∃ command, reply = .command command ∧ command.msgSeqNum = n) ∧
      ∃ new, Tracked c start base {w with nextOut := n + 1} new)
    (fun _ w => ∃ new, Heard c start base w new) := by
  rintro w ⟨new,h⟩
  have valid : ∀ answer, commitsValid c start (.stored (.markOutboundWritten ⟨requestId,n⟩) answer) new :=
    fun answer _ _ same => by cases same
  rcases run : storeApply c (.markOutboundWritten ⟨requestId,n⟩) w with ⟨halt | reply,v⟩
  · exact heardStops h.toHeard run valid
  · obtain ⟨-,answer,rfl⟩ := storeReturned run
    obtain ⟨command,_,-,number,-,rfl,-⟩ := markOutboundWrittenSource answer
    refine ⟨⟨_,rfl,number⟩,_,⟨h.toHeard.emits (valid _) rfl,?_,h.buffered.same rfl⟩⟩
    simp only [answer,nextOutAt]

theorem trackedRealign (n : Nat) : Meets (fun w => ∃ new, Tracked c start base w new) (realign c n)
    (fun _ w => (∃ new, Tracked c start base w new) ∧ w.nextIn = n) (fun _ w => ∃ new, Heard c start base w new) := by
  rintro w ⟨new,h⟩
  by_cases phase : w.phase = .logonSent
  · rw [realignRun phase]
    have logged : Tracked c start base (desynced w n) (.logged (.info (desyncText w.nextIn n)) :: new) :=
      ⟨h.toHeard.emits (fun _ _ same => by cases same) rfl,h.nextOut,h.buffered.same rfl⟩
    have valid (past : List Event) : ∀ answer,
        commitsValid c start (.stored (.resyncInbound (resyncCommit w n)) answer) past :=
      fun answer _ _ same => by cases same
    rcases run : storeApply c (.resyncInbound (resyncCommit w n)) (desynced w n) with ⟨halt | reply,v⟩
    · exact heardStops logged.toHeard run (valid _)
    · obtain ⟨new,after⟩ := logged.stored run (valid _) fun _ => rfl
      refine ⟨⟨.expecting n :: new,?_,after.nextOut,after.buffered.same rfl⟩,rfl⟩
      exact after.toHeard.emits (fun _ _ same => by cases same) rfl
  · rw [realignRefused phase]
    exact ⟨new,h.toHeard⟩

theorem trackedCommit (w : World) (f : Bytes) (m : ParsedMessage) (e : Expected)
    (sequenced : Sequenced c f m w.nextIn) (checks : inboundChecks c w.nextOut w.nextIn w.nextIn m = .ok e)
    (h : Tracked c start base w new) : match storeApply c (.commitInbound (inboundCommit w w.nextIn f e)) w with
      | (.ok _, v) => ∃ new, Tracked c start base (counted e v) new
      | (.error _, v) => ∃ new, Heard c start base v new := by
  have valid : ∀ answer,
      commitsValid c start (.stored (.commitInbound (inboundCommit w w.nextIn f e)) answer) new := by
    intro answer commit _ same
    cases same
    exact ⟨m,h.nextOut ▸ checkedValid sequenced checks⟩
  rcases run : storeApply c (.commitInbound (inboundCommit w w.nextIn f e)) w with ⟨halt | reply,v⟩
  · exact heardStops h.toHeard run valid
  · obtain ⟨new,after⟩ := h.stored run valid fun _ => rfl
    refine ⟨.expecting e.nextInAfter :: new,?_,after.nextOut,after.buffered.same rfl⟩
    exact after.toHeard.emits (fun _ _ same => by cases same) rfl

theorem trackedCarries (start : Nat) (base : List Event) : Carries c (fun w => ∃ new, Tracked c start base w new)
    (fun w => ∃ new, Heard c start base w new) (fun _ _ w => ∃ new, Tracked c start base w new) where
  fails := fun _ ⟨new,h⟩ => ⟨new,h.toHeard⟩
  owedFails := fun _ _ _ ⟨new,h⟩ => ⟨new,h.toHeard⟩
  idle := fun _ _ moved ⟨_,h⟩ => h.idle moved
  owedIdle := fun _ _ _ _ moved ⟨_,h⟩ => h.idle moved
  ends := fun _ _ moved ⟨_,h⟩ => by
    obtain ⟨more,heard,-⟩ := h.idle moved
    exact ⟨_,heard⟩
  buffered := fun _ ⟨_,h⟩ => h.buffered
  buffers := fun _ _ ⟨new,h⟩ inside => ⟨new,⟨h.trace,h.valid⟩,h.nextOut,inside⟩
  admin := fun _ _ _ _ _ _ w h => trackedOutbound _ w h.1
  marks := fun _ _ => trackedMark
  realign := trackedRealign
  commit := fun w f m e sequenced checks ⟨_,h⟩ => trackedCommit w f m e sequenced checks h

theorem trackedStep {conn : Conn} {input : Input}
    (holds : Holds (fun w => ∃ new, Tracked c start base w new) (fun w => ∃ new, Heard c start base w new) conn) :
    Holds (fun w => ∃ new, Tracked c start base w new) (fun w => ∃ new, Heard c start base w new)
      (step c conn input) := by
  have carries := trackedCarries (c := c) start base
  refine carries.steps (fun request _ live => carries.submits (holds.2 live) fun _ wire => ?_) holds
  refine Meets.weaken (trackedOutbound _) (fun _ h => h.1) ?_ fun _ _ h => h
  rintro reply w ⟨command,rfl,tracked⟩
  exact ⟨command,rfl,(em (command.msgSeqNum < conn.world.nextOut)).imp (fun low => ⟨tracked,low⟩)
    fun late => ⟨tracked,late⟩⟩

theorem trackedSpawn (s : Shared) :
    Holds (fun w => ∃ new, Tracked c s.journal.nextOut s.trace w new)
      (fun w => ∃ new, Heard c s.journal.nextOut s.trace w new) (spawn c s) := by
  have start : Tracked c s.journal.nextOut s.trace (entering c s) [] :=
    ⟨⟨rfl,trivial⟩,rfl,fun k f found => by simp [entering] at found⟩
  refine (trackedCarries _ _).spawns ⟨[],start.toHeard⟩ ?_
  rintro w rfl
  have resets (answer) : commitsValid c s.journal.nextOut (.stored .resetSequences answer) [] :=
    fun _ _ same => by cases same
  unfold resetIfConfigured
  by_cases reset : c.config.resetOnLogon = true
  · rw [if_pos reset]
    rcases run : storeApply c .resetSequences (entering c s) with ⟨halt | reply,v⟩
    · rw [resetOnLogon,bindStops run]
      exact heardStops start.toHeard run resets
    · obtain ⟨-,answer,rfl⟩ := storeReturned run
      cases answer
      rw [resetOnLogon,bindReturns run]
      refine ⟨[_, .expecting 1, .stored .resetSequences _],⟨⟨rfl,?_,?_,resets _,trivial⟩,rfl,?_⟩⟩
      · exact fun _ _ same => by cases same
      · exact fun _ _ same => by cases same
      · exact start.buffered.same rfl
  · rw [if_neg reset]
    exact ⟨[],start⟩

theorem inboundValidated (c : Ctx) (s : Shared) (inputs : List Input) :
    ∃ new, (run c (spawn c s) inputs).world.trace = new ++ s.trace ∧
      ((run c (spawn c s) inputs).live = true →
        (run c (spawn c s) inputs).world.nextOut = nextOutAt s.journal.nextOut new) ∧
      Always (commitsValid c s.journal.nextOut) new := by
  have free : Along (step c) (fun _ _ => True) (spawn c s) inputs := alongAlways (fun _ _ => trivial) _ inputs
  have holds : Holds (fun w => ∃ new, Tracked c s.journal.nextOut s.trace w new)
      (fun w => ∃ new, Heard c s.journal.nextOut s.trace w new) (run c (spawn c s) inputs) :=
    foldInvariant (fun _ _ _ holds => trackedStep holds) (trackedSpawn s) free
  obtain ⟨new,heard⟩ := holds.1
  refine ⟨new,heard.trace,fun live => ?_,heard.valid⟩
  obtain ⟨other,tracked⟩ := holds.2 live
  have same : other = new := List.append_cancel_right (tracked.trace.symm.trans heard.trace)
  rw [tracked.nextOut,same]

end
end FixCli.Session
