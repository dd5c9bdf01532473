import FixCli.Lib.Trace
import FixCli.AdminRecords

/-! What a session rests on: the commit of a Logon with the configured interval.
A recovery that starts before it can end without it, and a ResendRequest is
answered in any phase; where neither happens, the Logon comes first. -/
namespace FixCli.Session
open Lib Codec Store

def authorises (c : Ctx) : Event → Bool
  | .stored (.commitInbound commit) (.ok _) =>
    decide (commit.msgType = ascii "A") && match parseFrame commit.wire with
      | .ok message => decide (requiredU64 message 108 = .ok c.config.heartbeatIntervalSecs)
      | .error _ => false
  | _ => false

def loggedOn (c : Ctx) (trace : List Event) : Prop := ∃ event ∈ trace, authorises c event = true

instance (c : Ctx) (trace : List Event) : Decidable (loggedOn c trace) := by unfold loggedOn; infer_instance

def LogonGated (c : Ctx) (trace : List Event) : Prop :=
  Always (fun event past => gated event = true → loggedOn c past) trace

instance (c : Ctx) (trace : List Event) : Decidable (LogonGated c trace) := by
  unfold LogonGated; infer_instance

inductive Delivers (c : Ctx) (frames : Table Nat Bytes) (start : Nat) : List ParsedMessage → Nat → Prop
  | start : Delivers c frames start [] start
  | next {messages : List ParsedMessage} {k nextOut : Nat} {frame : Bytes} {message : ParsedMessage}
      {e : Expected} (before : Delivers c frames start messages k) (held : frames[k]? = some frame)
      (sequenced : Sequenced c frame message k) (checks : inboundChecks c nextOut k k message = .ok e) :
      Delivers c frames start (messages ++ [message]) e.nextInAfter

def Accepts (w : World) (message : ParsedMessage) (msgSeqNum : Nat) : Prop :=
  msgSeqNum = w.nextIn ∨ 0 < msgSeqNum ∧ msgSeqNum < w.nextIn ∧ possDup message = false ∧ w.phase = .logonSent

structure HoldsBack (w : World) (messages : List ParsedMessage) (k : Nat) : Prop where
  replays : ∀ message ∈ messages, ∀ sequence, asks message sequence → AdminAt w.journal sequence
  recovers : w.phase = .recovering → messages ≠ [] →
    (∀ message ∈ messages, message.msgType ≠ some (ascii "5")) → ∃ n ∈ w.gapBuffer, k ≤ n

/-- Before the Logon, what an accepted frame brings to commit without one holds back. -/
def WaitsForLogon (c : Ctx) (conn : Conn) (input : Input) : Prop :=
  ∀ wire message msgSeqNum, input = .frame wire → Sequenced c wire message msgSeqNum →
    ¬ loggedOn c conn.world.trace → Accepts conn.world message msgSeqNum →
      ∀ messages k, Delivers c (conn.world.gapBuffer.insert msgSeqNum wire) msgSeqNum messages k →
        (∀ message ∈ messages, ¬ typeLogon message) → HoldsBack conn.world messages k

section

variable {c : Ctx} {α : Type}

open Prog

structure Gated (c : Ctx) (w : World) : Prop where
  trace : LogonGated c w.trace
  phase : w.phase = .established → loggedOn c w.trace
  buffered : Buffered c w

abbrev GateKept (c : Ctx) (w : World) : Prop := LogonGated c w.trace

theorem loggedOnLater {past : List Event} (new : List Event) (on : loggedOn c past) : loggedOn c (new ++ past) := by
  obtain ⟨event,mem,authorised⟩ := on
  exact ⟨event,List.mem_append_right _ mem,authorised⟩

theorem gateUngated {past : List Event} (new : List Event) (kept : LogonGated c past)
    (ungated : ∀ event ∈ new, gated event = false) : LogonGated c (new ++ past) :=
  alwaysAppend kept fun newer event older split isGated => by
    rw [ungated event (by simp [split])] at isGated
    cases isGated

theorem gateOpen {past : List Event} (new : List Event) (kept : LogonGated c past) (on : loggedOn c past) :
    LogonGated c (new ++ past) :=
  alwaysAppend kept fun _ _ older _ _ => loggedOnLater older on

namespace Gated

variable {w v : World}

theorem opened (h : Gated c w) (on : loggedOn c w.trace) (moved : Steady w v) :
    Gated c v ∧ loggedOn c v.trace := by
  obtain ⟨new,trace,-⟩ := moved.trace
  have still : loggedOn c v.trace := by rw [trace]; exact loggedOnLater new on
  exact ⟨⟨by rw [trace]; exact gateOpen new h.trace on,fun _ => still,h.buffered.same moved.gapBuffer⟩,still⟩

theorem ungated {p : List SendPath} (h : Gated c w) (sent : Sends p w v)
    (application : SendPath.application ∉ p) (replay : SendPath.applicationReplay ∉ p) : Gated c v := by
  obtain ⟨new,trace,each⟩ := sent.trace
  refine ⟨?_,fun established => ?_,h.buffered.same sent.gapBuffer⟩
  · rw [trace]
    exact gateUngated new h.trace fun event mem => sentUngated application replay (each event mem)
  · rw [trace]
    exact loggedOnLater new (h.phase (sent.phase ▸ established))

theorem quiet (h : Gated c w) (moved : Quiet w v) : Gated c v := h.ungated (p := []) moved.sends (by simp) (by simp)

theorem change (h : Gated c w) {phase : SessionPhase} (other : phase ≠ .established) :
    Gated c {w with phase := phase, trace := .phaseChanged phase :: w.trace} := by
  refine ⟨gateUngated [_] h.trace fun event mem => ?_,fun same => absurd same other,h.buffered⟩
  rw [List.mem_singleton.mp mem]
  cases phase <;> first | rfl | exact absurd rfl other

end Gated

theorem gatedSend {p : List SendPath} {m : Act α} {P : World → Prop} (moves : Moves (Sends p) m)
    (application : SendPath.application ∉ p) (replay : SendPath.applicationReplay ∉ p)
    (pre : ∀ w, P w → Gated c w) : Meets P m (fun _ => Gated c) (fun _ => GateKept c) :=
  Meets.ofMoves moves (fun w _ sent h => (pre w h).ungated sent application replay) fun _ h => h.trace

theorem gatedLogout (text : Option Bytes) :
    Meets (Gated c) (sendLogout c text) (fun _ => Gated c) (survives (Gated c) (GateKept c)) := by
  intro w h
  rcases logoutCases (c := c) text w with ⟨-,refused⟩ | ⟨-,v,sent,⟨halt,dead,failed⟩ | done⟩
  · rw [refused]
    exact ⟨h.trace,fun _ => h⟩
  · rw [failed]
    exact ⟨(h.ungated sent (by simp) (by simp)).trace,fun live => by rw [dead] at live; cases live⟩
  · rw [done]
    exact (h.ungated sent (by simp) (by simp)).change (by decide)

theorem gatedSubmit (request : ApplicationRequest) :
    Meets (Gated c) (submitApplication c request) (fun _ => Gated c) (survives (Gated c) (GateKept c)) := by
  intro w h
  by_cases established : w.phase = .established
  · have after := (h.opened (h.phase established) (.sends (sendsSubmit (c := c) request w))).1
    exact Meets.outcome after fun _ _ h => ⟨h.trace,fun _ => h⟩
  · have refused : submitApplication c request w = (.error (.fail .notEstablished),w) := by
      simp only [submitApplication,bindRun,stateRun,iteRun,ne_eq,established,not_false_eq_true,if_true]
      rfl
    rw [refused]
    exact ⟨h.trace,fun _ => h⟩

theorem gatedLoop : LoopRules c (Gated c) (GateKept c) where
  quiet := fun _ _ moved h => h.quiet moved
  fails := fun _ h => h.trace
  logout := gatedLogout
  heartbeat := gatedSend (sendsHeartbeatResponse none) (by simp) (by simp) fun _ h => h.1
  testRequest := fun timeout => gatedSend (sendsTestRequest timeout) (by simp) (by simp) fun _ h => h.1
  replies := fun _ _ h => gateUngated [_] h (by simp [gated])
  blocks := fun _ _ h => gateUngated [_, _, _, _] h (by simp [gated])
  leaves := fun _ h => gateUngated [_] h (by simp [gated])
  hangsUp := fun _ h => gateUngated [_, _] h (by simp [gated])

structure Walks (c : Ctx) (start : World) (frame : Bytes) (bound : Nat) (messages : List ParsedMessage)
    (w : World) : Prop where
  reached : ∃ message msgSeqNum, Sequenced c frame message msgSeqNum ∧ Accepts start message msgSeqNum ∧
    Delivers c (start.gapBuffer.insert msgSeqNum frame) msgSeqNum messages w.nextIn ∧
    ∀ k, bound ≤ k → w.gapBuffer[k]? = (start.gapBuffer.insert msgSeqNum frame)[k]?
  unopened : ¬ loggedOn c start.trace
  others : ∀ message ∈ messages, ¬ typeLogon message
  records : Tame start w
  recovering : w.phase = .recovering →
    start.phase = .recovering ∧ ∀ message ∈ messages, message.msgType ≠ some (ascii "5")

structure GatedHead (c : Ctx) (start : World) (frame : Bytes) (w : World) : Prop where
  gated : Gated c w
  walks : ¬ loggedOn c w.trace → ∃ messages ≠ [], Walks c start frame w.nextIn messages w

structure GatedReady (c : Ctx) (start : World) (frame f : Bytes) (n : Nat) (w : World) : Prop where
  gated : Gated c w
  awaited : w.nextIn = n
  walks : ¬ loggedOn c w.trace → ∃ messages, Walks c start frame (n + 1) messages w ∧
    ∀ message msgSeqNum, Sequenced c frame message msgSeqNum →
      (start.gapBuffer.insert msgSeqNum frame)[n]? = some f

def StartWaits (c : Ctx) (start : World) (frame : Bytes) : Prop :=
  ∀ message msgSeqNum, Sequenced c frame message msgSeqNum → ¬ loggedOn c start.trace →
    Accepts start message msgSeqNum → ∀ messages k,
      Delivers c (start.gapBuffer.insert msgSeqNum frame) msgSeqNum messages k →
        (∀ message ∈ messages, ¬ typeLogon message) → HoldsBack start messages k

theorem Gated.subdued {w v : World} (h : Gated c w) (moved : Subdued w v) (phase : v.phase = w.phase) :
    Gated c v := by
  obtain ⟨new,trace,ungated⟩ := moved.trace
  refine ⟨by rw [trace]; exact gateUngated new h.trace ungated,fun established => ?_,
    h.buffered.same moved.gapBuffer⟩
  rw [trace]
  exact loggedOnLater new (h.phase (phase ▸ established))

structure Answered (c : Ctx) (u : World) (logout : Prop) (w : World) : Prop where
  gated : Gated c w
  moved : Subdued u w
  recovering : w.phase = .recovering → u.phase = .recovering ∧ ¬ logout

theorem answeredMoves {u : World} {logout : Prop} {p : List SendPath} {m : Act α} (sends : Moves (Sends p) m)
    (subdued : Moves Subdued m) : Meets (Answered c u logout) m (fun _ => Answered c u logout)
      (fun _ => GateKept c) := by
  intro w h
  have after : Answered c u logout (m w).2 :=
    ⟨h.gated.subdued (subdued w) (sends w).phase,IsTrans.trans u w _ h.moved (subdued w),fun recovering =>
      h.recovering ((sends w).phase ▸ recovering)⟩
  exact Meets.outcome after fun _ _ h => h.gated.trace

theorem logoutIsAnswered {u : World} {msgType : Bytes} :
    Meets (Answered c u False) (logoutReceived c msgType) (fun _ => Answered c u (msgType = ascii "5"))
      (fun _ => GateKept c) := by
  unfold logoutReceived
  by_cases logout : msgType = ascii "5"
  · rw [if_pos logout]
    have logs : Meets (Answered c u False) (info (ascii "Received logout request"))
        (fun _ => Answered c u False) (fun _ => GateKept c) :=
      answeredMoves (p := []) (sendsInfo _)
        (subduedMoves (p := []) (sendsInfo _) (tameChange fun _ => rfl) (by simp) (by simp))
    have answers : Meets (Answered c u False) (answerLogout c)
        (fun _ w => Gated c w ∧ Subdued u w) (fun _ => GateKept c) := by
      intro w h
      simp only [answerLogout,bindRun,stateRun,iteRun]
      by_cases sent : w.phase ≠ .logoutSent
      · rw [if_pos sent]
        rcases logoutCases (c := c) none w with ⟨-,refused⟩ | ⟨-,v,sent,⟨halt,-,failed⟩ | done⟩
        · rw [refused]; exact h.gated.trace
        · rw [failed]; exact (h.gated.ungated sent (by simp) (by simp)).trace
        · have tame := tameLogout (c := c) none w
          rw [done] at tame ⊢
          have sends : Subdued w v := .sends sent tame (by simp) (by simp)
          obtain ⟨new,trace,ungated⟩ := sends.trace
          have shut : Subdued w (loggingOut v) := by
            refine ⟨sends.nextIn,sends.gapBuffer,tame,.phaseChanged .logoutSent :: new,?_,?_⟩
            · exact congrArg (_ :: ·) trace
            · exact List.forall_mem_cons.mpr ⟨rfl,ungated⟩
          exact ⟨(h.gated.ungated sent (by simp) (by simp)).change (by decide),
            IsTrans.trans u w _ h.moved shut⟩
      · rw [if_neg sent]
        exact ⟨h.gated,h.moved⟩
    refine Meets.bind logs fun _ => Meets.bind answers fun _ => Meets.change fun w h => ?_
    refine ⟨h.1.change (by decide),?_,fun recovering => by cases recovering⟩
    exact IsTrans.trans u w _ h.2 ⟨rfl,rfl,fun _ h => h,[_],rfl,by simp [gated]⟩
  · rw [if_neg logout]
    exact Meets.pure fun w h => ⟨h.gated,h.moved,fun recovering => ⟨(h.recovering recovering).1,logout⟩⟩

theorem answeredCommit {u : World} {m : ParsedMessage} {e : Expected} (gated : Gated c u)
    (other : e.msgType ≠ ascii "A")
    (admin : ∀ beginSeqNum endSeqNum, e.requestedResend = some (beginSeqNum,endSeqNum) → ∀ sequence,
      beginSeqNum ≤ sequence → sequence ≤ endSeqNum → AdminAt u.journal sequence) :
    Meets (· = u) (afterCommit c m e) (fun _ => Answered c u (e.msgType = ascii "5")) (fun _ => GateKept c) := by
  have logon : Meets (· = u) (logonReceived e.msgType) (fun _ => Answered c u False) (fun _ => GateKept c) := by
    rintro w rfl
    simp only [logonReceived,bindRun,stateRun,iteRun]
    rw [if_neg fun h => other h.1]
    exact ⟨gated,Std.Refl.refl w,fun recovering => ⟨recovering,not_false⟩⟩
  have test : Meets (Answered c u False) (testRequestAnswered m e.msgType)
      (fun _ => Answered c u False) (fun _ => GateKept c) := by
    have tame : Moves Tame (testRequestAnswered m e.msgType) := by
      refine tameChange fun w => ?_
      repeat' split
      all_goals rfl
    exact answeredMoves (p := []) (sendsTestRequestAnswered _ _)
      (subduedMoves (p := []) (sendsTestRequestAnswered _ _) tame (by simp) (by simp))
  have resend : Meets (Answered c u (e.msgType = ascii "5")) (answerResendRequest c e.requestedResend)
      (fun _ => Answered c u (e.msgType = ascii "5")) (fun _ => GateKept c) := by
    cases range : e.requestedResend with
    | none => exact Meets.pure fun _ h => h
    | some bounds =>
      obtain ⟨beginSeqNum,endSeqNum⟩ := bounds
      intro w h
      have moved : Subdued w (replayValidatedRange c beginSeqNum endSeqNum w).2 :=
        subduedReplay fun sequence low high => h.moved.records sequence (admin _ _ range sequence low high)
      have phase := (sendsReplay (c := c) beginSeqNum endSeqNum w).phase
      have after : Answered c u (e.msgType = ascii "5") (replayValidatedRange c beginSeqNum endSeqNum w).2 :=
        ⟨h.gated.subdued moved phase,IsTrans.trans u w _ h.moved moved,fun recovering =>
          h.recovering (phase ▸ recovering)⟩
      exact Meets.outcome after fun _ _ h => h.gated.trace
  have heartbeat : Meets (Answered c u (e.msgType = ascii "5")) (answerTestRequest c e.heartbeatResponse)
      (fun _ => Answered c u (e.msgType = ascii "5")) (fun _ => GateKept c) := by
    cases e.heartbeatResponse with
    | none => exact Meets.pure fun _ h => h
    | some id =>
      exact answeredMoves (sendsHeartbeatResponse _)
        (subduedMoves (sendsHeartbeatResponse _) (tameHeartbeat _) (by simp) (by simp))
  exact Meets.bind logon fun _ => Meets.bind test fun _ => Meets.bind logoutIsAnswered fun _ =>
    Meets.bind resend fun _ => heartbeat

variable {start : World} {frame : Bytes}

theorem tameRealign (msgSeqNum : Nat) : Moves Tame (realign c msgSeqNum) := by
  refine Moves.bind Moves.state fun w => ?_
  split
  · exact Moves.bind (tameChange fun _ => rfl) fun _ => Moves.bind (tameStore _ trivial) fun _ =>
      Moves.bind (tameChange fun _ => rfl) fun _ => tameChange fun _ => rfl
  · exact Moves.stop _

theorem realignReturned {n : Nat} {w v : World} (ok : realign c n w = (.ok (),v)) :
    w.phase = .logonSent ∧ 0 < n ∧ v.nextIn = n := by
  by_cases phase : w.phase = .logonSent
  · rw [realignRun phase] at ok
    rcases run : storeApply c (.resyncInbound (resyncCommit w n)) (desynced w n) with ⟨halt | reply,u⟩
    · rw [run] at ok; cases ok
    · rw [run] at ok
      cases ok
      exact ⟨phase,Nat.pos_of_ne_zero (resyncStored run).2.1,rfl⟩
  · rw [realignRefused phase] at ok
    cases ok

theorem realignUngated {n : Nat} {event : Event} (here : realignEvent n event) : gated event = false := by
  cases event with
  | stored op answer => rfl
  | wrote _ _ _ | phaseChanged _ => cases here
  | logged _ | replied _ | transportClosed | protocolError _ | expecting _ => rfl

theorem gatedRealigns {n : Nat} {w v : World} (h : Gated c w) (moved : Realigns n w v) : Gated c v := by
  obtain ⟨new,trace,each⟩ := moved.trace
  refine ⟨by rw [trace]; exact gateUngated new h.trace fun event mem => realignUngated (each event mem),
    fun established => ?_,h.buffered.same moved.gapBuffer⟩
  rw [trace]
  exact loggedOnLater new (h.phase (moved.phase ▸ established))

theorem gatedAhead {message : ParsedMessage} {n : Nat} (sequenced : Sequenced c frame message n) :
    Meets (Gated c) (bufferGap c n frame) (fun _ => Gated c) (fun _ => GateKept c) := by
  have inserts : Meets (Gated c)
      (Prog.change fun w => {w with gapBuffer := w.gapBuffer.insertIfNew n frame} : Act Unit)
      (fun _ => Gated c) (fun _ => GateKept c) :=
    Meets.change fun w h => ⟨h.trace,h.phase,h.buffered.insert sequenced⟩
  refine Meets.bind (Meets.state fun _ h => h) fun w => ?_
  split
  · exact Meets.stop fun _ h => h.trace
  · refine Meets.bind inserts fun _ => Meets.bind (Meets.state fun _ h => h) fun w => ?_
    split
    · exact Meets.bind (gatedSend (sendsResendRequest _) (by simp) (by simp) fun _ h => h) fun _ =>
        Meets.change fun w h => h.change (by decide)
    · exact Meets.pure fun _ h => h

theorem gatedFirst {m : ParsedMessage} {n : Nat} {w : World} (sequenced : Sequenced c frame m n)
    (accepts : Accepts start m n) (gated : Gated c w) (nextIn : w.nextIn = n)
    (buffer : w.gapBuffer = start.gapBuffer) (records : Tame start w) (phase : w.phase = start.phase)
    (grows : Grows start w) : GatedReady c start frame frame n w where
  gated := gated
  awaited := nextIn
  walks := fun unopened => by
    refine ⟨[],⟨⟨m,n,sequenced,accepts,nextIn ▸ .start,fun k later => ?_⟩,?_,by simp,records,
      fun recovering => ⟨phase ▸ recovering,by simp⟩⟩,fun other k same => ?_⟩
    · rw [buffer,Std.ExtTreeMap.getElem?_insert,if_neg (by simp; omega)]
    · obtain ⟨new,trace⟩ := grows
      exact fun on => unopened (trace ▸ loggedOnLater new on)
    · rw [(sequenced.unique same).2]
      simp

theorem authorisesCommit {f : Bytes} {m : ParsedMessage} {n nextOut : Nat} {e : Expected} {w : World}
    {reply : StoreReply} (sequenced : Sequenced c f m n) (checks : inboundChecks c nextOut n n m = .ok e)
    (logon : e.msgType = ascii "A") :
    authorises c (.stored (.commitInbound (inboundCommit w n f e)) (.ok reply)) = true := by
  have parsed : parseFrame f = .ok m := (parseInboundSource sequenced.parsed).parsed
  have interval : requiredU64 m 108 = .ok c.config.heartbeatIntervalSecs := by
    have beat := (checksSource checks).heartBtInt
    rw [checkHeartBtInt,if_pos logon] at beat
    obtain ⟨heartbeat,read,beat⟩ := boundOk beat
    split at beat
    · cases beat
    · rename_i same
      rw [read,Classical.not_not.mp same]
  simp only [authorises,inboundCommit,logon,parsed,interval,decide_true,Bool.and_self]

theorem gatedCommit {f : Bytes} {m : ParsedMessage} {n : Nat} {e : Expected} (waits : StartWaits c start frame)
    (sequenced : Sequenced c f m n) :
    Meets (fun w => GatedReady c start frame f n w ∧ inboundChecks c w.nextOut n n m = .ok e)
      (commitChecked c m n f e) (fun _ => GatedHead c start frame) (fun _ => GateKept c) := by
  rintro w ⟨h,checks⟩
  rw [commitCheckedRun]
  rcases run : storeApply c (.commitInbound (inboundCommit w n f e)) w with ⟨halt | reply,v⟩
  · obtain ⟨-,trace⟩ := storeTrace c (.commitInbound (inboundCommit w n f e)) w
    rw [run] at trace
    change LogonGated c v.trace
    rcases trace with same | ⟨answer,same⟩
    · rw [same]; exact h.gated.trace
    · rw [same]; exact gateUngated [_] h.gated.trace (by simp [gated])
  · obtain ⟨-,answer,rfl⟩ := storeReturned run
    set op : StoreOp := .commitInbound (inboundCommit w n f e) with hop
    set u := counted e (applied op w) with hu
    have trace : u.trace = [.expecting e.nextInAfter,.stored op (.ok reply)] ++ w.trace := by
      rw [hu,counted,applied,answer]
      rfl
    have later : n < e.nextInAfter := by
      obtain ⟨number,-,climbs,-⟩ := commitInboundSource answer
      change w.journal.nextIn < e.nextInAfter at climbs
      change n = w.journal.nextIn at number
      omega
    have kept : Gated c u := by
      refine ⟨by rw [trace]; exact gateUngated _ h.gated.trace (by simp [gated]),fun established => ?_,
        h.gated.buffered.same rfl⟩
      rw [trace]
      exact loggedOnLater _ (h.gated.phase established)
    have tame : Tame w u := fun sequence => adminKept op trivial
    suffices meets : Meets (· = u) (afterCommit c m e) (fun _ => GatedHead c start frame)
        (fun _ => GateKept c) from meets u rfl
    by_cases on : loggedOn c u.trace
    · obtain ⟨after,still⟩ := kept.opened on (steadyAfterCommit (c := c) m e u)
      rintro t rfl
      exact Meets.outcome (J := GatedHead c start frame) ⟨after,fun unopened => absurd still unopened⟩
        fun _ _ h => h.gated.trace
    · have other : e.msgType ≠ ascii "A" := fun logon => on ⟨.stored op (.ok reply),by simp [trace],
        authorisesCommit sequenced checks logon⟩
      obtain ⟨messages,walks,held⟩ := h.walks fun before => on (trace ▸ loggedOnLater _ before)
      obtain ⟨first,number,firstSequenced,accepts,delivered,buffer⟩ := walks.reached
      have typed := (inboundMsgTypeSource (checksSource checks).msgType).1
      have longer : ∀ message ∈ messages ++ [m], ¬ typeLogon message := by
        intro message mem
        rcases List.mem_append.mp mem with old | new
        · exact walks.others message old
        · rw [List.mem_singleton.mp new,typeLogon,typed]
          exact fun same => other (Option.some.inj same)
      have delivers := Delivers.next (h.awaited ▸ delivered) (held first number firstSequenced) sequenced checks
      have holdsBack := waits first number firstSequenced walks.unopened accepts _ _ delivers longer
      refine Meets.weaken (answeredCommit (m := m) (e := e) kept other ?_) (fun _ h => h) (fun _ v answered => ?_)
        (fun _ _ h => h)
      · intro b x range sequence low high
        have asked := requestedAsks (checksSource checks) range low high
        exact tame sequence (walks.records sequence (holdsBack.replays m (by simp) sequence asked))
      · have nextIn : v.nextIn = e.nextInAfter := answered.moved.nextIn
        refine ⟨answered.gated,fun _ => ⟨messages ++ [m],by simp,⟨first,number,firstSequenced,accepts,
          nextIn ▸ delivers,fun k bound => ?_⟩,walks.unopened,longer,?_,fun recovering => ?_⟩⟩
        · rw [answered.moved.gapBuffer]
          exact buffer k (by omega)
        · exact IsTrans.trans start w v walks.records (IsTrans.trans w u v tame answered.moved.records)
        · obtain ⟨before,noLogout⟩ := answered.recovering recovering
          obtain ⟨initially,none⟩ := walks.recovering before
          refine ⟨initially,fun message mem => ?_⟩
          rcases List.mem_append.mp mem with old | new
          · exact none message old
          · rw [List.mem_singleton.mp new,typed]
            exact fun same => noLogout (Option.some.inj same)

theorem gatedFrame (gated : Gated c start) (waits : StartWaits c start frame) :
    InboundRules c frame (Quiet start) (GatedHead c start frame) (Gated c) (GateKept c)
      (fun f _ n => GatedReady c start frame f n) where
  quiet := fun w v moved h => IsTrans.trans start w v h moved
  beforeFails := fun _ h => (gated.quiet h).trace
  headFails := fun _ h => h.gated.trace
  headAfter := fun _ h => h.gated
  readyFails := fun _ _ _ _ h => h.gated.trace
  replayed := fun _ _ _ _ h _ _ => gated.quiet h
  ahead := fun _ _ sequenced w h => gatedAhead sequenced w (gated.quiet h.1)
  behind := by
    rintro m n sequenced original w ⟨h,low⟩
    have moved := realignMoves c n w
    have tame := tameRealign (c := c) n w
    have kept := gatedRealigns (gated.quiet h) moved
    split
    · rename_i done v run
      rw [run] at moved tame kept
      obtain ⟨phase,positive,nextIn⟩ := realignReturned run
      have accepts : Accepts start m n :=
        .inr ⟨positive,h.nextIn ▸ low,original,h.phase ▸ phase⟩
      have quietTame : Tame start w := fun _ admin => by rwa [h.journal]
      have grows : Grows start v := by
        obtain ⟨new,trace,-⟩ := moved.trace
        exact IsTrans.trans start w v (Sends.grows (p := []) h.sends) ⟨new,trace.symm⟩
      exact gatedFirst sequenced accepts kept nextIn (moved.gapBuffer.trans h.gapBuffer)
        (IsTrans.trans start w v quietTame tame) (moved.phase.trans h.phase) grows
    · rename_i halt v run
      rw [run] at kept
      exact kept.trace
  expected := fun m n w sequenced h awaited => gatedFirst sequenced (.inl (h.nextIn ▸ awaited.symm))
    (gated.quiet h) awaited h.gapBuffer (fun _ admin => by rwa [h.journal]) h.phase
    (Sends.grows (p := []) h.sends)
  awaited := fun _ _ _ _ h => h.awaited
  commit := fun _ _ _ _ sequenced => gatedCommit waits sequenced
  skip := fun w h => by
    refine ⟨⟨h.gated.trace,h.gated.phase,h.gated.buffered.skip _⟩,fun unopened => ?_⟩
    obtain ⟨messages,nonempty,walks⟩ := h.walks unopened
    obtain ⟨m,n,sequenced,accepts,delivered,buffer⟩ := walks.reached
    refine ⟨messages,nonempty,⟨m,n,sequenced,accepts,delivered,fun k later => ?_⟩,walks.unopened,walks.others,
      walks.records,walks.recovering⟩
    rw [Table.keepKeysGet,if_pos (by simpa using later)]
    exact buffer k later
  take := fun w f h found => by
    obtain ⟨m,sequenced⟩ := h.gated.buffered _ f found
    refine ⟨m,sequenced,⟨h.gated.trace,h.gated.phase,h.gated.buffered.erase _⟩,rfl,fun unopened => ?_⟩
    obtain ⟨messages,-,walks⟩ := h.walks unopened
    obtain ⟨first,n,firstSequenced,accepts,delivered,buffer⟩ := walks.reached
    refine ⟨messages,⟨⟨first,n,firstSequenced,accepts,delivered,fun k later => ?_⟩,walks.unopened,
      walks.others,walks.records,walks.recovering⟩,fun other number same => ?_⟩
    · rw [Std.ExtTreeMap.getElem?_erase,if_neg (by simp; omega)]
      exact buffer k (by omega)
    · rw [(firstSequenced.unique same).2,← buffer w.nextIn (Nat.le_refl _)]
      exact found
  recovered := fun w h phase empty => by
    by_cases on : loggedOn c w.trace
    · exact ⟨⟨fun _ => on,h.gated.trace⟩,fun _ => loggedOnLater [_] on,h.gated.buffered.same rfl⟩
    · obtain ⟨messages,nonempty,walks⟩ := h.walks on
      obtain ⟨m,n,sequenced,accepts,delivered,buffer⟩ := walks.reached
      obtain ⟨recovering,noLogout⟩ := walks.recovering phase
      obtain ⟨k,present,later⟩ :=
        (waits m n sequenced walks.unopened accepts _ _ delivered walks.others).recovers recovering nonempty noLogout
      obtain ⟨f,found⟩ : ∃ f, w.gapBuffer[k]? = some f := by
        rw [buffer k later]
        exact Table.getOfMem (Std.ExtTreeMap.mem_insert.mpr (.inr present))
      have nothing : w.gapBuffer = ∅ := Std.ExtTreeMap.isEmpty_iff.mp empty
      rw [nothing] at found
      simp at found

theorem gatedStep {conn : Conn} {input : Input} (waits : WaitsForLogon c conn input)
    (holds : Holds (Gated c) (GateKept c) conn) : Holds (Gated c) (GateKept c) (step c conn input) :=
  gatedLoop.steps
    (fun request _ live => fun _ pinned => by
      subst pinned
      exact gatedSubmit request _ (holds.2 live))
    (fun wire same live => fun _ pinned => by
      subst pinned
      exact (gatedFrame (holds.2 live) fun m n sequenced =>
        waits wire m n same sequenced).frames conn.world (Std.Refl.refl _)) holds

theorem gatedSpawn (journal : Journal) (tick : Nat) :
    Holds (Gated c) (GateKept c) (spawn c ⟨journal,[],tick⟩) := by
  refine gatedLoop.spawns trivial (fun text => ?_) ?_
  · exact gateUngated [_, _] (show LogonGated c [] from trivial) (by simp [gated])
  refine Meets.bind (Q := fun _ => Gated c) (Meets.ofMoves opensLogon ?_ fun _ h => h.trace) fun _ =>
    Meets.change fun w h => h.change (by decide)
  rintro w v opens rfl
  obtain ⟨new,trace,each⟩ := opens.trace
  refine ⟨?_,fun established => ?_,fun k f found => ?_⟩
  · rw [trace]
    refine gateUngated new trivial fun event mem => ?_
    have here := each event mem
    cases event with
    | wrote path _ _ => cases path <;> first | rfl | simp [openingEvent,sentEvent] at here
    | phaseChanged _ => cases here
    | stored _ _ | logged _ | replied _ | transportClosed | protocolError _ | expecting _ => rfl
  · rw [opens.phase] at established
    cases established
  · rw [opens.gapBuffer] at found
    simp [entering] at found

/-- In every run in which frames wait for the Logon, the session is established and
application messages go out only behind its commit. -/
theorem logonGatesSession (c : Ctx) (journal : Journal) (tick : Nat) (inputs : List Input)
    (waits : Along (step c) (WaitsForLogon c) (spawn c ⟨journal,[],tick⟩) inputs) :
    let conn := run c (spawn c ⟨journal,[],tick⟩) inputs
    LogonGated c conn.world.trace ∧
      (conn.live = true → conn.world.phase = .established → loggedOn c conn.world.trace) := by
  have holds : Holds (Gated c) (GateKept c) (run c (spawn c ⟨journal,[],tick⟩) inputs) :=
    foldInvariant (fun _ _ waits holds => gatedStep waits holds) (gatedSpawn journal tick) waits
  exact ⟨holds.1,fun live => (holds.2 live).phase⟩

theorem deliversFirst {frames : Table Nat Bytes} {n k : Nat} {messages : List ParsedMessage}
    (h : Delivers c frames n messages k) : messages = [] ∧ k = n ∨
      ∃ message rest f, messages = message :: rest ∧ frames[n]? = some f ∧ Sequenced c f message n := by
  induction h with
  | start => exact .inl ⟨rfl,rfl⟩
  | next before held sequenced checks ih =>
    rcases ih with ⟨rfl,rfl⟩ | ⟨message,rest,f,rfl,found,first⟩
    · exact .inr ⟨_,[],_,rfl,held,sequenced⟩
    · exact .inr ⟨message,rest ++ [_],f,rfl,found,first⟩

def answeredLogon : List Input := [.frame (venueLogon 1),.command (.submit
  ⟨ascii "r1",ascii "f1",ascii "c1",ascii "D",[⟨54,ascii "1"⟩]⟩)]

theorem logonGatesSessionAnswered :
    let conn := run venueCtx (spawn venueCtx ⟨.empty,[],0⟩) answeredLogon
    LogonGated venueCtx conn.world.trace ∧
      (conn.live = true → conn.world.phase = .established → loggedOn venueCtx conn.world.trace) := by
  refine logonGatesSession venueCtx .empty 0 answeredLogon ⟨?_,?_,trivial⟩
  · intro wire message n same sequenced _ _ messages k delivers others
    cases same
    have shape : Sequenced venueCtx (venueLogon 1) (parsedOf (venueLogon 1)) 1 :=
      ⟨by decide +kernel,by decide +kernel⟩
    have logon : typeLogon (parsedOf (venueLogon 1)) := by unfold typeLogon; decide +kernel
    rcases deliversFirst delivers with ⟨rfl,-⟩ | ⟨first,rest,f,rfl,found,firstSequenced⟩
    · exact ⟨by simp,fun _ nonempty => absurd rfl nonempty⟩
    · simp only [Std.ExtTreeMap.getElem?_insert_self,Option.some.injEq] at found
      subst found
      rw [← (shape.unique firstSequenced).1] at logon
      exact absurd logon (others first List.mem_cons_self)
  · intro wire message n same
    cases same

def overtakenLogon : List Input := [.frame (venueFrame "0" 2 []),.frame (venueFrame "0" 1 [])]

theorem recoveredWithoutLogon : ¬ LogonGated venueCtx (venueConn fresh overtakenLogon).world.trace := by
  decide +kernel

end
end FixCli.Session
