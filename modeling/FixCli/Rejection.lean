import FixCli.SessionLoop

/-! What a rejected frame leaves in the journal. Every check but one stands in
front of the first inbound write: a low frame under an unanswered Logon realigns
the journal first and is validated afterwards. -/
namespace FixCli.Session
open Lib Codec Store

def isRejection : SessionError → Bool
  | .codec _ | .protocol _ => true
  | .actorStopped | .store _ | .transport _ | .notEstablished | .invalidApplication _ => false

def committing : Event → Bool
  | .stored (.commitInbound _) _ => true
  | _ => false

def Issued (w v : World) : Prop := ∃ new, v.trace = new ++ w.trace ∧ ∃ event ∈ new, committing event = true

theorem Issued.later {w u v : World} (h : Issued w u) (grows : Grows u v) : Issued w v := by
  obtain ⟨new,trace,event,mem,commits⟩ := h
  obtain ⟨later,htrace⟩ := grows
  exact ⟨later ++ new,by rw [← htrace,trace,List.append_assoc],event,by simp [mem],commits⟩

theorem Issued.earlier {w u v : World} (grows : Grows w u) (h : Issued u v) : Issued w v := by
  obtain ⟨new,trace,event,mem,commits⟩ := h
  obtain ⟨before,htrace⟩ := grows
  exact ⟨new ++ before,by rw [trace,← htrace,List.append_assoc],event,by simp [mem],commits⟩

structure Rejects (c : Ctx) (frame : Bytes) (w : World) (error : SessionError) : Prop where
  failed : (handleInbound c frame w).1 = .error (.fail error)
  kind : isRejection error = true
  uncommitted : ¬ Issued w (handleInbound c frame w).2

def RejectionLeavesJournal (c : Ctx) (frame : Bytes) (w : World) : Prop :=
  ∀ error, Rejects c frame w error → SameInbound w.journal (handleInbound c frame w).2.journal

structure RealignsThenFails (c : Ctx) (frame : Bytes) (w : World) (message : ParsedMessage)
    (msgSeqNum : Nat) (error : SessionError) : Prop where
  parsed : parseInbound c frame = .ok message
  sequence : requiredU64 message 34 = .ok msgSeqNum
  phase : w.phase = .logonSent
  low : msgSeqNum < w.nextIn
  original : possDup message = false
  positive : msgSeqNum ≠ 0
  synced : w.nextEvent = w.journal.nextEvent
  stored : c.env.storeFault (w.tick + 1) = .none
  refused : inboundChecks c w.nextOut msgSeqNum msgSeqNum message = .error (.fail error)

section

variable {c : Ctx} {frame : Bytes} {message : ParsedMessage} {msgSeqNum : Nat}

def rejecting (error : SessionError) : Prop := isRejection error = true

def haltRejects (halt : Halt) : Prop := ∀ error, halt = .fail error → rejecting error

theorem rejectsSession {α : Type} {r : Except SessionError α} (h : FailsOnly rejecting r) :
    FailsOnly haltRejects (inSession r) := by
  cases r with
  | ok a => exact .ok a
  | error e =>
    refine .error fun error same => ?_
    cases same
    exact h e rfl

theorem protocolRejects (text : Bytes) : rejecting (.protocol text) := rfl

theorem protocolHalts (text : Bytes) : haltRejects (.fail (.protocol text)) := by
  intro error same
  cases same
  rfl

theorem requiredValueRejects (tag : UInt32) : FailsOnly rejecting (requiredValue message tag) := by
  unfold requiredValue
  split
  · exact .ok _
  · exact .error (protocolRejects _)

theorem requiredU64Rejects (tag : UInt32) : FailsOnly rejecting (requiredU64 message tag) := by
  refine .bind (requiredValueRejects tag) fun value => ?_
  split
  · exact .error (protocolRejects _)
  · split
    · exact .ok _
    · exact .error (protocolRejects _)

theorem inboundMsgTypeRejects : FailsOnly rejecting (inboundMsgType message) := by
  unfold inboundMsgType
  split
  · exact .error (protocolRejects _)
  · split
    · exact .ok _
    · exact .error (protocolRejects _)

theorem replayRangeRejects (nextOut beginSeqNum endSeqNum : Nat) :
    FailsOnly rejecting (validateReplayRange nextOut beginSeqNum endSeqNum) := by
  simp only [validateReplayRange]
  repeat' split
  all_goals first | exact .error (protocolRejects _) | exact .ok _

theorem requestedResendRejects (nextOut : Nat) (msgType : Bytes) :
    FailsOnly rejecting (requestedResend nextOut message msgType) := by
  unfold requestedResend
  split
  · exact .bind (requiredU64Rejects 7) fun _ => .bind (requiredU64Rejects 16) fun _ =>
      .bind (replayRangeRejects _ _ _) fun _ => .ok _
  · exact .ok _

theorem heartbeatResponseRejects (msgType : Bytes) :
    FailsOnly rejecting (heartbeatResponse message msgType) := by
  unfold heartbeatResponse
  split
  · exact .bind (requiredValueRejects 112) fun _ => .ok _
  · exact .ok _

theorem heartBtIntRejects (msgType : Bytes) : FailsOnly rejecting (checkHeartBtInt c message msgType) := by
  unfold checkHeartBtInt
  split
  · refine .bind (requiredU64Rejects 108) fun _ => ?_
    split
    · exact .error (protocolRejects _)
    · exact .ok _
  · exact .ok _

theorem plusOneRejects (n : Nat) : FailsOnly haltRejects (plusOne c n) := by
  unfold plusOne
  split
  · exact .ok _
  · split
    · exact .error fun _ same => nomatch same
    · exact .ok _

theorem nextInAfterRejects (baseline : Nat) (msgType : Bytes) :
    FailsOnly haltRejects (nextInAfter c baseline msgSeqNum message msgType) := by
  unfold nextInAfter
  split
  · refine .bind (rejectsSession (requiredValueRejects 123)) fun _ => ?_
    split
    · exact .error (protocolHalts _)
    · refine .bind (rejectsSession (requiredU64Rejects 36)) fun _ => ?_
      split
      · exact .error (protocolHalts _)
      · exact .ok _
  · exact plusOneRejects _

theorem inboundChecksReject (nextOut baseline : Nat) :
    FailsOnly haltRejects (inboundChecks c nextOut baseline msgSeqNum message) :=
  .bind (rejectsSession inboundMsgTypeRejects) fun _ =>
    .bind (rejectsSession (requestedResendRejects _ _)) fun _ =>
      .bind (rejectsSession (heartbeatResponseRejects _)) fun _ =>
        .bind (rejectsSession (heartBtIntRejects _)) fun _ => .bind (nextInAfterRejects _ _) fun _ => .ok _

theorem storeIssues (commit : InboundCommit) (w : World) :
    Issued w (storeApply c (.commitInbound commit) w).2 ∨
      (storeApply c (.commitInbound commit) w).1 = .error .crash := by
  have after : Issued w (applied (.commitInbound commit) w) := ⟨[_],rfl,_,List.mem_singleton.mpr rfl,rfl⟩
  unfold storeApply
  cases c.env.storeFault w.tick with
  | none => cases (apply w.journal (.commitInbound commit)).1 <;> exact .inl after
  | refused text => exact .inl ⟨[_],rfl,_,List.mem_singleton.mpr rfl,rfl⟩
  | lost text => exact .inl after
  | crashBefore => exact .inr rfl
  | crashAfter => exact .inr rfl

theorem commitCheckedIssues (expected : Expected) (w : World) :
    Issued w (commitChecked c message msgSeqNum frame expected w).2 ∨
      (commitChecked c message msgSeqNum frame expected w).1 = .error .crash := by
  have rest : ∀ reply : StoreReply, Prog.Moves Grows (do
      setNextIn expected.nextInAfter
      Prog.change fun w => {w with nextEvent := w.nextEvent + 1}
      afterCommit c message expected) := fun _ =>
    Prog.Moves.bind (growsPermits.expects _) fun _ => Prog.Moves.bind (growsPermits.actor _ fun _ => ⟨rfl,.inl rfl⟩)
      fun _ => growsPermits.committed (fun _ _ => trivial) (fun _ _ => trivial) (fun _ _ => trivial) _ _
  rcases storeIssues (c := c) (inboundCommit w msgSeqNum frame expected) w with issued | crashed
  · exact .inl (issued.later (Prog.Moves.after rest w))
  · right
    change ((storeApply c _ >>= _) w).1 = _
    rw [Prog.bindRun]
    split <;> simp_all

theorem commitExpectedIssues (frame : Bytes) (w : World) (sequence : requiredU64 message 34 = .ok msgSeqNum)
    (expected : w.nextIn = msgSeqNum) :
    (∃ halt, inboundChecks c w.nextOut msgSeqNum msgSeqNum message = .error halt ∧
      commitExpected c message frame w = (.error halt,w)) ∨
    Issued w (commitExpected c message frame w).2 ∨
      (commitExpected c message frame w).1 = .error .crash := by
  rw [commitExpectedRun frame sequence expected]
  cases checks : inboundChecks c w.nextOut msgSeqNum msgSeqNum message with
  | error halt => exact .inl ⟨halt,rfl,rfl⟩
  | ok expected => exact .inr (commitCheckedIssues expected w)

theorem settledIssues (frame : Bytes) (w : World) (sequence : requiredU64 message 34 = .ok msgSeqNum)
    (expected : w.nextIn = msgSeqNum) :
    (∃ halt, inboundChecks c w.nextOut msgSeqNum msgSeqNum message = .error halt ∧
      (do commitExpected c message frame; drainBuffer c; endRecovery : Act Unit) w = (.error halt,w)) ∨
    Issued w ((do commitExpected c message frame; drainBuffer c; endRecovery : Act Unit) w).2 ∨
      ((do commitExpected c message frame; drainBuffer c; endRecovery : Act Unit) w).1 = .error .crash := by
  have settled : Prog.Moves Grows (do drainBuffer c; endRecovery) :=
    growsPermits.empties (fun _ _ => trivial) fun _ _ => trivial
  rcases commitExpectedIssues (c := c) frame w sequence expected with
    ⟨halt,checks,stops⟩ | issued | crashed
  · exact .inl ⟨halt,checks,Prog.bindStops stops⟩
  · exact .inr (.inl (issued.later (Prog.Moves.after (fun _ => settled) w)))
  · right; right
    rw [Prog.bindRun]
    split <;> simp_all

abbrev KeepsInbound (w v : World) : Prop := SameInbound w.journal v.journal

instance : Std.Refl KeepsInbound := ⟨fun _ => .refl _⟩
instance : IsTrans World KeepsInbound := ⟨fun _ _ _ h g => SameInbound.trans h g⟩

theorem keepsBufferGap : Prog.Moves KeepsInbound (bufferGap c msgSeqNum frame) := by
  have keeps {paths : List SendPath} {α : Type} {m : Act α} (h : Prog.Moves (Sends paths) m) :
      Prog.Moves KeepsInbound m := h.weaken fun _ _ => Sends.journal
  refine Prog.Moves.bind Prog.Moves.state fun w => ?_
  split
  · exact Prog.Moves.stop _
  refine Prog.Moves.bind (Prog.Moves.change fun _ => .refl _) fun _ =>
    Prog.Moves.bind Prog.Moves.state fun w => ?_
  split
  · exact Prog.Moves.bind (keeps (sendsResendRequest _)) fun _ => Prog.Moves.change fun _ => .refl _
  · exact Prog.Moves.pure _

theorem acceptKeeps {w : World} {error : SessionError} (sequence : requiredU64 message 34 = .ok msgSeqNum)
    (behind : ¬ w.nextIn < msgSeqNum) (kind : rejecting error)
    (failed : (acceptFrame c message msgSeqNum frame w).1 = .error (.fail error))
    (uncommitted : ¬ Issued w (acceptFrame c message msgSeqNum frame w).2)
    (sound : w.phase = .logonSent → msgSeqNum < w.nextIn → msgSeqNum ≠ 0 →
      w.nextEvent = w.journal.nextEvent → c.env.storeFault w.tick = .none →
      inboundChecks c w.nextOut msgSeqNum msgSeqNum message ≠ .error (.fail error)) :
    SameInbound w.journal (acceptFrame c message msgSeqNum frame w).2.journal := by
  by_cases low : msgSeqNum < w.nextIn
  · by_cases phase : w.phase = .logonSent
    · rw [acceptLow phase low] at failed uncommitted ⊢
      split at failed
      · rename_i reply v stored
        obtain ⟨healthy,positive,synced,nextOut,-⟩ := resyncStored stored
        rcases settledIssues (c := c) frame (realigned msgSeqNum v) sequence rfl with
          ⟨halt,checks,stops⟩ | issued | crashed
        · rw [stops] at failed
          cases failed
          have same : (realigned msgSeqNum v).nextOut = w.nextOut := nextOut
          rw [same] at checks
          exact absurd checks (sound phase low positive synced healthy)
        · have grows : Grows w (realigned msgSeqNum v) := by
            obtain ⟨-,-,rfl⟩ := storeReturned stored
            exact ⟨[_, _, _],rfl⟩
          simp only [stored] at uncommitted
          exact absurd (issued.earlier grows) uncommitted
        · rw [crashed] at failed
          cases failed
      · rename_i halt v stored
        cases failed
        rcases storeFailed stored with crashed | ⟨text,same⟩
        · cases crashed
        · cases same
          cases kind
    · have stops : realignIfLow c msgSeqNum w = (.error (.fail (unexpectedSequence w.nextIn msgSeqNum)),w) := by
        simp only [realignIfLow,realign,Prog.bindRun,Prog.stateRun,Prog.iteRun,if_pos low,if_neg phase]
        rfl
      rw [acceptFrame,Prog.bindStops stops]
      exact .refl _
  · have first : realignIfLow c msgSeqNum w = (.ok (),w) := by
      simp only [realignIfLow,Prog.bindRun,Prog.stateRun,Prog.iteRun,if_neg low,Prog.pureRun]
    rw [acceptFrame,Prog.bindReturns first] at failed uncommitted ⊢
    rcases settledIssues (c := c) frame w sequence (by omega) with ⟨halt,-,stops⟩ | issued | crashed
    · rw [stops]
      exact .refl _
    · exact absurd issued uncommitted
    · rw [crashed] at failed
      cases failed

theorem rejectionKeeps {w : World}
    (sound : ∀ message msgSeqNum error, ¬ RealignsThenFails c frame w message msgSeqNum error) :
    RejectionLeavesJournal c frame w := by
  intro error rejects
  have failed := rejects.failed
  have uncommitted := rejects.uncommitted
  cases parsed : parseInbound c frame with
  | error halt => rw [handleUnparsed parsed]; exact .refl _
  | ok message =>
    cases sequence : requiredU64 message 34 with
    | error e => rw [handleUnsequenced parsed sequence]; exact .refl _
    | ok msgSeqNum =>
      rw [handleSequenced parsed sequence] at failed uncommitted ⊢
      unfold sequenced at failed uncommitted ⊢
      by_cases ahead : (arrivedAt c w).nextIn < msgSeqNum
      · rw [if_pos ahead]
        exact keepsBufferGap (arrivedAt c w)
      · rw [if_neg ahead] at failed uncommitted ⊢
        by_cases replay : msgSeqNum < (arrivedAt c w).nextIn ∧ possDup message
        · rw [if_pos replay]
          exact ((sendsDoes (p := [])).verifyPossdup message msgSeqNum rfl (arrivedAt c w)).journal
        · rw [if_neg replay] at failed uncommitted ⊢
          refine acceptKeeps (w := arrivedAt c w) sequence ahead rejects.kind failed uncommitted ?_
          intro phase low positive synced stored refused
          have original : possDup message = false := by simpa [low] using replay
          exact sound message msgSeqNum error
            ⟨parsed,sequence,phase,low,original,positive,synced,stored,refused⟩

theorem realignedRejection {w : World} {error : SessionError}
    (h : RealignsThenFails c frame w message msgSeqNum error) :
    Rejects c frame w error ∧
      (handleInbound c frame w).2.journal.nextEvent = w.journal.nextEvent + 1 := by
  set u := arrivedAt c w
  have stored := resyncStores (c := c) (w := u) h.stored h.positive h.synced
  have counted := (resyncStored stored).2.2.2.2
  set v := applied (.resyncInbound (resyncCommit u msgSeqNum)) (desynced u msgSeqNum)
  have stops := commitExpectedRun (c := c) (w := realigned msgSeqNum v) frame h.sequence rfl
  rw [show inboundChecks c (realigned msgSeqNum v).nextOut msgSeqNum msgSeqNum message =
    .error (.fail error) from h.refused] at stops
  have runs : handleInbound c frame w = (.error (.fail error),realigned msgSeqNum v) := by
    rw [handleSequenced h.parsed h.sequence,sequenced,if_neg (by have := h.low; change ¬ w.nextIn < _; omega),
      if_neg (by simp [h.original]),acceptLow (w := u) h.phase h.low,stored]
    exact Prog.bindStops stops
  refine ⟨⟨by rw [runs],inboundChecksReject _ _ _ h.refused error rfl,?_⟩,by rw [runs]; exact counted⟩
  rintro ⟨new,trace,event,mem,commits⟩
  rw [runs] at trace
  have added : (realigned msgSeqNum v).trace = [.expecting msgSeqNum,
      .stored (.resyncInbound (resyncCommit u msgSeqNum)) (apply u.journal
        (.resyncInbound (resyncCommit u msgSeqNum))).1,
      .logged (.info (desyncText w.nextIn msgSeqNum))] ++ w.trace := rfl
  rw [added] at trace
  obtain rfl := List.append_cancel_right trace
  simp only [List.mem_cons,List.not_mem_nil,or_false] at mem
  rcases mem with rfl | rfl | rfl <;> cases commits

/-- A rejected frame leaves the inbound side of the journal as it was, exactly when
it is not refused behind a realignment. -/
theorem rejectionLeavesJournalExactly (c : Ctx) (frame : Bytes) (w : World) :
    RejectionLeavesJournal c frame w ↔
      ∀ message msgSeqNum error, ¬ RealignsThenFails c frame w message msgSeqNum error := by
  constructor
  · intro keeps message msgSeqNum error h
    obtain ⟨rejects,counted⟩ := realignedRejection h
    have same := (keeps error rejects).nextEvent
    omega
  · exact rejectionKeeps

def restartedLogon : Bytes := venueFrame "A" 1 [⟨98,ascii "0"⟩,⟨108,ascii "60"⟩]

def reconnected : World := (venueConn (venueConn fresh [.frame (venueLogon 1)]).world.toShared []).world

theorem restartedLogonMovesJournal : ¬ RejectionLeavesJournal venueCtx restartedLogon reconnected := by
  intro keeps
  have refused : RealignsThenFails venueCtx restartedLogon reconnected (parsedOf restartedLogon) 1
      (.protocol (ascii "peer HeartBtInt 60 does not match configured 30")) :=
    { parsed := by decide +kernel
      sequence := by decide +kernel
      phase := by decide +kernel
      low := by decide +kernel
      original := by decide +kernel
      positive := by decide
      synced := by decide +kernel
      stored := rfl
      refused := by decide +kernel }
  obtain ⟨rejects,counted⟩ := realignedRejection refused
  have same := (keeps _ rejects).nextEvent
  omega

end
end FixCli.Session
