import FixCli.CounterSums
import FixCli.EpochRuns
import FixCli.SafeHalts

/-! Sequence arithmetic within `u64`. What counts messages and events has room for as many
as anyone records; the number behind an inbound message is the peer's to choose. -/
namespace FixCli.Session
open Lib Codec Store

structure Stocked (c : Ctx) (w : World) : Prop where
  numbers : Numbers w.journal (recordings w.trace)
  nextOut : w.nextOut ≤ recordings w.trace + 1
  buffered : Buffered c w

structure Promised (c : Ctx) (n : Nat) (w : World) : Prop where
  numbers : Numbers w.journal (recordings w.trace)
  number : n ≤ recordings w.trace
  buffered : Buffered c w

section

variable {c : Ctx} {w v : World} {n : Nat}

open Prog

theorem idleRecordings (moved : Idle w v) : recordings w.trace ≤ recordings v.trace := by
  obtain ⟨new,trace,-⟩ := moved.trace
  rw [trace,recordings,recordings,List.countP_append]
  exact Nat.le_add_left _ _

theorem Numbers.idle (h : Numbers w.journal (recordings w.trace)) (moved : Idle w v) :
    Numbers v.journal (recordings v.trace) := by
  have later := h.later (idleRecordings moved)
  refine ⟨?_,?_,fun id record found => ?_⟩
  · rw [moved.outbound.1]
    exact later.nextOut
  · rw [moved.inbound.2]
    exact later.nextEvent
  · rw [moved.outbound.2.1] at found
    exact later.commands id record found

theorem appliedRecordings (op : StoreOp) (w : World) : recordings w.trace ≤ recordings (applied op w).trace := by
  rw [show (applied op w).trace = .stored op (apply w.journal op).1 :: w.trace from rfl,recordingsMore]
  exact countingMore _ _

theorem Numbers.applied (h : Numbers w.journal (recordings w.trace)) (op : StoreOp) :
    Numbers (applied op w).journal (recordings (Session.applied op w).trace) := by
  rw [show (Session.applied op w).trace = .stored op (Store.apply w.journal op).1 :: w.trace from rfl,recordingsMore]
  exact (countsApply h op).numbers

theorem Stocked.applied (h : Stocked c w) (op : StoreOp) : Stocked c (applied op w) :=
  ⟨h.numbers.applied op,h.nextOut.trans (Nat.succ_le_succ (appliedRecordings op w)),h.buffered.same rfl⟩

theorem stockedCommits (commit : OutboundCommit) : Meets (Stocked c) (storeApply c (.commitOutbound commit))
    (fun reply w => ∃ command, reply = .command command ∧ Stocked c w ∧ Promised c command.msgSeqNum w)
    (fun _ _ => True) := by
  intro w h
  split
  · rename_i run
    obtain ⟨-,answer,rfl⟩ := storeReturned run
    have after := h.applied (.commitOutbound commit)
    have more := appliedRecordings (.commitOutbound commit) w
    rcases commitOutboundSource answer with ⟨existing,found,-,rfl,-⟩ | ⟨-,number,rfl,-⟩
    · exact ⟨existing,rfl,after,after.numbers,(h.numbers.commands _ _ found).trans more,after.buffered⟩
    · refine ⟨_,rfl,after,after.numbers,?_,after.buffered⟩
      have trace : (Session.applied (.commitOutbound commit) w).trace =
          .stored (.commitOutbound commit) (apply w.journal (.commitOutbound commit)).1 :: w.trace := rfl
      rw [trace,recordingsMore,answer]
      have out := h.numbers.nextOut
      simp only [journaledCommand,counting,recorded,messageRecorded,decide_true,Bool.true_or,if_true]
      omega
  · trivial

theorem promisedMarks (requestId : Bytes) (n : Nat) :
    Meets (Promised c n) (storeApply c (.markOutboundWritten ⟨requestId,n⟩))
      (fun reply w => (∃ command, reply = .command command ∧ command.msgSeqNum = n) ∧
        Stocked c {w with nextOut := n + 1})
      (fun _ _ => True) := by
  intro w h
  split
  · rename_i run
    obtain ⟨-,answer,rfl⟩ := storeReturned run
    obtain ⟨command,_,-,number,-,rfl,-⟩ := markOutboundWrittenSource answer
    have more := appliedRecordings (.markOutboundWritten ⟨requestId,n⟩) w
    refine ⟨⟨_,rfl,number⟩,h.numbers.applied _,?_,h.buffered.same rfl⟩
    exact Nat.succ_le_succ (h.number.trans more)
  · trivial

theorem stockedRealign (n : Nat) :
    Meets (Stocked c) (realign c n) (fun _ w => Stocked c w ∧ w.nextIn = n) (fun _ _ => True) := by
  intro w h
  by_cases phase : w.phase = .logonSent
  · rw [realignRun phase]
    have logged : Stocked c (desynced w n) := ⟨h.numbers,h.nextOut,h.buffered.same rfl⟩
    rcases run : storeApply c (.resyncInbound (resyncCommit w n)) (desynced w n) with ⟨halt | reply,v⟩
    · trivial
    · obtain ⟨-,-,rfl⟩ := storeReturned run
      have after := logged.applied (.resyncInbound (resyncCommit w n))
      exact ⟨⟨after.numbers,after.nextOut,after.buffered.same rfl⟩,rfl⟩
  · rw [realignRefused phase]
    trivial

theorem stockedCarries : Carries c (Stocked c) (fun _ => True) (fun _ n => Promised c n) where
  fails := fun _ _ => trivial
  owedFails := fun _ _ _ _ => trivial
  idle := fun _ _ moved h =>
    ⟨h.numbers.idle moved,moved.nextOut ▸ h.nextOut.trans (Nat.succ_le_succ (idleRecordings moved)),
      h.buffered.same moved.gapBuffer⟩
  owedIdle := fun _ _ _ _ moved h =>
    ⟨h.numbers.idle moved,h.number.trans (idleRecordings moved),h.buffered.same moved.gapBuffer⟩
  ends := fun _ _ _ _ => trivial
  buffered := fun _ h => h.buffered
  buffers := fun _ _ h inside => ⟨h.numbers,h.nextOut,inside⟩
  admin := fun _ _ _ _ _ _ => (stockedCommits _).weaken (fun _ h => h.1)
    (fun _ _ ⟨command,same,_,promised⟩ => ⟨command,same,promised⟩) fun _ _ h => h
  marks := promisedMarks
  realign := stockedRealign
  commit := fun w f m e _ _ h => by
    rcases run : storeApply c (.commitInbound (inboundCommit w w.nextIn f e)) w with ⟨halt | reply,v⟩
    · trivial
    · obtain ⟨-,-,rfl⟩ := storeReturned run
      have after := h.applied (.commitInbound (inboundCommit w w.nextIn f e))
      exact ⟨after.numbers,after.nextOut,after.buffered.same rfl⟩

theorem stockedSubmits {request : ApplicationRequest} (h : Stocked c w) :
    Meets (· = w) (submitApplication c request) (fun _ => Stocked c) (survives (Stocked c) fun _ => True) := by
  refine stockedCarries.submits h fun _ wire => ?_
  refine (stockedCommits _).weaken (fun _ h => h.1) ?_ fun _ _ h => h
  rintro reply v ⟨command,rfl,stocked,promised⟩
  refine ⟨command,rfl,?_⟩
  by_cases old : command.msgSeqNum < w.nextOut
  · exact .inl ⟨stocked,old⟩
  · exact .inr ⟨promised,old⟩

end

def numberBehind (m : ParsedMessage) (n : Nat) : Option Nat :=
  if m.msgType = some (ascii "4") then (requiredU64 m 36).toOption else some (n + 1)

def Countable (c : Ctx) (m : ParsedMessage) : Prop :=
  ∃ nextOut e, inboundChecks c nextOut 1 1 m = .ok e ∧ e.msgType ≠ ascii "4"

inductive Reaches (c : Ctx) (buffer : Table Nat Bytes) : Nat → Nat → Prop
  | here (n : Nat) : Reaches c buffer n n
  | behind {n k l : Nat} {frame : Bytes} {m : ParsedMessage} (found : buffer[n]? = some frame)
      (parsed : parseInbound c frame = .ok m) (next : numberBehind m n = some k) (rest : Reaches c buffer k l) :
      Reaches c buffer n l

/-- No message that the drain commits is numbered by the last `u64`, unless it counts otherwise. -/
def Spacious (c : Ctx) (buffer : Table Nat Bytes) (n : Nat) : Prop :=
  ∀ k, Reaches c buffer n k → ∀ frame m, buffer[k]? = some frame → parseInbound c frame = .ok m → Countable c m →
    k + 1 < u64Limit

def Comes (c : Ctx) (w : World) (frame : Bytes) (m : ParsedMessage) (n : Nat) : Prop :=
  Sequenced c frame m n ∧ (n = w.nextIn ∨ n < w.nextIn ∧ possDup m = false ∧ w.phase = .logonSent)

def HasRoom (c : Ctx) (w : World) (frame : Bytes) : Prop :=
  ∀ m n, Comes c w frame m n → (Countable c m → n + 1 < u64Limit) ∧
    ∀ k, numberBehind m n = some k → Spacious c w.gapBuffer k

section

variable {c : Ctx} {buffer : Table Nat Bytes} {m : ParsedMessage} {e : Expected} {n k o : Nat}

theorem Reaches.smaller {other : Table Nat Bytes} (reaches : Reaches c other n k)
    (inside : ∀ (k : Nat) (frame : Bytes), other[k]? = some frame → buffer[k]? = some frame) :
    Reaches c buffer n k := by
  induction reaches with
  | here n => exact .here n
  | behind found parsed next _ ih => exact .behind (inside _ _ found) parsed next ih

theorem Spacious.smaller {other : Table Nat Bytes} (h : Spacious c buffer n)
    (inside : ∀ (k : Nat) (frame : Bytes), other[k]? = some frame → buffer[k]? = some frame) : Spacious c other n :=
  fun k reaches frame m found => h k (reaches.smaller inside) frame m (inside k frame found)

theorem countableOf {t : Bytes} {r : Option (Nat × Nat)} {h : Option Bytes} (typed : inboundMsgType m = .ok t)
    (resend : requestedResend o m t = .ok r) (response : heartbeatResponse m t = .ok h)
    (interval : checkHeartBtInt c m t = .ok ()) (other : t ≠ ascii "4") : Countable c m := by
  have two : plusOne c 1 = .ok 2 := by
    unfold plusOne
    rw [if_pos (by decide)]
  refine ⟨o,⟨t,r,h,2⟩,?_,other⟩
  unfold inboundChecks
  rw [typed]
  simp only [inSession,bind,Except.bind,resend,response,interval,nextInAfter,if_neg other,two]

theorem checksSafe (room : Countable c m → n + 1 < u64Limit) : FailsOnly safe (inboundChecks c o n n m) := by
  intro halt bad
  unfold inboundChecks at bad
  cases typed : inboundMsgType m with
  | error e => rw [typed] at bad; cases bad; exact failSafe e
  | ok t =>
  cases resend : requestedResend o m t with
  | error e => simp only [typed,inSession,bind,Except.bind,resend] at bad; cases bad; exact failSafe e
  | ok r =>
  cases response : heartbeatResponse m t with
  | error e => simp only [typed,inSession,bind,Except.bind,resend,response] at bad; cases bad; exact failSafe e
  | ok h =>
  cases interval : checkHeartBtInt c m t with
  | error e =>
    simp only [typed,inSession,bind,Except.bind,resend,response,interval] at bad
    cases bad
    exact failSafe e
  | ok _ =>
  simp only [typed,inSession,bind,Except.bind,resend,response,interval] at bad
  have behind : FailsOnly safe (nextInAfter c n n m t) := by
    unfold nextInAfter
    split
    · refine .bind (safeSession _) fun _ => ?_
      split
      · exact .error (failSafe _)
      · refine .bind (safeSession _) fun _ => ?_
        split
        · exact .error (failSafe _)
        · exact .ok _
    · rename_i other
      rw [plusOne,if_pos (room (countableOf typed resend response interval other))]
      exact .ok _
  split at bad
  · rename_i failed
    cases bad
    exact behind _ failed
  · cases bad

theorem checksBehind (room : Countable c m → n + 1 < u64Limit) (ok : inboundChecks c o n n m = .ok e) :
    numberBehind m n = some e.nextInAfter ∧ (e.msgType = ascii "4" ∨ n + 1 < u64Limit) := by
  have checked := checksSource ok
  have typed := (inboundMsgTypeSource checked.msgType).1
  have next := checked.next
  unfold numberBehind
  unfold nextInAfter at next
  split at next
  · rename_i fill
    rw [if_pos (by rw [typed,fill])]
    obtain ⟨_,-,next⟩ := boundOk next
    split at next
    · cases next
    obtain ⟨newSeqNum,named,next⟩ := boundOk next
    split at next
    · cases next
    · cases next
      rw [inSessionOk named]
      exact ⟨rfl,.inl fill⟩
  · rename_i other
    have below := room (countableOf checked.msgType checked.resend checked.response checked.heartBtInt other)
    rw [plusOne,if_pos below] at next
    refine ⟨?_,.inr below⟩
    rw [if_neg (by simpa [typed] using other),Except.ok.inj next]

theorem commitAhead {commit : InboundCommit} (below : commit.msgType = ascii "4" ∨ commit.msgSeqNum + 1 < u64Limit) :
    ∀ k ∈ aheadOf (.commitInbound commit), k < u64Limit := by
  intro k mem
  change k ∈ (if commit.msgType = ascii "4" then [] else [commit.msgSeqNum + 1]) at mem
  split at mem
  · cases mem
  · rename_i other
    exact List.mem_singleton.mp mem ▸ below.resolve_left other

theorem rangeBelow {first last begins stop : Nat} (ok : validateReplayRange n first last = .ok (begins,stop)) :
    stop + 1 ≤ n := by
  simp only [validateReplayRange] at ok
  generalize ends : (if last = 0 then n - 1 else min last (n - 1)) = limit at ok
  split at ok
  · cases ok
  · rename_i inside
    have below : limit ≤ n - 1 := by
      rw [← ends]
      split <;> omega
    cases ok
    omega

theorem resendBelow {t : Bytes} {begins stop : Nat} (ok : requestedResend n m t = .ok (some (begins,stop))) :
    stop + 1 ≤ n := by
  unfold requestedResend at ok
  split at ok
  · obtain ⟨_,-,ok⟩ := boundOk ok
    obtain ⟨_,-,ok⟩ := boundOk ok
    obtain ⟨range,valid,ok⟩ := boundOk ok
    cases ok
    exact rangeBelow valid
  · cases ok

end

structure Kept (c : Ctx) (w : World) : Prop where
  stocked : Stocked c w
  within : Within w.toShared

def Stopped (halt : Halt) (w : World) : Prop := safe halt ∧ Within w.toShared

def Head (c : Ctx) (w : World) : Prop := Kept c w ∧ Spacious c w.gapBuffer w.nextIn

section

variable {c : Ctx} {α : Type} {m : ParsedMessage} {n : Nat} {frame : Bytes}

open Prog

theorem keptMeets {a : Act α} (stocked : Meets (Stocked c) a (fun _ => Stocked c) (fun _ _ => True))
    (moves : Moves Keeps a) (stops : StopsOnly safe a) : Meets (Kept c) a (fun _ => Kept c) Stopped := by
  intro w h
  have first := stocked w h.stocked
  have second := (moves w).within h.within
  have third := stops w trivial
  rcases run : a w with ⟨halt | r,v⟩
  · rw [run] at second third
    exact ⟨third,second⟩
  · rw [run] at first second
    exact ⟨first,second⟩

theorem withinReplay (begins stop : Nat) :
    Meets (fun w => Within w.toShared ∧ stop ≤ recordings w.trace) (replayValidatedRange c begins stop)
      (fun _ w => Within w.toShared) (fun _ w => Within w.toShared) := by
  have loads : Meets (fun w => Within w.toShared ∧ stop ≤ recordings w.trace)
      (storeApply c (.loadOutboundRange ⟨begins,stop⟩)) (fun _ w => Within w.toShared)
      (fun _ w => Within w.toShared) := by
    intro w ⟨h,recorded⟩
    refine Meets.outcome (J := fun w : World => Within w.toShared) (h.stores fun k mem => ?_) fun _ _ h => h
    have same : k = stop + 1 := by simpa [aheadOf] using mem
    exact .inr (by omega)
  refine Meets.bind loads fun reply => ?_
  split
  · exact Meets.ofMoves (J := fun w : World => Within w.toShared)
      (keepsPermits.advances.replayLoop transmissionAhead trivial (fun _ _ _ _ => trivial) _ _ _)
      (fun _ _ moved h => moved.within h) fun _ h => h
  · exact Meets.stop fun _ h => h

theorem withinAfterCommit (m : ParsedMessage) (e : Expected)
    (range : ∀ begins stop, e.requestedResend = some (begins,stop) → stop ≤ n) :
    Meets (fun w => Within w.toShared ∧ n ≤ recordings w.trace) (afterCommit c m e)
      (fun _ w => Within w.toShared) (fun _ w => Within w.toShared) := by
  have splits : afterCommit c m e = (do
      (do logonReceived e.msgType; testRequestAnswered m e.msgType; logoutReceived c e.msgType)
      answerResendRequest c e.requestedResend
      answerTestRequest c e.heartbeatResponse : Act Unit) := by
    simp only [afterCommit,bind_assoc]
  have received : Meets (fun w : World => Within w.toShared ∧ n ≤ recordings w.trace)
      (do logonReceived e.msgType; testRequestAnswered m e.msgType; logoutReceived c e.msgType : Act Unit)
      (fun _ w => Within w.toShared ∧ n ≤ recordings w.trace) (fun _ (w : World) => Within w.toShared) :=
    Meets.ofMoves (J := fun w : World => Within w.toShared ∧ n ≤ recordings w.trace)
      (F := fun w : World => Within w.toShared) (keepsPermits.received (fun _ _ => trivial) plainAhead e.msgType m)
      (fun _ _ moved h => ⟨moved.within h.1,h.2.trans moved.grows⟩) fun _ h => h.1
  rw [splits]
  refine Meets.bind received fun _ => Meets.bind (Q := fun _ w => Within w.toShared) ?_ fun _ => ?_
  · cases asked : e.requestedResend with
    | none => exact Meets.pure fun _ h => h.1
    | some resend =>
      exact (withinReplay resend.1 resend.2).weaken (fun _ h => ⟨h.1,(range _ _ asked).trans h.2⟩)
        (fun _ _ h => h) fun _ _ h => h
  · cases e.heartbeatResponse with
    | none => exact Meets.pure fun _ h => h
    | some id =>
      exact Meets.ofMoves (J := fun w : World => Within w.toShared)
        (keepsPermits.heartbeat (fun _ _ => trivial) plainAhead _) (fun _ _ moved h => moved.within h) fun _ h => h

theorem headAfterCommit (m : ParsedMessage) (e : Expected)
    (range : ∀ begins stop, e.requestedResend = some (begins,stop) → stop ≤ n) :
    Meets (fun w => Head c w ∧ n ≤ recordings w.trace) (afterCommit c m e) (fun _ => Head c) Stopped := by
  intro w ⟨⟨kept,spacious⟩,more⟩
  have first := stockedCarries.afterCommit m e w kept.stocked
  have second := withinAfterCommit (c := c) m e range w ⟨kept.within,more⟩
  have third := safeAfterCommit (c := c) m e w trivial
  have still := steadyAfterCommit (c := c) m e w
  rcases run : afterCommit c m e w with ⟨halt | r,v⟩
  · rw [run] at second third
    exact ⟨third,second⟩
  · rw [run] at first second still
    refine ⟨⟨first,second⟩,?_⟩
    rw [still.gapBuffer,still.nextIn]
    exact spacious

structure Ready (c : Ctx) (m : ParsedMessage) (n : Nat) (w : World) : Prop extends Kept c w where
  next : w.nextIn = n
  room : Countable c m → n + 1 < u64Limit
  behind : ∀ k, numberBehind m n = some k → Spacious c w.gapBuffer k

theorem headCommits (sequenced : Sequenced c frame m n) :
    Meets (Ready c m n) (commitExpected c m frame) (fun _ => Head c) Stopped := by
  rintro w ⟨kept,rfl,room,behind⟩
  rw [commitExpectedRun frame sequenced.sequence rfl]
  cases checks : inboundChecks c w.nextOut w.nextIn w.nextIn m with
  | error halt => exact ⟨checksSafe room halt checks,kept.within⟩
  | ok e =>
    obtain ⟨next,below⟩ := checksBehind room checks
    have ahead : ∀ k ∈ aheadOf (.commitInbound (inboundCommit w w.nextIn frame e)), small (recordings w.trace) k :=
      fun k mem => .inl (commitAhead below k mem)
    have within := kept.within.stores (c := c) ahead
    have orderly := safeStore (c := c) (.commitInbound (inboundCommit w w.nextIn frame e)) w trivial
    have grown := storesGrow (c := c) (.commitInbound (inboundCommit w w.nextIn frame e)) w
    have stocked := stockedCarries.commit w frame m e sequenced checks kept.stocked
    dsimp only
    rw [commitCheckedRun]
    rcases run : storeApply c (.commitInbound (inboundCommit w w.nextIn frame e)) w with ⟨halt | reply,v⟩
    · rw [run] at within orderly
      exact ⟨orderly,within⟩
    · rw [run] at within stocked grown
      obtain ⟨-,-,rfl⟩ := storeReturned run
      have resends (begins stop : Nat) (asked : e.requestedResend = some (begins,stop)) :
          stop ≤ recordings w.trace := by
        have resend := (checksSource checks).resend
        rw [asked] at resend
        have last := resendBelow resend
        have out := kept.stocked.nextOut
        omega
      refine headAfterCommit m e resends _ ⟨⟨⟨stocked,?_⟩,behind _ next⟩,?_⟩
      · exact within.note _ rfl
      · refine grown.trans ?_
        rw [counted,recordingsMore]
        exact countingMore _ _

theorem headDrains (fuel : Nat) : Meets (Head c) (drain c fuel) (fun _ => Head c) Stopped := by
  have keeps (w : World) (keep : Nat → Bool) (h : Head c w) :
      Head c {w with gapBuffer := w.gapBuffer.keepKeys keep} := by
    refine ⟨⟨⟨h.1.stocked.numbers,h.1.stocked.nextOut,h.1.stocked.buffered.skip keep⟩,h.1.within⟩,?_⟩
    refine h.2.smaller fun k frame found => ?_
    rw [Table.keepKeysGet] at found
    split at found
    · exact found
    · cases found
  induction fuel with
  | zero => exact Meets.pure fun _ h => h
  | succ fuel ih =>
    refine Meets.bind (Q := fun _ => Head c) (Meets.change fun w h => keeps w _ h) fun _ =>
      Meets.bind (Q := fun w v => Head c v ∧ w = v) (Meets.state fun w h => ⟨h,rfl⟩) fun w => ?_
    cases next : w.gapBuffer[w.nextIn]? with
    | none => exact Meets.pure fun _ h => h.1
    | some f =>
      -- the entry under the next number is parsed once more, as it was when it was buffered
      rintro v ⟨⟨kept,spacious⟩,rfl⟩
      obtain ⟨m,sequenced⟩ := kept.stocked.buffered _ f next
      have ready : Ready c m w.nextIn {w with gapBuffer := w.gapBuffer.erase w.nextIn} := by
        refine ⟨⟨⟨kept.stocked.numbers,kept.stocked.nextOut,kept.stocked.buffered.erase _⟩,kept.within⟩,rfl,?_,?_⟩
        · exact spacious _ (.here _) f m next sequenced.parsed
        · intro k behind
          have later : Spacious c w.gapBuffer k := fun l reaches =>
            spacious l (.behind next sequenced.parsed behind reaches)
          refine later.smaller fun l frame found => ?_
          simp only [Std.ExtTreeMap.getElem?_erase] at found
          split at found
          · cases found
          · exact found
      have commits := Meets.bind (headCommits sequenced) fun _ => ih
      have parsed : (Prog.ofExcept (parseInbound c f) : Act ParsedMessage) = pure m := by rw [sequenced.parsed]; rfl
      dsimp only
      rw [bindRun,changeRun,parsed,pure_bind]
      exact commits _ ready

theorem keptAccepts (sequenced : Sequenced c frame m n) :
    Meets (fun w => Kept c w ∧ HasRoom c w frame ∧ ¬ w.nextIn < n ∧ ¬ (n < w.nextIn ∧ possDup m = true))
      (acceptFrame c m n frame) (fun _ => Kept c) Stopped := by
  have realigns : Meets (fun w => Kept c w ∧ HasRoom c w frame ∧ ¬ w.nextIn < n ∧ ¬ (n < w.nextIn ∧ possDup m = true))
      (realignIfLow c n) (fun _ => Ready c m n) Stopped := by
    rintro w ⟨kept,room,notAhead,notReplay⟩
    simp only [realignIfLow,bindRun,stateRun,iteRun]
    by_cases low : n < w.nextIn
    · rw [if_pos low]
      have original : possDup m = false := by simpa [low] using notReplay
      have first := stockedRealign (c := c) n w kept.stocked
      have second := safeRealign (c := c) n w trivial
      have third := realignMoves c n w
      have fourth := (keepsPermits.realigns (c := c) plainAhead n w).within kept.within
      rcases run : realign c n w with ⟨halt | _,v⟩
      · rw [run] at second fourth
        exact ⟨second,fourth⟩
      · rw [run] at first third fourth
        have unanswered : w.phase = .logonSent := by
          by_contra other
          rw [realignRefused other] at run
          cases run
        obtain ⟨above,behind⟩ := room m n ⟨sequenced,.inr ⟨low,original,unanswered⟩⟩
        exact ⟨⟨first.1,fourth⟩,first.2,above,fun k next => third.gapBuffer ▸ behind k next⟩
    · rw [if_neg low]
      have same : n = w.nextIn := by omega
      obtain ⟨above,behind⟩ := room m n ⟨sequenced,.inl same⟩
      exact ⟨kept,same.symm,above,behind⟩
  have ends : Meets (Head c) endRecovery (fun _ => Kept c) Stopped := by
    refine Meets.bind (Q := fun _ => Head c) (Meets.state fun _ h => h) fun w => ?_
    split
    · exact Meets.change fun v h =>
        ⟨stockedCarries.idle _ _ (.phased v _) h.1.stocked,h.1.within.note _ rfl⟩
    · exact Meets.pure fun _ h => h.1
  exact Meets.bind realigns fun _ => Meets.bind (headCommits sequenced) fun _ =>
    Meets.bind (Q := fun _ => Head c) (Meets.bind (Q := fun _ => Head c) (Meets.state fun _ h => h)
      fun _ => headDrains _) fun _ => ends

theorem keptFrames :
    Meets (fun w => Kept c w ∧ HasRoom c w frame) (handleFrame c frame) (fun _ => Kept c) Stopped := by
  rintro w ⟨kept,room⟩
  have logged : Kept c {w with trace := .logged (.incoming frame) :: w.trace} :=
    ⟨stockedCarries.idle _ _ (.event w w.tick (.logged _) trivial) kept.stocked,kept.within.note _ rfl⟩
  unfold handleFrame emit
  rw [bindRun,changeRun]
  generalize arrived : {w with trace := .logged (.incoming frame) :: w.trace} = v at logged
  have space : HasRoom c v frame := arrived ▸ room
  have heard : Kept c (arrivedAt c v) :=
    ⟨⟨logged.stocked.numbers,logged.stocked.nextOut,logged.stocked.buffered.same rfl⟩,logged.within.ticks _⟩
  dsimp only
  cases parsed : parseInbound c frame with
  | error halt =>
    rw [handleUnparsed parsed]
    exact ⟨safeParseInbound frame halt parsed,logged.within⟩
  | ok message =>
    cases sequence : requiredU64 message 34 with
    | error error =>
      rw [handleUnsequenced parsed sequence]
      exact ⟨failSafe error,heard.within⟩
    | ok msgSeqNum =>
      have shape : Sequenced c frame message msgSeqNum := ⟨parsed,sequence⟩
      rw [handleSequenced parsed sequence,sequenced]
      by_cases ahead : (arrivedAt c v).nextIn < msgSeqNum
      · rw [if_pos ahead]
        exact keptMeets (stockedCarries.ahead shape)
          (keepsPermits.buffers (fun _ _ => trivial) plainAhead _ _) (safeBufferGap _ _) _ heard
      · rw [if_neg ahead]
        by_cases replay : msgSeqNum < (arrivedAt c v).nextIn ∧ possDup message = true
        · rw [if_pos replay]
          have stocked : Meets (Stocked c) (verifyPossdup c message msgSeqNum) (fun _ => Stocked c)
              (fun _ _ => True) :=
            stockedCarries.idles ((quietPossdup message msgSeqNum).weaken fun _ _ => Quiet.idle)
          exact keptMeets stocked (keepsPermits.advances.verifyPossdup _ _ rfl) (safePossdup _ _) _ heard
        · rw [if_neg replay]
          exact keptAccepts shape _ ⟨heard,space,ahead,replay⟩

theorem withinSettle {r : Except Halt Unit × World} (h : Within r.2.toShared) : Within (settle r).world.toShared :=
  (keepsPermits.settled r.1 r.2).within h

end

def handling (c : Ctx) : Input → Act Unit
  | .command command => handleCommand c command
  | .frame wire => handleFrame c wire
  | .timer => heartbeatDue c
  | .handlesDropped | .endOfStream | .readFailed _ | .decodeFailed _ => pure ()

def Unpanicked (c : Ctx) (conn : Conn) (input : Input) : Prop :=
  conn.live = true → (handling c input conn.world).1 ≠ .error .panic

def RoomAhead (c : Ctx) (conn : Conn) (input : Input) : Prop :=
  conn.live = true → ∀ frame, input = .frame frame → HasRoom c conn.world frame

def EachTurn (cond : Ctx → Conn → Input → Prop) (lives : List Life) : Prop :=
  Along lived (fun s life => Along (step life.ctx) (cond life.ctx) (spawn life.ctx s) life.inputs) fresh lives

def Few (trace : List Event) : Prop := trace.countP messageRecorded < 2 ^ 63 ∧ trace.countP eventRecorded < 2 ^ 63

def NeverOverflows (lives : List Life) : Prop :=
  (∀ event ∈ (livedAll lives).trace, ∀ n ∈ sums event, n < u64Limit) ∧ EachTurn Unpanicked lives

structure Going (c : Ctx) (conn : Conn) : Prop where
  stocked : conn.live = true → Stocked c conn.world
  within : Within conn.world.toShared

section

variable {c : Ctx} {conn : Conn} {input : Input} {s : Shared} {lives : List Life}

open Prog

theorem goingStep (room : RoomAhead c conn input) (h : Going c conn) : Going c (step c conn input) := by
  refine ⟨(stockedCarries.steps (fun request _ live => stockedSubmits (h.stocked live)) ⟨trivial,h.stocked⟩).2,?_⟩
  unfold step
  cases live : conn.live with
  | false => exact h.within
  | true =>
    rw [if_pos rfl]
    cases input with
    | command command =>
      have moves : Moves Keeps (handleCommand c command) :=
        keepsPermits.commands (fun _ _ => trivial) plainAhead fun _ _ => ⟨trivial,submitAhead⟩
      exact (keepsPermits.settles moves conn.world).within h.within
    | timer =>
      have moves : Moves Keeps (heartbeatDue c) := keepsPermits.timers (fun _ _ => trivial) plainAhead
      exact (keepsPermits.settles moves conn.world).within h.within
    | handlesDropped => exact h.within.note _ rfl
    | endOfStream =>
      have changed := h.within.note (.phaseChanged .disconnected) rfl
      have closed := changed.note .transportClosed rfl
      exact closed.note (.logged (.info (ascii "Disconnecting"))) rfl
    | readFailed text => exact withinSettle (r := (.error (.fail (.transport text)),conn.world)) h.within
    | decodeFailed stop => exact withinSettle (r := (.error (decodeHalt stop),conn.world)) h.within
    | frame wire =>
      refine withinSettle ?_
      have handled := keptFrames conn.world ⟨⟨h.stocked live,h.within⟩,room live wire rfl⟩
      rcases run : handleFrame c wire conn.world with ⟨halt | _,v⟩
      · rw [run] at handled
        exact handled.2
      · rw [run] at handled
        exact handled.within

theorem meetsUnpanicked {m : Act Unit} {P : World → Prop} {Q : Unit → World → Prop} {E : Halt → World → Prop}
    {w : World} (meets : Meets P m Q E) (apart : ∀ halt v, E halt v → safe halt) (pre : P w) :
    (m w).1 ≠ .error .panic := by
  have here := meets w pre
  rcases run : m w with ⟨halt | _,v⟩
  · rw [run] at here
    exact fun bad => apart halt v here (Except.error.inj bad)
  · exact fun bad => nomatch bad

theorem goingUnpanicked (room : RoomAhead c conn input) (h : Going c conn) : Unpanicked c conn input := by
  intro live
  have handled : Meets (· = conn.world) (handling c input) (fun _ _ => True) (fun halt _ => safe halt) := by
    cases input with
    | command command => exact Meets.weaken (safeCommand command) (fun _ _ => trivial) (fun _ _ h => h) fun _ _ h => h
    | timer => exact Meets.weaken safeTimer (fun _ _ => trivial) (fun _ _ h => h) fun _ _ h => h
    | handlesDropped | endOfStream | readFailed _ | decodeFailed _ => exact Meets.pure fun _ _ => trivial
    | frame wire =>
      refine keptFrames.weaken (fun w same => ?_) (fun _ _ _ => trivial) fun _ _ h => h.1
      exact same ▸ ⟨⟨h.stocked live,h.within⟩,room live wire rfl⟩
  exact meetsUnpanicked handled (fun _ _ h => h) rfl

theorem goingSpawn (h : Within s) : Going c (spawn c s) := by
  have entered : Stocked c (entering c s) :=
    ⟨⟨h.nextOut,h.nextEvent,h.commands⟩,h.nextOut,fun k frame found => by simp [entering] at found⟩
  have ticked : Within (entering c s).toShared := h.ticks _
  have resets : Meets (· = entering c s) (resetIfConfigured c) (fun _ => Stocked c) (fun _ _ => True) := by
    have resetting : Meets (Stocked c) (resetOnLogon c) (fun _ => Stocked c) (fun _ _ => True) := by
      refine Meets.bind (Q := fun _ => Stocked c) (fun w stocked => ?_) fun reply => ?_
      · rcases run : storeApply c .resetSequences w with ⟨halt | reply,v⟩
        · trivial
        · obtain ⟨-,-,rfl⟩ := storeReturned run
          exact stocked.applied .resetSequences
      · split
        · refine Meets.bind (Q := fun _ => Stocked c) (Meets.change fun w h => ?_) fun _ =>
            Meets.bind (Q := fun _ => Stocked c) (Meets.change fun w h => ?_) fun _ =>
              stockedCarries.idles (idleLogs _)
          · exact ⟨h.numbers,Nat.le_add_left 1 _,h.buffered.same rfl⟩
          · have more : recordings w.trace ≤ recordings (.expecting 1 :: w.trace) :=
              recordingsMore _ w.trace ▸ countingMore _ _
            exact ⟨h.numbers.later more,h.nextOut.trans (Nat.succ_le_succ more),h.buffered.same rfl⟩
        · exact Meets.stop fun _ _ => trivial
    unfold resetIfConfigured
    by_cases configured : c.config.resetOnLogon = true
    · rw [if_pos configured]
      exact resetting.weaken (fun _ same => same ▸ entered) (fun _ _ h => h) fun _ _ h => h
    · rw [if_neg configured]
      exact Meets.pure fun _ same => same ▸ entered
  exact ⟨(stockedCarries.spawns trivial resets).2,
    (keepsPermits.spawns (fun _ _ => trivial) plainAhead s).within ticked⟩

theorem withinFresh : Within fresh :=
  ⟨⟨Nat.le_refl 1,Nat.le_refl 1,fun id record found => by simp [fresh,Journal.empty] at found⟩,Nat.le_refl 1,
    by simp [fresh]⟩

/-- In every run whose frames find room behind what they bring up: no addition leaves
`u64`, and no input makes an actor panic. -/
theorem arithmeticFits (room : EachTurn RoomAhead lives) (few : Few (livedAll lives).trace) :
    NeverOverflows lives := by
  have living (s : Shared) (life : Life)
      (along : Along (step life.ctx) (RoomAhead life.ctx) (spawn life.ctx s) life.inputs) (h : Within s) :
      Within (lived s life) :=
    (foldInvariant (I := Going life.ctx) (fun _ _ => goingStep) (goingSpawn h) along).within
  have within := foldInvariant (I := Within) living withinFresh room
  refine ⟨fun event mem n inside => ?_,alongConclude (I := Within) living (fun s life along h => ?_) withinFresh room⟩
  · obtain ⟨messages,events⟩ := few
    have split := recordingsSplit (livedAll lives).trace
    have limit : u64Limit = 2 ^ 64 := rfl
    rcases within.sums event mem n inside with below | below
    · exact below
    · change n ≤ recordings (livedAll lives).trace + 1 at below
      omega
  · exact alongConclude (I := Going life.ctx) (fun _ _ => goingStep) (fun _ _ => goingUnpanicked) (goingSpawn h) along

end

def topFill : Bytes := venueFrame "4" 2 [⟨123,ascii "Y"⟩,⟨36,ascii "18446744073709551615"⟩]

def topped (c : Ctx) : List Life := [⟨c,[.frame (venueLogon 1),.frame topFill]⟩]

def topHeartbeat : Bytes := venueFrame "0" (u64Limit - 1) []

def overflowing (c : Ctx) : List Life := [⟨c,[.frame (venueLogon 1),.frame topFill,.frame topHeartbeat]⟩]

theorem heartbeatOverflows : ¬ ∀ lives, Few (livedAll lives).trace → NeverOverflows lives := by
  intro all
  have fits := all (overflowing venueCtx) (by unfold Few; decide +kernel)
  obtain ⟨⟨-,-,third,-⟩,-⟩ := fits.2
  exact third (by decide +kernel) (by decide +kernel)

def uncheckedCtx : Ctx := {venueCtx with env := {venueCtx.env with overflowChecks := false}}

/-- A build without overflow checks wraps, and the store refuses the commit. -/
example : u64Limit ∈ (livedAll (overflowing uncheckedCtx)).trace.flatMap sums := by
  decide +kernel

theorem roomWhereEmpty {c : Ctx} {w : World} {frame : Bytes} {m : ParsedMessage} {n : Nat}
    (sequenced : Sequenced c frame m n) (below : n + 1 < u64Limit) (empty : w.gapBuffer.isEmpty = true) :
    HasRoom c w frame := by
  have nothing (k : Nat) : w.gapBuffer[k]? = none := by
    rw [Std.ExtTreeMap.isEmpty_iff.mp empty]
    exact Std.ExtTreeMap.getElem?_empty
  rintro other k ⟨shape,-⟩
  obtain ⟨rfl,rfl⟩ := sequenced.unique shape
  refine ⟨fun _ => below,fun l _ i _ f message found => ?_⟩
  rw [nothing] at found
  cases found

theorem arithmeticFitsAtVenue : (∀ event ∈ (livedAll (topped venueCtx)).trace, ∀ n ∈ sums event, n < u64Limit) ∧
    EachTurn Unpanicked (topped venueCtx) := by
  refine arithmeticFits ⟨⟨?_,?_,trivial⟩,trivial⟩ (by unfold Few; decide +kernel)
  · rintro - frame same
    cases same
    exact roomWhereEmpty (m := parsedOf (venueLogon 1)) (n := 1) ⟨by decide +kernel,by decide +kernel⟩ (by decide)
      (by decide +kernel)
  · rintro - frame same
    cases same
    exact roomWhereEmpty (m := parsedOf topFill) (n := 2) ⟨by decide +kernel,by decide +kernel⟩ (by decide)
      (by decide +kernel)

end FixCli.Session
