import FixCli.CounterSync
import FixCli.Lib.Loop

/-! The buffer of frames that came ahead. Whatever an arriving frame does, what stays in
the buffer lies above the next number, in order and under its own, within the limit, and
there is nothing while the Logon is unanswered. The loop that empties it takes an entry
out at every turn but the last, wherever the commits move the next number. -/
namespace FixCli.Session
open Lib Codec Store

structure Held (c : Ctx) (w : World) : Prop where
  buffered : Buffered c w
  bounded : w.gapBuffer.size ≤ gapBufferLimit
  unanswered : w.phase = .logonSent → w.gapBuffer = ∅

def Above (w : World) : Prop := ∀ k frame, w.gapBuffer[k]? = some frame → w.nextIn < k

structure Tidy (c : Ctx) (w : World) : Prop extends Held c w where
  above : Above w

def drainTurn (c : Ctx) : Act Bool := do
  Prog.change fun w => {w with gapBuffer := w.gapBuffer.keepKeys (fun sequence => w.nextIn ≤ sequence)}
  let w ← Prog.state
  match w.gapBuffer[w.nextIn]? with
  | none => pure false
  | some buffered => do
    Prog.change fun w => {w with gapBuffer := w.gapBuffer.erase w.nextIn}
    let message ← Prog.ofExcept (parseInbound c buffered)
    commitExpected c message buffered
    pure true

def pruned (w : World) : World :=
  {w with gapBuffer := w.gapBuffer.keepKeys (fun sequence => w.nextIn ≤ sequence)}

def removed (w : World) : World := {w with gapBuffer := w.gapBuffer.erase w.nextIn}

def inboundCommitted : Event → Bool
  | .stored (.commitInbound _) _ => true
  | _ => false

def commitsAsked (trace : List Event) : Nat := trace.countP inboundCommitted

section

variable {c : Ctx} {w v : World} {n : Nat}

open Prog

theorem tidyEmpty (empty : w.gapBuffer = ∅) : Tidy c w := by
  refine ⟨⟨fun k frame found => ?_,?_,fun _ => empty⟩,fun k frame found => ?_⟩
  · rw [empty] at found
    simp at found
  · rw [empty]
    exact Nat.zero_le _
  · rw [empty] at found
    simp at found

namespace Held

theorem smaller (h : Held c w) (buffered : Buffered c v) (size : v.gapBuffer.size ≤ w.gapBuffer.size)
    (phase : v.phase = w.phase ∨ v.phase ≠ .logonSent) : Held c v := by
  refine ⟨buffered,size.trans h.bounded,fun unanswered => ?_⟩
  rcases phase with same | gone
  · have none := Std.ExtTreeMap.eq_empty_iff_size_eq_zero.mp (h.unanswered (same ▸ unanswered))
    exact Std.ExtTreeMap.eq_empty_iff_size_eq_zero.mpr (by omega)
  · exact absurd unanswered gone

theorem same (h : Held c w) (gapBuffer : v.gapBuffer = w.gapBuffer)
    (phase : v.phase = w.phase ∨ v.phase ≠ .logonSent) : Held c v :=
  h.smaller (h.buffered.same gapBuffer) (by rw [gapBuffer]) phase

theorem steady (h : Held c w) (moved : Steady w v) : Held c v := h.same moved.gapBuffer moved.phase

theorem skip (h : Held c w) (keep : Nat → Bool) : Held c {w with gapBuffer := w.gapBuffer.keepKeys keep} :=
  h.smaller (h.buffered.skip keep) (Table.keepKeysSize _ _) (.inl rfl)

theorem erase (h : Held c w) (n : Nat) : Held c {w with gapBuffer := w.gapBuffer.erase n} :=
  h.smaller (h.buffered.erase n) Std.ExtTreeMap.size_erase_le (.inl rfl)

end Held

theorem Above.same (above : Above w) (gapBuffer : v.gapBuffer = w.gapBuffer) (nextIn : v.nextIn = w.nextIn) :
    Above v := by
  intro k frame found
  rw [nextIn]
  exact above k frame (gapBuffer ▸ found)

theorem Tidy.steady (h : Tidy c w) (moved : Steady w v) : Tidy c v :=
  ⟨h.toHeld.steady moved,h.above.same moved.gapBuffer moved.nextIn⟩

structure Inserted (n : Nat) (frame : Bytes) (w v : World) : Prop where
  room : w.gapBuffer.size < gapBufferLimit
  gapBuffer : v.gapBuffer = w.gapBuffer.insertIfNew n frame
  nextIn : v.nextIn = w.nextIn
  phase : v.phase = .recovering

theorem bufferInserts {frame : Bytes} (run : bufferGap c n frame w = (.ok (),v)) : Inserted n frame w v := by
  by_cases room : w.gapBuffer.size < gapBufferLimit
  · rw [bufferGapRun frame room] at run
    by_cases recovering : w.phase = .recovering
    · rw [if_pos recovering] at run
      cases run
      exact ⟨room,rfl,rfl,recovering⟩
    · rw [if_neg recovering] at run
      obtain ⟨⟨⟩,u,asked,last⟩ := bindReturned run
      have sent := sendsResendRequest (c := c) w.nextIn (buffering n frame w)
      rw [asked] at sent
      cases last
      exact ⟨room,sent.gapBuffer,sent.nextIn,rfl⟩
  · simp only [bufferGap,bindRun,stateRun,iteRun,if_pos (Nat.not_lt.mp room)] at run
    cases run

theorem Held.inserted {frame : Bytes} {message : ParsedMessage} (h : Held c w)
    (sequenced : Sequenced c frame message n) (inserted : Inserted n frame w v) : Held c v := by
  have buffered : Buffered c {w with gapBuffer := w.gapBuffer.insertIfNew n frame} := h.buffered.insert sequenced
  refine ⟨buffered.same inserted.gapBuffer,?_,fun unanswered => ?_⟩
  · have one : (w.gapBuffer.insertIfNew n frame).size ≤ w.gapBuffer.size + 1 := Std.ExtTreeMap.size_insertIfNew_le
    have room := inserted.room
    rw [inserted.gapBuffer]
    omega
  · cases inserted.phase.symm.trans unanswered

theorem Above.inserted {frame : Bytes} (above : Above w) (ahead : w.nextIn < n)
    (inserted : Inserted n frame w v) : Above v := by
  intro k f found
  rw [inserted.gapBuffer,Std.ExtTreeMap.getElem?_insertIfNew] at found
  rw [inserted.nextIn]
  split at found
  · rename_i fresh
    have same : n = k := by simpa using fresh.1
    exact same ▸ ahead
  · exact above k f found

theorem heldCommit {frame : Bytes} {message : ParsedMessage} {expected : Expected} :
    Meets (Held c) (commitChecked c message n frame expected) (fun _ => Held c) (fun _ _ => True) := by
  intro w held
  rw [commitCheckedRun]
  obtain ⟨actor,-⟩ := storeTrace c (.commitInbound (inboundCommit w n frame expected)) w
  rcases run : storeApply c (.commitInbound (inboundCommit w n frame expected)) w with ⟨halt | reply,v⟩
  · trivial
  · rw [run] at actor
    have buffer : v.gapBuffer = w.gapBuffer := congrArg Actor.gapBuffer actor
    have phase : v.phase = w.phase := congrArg Actor.phase actor
    have counts : Held c (counted expected v) := held.same buffer (.inl phase)
    exact Meets.outcome (counts.steady (steadyAfterCommit message expected _)) fun _ _ _ => trivial

theorem heldFrame {frame : Bytes} : InboundRules c frame (Held c) (Held c) (Held c) (fun _ => True)
    (fun _ _ n w => Held c w ∧ w.nextIn = n) where
  quiet := fun _ _ moved h => h.same moved.gapBuffer (.inl moved.phase)
  beforeFails := fun _ _ => trivial
  headFails := fun _ _ => trivial
  headAfter := fun _ h => h
  readyFails := fun _ _ _ _ _ => trivial
  replayed := fun _ _ _ _ h _ _ => h
  ahead := fun _ n sequenced w h => by
    split
    · rename_i run
      exact h.1.inserted sequenced (bufferInserts run)
    · trivial
  behind := fun _ n _ _ => by
    have moves := Meets.ofMoves (P := Held c) (J := Held c) (F := fun _ => True) (realignMoves c n)
      (fun _ _ moved h => h.same moved.gapBuffer (.inl moved.phase)) fun _ _ => trivial
    exact (moves.both (Meets.weaken (realignReturns c n) (fun _ _ => trivial) (fun _ _ h => h) fun _ _ h => h)).weaken
      (fun _ h => h.1) (fun _ _ h => h) fun _ _ _ => trivial
  expected := fun _ _ _ _ h awaited => ⟨h,awaited⟩
  awaited := fun _ _ _ _ h => h.2
  commit := fun _ _ _ _ _ w h => heldCommit w h.1.1
  skip := fun _ h => h.skip _
  take := fun w f h found => by
    obtain ⟨message,sequenced⟩ := h.buffered _ f found
    exact ⟨message,sequenced,h.erase _,rfl⟩
  recovered := fun _ h _ _ => h.same rfl (.inr (by simp))

theorem drainTurns (fuel : Nat) : drain c fuel = turns (drainTurn c) fuel := by
  induction fuel with
  | zero => rfl
  | succ fuel ih =>
    have again : drain c (fuel + 1) = drainTurn c >>= fun more => if more then drain c fuel else pure () := by
      simp only [drain,drainTurn,bind_assoc]
      congr 1
      funext _
      congr 1
      funext w
      cases w.gapBuffer[w.nextIn]? with
      | none => rfl
      | some frame => simp only [bind_assoc,pure_bind,if_true]
    rw [again,ih]
    rfl

theorem drainTurnCases (w : World) :
    (pruned w).gapBuffer[w.nextIn]? = none ∧ drainTurn c w = (.ok false,pruned w) ∨
    ∃ frame, (pruned w).gapBuffer[w.nextIn]? = some frame ∧
      ((∃ halt, drainTurn c w = (.error halt,removed (pruned w))) ∨
        ∃ message, drainTurn c w =
          (do commitExpected c message frame; pure true : Act Bool) (removed (pruned w))) := by
  have shape : drainTurn c w = (match (pruned w).gapBuffer[w.nextIn]? with
      | none => pure false
      | some buffered => do
        Prog.change removed
        let message ← Prog.ofExcept (parseInbound c buffered)
        commitExpected c message buffered
        pure true : Act Bool) (pruned w) := rfl
  rw [shape]
  cases next : (pruned w).gapBuffer[w.nextIn]? with
  | none => exact .inl ⟨rfl,rfl⟩
  | some frame =>
    refine .inr ⟨frame,rfl,?_⟩
    dsimp only
    rw [bindReturns (changeRun _ _)]
    cases parseInbound c frame with
    | error halt => exact .inl ⟨halt,rfl⟩
    | ok message => exact .inr ⟨message,rfl⟩

theorem removedSmaller {frame : Bytes} (found : (pruned w).gapBuffer[w.nextIn]? = some frame) :
    (removed (pruned w)).gapBuffer.size < w.gapBuffer.size :=
  Nat.lt_of_lt_of_le (Table.eraseSize (Table.memOfGet found)) (Table.keepKeysSize _ _)

theorem prunedAbove (missing : (pruned w).gapBuffer[w.nextIn]? = none) : Above (pruned w) := by
  intro k frame found
  have other : w.nextIn ≠ k := fun same => by
    rw [same,found] at missing
    cases missing
  change (w.gapBuffer.keepKeys fun sequence => w.nextIn ≤ sequence)[k]? = some frame at found
  rw [Table.keepKeysGet] at found
  split at found
  · rename_i level
    have low : w.nextIn ≤ k := by simpa using level
    exact Nat.lt_of_le_of_ne low other
  · cases found

theorem turnSmaller (w v : World) (more : drainTurn c w = (.ok true,v)) : v.gapBuffer.size < w.gapBuffer.size := by
  rcases drainTurnCases (c := c) w with ⟨-,breaks⟩ | ⟨frame,found,⟨halt,stops⟩ | ⟨message,commits⟩⟩
  · cases breaks.symm.trans more
  · cases stops.symm.trans more
  · obtain ⟨⟨⟩,u,run,last⟩ := bindReturned (commits.symm.trans more)
    cases last
    have same := commitSameBuffer (c := c) message frame (removed (pruned w))
    rw [run] at same
    have buffer : v.gapBuffer = (removed (pruned w)).gapBuffer := same
    rw [buffer]
    exact removedSmaller found

theorem drainLoops (w : World) : ∃ n ≤ w.gapBuffer.size, Loops (drainTurn c) w n (drainBuffer c w) := by
  have fuelled : drainBuffer c w = turns (drainTurn c) (w.gapBuffer.size + 1) w := by
    rw [← drainTurns]
    rfl
  rw [fuelled]
  exact Loops.within (fun w : World => w.gapBuffer.size) turnSmaller (Nat.lt_succ_self _)

theorem drainsAbove : Meets (fun _ => True) (drainBuffer c) (fun _ => Above) (fun _ _ => True) := by
  intro w _
  obtain ⟨n,-,loops⟩ := drainLoops (c := c) w
  have each : Meets (fun _ => True) (drainTurn c) (fun more w => if more then True else Above w)
      (fun _ _ => True) := by
    intro w _
    rcases drainTurnCases (c := c) w with ⟨missing,breaks⟩ | ⟨frame,-,⟨halt,stops⟩ | ⟨message,commits⟩⟩
    · rw [breaks]
      exact prunedAbove missing
    · rw [stops]
      trivial
    · rw [commits]
      exact Meets.bind (P := fun _ => True) (Q := fun _ _ => True) (fun _ _ => by split <;> trivial)
        (fun _ => Meets.pure fun _ _ => trivial) _ trivial
  rcases run : drainBuffer c w with ⟨halt | _,v⟩
  · trivial
  · rw [run] at loops
    exact loops.meets each trivial

theorem askedOther {event : Event} (other : inboundCommitted event = false) (trace : List Event) :
    commitsAsked (event :: trace) = commitsAsked trace :=
  List.countP_cons_of_neg (by simp [other])

theorem remarkOther {event : Event} (h : remark event) : inboundCommitted event = false := by
  cases event <;> first | rfl | cases h

theorem storedOther {op : StoreOp} (other : ∀ commit, op ≠ .commitInbound commit)
    (answer : Except StoreError StoreReply) : inboundCommitted (.stored op answer) = false := by
  cases op with
  | commitInbound commit => exact absurd rfl (other commit)
  | _ => rfl

theorem uncommitted : Permits (fun _ => True) (fun op => ∀ commit, op ≠ .commitInbound commit)
    (fun w v : World => commitsAsked v.trace = commitsAsked w.trace) where
  refl := fun _ => rfl
  trans := fun _ _ _ first second => second.trans first
  ticks := fun _ _ => rfl
  notes := fun _ _ other => askedOther (remarkOther other) _
  moves := fun _ _ _ => rfl
  asks := fun _ _ _ => rfl
  stores := fun _ _ other => askedOther (storedOther other _) _
  refuses := fun _ _ _ other => askedOther (storedOther other _) _
  writes := fun _ _ _ _ => askedOther rfl _

theorem plainUncommitted (op : StoreOp) (plain : plainOp op) : ∀ commit, op ≠ .commitInbound commit := by
  rintro commit rfl
  exact plain

theorem replayUncommitted (op : StoreOp) (replay : replayOp op = true) : ∀ commit, op ≠ .commitInbound commit := by
  rintro commit rfl
  cases replay

def Asked (n : Nat) (w : World) : Prop := commitsAsked w.trace ≤ n

theorem checkedAsks (message : ParsedMessage) (msgSeqNum : Nat) (frame : Bytes) (expected : Expected) :
    Meets (Asked n) (commitChecked c message msgSeqNum frame expected) (fun _ => Asked (n + 1))
      (fun _ => Asked (n + 1)) := by
  intro w asked
  rw [commitCheckedRun]
  obtain ⟨-,trace⟩ := storeTrace c (.commitInbound (inboundCommit w msgSeqNum frame expected)) w
  rcases run : storeApply c (.commitInbound (inboundCommit w msgSeqNum frame expected)) w with ⟨r,v⟩
  rw [run] at trace
  have one : Asked (n + 1) v := by
    rcases trace with same | ⟨answer,same⟩
    · exact (congrArg commitsAsked same).trans_le (Nat.le_succ_of_le asked)
    · have asks : commitsAsked v.trace = commitsAsked w.trace + 1 :=
        (congrArg commitsAsked same).trans (List.countP_cons_of_pos rfl)
      exact asks.trans_le (Nat.succ_le_succ asked)
  cases r with
  | error halt => exact one
  | ok reply =>
    have counts : Asked (n + 1) (counted expected v) := (askedOther rfl v.trace).trans_le one
    have after := uncommitted.committed (c := c) (fun _ _ => trivial) plainUncommitted replayUncommitted message
      expected (counted expected v)
    exact Meets.outcome (J := Asked (n + 1)) (after.trans_le counts) fun _ _ h => h

theorem commitAsks (message : ParsedMessage) (frame : Bytes) :
    Meets (Asked n) (commitExpected c message frame) (fun _ => Asked (n + 1)) (fun _ => Asked (n + 1)) := by
  have more (w : World) (asked : Asked n w) : Asked (n + 1) w := Nat.le_succ_of_le asked
  have notices (msgSeqNum : Nat) : Meets (Asked n) (noticeDesync msgSeqNum) (fun _ => Asked n)
      (fun _ => Asked (n + 1)) :=
    Meets.ofMoves (uncommitted.notices msgSeqNum) (fun _ _ same asked => same.trans_le asked) more
  have reads {α : Type} (r : Except Halt α) : Meets (Asked n) (Prog.ofExcept r) (fun _ => Asked n)
      (fun _ => Asked (n + 1)) :=
    Meets.ofExcept (fun _ _ _ h => h) fun _ _ w h => more w h
  exact Meets.bind (reads _) fun msgSeqNum => Meets.bind (notices msgSeqNum) fun _ =>
    Meets.bind (Q := fun _ => Asked n) (Meets.state fun _ h => h) fun _ => Meets.bind (reads _) fun expected =>
      checkedAsks message msgSeqNum frame expected

theorem drainAsks (w : World) : commitsAsked (drainBuffer c w).2.trace ≤ commitsAsked w.trace + w.gapBuffer.size := by
  obtain ⟨n,-,loops⟩ := drainLoops (c := c) w
  let Paid (v : World) : Prop := commitsAsked v.trace + v.gapBuffer.size ≤ commitsAsked w.trace + w.gapBuffer.size
  let Within (v : World) : Prop := commitsAsked v.trace ≤ commitsAsked w.trace + w.gapBuffer.size
  have each : Meets Paid (drainTurn c) (fun more v => if more then Paid v else Within v) (fun _ => Within) := by
    intro u paid
    have fewer : Within u := Nat.le_of_add_right_le paid
    rcases drainTurnCases (c := c) u with ⟨-,breaks⟩ | ⟨frame,found,⟨halt,stops⟩ | ⟨message,commits⟩⟩
    · rw [breaks]
      exact fewer
    · rw [stops]
      exact fewer
    · rw [commits]
      have smaller := removedSmaller found
      have asks := commitAsks (c := c) message frame (removed (pruned u)) (Nat.le_refl (commitsAsked u.trace))
      have buffer := commitSameBuffer (c := c) message frame (removed (pruned u))
      rw [bindRun]
      rcases run : commitExpected c message frame (removed (pruned u)) with ⟨halt | _,v⟩
      · rw [run] at asks
        change commitsAsked v.trace ≤ commitsAsked u.trace + 1 at asks
        change commitsAsked v.trace ≤ commitsAsked w.trace + w.gapBuffer.size
        unfold Paid at paid
        omega
      · rw [run] at asks buffer
        change commitsAsked v.trace ≤ commitsAsked u.trace + 1 at asks
        have same : v.gapBuffer = (removed (pruned u)).gapBuffer := buffer
        change commitsAsked v.trace + v.gapBuffer.size ≤ commitsAsked w.trace + w.gapBuffer.size
        rw [same]
        unfold Paid at paid
        omega
  rcases run : drainBuffer c w with ⟨halt | _,v⟩ <;>
  · rw [run] at loops
    exact loops.meets each (Nat.le_refl _)

theorem aboveAccepts (message : ParsedMessage) (msgSeqNum : Nat) (frame : Bytes) :
    Meets (fun _ => True) (acceptFrame c message msgSeqNum frame) (fun _ => Above) (fun _ _ => True) := by
  have free {α : Type} (m : Act α) : Meets (fun _ => True) m (fun _ _ => True) (fun _ _ => True) :=
    fun _ _ => by split <;> trivial
  have ends : Meets Above endRecovery (fun _ => Above) (fun _ _ => True) := by
    refine Meets.bind (Q := fun _ => Above) (Meets.state fun _ h => h) fun w => ?_
    split
    · exact Meets.change fun _ h => h
    · exact Meets.pure fun _ h => h
  exact Meets.bind (free _) fun _ => Meets.bind (free _) fun _ => Meets.bind drainsAbove fun _ => ends

theorem aboveHandles (frame : Bytes) :
    Meets Above (handleInbound c frame) (fun _ => Above) (fun _ _ => True) := by
  intro w above
  cases parsed : parseInbound c frame with
  | error halt =>
    rw [handleUnparsed parsed]
    trivial
  | ok message =>
    cases sequence : requiredU64 message 34 with
    | error error =>
      rw [handleUnsequenced parsed sequence]
      trivial
    | ok msgSeqNum =>
      rw [handleSequenced parsed sequence,sequenced]
      have arrived : Above (arrivedAt c w) := above
      by_cases ahead : (arrivedAt c w).nextIn < msgSeqNum
      · rw [if_pos ahead]
        split
        · rename_i run
          exact arrived.inserted ahead (bufferInserts run)
        · trivial
      · rw [if_neg ahead]
        by_cases replay : msgSeqNum < (arrivedAt c w).nextIn ∧ possDup message = true
        · rw [if_pos replay]
          have quiet := quietPossdup (c := c) message msgSeqNum (arrivedAt c w)
          exact Meets.outcome (arrived.same quiet.gapBuffer quiet.nextIn) fun _ _ _ => trivial
        · rw [if_neg replay]
          exact aboveAccepts message msgSeqNum frame _ trivial

theorem tidyFrames (frame : Bytes) : Meets (Tidy c) (handleFrame c frame) (fun _ => Tidy c) (fun _ _ => True) := by
  have above : Meets Above (handleFrame c frame) (fun _ => Above) (fun _ _ => True) :=
    Meets.bind (Q := fun _ => Above) (Meets.change fun _ h => h) fun _ => aboveHandles frame
  intro w tidy
  have held : Meets (Held c) (handleFrame c frame) (fun _ => Held c) (fun _ _ => True) := heldFrame.frames
  have first := held w tidy.toHeld
  have second := above w tidy.above
  split
  · rename_i run
    rw [run] at first second
    exact ⟨first,second⟩
  · trivial

theorem tidyLoop : LoopRules c (Tidy c) (fun _ => True) where
  quiet := fun _ _ moved h => h.steady (.sends (p := []) moved.sends)
  fails := fun _ _ => trivial
  logout := fun text w h => Meets.outcome (h.steady (steadyLogout text w)) fun _ _ h => ⟨trivial,fun _ => h⟩
  heartbeat := Meets.ofMoves (steadySends (sendsHeartbeatResponse none)) (fun _ _ moved h => h.1.steady moved)
    fun _ _ => trivial
  testRequest := fun timeout => Meets.ofMoves (steadySends (sendsTestRequest timeout))
    (fun _ _ moved h => h.1.steady moved) fun _ _ => trivial
  replies := fun _ _ _ => trivial
  blocks := fun _ _ _ => trivial
  leaves := fun _ _ => trivial
  hangsUp := fun _ _ => trivial

abbrev TidyConn (c : Ctx) (conn : Conn) : Prop := Holds (Tidy c) (fun _ => True) conn

theorem tidyStep {conn : Conn} (input : Input) (holds : TidyConn c conn) : TidyConn c (step c conn input) := by
  refine tidyLoop.steps (fun request _ live => fun w pinned => ?_) (fun wire _ live => ?_) holds
  · subst pinned
    exact Meets.outcome ((holds.2 live).steady (.sends (sendsSubmit request _))) fun _ _ h => ⟨trivial,fun _ => h⟩
  · exact (tidyFrames wire).weaken (fun _ pinned => pinned ▸ holds.2 live) (fun _ _ h => h) fun _ _ h => h

def LeavesTidy (c : Ctx) (conn : Conn) (input : Input) : Prop :=
  ∀ wire v, input = .frame wire → conn.live = true → handleFrame c wire conn.world = (.ok (),v) → Tidy c v

def DrainEnds (c : Ctx) (w : World) : Prop :=
  (∃ n r, Loops (drainTurn c) w n r) ∧ ∀ n r, Loops (drainTurn c) w n r →
    r = drainBuffer c w ∧ n ≤ w.gapBuffer.size ∧ commitsAsked r.2.trace ≤ commitsAsked w.trace + w.gapBuffer.size

theorem drainEnds (w : World) : DrainEnds c w := by
  obtain ⟨n,few,loops⟩ := drainLoops (c := c) w
  refine ⟨⟨n,_,loops⟩,fun k r other => ?_⟩
  obtain ⟨rfl,rfl⟩ := loops.unique other
  exact ⟨rfl,few,drainAsks w⟩

theorem gapBufferTidy (c : Ctx) :
    (∀ s inputs, Along (step c) (LeavesTidy c) (spawn c s) inputs) ∧ ∀ w, DrainEnds c w := by
  refine ⟨fun s inputs => ?_,drainEnds⟩
  have start : TidyConn c (spawn c s) := ⟨trivial,fun _ => tidyEmpty (spawnEmpty c s)⟩
  have free : Along (step c) (fun _ _ => True) (spawn c s) inputs := alongAlways (fun _ _ => trivial) _ _
  refine alongConclude (fun _ input _ => tidyStep input) ?_ start free
  rintro conn - - holds wire v - live run
  exact (tidyFrames wire).returned (holds.2 live) run

end

/-- A buffered GapFill jumps over a frame that was buffered behind it. -/
example : (run venueCtx (spawn venueCtx fresh) [.frame (venueLogon 1),
    .frame (venueFrame "4" 3 [⟨123,ascii "Y"⟩,⟨36,ascii "6"⟩]),.frame (venueFrame "0" 5 []),
    .frame (venueFrame "0" 2 [])]).world.nextIn = 6 := by
  decide +kernel

end FixCli.Session
