import FixCli.CounterBooks

/-! The cached counters over whole runs: every input keeps them in step with the
journal, and a frame is committed only where its number is the expected one. -/
namespace FixCli.Session
open Lib Codec Store

section

variable {c : Ctx}

open Prog

def commitInOrder (c : Ctx) (message : ParsedMessage) (frame : Bytes) : Act Unit := do
  let msgSeqNum ← Prog.ofExcept (inSession (requiredU64 message 34))
  let w ← Prog.state
  if msgSeqNum ≠ w.nextIn then Prog.stop .panic
  else do
    let expected ← Prog.ofExcept (inboundChecks c w.nextOut msgSeqNum msgSeqNum message)
    commitChecked c message msgSeqNum frame expected

def drainInOrder (c : Ctx) : Nat → Act Unit
  | 0 => pure ()
  | fuel + 1 => do
    Prog.change fun w => {w with gapBuffer := w.gapBuffer.keepKeys (fun sequence => w.nextIn ≤ sequence)}
    let w ← Prog.state
    match w.gapBuffer[w.nextIn]? with
    | none => pure ()
    | some buffered => do
      Prog.change fun w => {w with gapBuffer := w.gapBuffer.erase w.nextIn}
      let message ← Prog.ofExcept (parseInbound c buffered)
      commitInOrder c message buffered
      drainInOrder c fuel

def settleInOrder (c : Ctx) : Act Unit := do
  let w ← Prog.state
  drainInOrder c (w.gapBuffer.size + 1)
  endRecovery

def acceptInOrder (c : Ctx) (message : ParsedMessage) (msgSeqNum : Nat) (frame : Bytes) : Act Unit := do
  realignIfLow c msgSeqNum
  commitInOrder c message frame
  settleInOrder c

def handleInOrder (c : Ctx) (frame : Bytes) : Act Unit := do
  let message ← Prog.ofExcept (parseInbound c frame)
  let arrived ← now c
  Prog.change fun w => {w with lastInbound := arrived}
  let msgSeqNum ← Prog.ofExcept (inSession (requiredU64 message 34))
  let w ← Prog.state
  if w.nextIn < msgSeqNum then bufferGap c msgSeqNum frame
  else if msgSeqNum < w.nextIn ∧ possDup message then verifyPossdup c message msgSeqNum
  else acceptInOrder c message msgSeqNum frame

theorem commitInOrderRun {frame : Bytes} {message : ParsedMessage} {w : World}
    (sequence : requiredU64 message 34 = .ok w.nextIn) :
    commitExpected c message frame w = commitInOrder c message frame w := by
  rw [commitExpectedRun frame sequence rfl]
  simp only [commitInOrder,sequence,inSession,Prog.ofExceptOk,pure_bind]
  simp only [bindRun,stateRun,iteRun,ne_eq,not_true_eq_false,if_false]
  cases inboundChecks c w.nextOut w.nextIn w.nextIn message <;> rfl

def SameBuffer (w v : World) : Prop := v.gapBuffer = w.gapBuffer

instance : Std.Refl SameBuffer := ⟨fun _ => rfl⟩

instance : IsTrans World SameBuffer := ⟨fun _ _ _ h g => Eq.trans g h⟩

theorem commitSameBuffer (message : ParsedMessage) (frame : Bytes) :
    Moves SameBuffer (commitExpected c message frame) := by
  have notices (n : Nat) : Moves SameBuffer (noticeDesync n) := by
    refine Moves.bind Moves.state fun w => ?_
    split
    · split
      · exact Moves.stop _
      · exact Moves.bind (Moves.change fun _ => rfl) fun _ => Moves.pure _
    · exact Moves.pure _
  have stores (op : StoreOp) : Moves SameBuffer (storeApply c op) := fun w =>
    congrArg Actor.gapBuffer (storeTrace c op w).1
  refine Moves.bind (Moves.ofExcept _) fun n => Moves.bind (notices n) fun _ => Moves.bind Moves.state fun _ =>
    Moves.bind (Moves.ofExcept _) fun e => Moves.bind Moves.state fun _ => Moves.bind (stores _) fun _ =>
      Moves.bind (Moves.change fun _ => rfl) fun _ => Moves.bind (Moves.change fun _ => rfl) fun _ => ?_
  exact (steadyAfterCommit message e).weaken fun _ _ moved => moved.gapBuffer

theorem drainInOrderRun (fuel : Nat) {w : World} (buffered : Buffered c w) :
    drain c fuel w = drainInOrder c fuel w := by
  induction fuel generalizing w with
  | zero => rfl
  | succ fuel ih =>
    simp only [drain,drainInOrder,bindRun,changeRun,stateRun]
    set kept : World := {w with gapBuffer := w.gapBuffer.keepKeys (fun sequence => w.nextIn ≤ sequence)}
    have inside : Buffered c kept := buffered.skip _
    cases next : kept.gapBuffer[kept.nextIn]? with
    | none => rfl
    | some f =>
      obtain ⟨message,sequenced⟩ := inside _ f next
      simp only [bindRun,changeRun,sequenced.parsed,ofExceptOk,pureRun]
      set taken : World := {kept with gapBuffer := kept.gapBuffer.erase kept.nextIn}
      have same : commitExpected c message f taken = commitInOrder c message f taken :=
        commitInOrderRun sequenced.sequence
      have buffer := commitSameBuffer (c := c) message f taken
      rw [same] at buffer ⊢
      rcases run : commitInOrder c message f taken with ⟨halt | _,v⟩
      · rfl
      · rw [run] at buffer
        exact ih ((inside.erase _).same buffer)

theorem acceptInOrderRun {frame : Bytes} {message : ParsedMessage} {n : Nat} {w : World}
    (sequence : requiredU64 message 34 = .ok n) (notAhead : ¬ w.nextIn < n) (buffered : Buffered c w) :
    acceptFrame c message n frame w = acceptInOrder c message n frame w := by
  have enters : realignIfLow c n w = if n < w.nextIn then realign c n w else (.ok (),w) := by
    simp only [realignIfLow,bindRun,stateRun,iteRun,pureRun]
  simp only [acceptFrame,acceptInOrder,bindRun]
  rcases run : realignIfLow c n w with ⟨halt | _,v⟩
  · rfl
  · have ready : v.nextIn = n ∧ Buffered c v := by
      by_cases low : n < w.nextIn
      · rw [enters,if_pos low] at run
        have moves := realignMoves c n w
        rw [run] at moves
        exact ⟨(realignReturns c n).returned trivial run,buffered.same moves.gapBuffer⟩
      · rw [enters,if_neg low] at run
        cases run
        exact ⟨by omega,buffered⟩
    obtain ⟨rfl,inside⟩ := ready
    have buffer := commitSameBuffer (c := c) message frame v
    rw [commitInOrderRun sequence] at buffer
    simp only
    rw [commitInOrderRun sequence]
    rcases committed : commitInOrder c message frame v with ⟨halt | _,x⟩
    · rfl
    · rw [committed] at buffer
      simp only [drainBuffer,settleInOrder,bindRun,stateRun]
      rw [drainInOrderRun _ (inside.same buffer)]

theorem handleInOrderRun {frame : Bytes} {w : World} (buffered : Buffered c w) :
    handleInbound c frame w = handleInOrder c frame w := by
  cases parsed : parseInbound c frame with
  | error halt => simp only [handleInbound,handleInOrder,parsed,ofExceptError,bindRun,stopRun]
  | ok message =>
    cases sequence : requiredU64 message 34 with
    | error error =>
      rw [handleUnsequenced parsed sequence]
      simp only [handleInOrder,parsed,ofExceptOk,pure_bind,sequence]
      rfl
    | ok n =>
      set u := arrivedAt c w
      have shape : handleInOrder c frame w = if u.nextIn < n then bufferGap c n frame u
          else if n < u.nextIn ∧ possDup message then verifyPossdup c message n u
          else acceptInOrder c message n frame u := by
        simp only [handleInOrder,parsed,ofExceptOk,pure_bind,sequence,inSession]
        simp only [bindRun,now,changeRun,stateRun,iteRun]
        rfl
      rw [handleSequenced parsed sequence,shape,sequenced]
      by_cases ahead : u.nextIn < n
      · rw [if_pos ahead,if_pos ahead]
      · rw [if_neg ahead,if_neg ahead,acceptInOrderRun sequence ahead (buffered.same rfl)]

def CommitsInOrder (c : Ctx) (conn : Conn) (input : Input) : Prop :=
  ∀ wire, input = .frame wire → conn.live = true →
    handleInbound c wire conn.world = handleInOrder c wire conn.world

section

variable (healthy : ∀ tick, c.env.storeFault tick = .none)
include healthy

theorem syncStep {conn : Conn} {input : Input} (plants : PlantsNothing conn input)
    (holds : Holds (Synced c) Matched conn) : Holds (Synced c) Matched (step c conn input) := by
  have carries := syncCarries healthy
  exact carries.steps (fun request same live => carries.submits (holds.2 live) fun phase wire =>
    syncSubmitted healthy wire (plants request same phase)) holds

theorem syncSpawn {journal : Journal} (tick : Nat) (ledger : Ledger journal)
    (unplanted : Unplanted (opened c journal)) :
    Holds (Synced c) Matched (spawn c ⟨journal,[],tick⟩) := by
  refine (syncCarries healthy).spawns (by simp [entering,Matched]) ?_
  set start := entering c ⟨journal,[],tick⟩ with entered
  have buffered : Buffered c start := fun k f found => by simp [entered,entering] at found
  have clean : Matched start := by simp [entered,entering,Matched]
  rintro w rfl
  unfold resetIfConfigured
  by_cases reset : c.config.resetOnLogon = true
  · rw [if_pos reset]
    rw [opened,if_pos reset] at unplanted
    have answer : (apply start.journal .resetSequences).1 = .ok (.sequencesReset (start.journal.nextEvent + 1)) :=
      rfl
    simp only [resetOnLogon,bindRun,storeReturns (healthy _) answer,changeRun,setNextIn,info,emit]
    refine ⟨⟨rfl,rfl,unplanted,ledgerApply ledger .resetSequences,buffered.same rfl,?_⟩,rfl⟩
    exact List.forall_mem_cons.mpr ⟨rfl,List.forall_mem_cons.mpr ⟨rfl,List.forall_mem_cons.mpr ⟨rfl,clean⟩⟩⟩
  · rw [if_neg reset]
    rw [opened,if_neg reset] at unplanted
    exact ⟨⟨rfl,rfl,unplanted,ledger,buffered,clean⟩,rfl⟩

end

/-- Over any store and with no backend failure, as long as no command on record is
taken for an administrative one: the cached counters are the journal's wherever the
actor is alive between two inputs, no operation is answered with a sequence mismatch,
and frames are committed in order. -/
theorem countersSimulateJournal (c : Ctx) (ops : List StoreOp) (tick : Nat) (inputs : List Input)
    (healthy : ∀ tick, c.env.storeFault tick = .none) (unplanted : Unplanted (opened c (journalOf ops)))
    (plants : Along (step c) PlantsNothing (spawn c ⟨journalOf ops,[],tick⟩) inputs) :
    let conn := run c (spawn c ⟨journalOf ops,[],tick⟩) inputs
    (conn.live = true → InStep conn.world) ∧ Matched conn.world ∧
      Along (step c) (CommitsInOrder c) (spawn c ⟨journalOf ops,[],tick⟩) inputs := by
  have start := syncSpawn healthy tick (ledgerJournal ops) unplanted
  have each (conn : Conn) (input : Input) (plants : PlantsNothing conn input)
      (holds : Holds (Synced c) Matched conn) : Holds (Synced c) Matched (step c conn input) :=
    syncStep healthy plants holds
  have holds : Holds (Synced c) Matched (run c (spawn c ⟨journalOf ops,[],tick⟩) inputs) :=
    foldInvariant each start plants
  refine ⟨fun live => ?_,holds.1,alongConclude each (fun conn input _ holds wire _ live => ?_) start plants⟩
  · have synced := holds.2 live
    exact ⟨synced.nextOut,synced.nextIn,synced.nextEvent⟩
  · exact handleInOrderRun (holds.2 live).buffered

def plainInputs : List Input :=
  [.frame (venueLogon 1),.command (.submit ⟨ascii "r1",ascii "f1",ascii "c1",ascii "D",[⟨54,ascii "1"⟩]⟩),
    .frame (venueFrame "1" 2 [⟨112,ascii "PING"⟩])]

theorem countersSimulatePlain :
    let conn := run venueCtx (spawn venueCtx ⟨journalOf [],[],0⟩) plainInputs
    (conn.live = true → InStep conn.world) ∧ Matched conn.world ∧
      Along (step venueCtx) (CommitsInOrder venueCtx) (spawn venueCtx ⟨journalOf [],[],0⟩) plainInputs := by
  refine countersSimulateJournal venueCtx [] 0 plainInputs (fun _ => rfl) ?_ ⟨?_,?_,?_,trivial⟩
  · intro requestId fingerprint o e _ _ _ record found
    simp [opened,venueCtx,journalOf,Journal.empty] at found
  · intro request same
    cases same
  · intro request same _ o e pair
    cases same
    obtain ⟨kind,key⟩ := adminPairKey pair
    have heads := congrArg List.head? key
    have literal : ascii "session:" = 0x73 :: ascii "ession:" := by decide
    rw [adminKey,literal] at heads
    exact absurd heads (by simp only [List.cons_append,List.head?_cons]; decide)
  · intro request same
    cases same

def plantedInputs : List Input :=
  [.frame (venueLogon 1),
    .command (.submit ⟨adminKey (ascii "heartbeat") 4 3,ascii "admin:0:4",ascii "c1",ascii "D",[⟨54,ascii "1"⟩]⟩),
    .command (.submit ⟨ascii "r2",ascii "f2",ascii "c2",ascii "D",[⟨54,ascii "1"⟩]⟩),
    .frame (venueFrame "1" 2 [⟨112,ascii "PING"⟩])]

theorem plantedFallsBehind :
    ¬ ((venueConn fresh plantedInputs).live = true → InStep (venueConn fresh plantedInputs).world) :=
  fun simulates => absurd (simulates (by decide +kernel)).nextOut (by decide +kernel)

end
end FixCli.Session
