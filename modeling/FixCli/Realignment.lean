import FixCli.Lib.Trace
import FixCli.SessionLoop

/-! How the inbound expectation moves over a connection. It only ever grows, but
for a realignment under an unanswered Logon; where the frame that realigns is a
Logon itself, its commit establishes the session and rules out a second one. -/
namespace FixCli.Session
open Lib Codec Store

def falls : List Nat → Nat
  | newer :: older :: rest => (if newer < older then 1 else 0) + falls (older :: rest)
  | _ => 0

def Fell (base : List Event) (start : Nat) (w : World) (k : Nat) : Prop :=
  ∃ new, w.trace = new ++ base ∧
    (expectations new ++ [start]).head? = some w.nextIn ∧ falls (expectations new ++ [start]) = k

def RealignsToLogon (c : Ctx) (conn : Conn) (input : Input) : Prop :=
  ∀ wire message msgSeqNum, input = .frame wire → Sequenced c wire message msgSeqNum →
    conn.world.phase = .logonSent → msgSeqNum < conn.world.nextIn → possDup message = false →
      msgSeqNum ≠ 0 → typeLogon message

def EndsInError (c : Ctx) (conn : Conn) (wire : Bytes) : Prop :=
  ∃ halt, (handleFrame c wire conn.world).1 = .error halt ∧
    (halt = .crash ∨ ∃ error, halt = .fail error)

structure RealignsProperly (c : Ctx) (conn : Conn) (input : Input) : Prop where
  logon : ∀ k, Fell conn.world.trace conn.world.nextIn (step c conn input).world k → 0 < k →
    ∃ wire message msgSeqNum, input = .frame wire ∧ Sequenced c wire message msgSeqNum ∧ typeLogon message
  others : ∀ wire message msgSeqNum, input = .frame wire → conn.live = true →
    Sequenced c wire message msgSeqNum → msgSeqNum < conn.world.nextIn → possDup message = false →
      ¬ (typeLogon message ∧ conn.world.phase = .logonSent) → EndsInError c conn wire

theorem fellUnique {base : List Event} {start k l : Nat} {w : World} (h : Fell base start w k)
    (g : Fell base start w l) : k = l := by
  obtain ⟨new,trace,-,rfl⟩ := h
  obtain ⟨other,same,-,rfl⟩ := g
  rw [List.append_cancel_right (trace.symm.trans same)]

theorem fellStart (w : World) : Fell w.trace w.nextIn w 0 := ⟨[],rfl,rfl,rfl⟩

theorem Steady.fell {base : List Event} {start k : Nat} {w v : World} (h : Steady w v)
    (fallen : Fell base start w k) : Fell base start v k := by
  obtain ⟨new,trace,quiet⟩ := h.trace
  obtain ⟨before,hbefore,head,count⟩ := fallen
  refine ⟨new ++ before,by rw [trace,hbefore,List.append_assoc],?_,?_⟩
  · rw [expectationsAppend,quiet,List.nil_append,head,h.nextIn]
  · rw [expectationsAppend,quiet,List.nil_append,count]

theorem fellExpecting {base : List Event} {start k n : Nat} {w v : World} (fallen : Fell base start w k)
    (nextIn : v.nextIn = n) (trace : v.trace = .expecting n :: w.trace) :
    Fell base start v ((if n < w.nextIn then 1 else 0) + k) := by
  obtain ⟨new,before,head,count⟩ := fallen
  refine ⟨.expecting n :: new,by rw [trace,before]; rfl,congrArg some nextIn.symm,?_⟩
  have shape : expectations (.expecting n :: new) ++ [start] = n :: (expectations new ++ [start]) := rfl
  rw [shape]
  cases rest : expectations new ++ [start] with
  | nil => simp at rest
  | cons older others =>
    rw [rest] at head count
    cases head
    rw [falls,count]

section

variable {c : Ctx} {α : Type}

open Prog

theorem logonLeaves (m : ParsedMessage) (e : Expected) (logon : e.msgType = ascii "A") (w : World) :
    (afterCommit c m e w).2.phase ≠ .logonSent := by
  have first : ∃ v, logonReceived e.msgType w = (.ok (),v) ∧ v.phase ≠ .logonSent := by
    simp only [logonReceived,bindRun,stateRun,iteRun,logon]
    by_cases sent : w.phase = .logonSent
    · rw [if_pos ⟨trivial,sent⟩]
      exact ⟨_,rfl,by simp⟩
    · rw [if_neg (by simp [sent])]
      exact ⟨w,rfl,sent⟩
  obtain ⟨v,run,left⟩ := first
  have shape : afterCommit c m e w = afterLogon c m e v := bindReturns run
  rw [shape]
  rcases (steadyAfterLogon (c := c) m e v).phase with same | gone
  · rw [same]; exact left
  · exact gone

structure Level (c : Ctx) (base : List Event) (start : Nat) (blame : Prop) (w : World) : Prop where
  fell : ∃ k, Fell base start w k ∧ (k = 0 ∨ k = 1 ∧ w.phase ≠ .logonSent ∧ blame)
  buffered : Buffered c w

def Falls (base : List Event) (start : Nat) (blame : Prop) (w : World) : Prop :=
  ∃ k, Fell base start w k ∧ (k = 0 ∨ k = 1 ∧ blame)

structure LevelReady (c : Ctx) (base : List Event) (start : Nat) (blame : Prop) (m : ParsedMessage) (n : Nat)
    (w : World) : Prop where
  fell : ∃ k, Fell base start w k ∧ (k = 0 ∨ k = 1 ∧ (w.phase ≠ .logonSent ∨ typeLogon m) ∧ blame)
  buffered : Buffered c w
  awaited : w.nextIn = n

variable {base : List Event} {start : Nat} {blame : Prop} {w v : World}

theorem Level.falls (h : Level c base start blame w) : Falls base start blame w := by
  obtain ⟨k,fell,none | ⟨one,-,due⟩⟩ := h.fell
  · exact ⟨k,fell,.inl none⟩
  · exact ⟨k,fell,.inr ⟨one,due⟩⟩

theorem LevelReady.falls {m : ParsedMessage} {n : Nat} (h : LevelReady c base start blame m n w) :
    Falls base start blame w := by
  obtain ⟨k,fell,none | ⟨one,-,due⟩⟩ := h.fell
  · exact ⟨k,fell,.inl none⟩
  · exact ⟨k,fell,.inr ⟨one,due⟩⟩

theorem Level.ready (h : Level c base start blame w) (m : ParsedMessage) :
    LevelReady c base start blame m w.nextIn w := by
  obtain ⟨k,fell,none | ⟨one,left,due⟩⟩ := h.fell
  · exact ⟨⟨k,fell,.inl none⟩,h.buffered,rfl⟩
  · exact ⟨⟨k,fell,.inr ⟨one,.inl left,due⟩⟩,h.buffered,rfl⟩

theorem Level.steady (h : Level c base start blame w) (moved : Steady w v) : Level c base start blame v := by
  obtain ⟨k,fell,none | ⟨one,left,due⟩⟩ := h.fell
  · exact ⟨⟨k,moved.fell fell,.inl none⟩,h.buffered.same moved.gapBuffer⟩
  · refine ⟨⟨k,moved.fell fell,.inr ⟨one,?_,due⟩⟩,h.buffered.same moved.gapBuffer⟩
    rcases moved.phase with same | gone
    · rw [same]; exact left
    · exact gone

theorem Falls.steady (h : Falls base start blame w) (moved : Steady w v) : Falls base start blame v := by
  obtain ⟨k,fell,due⟩ := h
  exact ⟨k,moved.fell fell,due⟩

theorem levelMoves {P : World → Prop} {m : Act α} (moves : Moves Steady m)
    (pre : ∀ w, P w → Level c base start blame w) :
    Meets P m (fun _ => Level c base start blame) (fun _ => Falls base start blame) :=
  Meets.ofMoves moves (fun w _ moved h => (pre w h).steady moved) fun _ h => h.falls

theorem levelAhead {frame : Bytes} {message : ParsedMessage} {msgSeqNum : Nat}
    (sequenced : Sequenced c frame message msgSeqNum) :
    Meets (Level c base start blame) (bufferGap c msgSeqNum frame)
      (fun _ => Level c base start blame) (fun _ => Falls base start blame) := by
  have inserts : Meets (Level c base start blame)
      (Prog.change fun w => {w with gapBuffer := w.gapBuffer.insertIfNew msgSeqNum frame} : Act Unit)
      (fun _ => Level c base start blame) (fun _ => Falls base start blame) :=
    Meets.change fun w h => ⟨h.fell,h.buffered.insert sequenced⟩
  refine Meets.bind (Meets.state fun _ h => h) fun w => ?_
  split
  · exact Meets.stop fun _ h => h.falls
  · refine Meets.bind inserts fun _ => Meets.bind (Meets.state fun _ h => h) fun w => ?_
    split
    · exact levelMoves (Moves.bind (steadySends (sendsResendRequest _)) fun _ =>
        Moves.change fun w => .phased w (by decide)) fun _ h => h
    · exact Meets.pure fun _ h => h

theorem levelRealign {m : ParsedMessage} {n : Nat} :
    Meets (fun w => Level c base start blame w ∧ n < w.nextIn ∧
        (w.phase = .logonSent → n ≠ 0 → typeLogon m ∧ blame)) (realign c n)
      (fun _ => LevelReady c base start blame m n) (fun _ => Falls base start blame) := by
  rintro w ⟨h,low,due⟩
  by_cases phase : w.phase = .logonSent
  · obtain ⟨k,fell,none | ⟨-,left,-⟩⟩ := h.fell
    · rw [realignRun phase]
      obtain ⟨actor,trace⟩ := storeTrace c (.resyncInbound (resyncCommit w n)) (desynced w n)
      have quiet (v : World) (actor : v.toActor = w.toActor)
          (trace : v.trace = (desynced w n).trace ∨
            ∃ answer, v.trace = .stored (.resyncInbound (resyncCommit w n)) answer :: (desynced w n).trace) :
          Steady w v := by
        refine ⟨congrArg Actor.nextIn actor,congrArg Actor.gapBuffer actor,.inl (congrArg Actor.phase actor),?_⟩
        rcases trace with same | ⟨answer,same⟩
        · exact ⟨[_],same,rfl⟩
        · exact ⟨[_, _],same,rfl⟩
      rcases run : storeApply c (.resyncInbound (resyncCommit w n)) (desynced w n) with ⟨halt | reply,v⟩
      · rw [run] at actor trace
        exact h.falls.steady (quiet v actor trace)
      · have stored := resyncStored run
        rw [run] at actor trace
        have moved := quiet v actor trace
        have logon := due phase stored.2.1
        have fallen := fellExpecting (w := v) (v := realigned n v) (n := n) (moved.fell fell) rfl rfl
        rw [none,moved.nextIn,if_pos low] at fallen
        exact ⟨⟨1,fallen,.inr ⟨rfl,.inr logon.1,logon.2⟩⟩,h.buffered.same moved.gapBuffer,rfl⟩
    · exact absurd phase left
  · rw [realignRefused phase]
    exact h.falls

theorem levelCommit {f : Bytes} {m : ParsedMessage} {n : Nat} {e : Expected} :
    Meets (fun w => LevelReady c base start blame m n w ∧ inboundChecks c w.nextOut n n m = .ok e)
      (commitChecked c m n f e) (fun _ => Level c base start blame) (fun _ => Falls base start blame) := by
  rintro w ⟨h,checks⟩
  rw [commitCheckedRun]
  obtain ⟨actor,trace⟩ := storeTrace c (.commitInbound (inboundCommit w n f e)) w
  have typed := (inboundMsgTypeSource (checksSource checks).msgType).1
  obtain ⟨k,fell,due⟩ := h.fell
  have quiet (v : World) (actor : v.toActor = w.toActor) (trace : v.trace = w.trace ∨
      ∃ answer, v.trace = .stored (.commitInbound (inboundCommit w n f e)) answer :: w.trace) : Steady w v := by
    refine ⟨congrArg Actor.nextIn actor,congrArg Actor.gapBuffer actor,.inl (congrArg Actor.phase actor),?_⟩
    rcases trace with same | ⟨answer,same⟩
    · exact ⟨[],same,rfl⟩
    · exact ⟨[_],same,rfl⟩
  rcases run : storeApply c (.commitInbound (inboundCommit w n f e)) w with ⟨halt | reply,v⟩
  · rw [run] at actor trace
    exact h.falls.steady (quiet v actor trace)
  · obtain ⟨-,answer,-⟩ := storeReturned run
    obtain ⟨expected,-,later,-⟩ := commitInboundSource answer
    rw [run] at actor trace
    have moved := quiet v actor trace
    have climbs : ¬ e.nextInAfter < v.nextIn := by
      have number : w.journal.nextIn = n := expected.symm
      rw [moved.nextIn,h.awaited]
      change w.journal.nextIn < e.nextInAfter at later
      omega
    have counts := fellExpecting (w := v) (v := counted e v) (n := e.nextInAfter) (moved.fell fell) rfl rfl
    rw [if_neg climbs,Nat.zero_add] at counts
    have after := steadyAfterCommit (c := c) m e (counted e v)
    have buffered : Buffered c (counted e v) := h.buffered.same moved.gapBuffer
    have final : Level c base start blame (afterCommit c m e (counted e v)).2 := by
      refine ⟨⟨k,after.fell counts,?_⟩,buffered.same after.gapBuffer⟩
      rcases due with none | ⟨one,left | logon,due⟩
      · exact .inl none
      · refine .inr ⟨one,?_,due⟩
        rcases after.phase with same | gone
        · rw [same]
          exact (congrArg Actor.phase actor).symm ▸ left
        · exact gone
      · exact .inr ⟨one,logonLeaves m e (Option.some.inj (typed.symm.trans logon)) _,due⟩
    exact Meets.outcome final fun _ _ h => h.falls

structure LevelBefore (c : Ctx) (base : List Event) (start : Nat) (blame : Prop) (frame : Bytes) (w : World) :
    Prop where
  level : Level c base start blame w
  due : ∀ message n, Sequenced c frame message n → w.phase = .logonSent → n < w.nextIn →
    possDup message = false → n ≠ 0 → typeLogon message ∧ blame

theorem levelFrame {frame : Bytes} : InboundRules c frame (LevelBefore c base start blame frame)
    (Level c base start blame) (Level c base start blame) (Falls base start blame)
    (fun _ => LevelReady c base start blame) where
  quiet := fun w v moved h => ⟨h.level.steady (.sends (p := []) moved.sends),by
    rw [moved.phase,moved.nextIn]
    exact h.due⟩
  beforeFails := fun _ h => h.level.falls
  headFails := fun _ h => h.falls
  headAfter := fun _ h => h
  readyFails := fun _ _ _ _ h => h.falls
  replayed := fun _ _ _ _ h _ _ => h.level
  ahead := fun _ _ sequenced w h => levelAhead sequenced w h.1.level
  behind := fun m n sequenced original w h => levelRealign w
    ⟨h.1.level,h.2,fun phase positive => h.1.due m n sequenced phase h.2 original positive⟩
  expected := fun m _ _ _ h same => same ▸ h.level.ready m
  awaited := fun _ _ _ _ h => h.awaited
  commit := fun _ _ _ _ _ => levelCommit
  skip := fun w h => ⟨h.fell,h.buffered.skip _⟩
  take := fun w f h found => by
    obtain ⟨m,sequenced⟩ := h.buffered _ f found
    have erased : Level c base start blame {w with gapBuffer := w.gapBuffer.erase w.nextIn} :=
      ⟨h.fell,h.buffered.erase _⟩
    exact ⟨m,sequenced,erased.ready m⟩
  recovered := fun w h _ _ => h.steady (.phased w (by decide))

theorem levelLoop : LoopRules c (Level c base start blame) (Falls base start blame) where
  quiet := fun _ _ moved h => h.steady (.sends (p := []) moved.sends)
  fails := fun _ h => h.falls
  logout := fun text w h => Meets.outcome (h.steady (steadyLogout text w)) fun _ _ h => ⟨h.falls,fun _ => h⟩
  heartbeat := levelMoves (steadySends (sendsHeartbeatResponse none)) fun _ h => h.1
  testRequest := fun timeout => levelMoves (steadySends (sendsTestRequest timeout)) fun _ h => h.1
  replies := fun _ w h => h.steady (.sends (p := []) (.event w _ _ trivial))
  blocks := fun error w h => h.steady ⟨rfl,rfl,.inr (by simp [announceBlocked]),[_, _, _, _],rfl,rfl⟩
  leaves := fun w h => h.steady ⟨rfl,rfl,.inl rfl,[_],rfl,rfl⟩
  hangsUp := fun w h => h.steady ⟨rfl,rfl,.inr (by simp [hangUp]),[_, _],rfl,rfl⟩

theorem levelStep {conn : Conn} {input : Input} (proper : RealignsToLogon c conn input)
    (due : ∀ wire message n, input = .frame wire → Sequenced c wire message n → typeLogon message → blame)
    (holds : Holds (Level c base start blame) (Falls base start blame) conn) :
    Holds (Level c base start blame) (Falls base start blame) (step c conn input) := by
  refine levelLoop.steps (fun request _ live => fun w pinned => ?_)
    (fun wire same live => fun w pinned => ?_) holds
  · subst pinned
    exact Meets.outcome ((holds.2 live).steady (.sends (sendsSubmit request _)))
      fun _ _ h => ⟨h.falls,fun _ => h⟩
  subst pinned
  refine levelFrame.frames conn.world ⟨holds.2 live,fun message n sequenced phase low original positive => ?_⟩
  have logon := proper wire message n same sequenced phase low original positive
  exact ⟨logon,due wire message n same sequenced logon⟩

theorem lowRefused {conn : Conn} {input : Input} (proper : RealignsToLogon c conn input) {wire : Bytes}
    {message : ParsedMessage} {n : Nat} (same : input = .frame wire) (sequenced : Sequenced c wire message n)
    (low : n < conn.world.nextIn) (original : possDup message = false)
    (other : ¬ (typeLogon message ∧ conn.world.phase = .logonSent)) : EndsInError c conn wire := by
  set u : World := arrivedAt c {conn.world with trace := .logged (.incoming wire) :: conn.world.trace}
  have reaches : handleFrame c wire conn.world = acceptFrame c message n wire u := by
    have shape : handleFrame c wire conn.world =
        handleInbound c wire {conn.world with trace := .logged (.incoming wire) :: conn.world.trace} := rfl
    rw [shape,handleSequenced sequenced.parsed sequenced.sequence,Session.sequenced,
      if_neg (show ¬ u.nextIn < n by change ¬ conn.world.nextIn < n; omega),if_neg (by simp [original])]
  have enters : realignIfLow c n u = realign c n u := by
    simp only [realignIfLow,bindRun,stateRun,iteRun]
    rw [if_pos (show n < u.nextIn from low)]
  unfold EndsInError
  rw [reaches]
  by_cases phase : conn.world.phase = .logonSent
  · have zero : n = 0 := by
      by_contra positive
      exact other ⟨proper wire message n same sequenced phase low original positive,phase⟩
    rw [acceptLow (w := u) phase low]
    rcases run : storeApply c (.resyncInbound (resyncCommit u n)) (desynced u n) with ⟨halt | reply,v⟩
    · refine ⟨halt,rfl,?_⟩
      rcases storeFailed run with crashed | ⟨text,failed⟩
      · exact .inl crashed
      · exact .inr ⟨_,failed⟩
    · exact absurd zero (resyncStored run).2.1
  · have stops : realignIfLow c n u = (.error (.fail (unexpectedSequence u.nextIn n)),u) := by
      rw [enters]
      exact realignRefused phase
    rw [acceptFrame,bindStops stops]
    exact ⟨_,rfl,.inr ⟨_,rfl⟩⟩

theorem realignsProperly {conn : Conn} {input : Input} (proper : RealignsToLogon c conn input)
    (buffered : conn.live = true → Buffered c conn.world) : RealignsProperly c conn input := by
  refine ⟨fun k fell positive => ?_,fun wire message n same _ sequenced low original other =>
    lowRefused proper same sequenced low original other⟩
  have started : Holds (Level c conn.world.trace conn.world.nextIn (∃ wire message n,
      input = .frame wire ∧ Sequenced c wire message n ∧ typeLogon message)) (Falls conn.world.trace
      conn.world.nextIn (∃ wire message n, input = .frame wire ∧ Sequenced c wire message n ∧
        typeLogon message)) conn :=
    ⟨⟨0,fellStart conn.world,.inl rfl⟩,fun live => ⟨⟨0,fellStart conn.world,.inl rfl⟩,buffered live⟩⟩
  obtain ⟨l,counted,none | ⟨-,due⟩⟩ := (levelStep proper
    (fun wire message n same sequenced logon => ⟨wire,message,n,same,sequenced,logon⟩) started).1
  · have same := fellUnique fell counted
    omega
  · exact due

/-- In every run in which the frames realigned to are Logons, the expectation falls
at most once behind the spawn, only under a Logon, and every other low frame that is
no PossDup ends the session. -/
theorem realignsOnce (c : Ctx) (journal : Journal) (tick : Nat) (inputs : List Input)
    (proper : Along (step c) (RealignsToLogon c) (spawn c ⟨journal,[],tick⟩) inputs) :
    (∃ k ≤ 1, Fell (spawn c ⟨journal,[],tick⟩).world.trace (spawn c ⟨journal,[],tick⟩).world.nextIn
      (run c (spawn c ⟨journal,[],tick⟩) inputs).world k) ∧
    Along (step c) (RealignsProperly c) (spawn c ⟨journal,[],tick⟩) inputs := by
  set first := spawn c ⟨journal,[],tick⟩ with spawned
  let Counted (conn : Conn) : Prop := Holds (Level c first.world.trace first.world.nextIn True)
    (Falls first.world.trace first.world.nextIn True) conn
  have start : Counted first :=
    ⟨⟨0,fellStart _,.inl rfl⟩,fun _ => ⟨⟨0,fellStart _,.inl rfl⟩,by rw [spawned]; exact spawnBuffered c _⟩⟩
  have each (conn : Conn) (input : Input) (proper : RealignsToLogon c conn input) (holds : Counted conn) :
      Counted (step c conn input) := levelStep proper (fun _ _ _ _ _ _ => trivial) holds
  have here (conn : Conn) (input : Input) (proper : RealignsToLogon c conn input) (holds : Counted conn) :
      RealignsProperly c conn input := realignsProperly proper fun live => (holds.2 live).buffered
  refine ⟨?_,alongConclude each here start proper⟩
  obtain ⟨k,fell,none | ⟨one,-⟩⟩ := (foldInvariant each start proper).1
  · exact ⟨k,by omega,fell⟩
  · exact ⟨k,by omega,fell⟩

def restartedInputs : List Input := [.frame (venueLogon 1),.frame (venueFrame "0" 1 [])]

theorem realignsOnceRestarted :
    let conn := spawn venueCtx ⟨(venueConn fresh [.frame (venueLogon 1)]).world.journal,[],0⟩
    (∃ k ≤ 1, Fell conn.world.trace conn.world.nextIn (run venueCtx conn restartedInputs).world k) ∧
      Along (step venueCtx) (RealignsProperly venueCtx) conn restartedInputs := by
  refine realignsOnce venueCtx _ 0 restartedInputs ⟨?_,?_,trivial⟩
  · intro wire message n same sequenced _ _ _ _
    cases same
    have shape : Sequenced venueCtx (venueLogon 1) (parsedOf (venueLogon 1)) 1 :=
      ⟨by decide +kernel,by decide +kernel⟩
    rw [(shape.unique sequenced).1]
    unfold typeLogon
    decide +kernel
  · intro wire message n same sequenced phase
    exact absurd phase (by decide +kernel)

def restartedHeartbeats : List Input :=
  [.frame (venueFrame "0" 2 []),.frame (venueFrame "0" 1 [])]

theorem heartbeatsRealign :
    let conn := spawn venueCtx ⟨(venueConn fresh [.frame (venueLogon 1),.frame (venueFrame "0" 2 []),
      .frame (venueFrame "0" 3 [])]).world.journal,[],0⟩
    ¬ ∃ k ≤ 1, Fell conn.world.trace conn.world.nextIn (run venueCtx conn restartedHeartbeats).world k := by
  rintro conn ⟨k,once,new,trace,-,count⟩
  have older : expectations conn.world.trace = [] := by decide +kernel
  have all : expectations (run venueCtx conn restartedHeartbeats).world.trace = [2, 1, 3, 2] := by decide +kernel
  have start : conn.world.nextIn = 4 := by decide +kernel
  rw [trace,expectationsAppend,older,List.append_nil] at all
  rw [all,start] at count
  have twice : falls ([2, 1, 3, 2] ++ [4]) = 2 := by decide
  omega

end
end FixCli.Session
