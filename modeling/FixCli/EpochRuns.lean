import FixCli.AdminEpochs
import FixCli.Lib.Trace

/-! Runs over any number of connections: the actors live one after the other over one
store, under faults and crashes, and take the orders that the planner makes. -/
namespace FixCli.Session
open Lib Codec Store Control

structure Underway (taken : Bytes → Prop) (c : Ctx) (w : World) : Prop where
  settled : Settled taken w.toShared
  nextEvent : w.nextEvent = w.journal.nextEvent
  buffered : Buffered c w

structure Running (taken : Bytes → Prop) (c : Ctx) (w : World) : Prop extends Underway taken c w where
  nextOut : w.nextOut = w.journal.nextOut

structure Sending (taken : Bytes → Prop) (c : Ctx) (requestId : Bytes) (n : Nat) (w : World) : Prop
    extends Underway taken c w where
  command : ∃ command, w.journal.commands[requestId]? = some command ∧ command.msgSeqNum = n
  late : w.journal.nextOut ≤ n + 1

section

variable {taken : Bytes → Prop} {c : Ctx} {w v : World}

open Prog

theorem Underway.idle (h : Underway taken c w) (moved : Idle w v) : Underway taken c v :=
  ⟨h.settled.idle moved,by rw [moved.nextEvent,moved.inbound.2,h.nextEvent],h.buffered.same moved.gapBuffer⟩

theorem Running.idle (h : Running taken c w) (moved : Idle w v) : Running taken c v :=
  ⟨h.toUnderway.idle moved,by rw [moved.nextOut,moved.outbound.1,h.nextOut]⟩

theorem Sending.idle {requestId : Bytes} {n : Nat} (h : Sending taken c requestId n w) (moved : Idle w v) :
    Sending taken c requestId n v :=
  ⟨h.toUnderway.idle moved,by rw [moved.outbound.2.1]; exact h.command,by rw [moved.outbound.1]; exact h.late⟩

theorem Running.commits (h : Running taken c w) (commit : OutboundCommit) (number : commit.msgSeqNum = w.nextOut)
    (harmless : Harmless taken w.journal (.commitOutbound commit)) :
    Meets (· = w) (storeApply c (.commitOutbound commit))
      (fun reply v => ∃ command, reply = .command command ∧
        (Running taken c v ∧ v.journal = w.journal ∧ w.journal.commands[commit.requestId]? = some command ∧
            command.fingerprint = commit.fingerprint ∨
          Sending taken c commit.requestId command.msgSeqNum v ∧ command.msgSeqNum = w.nextOut))
      (fun _ v => Settled taken v.toShared) := by
  rintro _ rfl
  have settled := h.settled.stores (c := c) _ harmless
  rcases run : storeApply c (.commitOutbound commit) _ with ⟨halt | reply,v⟩
  · rw [run] at settled
    exact settled
  · rw [run] at settled
    obtain ⟨-,answer,rfl⟩ := storeReturned run
    rcases commitOutboundSource answer with ⟨existing,found,same,rfl,after⟩ | ⟨fresh,-,rfl,after⟩
    · refine ⟨existing,rfl,.inl ⟨⟨⟨settled,?_,h.buffered.same rfl⟩,?_⟩,after,found,same⟩⟩
      · exact h.nextEvent.trans (congrArg Journal.nextEvent after).symm
      · exact h.nextOut.trans (congrArg Journal.nextOut after).symm
    · refine ⟨_,rfl,.inr ⟨⟨⟨settled,?_,h.buffered.same rfl⟩,⟨journaledCommand commit,?_,rfl⟩,?_⟩,number⟩⟩
      · exact h.nextEvent.trans (congrArg Journal.nextEvent after).symm
      · have commands := congrArg Journal.commands after
        rw [show (applied (.commitOutbound commit) _).journal.commands = _ from commands]
        simp [withOutbound]
      · rw [show (applied (.commitOutbound commit) _).journal.nextOut = _ from congrArg Journal.nextOut after]
        change _ + 1 ≤ commit.msgSeqNum + 1
        have next := h.nextOut
        omega

theorem Sending.marked {requestId : Bytes} {n : Nat} {reply : StoreReply} (h : Sending taken c requestId n w)
    (answer : (apply w.journal (.markOutboundWritten ⟨requestId,n⟩)).1 = .ok reply) :
    (∃ command, reply = .command command ∧ command.msgSeqNum = n) ∧
      Running taken c {applied (.markOutboundWritten ⟨requestId,n⟩) w with nextOut := n + 1} := by
  have settled := h.settled.applied (.markOutboundWritten ⟨requestId,n⟩) trivial
  obtain ⟨command,outbound,-,number,sent,reply,after⟩ := markOutboundWrittenSource answer
  have journal : (applied (.markOutboundWritten ⟨requestId,n⟩) w).journal = withWritten w.journal command outbound :=
    after
  have below := (h.settled.ledger.below n outbound sent).2
  have late := h.late
  refine ⟨⟨_,reply,number⟩,⟨settled,?_,h.buffered.same rfl⟩,?_⟩
  · exact h.nextEvent.trans (congrArg Journal.nextEvent journal).symm
  · have next : (applied (.markOutboundWritten ⟨requestId,n⟩) w).journal.nextOut = w.journal.nextOut := by
      rw [journal]
      rfl
    change n + 1 = (applied (.markOutboundWritten ⟨requestId,n⟩) w).journal.nextOut
    omega

theorem Running.adminHarmless (h : Running taken c w) {requestId fingerprint : Bytes} (untaken : ¬ taken fingerprint)
    (wire : Bytes) (pair : AdminPair requestId fingerprint w.nextOut w.nextEvent) :
    Harmless taken w.journal (.commitOutbound ⟨requestId,fingerprint,[],w.nextOut,wire⟩) := by
  obtain ⟨kind,known,key⟩ := adminPairKind pair
  refine ⟨fun _ => ⟨h.nextOut,untaken,kind,known,by rw [← h.nextOut,← h.nextEvent]; exact key⟩,?_⟩
  intro other _ p d same
  obtain ⟨-,rfl,rfl⟩ := adminKeyInjective (same.symm.trans key)
  rw [h.nextOut,h.nextEvent]
  exact .inr (le_refl _)

theorem Running.unshared (h : Running taken c w) {requestId fingerprint : Bytes} (untaken : ¬ taken fingerprint)
    (pair : AdminPair requestId fingerprint w.nextOut w.nextEvent) (record : CommandRecord)
    (found : w.journal.commands[requestId]? = some record) : record.fingerprint ≠ fingerprint := by
  obtain ⟨kind,known,key⟩ := adminPairKind pair
  have planted := h.settled.free kind known w.nextOut w.nextEvent (by rw [h.nextOut,h.nextEvent]; exact le_refl _)
    record (key ▸ found)
  rintro rfl
  exact untaken planted

theorem runningAdmin (apart : ∀ requestId fingerprint o e, AdminPair requestId fingerprint o e → ¬ taken fingerprint)
    {requestId fingerprint : Bytes} {o e : Nat} (wire : Bytes) (pair : AdminPair requestId fingerprint o e) :
    Meets (fun w => Running taken c w ∧ w.nextOut = o ∧ w.nextEvent = e)
      (storeApply c (.commitOutbound ⟨requestId,fingerprint,[],o,wire⟩))
      (fun reply w => ∃ command, reply = .command command ∧ Sending taken c requestId command.msgSeqNum w)
      (fun _ w => Settled taken w.toShared) := by
  rintro w ⟨h,rfl,rfl⟩
  have untaken := apart _ _ _ _ pair
  refine Meets.weaken (h.commits _ rfl (h.adminHarmless untaken wire pair)) (fun _ h => h) ?_ (fun _ _ h => h) w rfl
  rintro reply v ⟨command,rfl,⟨-,-,found,same⟩ | ⟨sending,-⟩⟩
  · exact absurd same (h.unshared untaken pair command found)
  · exact ⟨command,rfl,sending⟩

theorem runningRealign (n : Nat) : Meets (Running taken c) (realign c n)
    (fun _ w => Running taken c w ∧ w.nextIn = n) (fun _ w => Settled taken w.toShared) := by
  intro w h
  by_cases phase : w.phase = .logonSent
  · rw [realignRun phase]
    have noticed : Settled taken (desynced w n).toShared := h.settled.plain [_] (by simp [administrative])
    have settled := noticed.stores (c := c) (.resyncInbound (resyncCommit w n)) trivial
    rcases run : storeApply c (.resyncInbound (resyncCommit w n)) (desynced w n) with ⟨halt | reply,v⟩
    · rw [run] at settled
      exact settled
    · rw [run] at settled
      obtain ⟨-,answer,rfl⟩ := storeReturned run
      obtain ⟨-,-,-,after⟩ := resyncInboundSource answer
      refine ⟨⟨⟨settled.plain [_] (by simp [administrative]),?_,h.buffered.same rfl⟩,?_⟩,rfl⟩
      · exact (congrArg (· + 1) h.nextEvent).trans (congrArg Journal.nextEvent after).symm
      · exact h.nextOut.trans (congrArg Journal.nextOut after).symm
  · rw [realignRefused phase]
    exact h.settled

theorem runningCommit (w : World) (f : Bytes) (e : Expected) (h : Running taken c w) :
    match storeApply c (.commitInbound (inboundCommit w w.nextIn f e)) w with
    | (.ok _, v) => Running taken c (counted e v)
    | (.error _, v) => Settled taken v.toShared := by
  have settled := h.settled.stores (c := c) (.commitInbound (inboundCommit w w.nextIn f e)) trivial
  rcases run : storeApply c (.commitInbound (inboundCommit w w.nextIn f e)) w with ⟨halt | reply,v⟩
  · rw [run] at settled
    exact settled
  · rw [run] at settled
    obtain ⟨-,answer,rfl⟩ := storeReturned run
    obtain ⟨-,-,-,-,after⟩ := commitInboundSource answer
    refine ⟨⟨settled.plain [_] (by simp [administrative]),?_,h.buffered.same rfl⟩,?_⟩
    · exact (congrArg (· + 1) h.nextEvent).trans (congrArg Journal.nextEvent after).symm
    · exact h.nextOut.trans (congrArg Journal.nextOut after).symm

section

variable (apart : ∀ requestId fingerprint o e, AdminPair requestId fingerprint o e → ¬ taken fingerprint)
include apart

theorem runningCarries :
    Carries c (Running taken c) (fun w => Settled taken w.toShared) (Sending taken c) where
  fails := fun _ h => h.settled
  owedFails := fun _ _ _ h => h.settled
  idle := fun _ _ moved h => h.idle moved
  owedIdle := fun _ _ _ _ moved h => h.idle moved
  ends := fun _ _ moved h => h.idle moved
  buffered := fun _ h => h.buffered
  buffers := fun _ _ h inside => ⟨⟨h.settled,h.nextEvent,inside⟩,h.nextOut⟩
  admin := fun _ _ _ _ wire pair => runningAdmin apart wire pair
  marks := fun requestId n w h => by
    have settled := h.settled.stores (c := c) (.markOutboundWritten ⟨requestId,n⟩) trivial
    rcases run : storeApply c (.markOutboundWritten ⟨requestId,n⟩) w with ⟨halt | reply,v⟩
    · rw [run] at settled
      exact settled
    · obtain ⟨-,answer,rfl⟩ := storeReturned run
      exact h.marked answer
  realign := runningRealign
  commit := fun w f _ e _ _ h => runningCommit w f e h

def Spares (taken : Bytes → Prop) (conn : Conn) (input : Input) : Prop :=
  ∀ request, input = .command (.submit request) → conn.live = true → conn.world.phase = .established →
    request.clOrdId ≠ [] ∧ ∀ kind ∈ adminKinds, ∀ o e, request.requestId = adminKey kind o e →
      taken request.fingerprint ∨ stamp o e ≤ stamp conn.world.nextOut conn.world.nextEvent

theorem runningStep {conn : Conn} {input : Input} (spares : Spares taken conn input)
    (holds : Holds (Running taken c) (fun w => Settled taken w.toShared) conn) :
    Holds (Running taken c) (fun w => Settled taken w.toShared) (step c conn input) := by
  have carries := runningCarries (c := c) apart
  refine carries.steps (fun request same live => carries.submits (holds.2 live) fun phase wire => ?_) holds
  obtain ⟨order,free⟩ := spares request same live phase
  rintro w ⟨h,out,event⟩
  have harmless : Harmless taken w.journal (.commitOutbound ⟨request.requestId,request.fingerprint,
      request.clOrdId,conn.world.nextOut,wire⟩) := by
    refine ⟨fun none => absurd none order,fun kind known o e key => ?_⟩
    rw [stampOf,← h.nextOut,← h.nextEvent,out,event]
    exact free kind known o e key
  refine Meets.weaken (h.commits _ out.symm harmless) (fun _ h => h) ?_ (fun _ _ h => h) w rfl
  rintro reply v ⟨command,rfl,⟨running,journal,found,-⟩ | ⟨sending,number⟩⟩
  · refine ⟨command,rfl,?_⟩
    by_cases old : command.msgSeqNum < conn.world.nextOut
    · exact .inl ⟨running,old⟩
    · have last : v.journal.nextOut = conn.world.nextOut := by rw [journal,← h.nextOut,out]
      exact .inr ⟨⟨running.toUnderway,⟨command,by rw [journal]; exact found,rfl⟩,by omega⟩,old⟩
  · exact ⟨command,rfl,.inr ⟨sending,by omega⟩⟩

omit apart in
theorem runningEnters {s : Shared} (settled : Settled taken s) : Running taken c (entering c s) :=
  ⟨⟨settled.plain [] (by simp),rfl,fun k f found => by simp [entering] at found⟩,rfl⟩

omit apart in
theorem runningResets {s : Shared} (settled : Settled taken s) :
    Meets (· = entering c s) (resetIfConfigured c) (fun _ => Running taken c)
      (fun _ w => Settled taken w.toShared) := by
  have entered : Running taken c (entering c s) := runningEnters settled
  rintro w rfl
  unfold resetIfConfigured
  by_cases reset : c.config.resetOnLogon = true
  · rw [if_pos reset]
    have stores := entered.settled.stores (c := c) .resetSequences trivial
    rcases run : storeApply c .resetSequences (entering c s) with ⟨halt | reply,v⟩
    · rw [run] at stores
      simp only [resetOnLogon,bindRun,run]
      exact stores
    · rw [run] at stores
      obtain ⟨-,answer,rfl⟩ := storeReturned run
      have reply : reply = .sequencesReset ((entering c s).journal.nextEvent + 1) := (Except.ok.inj answer).symm
      subst reply
      simp only [resetOnLogon,bindRun,run,changeRun,setNextIn,info,emit]
      exact ⟨⟨stores.plain [_, _] (by simp [administrative]),rfl,entered.buffered.same rfl⟩,rfl⟩
  · rw [if_neg reset]
    exact entered

theorem runningSpawn {s : Shared} (settled : Settled taken s) :
    Holds (Running taken c) (fun w => Settled taken w.toShared) (spawn c s) :=
  (runningCarries apart).spawns (runningEnters (c := c) settled).settled (runningResets settled)

end

end

structure Life where
  ctx : Ctx
  inputs : List Input

def lived (s : Shared) (life : Life) : Shared :=
  (run life.ctx (spawn life.ctx s) life.inputs).world.toShared

def livedAll (lives : List Life) : Shared := lives.foldl lived fresh

def EachStep (cond : Conn → Input → Prop) (lives : List Life) : Prop :=
  Along lived (fun s life => Along (step life.ctx) cond (spawn life.ctx s) life.inputs) fresh lives

theorem livedSettled {taken : Bytes → Prop}
    (apart : ∀ requestId fingerprint o e, AdminPair requestId fingerprint o e → ¬ taken fingerprint)
    {lives : List Life} (spares : EachStep (Spares taken) lives) : Settled taken (livedAll lives) := by
  refine foldInvariant (I := Settled taken) (fun s life along settled => ?_) (settledFresh taken) spares
  have each (conn : Conn) (input : Input) (spares : Spares taken conn input)
      (holds : Holds (Running taken life.ctx) (fun w => Settled taken w.toShared) conn) :
      Holds (Running taken life.ctx) (fun w => Settled taken w.toShared) (step life.ctx conn input) :=
    runningStep apart spares holds
  exact (foldInvariant each (runningSpawn apart settled) along).1

def TakesPlanned {δ : Type} (k : Crates δ) (planner : CommandPlanner δ) (lives : List Life) : Prop :=
  ∀ life ∈ lives, ∀ request, .command (.submit request) ∈ life.inputs → Planned k planner request

def SparesKeys (conn : Conn) (input : Input) : Prop :=
  ∀ request, input = .command (.submit request) → conn.live = true → conn.world.phase = .established →
    ∀ kind ∈ adminKinds, ∀ o e, request.requestId = adminKey kind o e →
      stamp o e ≤ stamp conn.world.nextOut conn.world.nextEvent

theorem eachStepWith {cond both : Conn → Input → Prop} (other : Conn → Input → Prop) {lives : List Life}
    (each : ∀ life ∈ lives, ∀ input ∈ life.inputs, ∀ conn, other conn input)
    (join : ∀ conn input, cond conn input → other conn input → both conn input) (along : EachStep cond lives) :
    EachStep both lives := by
  refine alongWith (fun _ (life : Life) => ∀ input ∈ life.inputs, ∀ conn, other conn input)
    (fun life mem _ => each life mem) (fun s life along inside => ?_) along
  exact alongWith other inside join along

theorem eachStepOf {cond : Conn → Input → Prop} {lives : List Life}
    (each : ∀ life ∈ lives, ∀ input ∈ life.inputs, ∀ conn, cond conn input) : EachStep cond lives :=
  alongEach (fun life mem _ => alongEach (each life mem) _) _

section

variable {δ : Type} {k : Crates δ} {planner : CommandPlanner δ} {lives : List Life}

/-- In every state that connections lead to: an administrative commit was answered by
the command it journaled or by a backend failure, and the keys still to come are free. -/
theorem adminKeysUntaken (planned : TakesPlanned k planner lives) (spares : EachStep SparesKeys lives) :
    (∀ pair ∈ adminCommits (livedAll lives).trace, pair.2 = .ok (.command (journaledCommand pair.1)) ∨
      ∃ text, pair.2 = .error (.backend text)) ∧
    ∀ kind ∈ adminKinds, ∀ o e, stampOf (livedAll lives).journal ≤ stamp o e →
      (livedAll lives).journal.commands[adminKey kind o e]? = none := by
  have each : EachStep (Spares fun _ => False) lives := by
    refine eachStepWith (fun _ input => ∀ request, input = .command (.submit request) →
      Planned k planner request) (fun life mem input inside _ request same => ?_) ?_ spares
    · subst same
      exact planned life mem request inside
    · intro conn input spares planned request same live phase
      exact ⟨plannedClOrdId (planned request same),fun kind known o e key =>
        .inr (spares request same live phase kind known o e key)⟩
  have settled := livedSettled (fun _ _ _ _ _ bad => bad) each
  refine ⟨fun pair mem => ?_,fun kind known o e ahead => ?_⟩
  · have answered := settled.answered pair mem
    obtain ⟨commit,error | reply⟩ := pair
    · cases error with
      | backend text => exact .inr ⟨text,rfl⟩
      | idempotencyConflict requestId => exact answered.elim fun _ bad => bad.elim
      | _ => exact answered.elim
    · exact .inl (congrArg Except.ok answered)
  · cases found : (livedAll lives).journal.commands[adminKey kind o e]? with
    | none => rfl
    | some record => exact (settled.free kind known o e ahead record found).elim

theorem adminFingerprint {requestId fingerprint : Bytes} {o e : Nat} (pair : AdminPair requestId fingerprint o e) :
    0x6D ∈ fingerprint := by
  have literals : 0x6D ∈ ascii "admin:A:" ∧ 0x6D ∈ ascii "admin:2:" ∧ 0x6D ∈ ascii "admin:0:" ∧
      0x6D ∈ ascii "admin:1:" ∧ 0x6D ∈ ascii "admin:5:" := by decide
  cases pair <;> simp [literals]

theorem adminKeysDistinct (planned : TakesPlanned k planner lives) :
    (journaledKeys (livedAll lives).trace).Nodup := by
  have apart (requestId fingerprint : Bytes) (o e : Nat) (pair : AdminPair requestId fingerprint o e) :
      ¬ ∃ digest, fingerprint = hex digest := by
    rintro ⟨digest,rfl⟩
    have digit := hexOnly digest _ (adminFingerprint pair)
    exact absurd digit (by decide)
  have each : EachStep (Spares fun fingerprint => ∃ digest, fingerprint = hex digest) lives := by
    refine eachStepOf fun life mem input inside _ request same _ _ => ?_
    subst same
    have made := planned life mem request inside
    exact ⟨plannedClOrdId made,fun _ _ _ _ _ => .inl (plannedFingerprint made)⟩
  exact (livedSettled apart each).spent.distinct

end

theorem venueOrderPlanned (requestId : String)
    (planned : plan venueCrates venuePlanner (venueOrder requestId) =
      .ok (.application (applicationOf (venueOrder requestId)))) (inputs : List Input)
    (order : ∀ request, .command (.submit request) ∈ inputs → request = applicationOf (venueOrder requestId)) :
    ∀ request, .command (.submit request) ∈ inputs → Planned venueCrates venuePlanner request := by
  intro request mem
  rw [order request mem]
  exact ⟨venueOrder requestId,planned⟩

def orderedInputs (requestId : String) : List Input :=
  [.frame (venueLogon 1),.command (.submit (applicationOf (venueOrder requestId))),
    .frame (venueFrame "1" 2 [⟨112,ascii "PING"⟩])]

theorem orderedOnly (requestId : String) (request : ApplicationRequest)
    (mem : .command (.submit request) ∈ orderedInputs requestId) : request = applicationOf (venueOrder requestId) := by
  simpa [orderedInputs] using mem

def conflicts (trace : List Event) : List Bytes :=
  (adminCommits trace).filterMap fun pair => match pair.2 with
    | .error (.idempotencyConflict requestId) => some requestId
    | _ => none

theorem heartbeatKeyTaken :
    TakesPlanned venueCrates venuePlanner [⟨venueCtx,orderedInputs "session:heartbeat:3:3"⟩] ∧
      ¬ ∀ pair ∈ adminCommits (livedAll [⟨venueCtx,orderedInputs "session:heartbeat:3:3"⟩]).trace,
        pair.2 = .ok (.command (journaledCommand pair.1)) ∨ ∃ text, pair.2 = .error (.backend text) := by
  refine ⟨fun life mem => ?_,fun untaken => ?_⟩
  · rw [List.mem_singleton.mp mem]
    exact venueOrderPlanned "session:heartbeat:3:3" (by decide +kernel) _ (orderedOnly _)
  · have found : conflicts (livedAll [⟨venueCtx,orderedInputs "session:heartbeat:3:3"⟩]).trace =
        [ascii "session:heartbeat:3:3"] := by decide +kernel
    have none : conflicts (livedAll [⟨venueCtx,orderedInputs "session:heartbeat:3:3"⟩]).trace = [] := by
      refine List.filterMap_eq_nil_iff.mpr fun pair mem => ?_
      rcases untaken pair mem with journaled | ⟨text,failed⟩
      · simp only [journaled]
      · simp only [failed]
    exact absurd (none.symm.trans found) (by decide)

def twoLives : List Life :=
  [⟨venueCtx,orderedInputs "order-1"⟩,
    ⟨{venueCtx with config := {venueCtx.config with resetOnLogon := true}},
      [.frame (venueLogon 1),.frame (venueFrame "1" 2 [⟨112,ascii "PING"⟩])]⟩]

theorem twoLivesOrder {life : Life} (mem : life ∈ twoLives) {request : ApplicationRequest}
    (inside : .command (.submit request) ∈ life.inputs) : request = applicationOf (venueOrder "order-1") := by
  simp only [twoLives,List.mem_cons,List.not_mem_nil,or_false] at mem
  rcases mem with rfl | rfl
  · exact orderedOnly _ _ inside
  · simp at inside

theorem twoLivesPlanned : TakesPlanned venueCrates venuePlanner twoLives := by
  intro life mem
  exact venueOrderPlanned "order-1" (by decide +kernel) _ fun request inside => twoLivesOrder mem inside

theorem twoLivesSpare : EachStep SparesKeys twoLives := by
  refine eachStepOf fun life mem input inside conn request same _ _ kind _ o e key => ?_
  subst same
  have heads := congrArg List.head? key
  have literal : ascii "session:" = 0x73 :: ascii "ession:" := by decide
  rw [twoLivesOrder mem inside,adminKey,literal] at heads
  exact absurd heads (by simp only [List.cons_append,List.head?_cons]; decide +kernel)

theorem adminKeysUntakenTwice :
    (∀ pair ∈ adminCommits (livedAll twoLives).trace, pair.2 = .ok (.command (journaledCommand pair.1)) ∨
      ∃ text, pair.2 = .error (.backend text)) ∧
    ∀ kind ∈ adminKinds, ∀ o e, stampOf (livedAll twoLives).journal ≤ stamp o e →
      (livedAll twoLives).journal.commands[adminKey kind o e]? = none :=
  adminKeysUntaken twoLivesPlanned twoLivesSpare

theorem adminKeysDistinctTwice :
    (journaledKeys (livedAll twoLives).trace).length = 4 ∧ (journaledKeys (livedAll twoLives).trace).Nodup :=
  ⟨by decide +kernel,adminKeysDistinct twoLivesPlanned⟩

end FixCli.Session
