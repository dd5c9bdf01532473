import FixCli.GapBuffer
import FixCli.PeerLog
import FixCli.ResetFlag

/-! A session that loses messages behind the Logon answer. What comes in its turn is
committed; the first frame ahead of it makes the actor ask, once and for everything from
the first lost message on, and the frames behind it wait. -/
namespace FixCli.Session
open Lib Codec Store

def survivors (last : Nat) (log : Nat → LogMessage) (lost : List Nat) : List Bytes :=
  ((List.range' 1 last).filter fun n => n ∉ lost).map fun n => (log n).wire

def gapAhead (b last : Nat) (lost : List Nat) : List Nat :=
  (List.range' (b + 1) (last - b)).filter fun n => n ∉ lost

def resendRequest : Event → Option Bytes
  | .wrote .resendRequest wire _ => some wire
  | _ => none

def resendRequests (trace : List Event) : List Bytes := trace.filterMap resendRequest

def AsksFrom (c : Ctx) (b : Nat) (w v : World) : Prop :=
  ∃ header wire, header.map Field.tag = [35, 49, 56, 34, 52] ∧
    encodeMessage c.config.beginString (header ++ [⟨7,decimal b⟩,⟨16,ascii "0"⟩]) = .ok wire ∧
    resendRequests v.trace = wire :: resendRequests w.trace

structure Loss (b last : Nat) (lost : List Nat) : Prop where
  first : b ∈ lost
  least : ∀ n ∈ lost, b ≤ n
  inner : ∀ n ∈ lost, 1 < n ∧ n < last

section

variable {c p : Ctx} {base u w v : World} {item : Nat → Bytes} {got lost : List Nat} {b n last : Nat} {frame : Bytes}
  {log : Nat → LogMessage} {message : ParsedMessage}

open Prog

theorem positiveEffect {j k : Journal} {op : StoreOp} (positive : 0 < j.nextIn) (effect : Effect j op k) :
    0 < k.nextIn := by
  cases effect with
  | none | outbound _ _ | written _ _ _ | transmission _ | transmissionWritten _ => exact positive
  | inbound _ _ later => exact Nat.lt_trans positive later
  | resync nonzero _ => exact Nat.pos_of_ne_zero nonzero
  | reset => exact Nat.one_pos

theorem positivePermits : Permits (fun _ => True) (fun _ => True)
    (fun w v => 0 < w.journal.nextIn → 0 < v.journal.nextIn) where
  refl := fun _ h => h
  trans := fun _ _ _ first second h => second (first h)
  ticks := fun _ _ h => h
  notes := fun _ _ _ h => h
  moves := fun _ _ _ h => h
  asks := fun _ _ _ h => h
  stores := fun w op _ h => positiveEffect h (effectOf w.journal op)
  refuses := fun _ _ _ _ h => h
  writes := fun _ _ _ _ h => h

theorem acceptedLive {s : Shared} {inputs : List Input} (live : (run c (spawn c s) inputs).live = true) :
    validateCustomLogonFields c.logonFields [] = .ok () := by
  have start : (spawn c s).live = true → validateCustomLogonFields c.logonFields [] = .ok () := by
    intro spawned
    cases accepted : validateCustomLogonFields c.logonFields [] with
    | ok _ => rfl
    | error e =>
      unfold spawn logon at spawned
      rw [bindStops (sendLogonUnaccepted accepted)] at spawned
      split at spawned <;> cases spawned
  have free : Along (step c) (fun _ _ => True) (spawn c s) inputs := alongAlways (fun _ _ => trivial) _ _
  refine foldInvariant (I := fun conn => conn.live = true → validateCustomLogonFields c.logonFields [] = .ok ())
    (fun conn input _ h alive => ?_) start free live
  cases before : conn.live with
  | true => exact h before
  | false =>
    unfold step at alive
    rw [before] at alive
    exact h alive

theorem positiveLive {ops : List StoreOp} {trace : List Event} {tick : Nat} {inputs : List Input} :
    0 < (run c (spawn c ⟨journalOf ops,trace,tick⟩) inputs).world.journal.nextIn := by
  have empty : 0 < (journalOf ops).nextIn :=
    journalInvariant Nat.one_pos (fun _ _ _ h effect => positiveEffect h effect) ops
  have start := positivePermits.spawns (c := c) (fun _ _ => trivial) (fun _ _ => trivial)
    ⟨journalOf ops,trace,tick⟩ empty
  have free : Along (step c) (fun _ _ => True) (spawn c ⟨journalOf ops,trace,tick⟩) inputs :=
    alongAlways (fun _ _ => trivial) _ _
  refine foldInvariant (I := fun conn => 0 < conn.world.journal.nextIn) (fun conn input _ h => ?_) start free
  exact positivePermits.steps (fun _ _ => trivial) (fun _ _ => trivial) conn input
    (fun _ _ => ⟨trivial,fun _ _ => trivial⟩) h

theorem emptyLive {s : Shared} {inputs : List Input} (live : (run c (spawn c s) inputs).live = true)
    (phase : (run c (spawn c s) inputs).world.phase = .logonSent) :
    (run c (spawn c s) inputs).world.gapBuffer = ∅ := by
  have start : TidyConn c (spawn c s) := ⟨trivial,fun _ => tidyEmpty (spawnEmpty c s)⟩
  have free : Along (step c) (fun _ _ => True) (spawn c s) inputs := alongAlways (fun _ _ => trivial) _ _
  have tidy : TidyConn c (run c (spawn c s) inputs) := foldInvariant (fun _ input _ => tidyStep input) start free
  exact (tidy.2 live).unanswered phase

theorem unasking : Permits (fun own => own ≠ .resendRequest) (fun _ => True)
    (fun w v => resendRequests v.trace = resendRequests w.trace) where
  refl := fun _ => rfl
  trans := fun _ _ _ first second => second.trans first
  ticks := fun _ _ => rfl
  notes := fun _ event other => by
    cases event <;> first | rfl | cases other
  moves := fun _ _ _ => rfl
  asks := fun _ _ _ => rfl
  stores := fun _ _ _ => rfl
  refuses := fun _ _ _ _ => rfl
  writes := fun w own wire other => by
    cases own <;> first | rfl | exact absurd rfl other

theorem levelAsks (sequenced : Sequenced c frame message n) (level : ¬ w.nextIn < n) :
    resendRequests (handleInbound c frame w).2.trace = resendRequests w.trace := by
  have here : (arrivedAt c w).nextIn = w.nextIn := rfl
  rw [handleSequenced sequenced.parsed sequenced.sequence,Session.sequenced,here,if_neg level]
  split
  · exact unasking.advances.verifyPossdup message n trivial (arrivedAt c w)
  · exact unasking.accepts (fun own answer same => answer (by rw [same]; decide)) (fun _ _ => trivial) message n frame
      (arrivedAt c w)

theorem writeAsks {wire : Bytes} (run : writeWire c .resendRequest wire w = (.ok (),v)) :
    resendRequests v.trace = wire :: resendRequests w.trace := by
  unfold writeWire at run
  rw [emit,bindReturns (changeRun _ w)] at run
  obtain ⟨⟨⟩,x,sent,run⟩ := bindReturned run
  unfold socketWrite at sent
  split at sent <;> cases sent
  cases run
  rfl

theorem adminAsks {send : AdminSend} (path : send.path = .resendRequest)
    (run : sendAdmin c send (pure ()) w = (.ok (),v)) :
    resendRequests v.trace = send.wire :: resendRequests w.trace := by
  have stores {op : StoreOp} {reply : StoreReply} {x y : World} (ran : storeApply c op x = (.ok reply,y)) :
      resendRequests y.trace = resendRequests x.trace := by
    have same := unasking.store (c := c) (o := op) trivial x
    rwa [ran] at same
  unfold sendAdmin at run
  rw [bindReturns (stateRun w)] at run
  obtain ⟨reply,x,journaled,run⟩ := bindReturned run
  split at run
  · obtain ⟨⟨⟩,y,written,run⟩ := bindReturned run
    rw [bindReturns (pureRun () y)] at run
    obtain ⟨reply',z,marked,run⟩ := bindReturned run
    cases run
    rw [path] at written
    exact (stores marked).trans ((writeAsks written).trans (by rw [stores journaled]))
  · cases run

theorem resendAsks (run : sendResendRequest c b w = (.ok (),v)) : AsksFrom c b w v := by
  unfold sendResendRequest at run
  rw [bindReturns (headerRun c (ascii "2") w)] at run
  obtain ⟨wire,x,encoded,run⟩ := bindReturned run
  cases encodes : encodeOutbound c ([⟨35,ascii "2"⟩,⟨49,c.config.senderCompId⟩,⟨56,c.config.targetCompId⟩,
      ⟨34,decimal w.nextOut⟩,⟨52,c.env.sendingTime w.tick⟩] ++ [⟨7,decimal b⟩,⟨16,ascii "0"⟩]) with
  | error e =>
    rw [encodes] at encoded
    cases encoded
  | ok own =>
    rw [encodes] at encoded
    cases encoded
    rw [bindReturns (stateRun _)] at run
    exact ⟨_,_,rfl,encodedOutbound encodes,adminAsks rfl run⟩

theorem aheadRun (sequenced : Sequenced c frame message n) (ahead : w.nextIn < n)
    (room : w.gapBuffer.size < gapBufferLimit) : handleInbound c frame w =
      if w.phase = .recovering then (.ok (),buffering n frame (arrivedAt c w))
      else (do sendResendRequest c w.nextIn; setPhase .recovering : Act Unit)
        (buffering n frame (arrivedAt c w)) := by
  have further : (arrivedAt c w).nextIn < n := ahead
  have bounded : (arrivedAt c w).gapBuffer.size < gapBufferLimit := room
  rw [handleSequenced sequenced.parsed sequenced.sequence,Session.sequenced,if_pos further,bufferGapRun _ bounded]
  rfl

theorem aheadAsks (sequenced : Sequenced c frame message n) (ahead : w.nextIn < n) (calm : w.phase ≠ .recovering)
    (room : w.gapBuffer.size < gapBufferLimit) (run : handleInbound c frame w = (.ok (),v)) :
    AsksFrom c w.nextIn w v := by
  rw [aheadRun sequenced ahead room,if_neg calm] at run
  obtain ⟨⟨⟩,x,asked,run⟩ := bindReturned run
  cases run
  obtain ⟨header,wire,tags,encodes,once⟩ := resendAsks asked
  exact ⟨header,wire,tags,encodes,once⟩

theorem aheadWaits (sequenced : Sequenced c frame message n) (ahead : w.nextIn < n) (waits : w.phase = .recovering)
    (room : w.gapBuffer.size < gapBufferLimit) :
    handleInbound c frame w = (.ok (),buffering n frame (arrivedAt c w)) := by
  rw [aheadRun sequenced ahead room,if_pos waits]

structure InOrderTo (w : World) (n : Nat) (v : World) : Prop extends Abreast w v where
  phase : v.phase = .established
  awaited : v.nextIn = n
  empty : v.gapBuffer = ∅

theorem realignsFirst (attached : Attached c w) (phase : w.phase = .logonSent) (positive : 1 ≤ w.nextIn)
    (healthy : Healthy c w.tick) : ∃ v, realignIfLow c 1 (arrivedAt c w) = (.ok (),v) ∧ Abreast w v ∧
      v.nextIn = 1 ∧ v.phase = .logonSent ∧ v.gapBuffer = w.gapBuffer := by
  have onward : Onward w (arrivedAt c w) := ⟨List.suffix_rfl,Nat.le_succ _⟩
  have here : (arrivedAt c w).nextIn = w.nextIn := rfl
  have unanswered : (arrivedAt c w).phase = .logonSent := phase
  rcases Nat.lt_or_eq_of_le positive with low | first
  · have enters : realignIfLow c 1 (arrivedAt c w) = realign c 1 (arrivedAt c w) := by
      simp only [realignIfLow,bindRun,stateRun,iteRun,here,if_pos low]
    have stores := resyncStores (healthy _ onward.later).1 Nat.one_ne_zero attached.nextEvent.symm
    have journal := congrArg Prod.snd (resyncInboundStores (j := w.journal) (resyncCommit (arrivedAt c w) 1)
      Nat.one_ne_zero attached.nextEvent.symm)
    set after := applied (.resyncInbound (resyncCommit (arrivedAt c w) 1)) (desynced (arrivedAt c w) 1)
    have synced : after.journal = withResync w.journal (resyncCommit (arrivedAt c w) 1) := journal
    refine ⟨realigned 1 after,by rw [enters,realignRun unanswered,stores],⟨?_,?_,?_⟩,rfl,phase,rfl⟩
    · exact onward.trans ⟨⟨[_, _, _],rfl⟩,Nat.le_succ _⟩
    · exact congrArg Journal.nextIn synced
    · refine (congrArg Journal.nextEvent synced).trans ?_
      exact congrArg Nat.succ attached.nextEvent
  · refine ⟨arrivedAt c w,?_,⟨onward,attached.nextIn,attached.nextEvent⟩,first.symm,phase,rfl⟩
    simp only [realignIfLow,bindRun,stateRun,iteRun,here,← first,Nat.lt_irrefl,if_false,pureRun]

theorem logonHeard (attached : Attached c w) (phase : w.phase = .logonSent) (empty : w.gapBuffer = ∅)
    (positive : 1 ≤ w.nextIn) (healthy : Healthy c w.tick) (sequenced : Sequenced c frame message 1)
    (original : possDup message = false)
    (checks : ∀ nextOut, inboundChecks c nextOut 1 1 message = .ok ⟨ascii "A",none,none,2⟩) :
    ∃ v, handleInbound c frame w = (.ok (),v) ∧ InOrderTo w 2 v := by
  obtain ⟨x,realigns,level,first,unanswered,kept⟩ := realignsFirst attached phase positive healthy
  have here : (arrivedAt c w).nextIn = w.nextIn := rfl
  have plain : ¬ (1 < w.nextIn ∧ possDup message = true) := by simp [original]
  rw [handleSequenced sequenced.parsed sequenced.sequence,Session.sequenced,here,if_neg (Nat.not_lt.mpr positive),
    if_neg plain,acceptFrame,bindReturns realigns]
  have takes := commitTakes (c := c) (w := x) frame (by rw [first]; exact sequenced.sequence)
    (by rw [first]; exact checks _) (by rw [first]; exact Nat.lt_succ_self 1) rfl (by decide)
    (healthy.later level.onward.later) attached.sendable level.nextIn level.nextEvent
  rcases run : commitExpected c message frame x with ⟨halt | _,y⟩
  · rw [run] at takes
    exact absurd rfl takes.1
  rw [run] at takes
  rw [bindReturns run]
  have buffer : y.gapBuffer = ∅ := takes.gapBuffer.trans (kept.trans empty)
  have established : y.phase = .established := by
    rw [takes.phase,welcomed,if_pos ⟨rfl,unanswered⟩]
  have taken : Abreast w y := by
    refine ⟨level.onward.trans takes.onward,?_,?_⟩
    · rw [takes.journal.nextIn,takes.nextIn]
      rfl
    · rw [takes.journal.nextEvent,takes.nextEvent,← level.nextEvent]
      rfl
  have nothing : Spoken c False (fun _ => frame) [] := fun _ none => by cases none
  have settles := settleHeld taken (buffer ▸ Holding.empty (fun _ => frame) y.nextIn) (Nat.le_refl _) nothing healthy
    attached.sendable (by rw [established,buffer]; rfl)
  rcases settle : (do drainBuffer c; endRecovery : Act Unit) y with ⟨halt | _,v⟩
  · rw [settle] at settles
    exact settles.1.elim
  rw [settle] at settles
  obtain ⟨settled,count,drained⟩ := settles
  have still : count = 0 := by
    by_contra some
    exact absurd (drained.passed y.nextIn (Nat.le_refl _) (by omega)) List.not_mem_nil
  have left : v.gapBuffer = ∅ := drained.held.drained fun k none => by cases none
  refine ⟨v,rfl,drained.toAbreast,?_,?_,left⟩
  · rw [settled,left]
    rfl
  · rw [drained.advanced,still,takes.nextIn]
    rfl

theorem deliverAppend (front back : List Bytes) :
    deliver c (front ++ back) = (do deliver c front; deliver c back : Act Unit) := by
  induction front with
  | nil => rfl
  | cons frame rest ih => simp only [List.cons_append,deliver,ih,bind_assoc]

theorem levelArrives (level : InOrderTo base n w) {response : Option Bytes}
    (simple : Simple c (item n) message n response) (healthy : Healthy c base.tick) (sendable : Sendable c) :
    match handleInbound c (item n) w with
    | (.ok _, v) => InOrderTo base (n + 1) v ∧ resendRequests v.trace = resendRequests w.trace
    | (.error _, v) => Refused base v := by
  have awaited := level.awaited
  subst awaited
  have start := Awaiting.start (c := c) item level.nextIn level.nextEvent level.phase level.empty
  have spoken : Spoken c True item [w.nextIn] := fun k mem => by
    rw [List.mem_singleton.mp mem]
    exact ⟨message,response,simple,fun _ => trivial⟩
  have arrives := awaitedArrives start spoken (healthy.later level.onward.later) sendable
  have asks := levelAsks simple.toSequenced (Nat.lt_irrefl w.nextIn)
  rcases run : handleInbound c (item w.nextIn) w with ⟨halt | _,v⟩
  · rw [run] at arrives
    exact level.onward.refused arrives.2
  · rw [run] at arrives asks
    have one (k : Nat) : k ∈ [w.nextIn] ↔ w.nextIn ≤ k ∧ k < w.nextIn + 1 := by
      rw [List.mem_singleton]
      omega
    obtain ⟨phase,empty,next,-⟩ := arrives.complete one
    exact ⟨⟨⟨level.onward.trans arrives.onward,arrives.nextIn,arrives.nextEvent⟩,phase,next,empty⟩,asks⟩

theorem levelDelivers {count : Nat} (level : InOrderTo base n w) (spoken : Spoken c True item (List.range' n count))
    (healthy : Healthy c base.tick) (sendable : Sendable c) :
    match deliver c ((List.range' n count).map item) w with
    | (.ok _, v) => InOrderTo base (n + count) v ∧ resendRequests v.trace = resendRequests w.trace
    | (.error _, v) => Refused base v := by
  induction count generalizing n w with
  | zero => exact ⟨level,rfl⟩
  | succ count ih =>
    obtain ⟨message,response,simple,-⟩ := spoken n (List.mem_range'_1.mpr (by omega))
    have arrives := levelArrives level simple healthy sendable
    rw [List.range'_succ,List.map_cons,deliver]
    rcases run : handleInbound c (item n) w with ⟨halt | _,v⟩
    · rw [run] at arrives
      rw [bindStops run]
      exact arrives
    · rw [run] at arrives
      rw [bindReturns run]
      have later := ih arrives.1 fun k mem => spoken k (by rw [List.range'_succ]; exact List.mem_cons_of_mem _ mem)
      rcases rest : deliver c ((List.range' (n + 1) count).map item) v with ⟨halt | _,x⟩
      · rw [rest] at later
        exact later
      · rw [rest] at later
        refine ⟨?_,later.2.trans arrives.2⟩
        rw [Nat.add_right_comm] at later
        exact later.1

variable {all : List Nat}

theorem aheadDelivers (spoken : Spoken c True item all) (healthy : Healthy c base.tick) (sendable : Sendable c)
    (few : (all.filter fun k => decide (b < k)).length ≤ gapBufferLimit) (order : List Nat)
    (ahead : ∀ n ∈ order, b < n) (inside : ∀ n ∈ order ++ got, n ∈ all) (once : (order ++ got).Nodup)
    (waits : w.phase = .recovering) (gap : w.nextIn = b) (h : Awaiting c base item got w) :
    ∃ v, deliver c (order.map item) w = (.ok (),v) ∧ v.trace = w.trace ∧ v.nextIn = b ∧
      Awaiting c base item (order.reverse ++ got) v := by
  induction order generalizing w got with
  | nil => exact ⟨w,rfl,rfl,gap,h⟩
  | cons n rest ih =>
    have moved : (rest ++ n :: got).Nodup := (List.perm_middle.symm.nodup_iff).mp once
    have new : n ∉ got := fun old => (List.nodup_append.mp once).2.2 n List.mem_cons_self n old rfl
    have turn : (n :: rest).reverse ++ got = rest.reverse ++ n :: got := by simp
    have member := inside n List.mem_cons_self
    have later : w.nextIn < n := by rw [gap]; exact ahead n List.mem_cons_self
    obtain ⟨message,response,simple,-⟩ := spoken n member
    have kept : ∀ k ∈ got, k ∈ all := fun k mem => inside k (List.mem_append_right _ mem)
    have room := h.reordered.held.room kept h.missing later member new
    rw [gap] at room
    have arrives := laterArrives h simple healthy sendable (by omega) later
    have waiting := aheadWaits simple.toSequenced later waits (by omega)
    rw [waiting] at arrives
    have still : (buffering n (item n) (arrivedAt c w)).phase = .recovering := waits
    obtain ⟨v,delivered,trace,here,awaiting⟩ := ih (fun k mem => ahead k (List.mem_cons_of_mem _ mem))
      (fun k mem => inside k (List.perm_middle.mem_iff.mp mem)) moved still (arrives.2.trans gap) arrives.1
    rw [List.map_cons,deliver,bindReturns waiting,turn]
    exact ⟨v,delivered,trace,here,awaiting⟩

theorem gapOpens (spoken : Spoken c True item all) (level : InOrderTo base b w) (healthy : Healthy c w.tick)
    (sendable : Sendable c) (some : all ≠ []) (ahead : ∀ n ∈ all, b < n) (once : all.Nodup)
    (few : all.length ≤ gapBufferLimit) :
    match deliver c (all.map item) w with
    | (.ok _, v) => AsksFrom c b w v ∧ v.nextIn = b ∧ Awaiting c w item all.reverse v
    | (.error _, v) => Refused w v := by
  have gap := level.awaited
  have start := Awaiting.start (c := c) item level.nextIn level.nextEvent level.phase level.empty
  cases all with
  | nil => exact absurd rfl some
  | cons n rest =>
    obtain ⟨message,response,simple,-⟩ := spoken n List.mem_cons_self
    have further : w.nextIn < n := by rw [gap]; exact ahead n List.mem_cons_self
    have room : w.gapBuffer.size < gapBufferLimit := by rw [level.empty]; decide
    have calm : w.phase ≠ .recovering := by rw [level.phase]; decide
    have arrives := laterArrives start simple healthy sendable room further
    rw [List.map_cons,deliver]
    rcases run : handleInbound c (item n) w with ⟨halt | ⟨⟩,v⟩
    · rw [run] at arrives
      rw [bindStops run]
      exact arrives
    · rw [run] at arrives
      rw [bindReturns run]
      have asks := aheadAsks simple.toSequenced further calm room run
      rw [gap] at asks
      have still : v.nextIn = b := arrives.2.trans gap
      have waits : v.phase = .recovering := by
        rw [aheadRun simple.toSequenced further room,if_neg calm] at run
        obtain ⟨⟨⟩,x,-,run⟩ := bindReturned run
        cases run
        rfl
      have bounded : ((n :: rest).filter fun k => decide (b < k)).length ≤ gapBufferLimit :=
        (List.length_filter_le _ _).trans few
      obtain ⟨x,delivered,trace,here,awaiting⟩ := aheadDelivers spoken healthy sendable bounded rest
        (fun k mem => ahead k (List.mem_cons_of_mem _ mem)) (fun k mem => by simpa [or_comm] using mem)
        (List.perm_append_singleton n rest |>.nodup_iff.mpr once) waits still arrives.1
      obtain ⟨header,wire,tags,encodes,asked⟩ := asks
      rw [delivered]
      exact ⟨⟨header,wire,tags,encodes,by rw [trace,asked]⟩,here,by simpa using awaiting⟩

theorem gapAheadMem (loss : Loss b last lost) : n ∈ gapAhead b last lost ↔ b < n ∧ n ≤ last ∧ n ∉ lost := by
  have inner := loss.inner b loss.first
  rw [gapAhead,List.mem_filter,List.mem_range'_1,decide_eq_true_eq]
  constructor
  · rintro ⟨⟨first,stop⟩,through⟩
    exact ⟨first,by omega,through⟩
  · rintro ⟨first,stop,through⟩
    exact ⟨⟨first,by omega⟩,through⟩

theorem survivorsSplit (loss : Loss b last lost) : survivors last log lost = (log 1).wire ::
    ((List.range' 2 (b - 2)).map (fun n => (log n).wire) ++ (gapAhead b last lost).map fun n => (log n).wire) := by
  obtain ⟨above,below⟩ := loss.inner b loss.first
  have parts : last = b - 2 + (last - b + 1) + 1 := by omega
  have turn : 2 + (b - 2) = b := by omega
  have whole : List.range' 1 last = 1 :: (List.range' 2 (b - 2) ++ b :: List.range' (b + 1) (last - b)) := by
    conv_lhs => rw [parts]
    rw [List.range'_succ,← List.range'_append_1,turn,List.range'_succ]
  have logon : 1 ∉ lost := fun mem => absurd (loss.least 1 mem) (by omega)
  have early : (List.range' 2 (b - 2)).filter (fun n => decide (n ∉ lost)) = List.range' 2 (b - 2) := by
    refine List.filter_eq_self.mpr fun n mem => ?_
    have bound := List.mem_range'_1.mp mem
    exact decide_eq_true fun inside => absurd (loss.least n inside) (by omega)
  rw [survivors,whole,List.filter_cons_of_pos (by simpa using logon),List.filter_append,early,
    List.filter_cons_of_neg (by simpa using loss.first),List.map_cons,List.map_append]
  rfl

section

variable (peer : PeerLog c p u last log) (small : last + 1 < u64Limit)
  (accepted : validateCustomLogonFields c.logonFields [] = .ok ()) (loss : Loss b last lost)
  (clear : ∀ n, 1 ≤ n → n ≤ last → n ∉ lost → Clear c (log n).body)
include peer small accepted loss clear

theorem earlySpoken : Spoken c True (fun n => (log n).wire) (List.range' 2 (b - 2)) := by
  obtain ⟨above,below⟩ := loss.inner b loss.first
  intro n mem
  have bound := List.mem_range'_1.mp mem
  have there : n ∉ lost := fun inside => absurd (loss.least n inside) (by omega)
  obtain ⟨message,response,simple⟩ :=
    peer.simple small accepted (by omega) (by omega) (clear n (by omega) (by omega) there)
  exact ⟨message,response,simple,fun _ => trivial⟩

theorem aheadSpoken : Spoken c True (fun n => (log n).wire) (gapAhead b last lost) := by
  obtain ⟨above,below⟩ := loss.inner b loss.first
  intro n mem
  obtain ⟨behind,within,there⟩ := (gapAheadMem loss).mp mem
  obtain ⟨message,response,simple⟩ := peer.simple small accepted (by omega) within (clear n (by omega) within there)
  exact ⟨message,response,simple,fun _ => trivial⟩

theorem earlyDelivered (attached : Attached c w) (phase : w.phase = .logonSent) (empty : w.gapBuffer = ∅)
    (positive : 1 ≤ w.nextIn) (healthy : Healthy c w.tick) :
    match deliver c ((log 1).wire :: (List.range' 2 (b - 2)).map fun n => (log n).wire) w with
    | (.ok _, v) => InOrderTo w b v ∧ resendRequests v.trace = resendRequests w.trace
    | (.error _, v) => Refused w v := by
  obtain ⟨above,below⟩ := loss.inner b loss.first
  have there : 1 ∉ lost := fun mem => absurd (loss.least 1 mem) (by omega)
  have turn : 2 + (b - 2) = b := by omega
  obtain ⟨message,sequenced,original,checks⟩ :=
    peer.logonRead small accepted (by omega) (clear 1 (Nat.le_refl 1) (by omega) there)
  obtain ⟨x,heard,level⟩ := logonHeard attached phase empty positive healthy sequenced original checks
  have silent := levelAsks sequenced (Nat.not_lt.mpr positive)
  have inTurn := levelDelivers level (earlySpoken peer small accepted loss clear) healthy attached.sendable
  rw [heard] at silent
  rw [deliver,bindReturns heard]
  rcases run : deliver c ((List.range' 2 (b - 2)).map fun n => (log n).wire) x with ⟨halt | ⟨⟩,y⟩
  · rw [run] at inTurn
    exact inTurn
  · rw [run,turn] at inTurn
    exact ⟨inTurn.1,inTurn.2.trans silent⟩

theorem survivorsDelivered (attached : Attached c w) (phase : w.phase = .logonSent) (empty : w.gapBuffer = ∅)
    (positive : 1 ≤ w.nextIn) (healthy : Healthy c w.tick) (few : (gapAhead b last lost).length ≤ gapBufferLimit) :
    match deliver c (survivors last log lost) w with
    | (.ok _, v) => AsksFrom c b w v ∧ ∃ base, Onward w base ∧
        Refilling c base (fun n => (log n).wire) (gapAhead b last lost).reverse b v
    | (.error _, v) => Refused w v := by
  obtain ⟨above,below⟩ := loss.inner b loss.first
  have early := earlyDelivered peer small accepted loss clear attached phase empty positive healthy
  rw [survivorsSplit loss,← List.cons_append,deliverAppend]
  rcases run : deliver c ((log 1).wire :: (List.range' 2 (b - 2)).map fun n => (log n).wire) w with ⟨halt | ⟨⟩,y⟩
  · rw [run] at early
    rw [bindStops run]
    exact early
  rw [run] at early
  rw [bindReturns run]
  obtain ⟨reached,silent⟩ := early
  have some : gapAhead b last lost ≠ [] := by
    intro none
    have there := (gapAheadMem loss).mpr ⟨below,Nat.le_refl last,fun mem => absurd (loss.inner last mem).2 (by omega)⟩
    rw [none] at there
    cases there
  have opens := gapOpens (aheadSpoken peer small accepted loss clear) reached (healthy.later reached.onward.later)
    attached.sendable some (fun n mem => ((gapAheadMem loss).mp mem).1)
    (List.filter_sublist.nodup List.nodup_range') few
  rcases rest : deliver c ((gapAhead b last lost).map fun n => (log n).wire) y with ⟨halt | ⟨⟩,v⟩
  · rw [rest] at opens
    exact reached.onward.refused opens
  · rw [rest] at opens
    obtain ⟨⟨header,wire,tags,encodes,asked⟩,gap,awaiting⟩ := opens
    have refilling := awaiting.refilling
    rw [gap] at refilling
    exact ⟨⟨header,wire,tags,encodes,by rw [asked,silent]⟩,y,reached.onward,refilling⟩

end

end
end FixCli.Session
