import FixCli.ExchangeRuns

/-! The orders that an actor has journaled and the reports of the mock on them. -/
namespace FixCli.Exchange
open Lib Codec Store Session Mock

def orderIds (j : Journal) : List Bytes := (sentWires j).filterMap (messageId orderTypes)

def confirmedIds (j : Journal) : List Bytes := (takenWires j).filterMap (messageId reportTypes)

def handledIds (p : Pair) (handled : Nat) : List Bytes := (p.sent.take handled).filterMap (messageId orderTypes)

def reportedIds (p : Pair) : List Bytes := p.answers.filterMap (messageId reportTypes)

structure Booked (c : Ctx) (p : Pair) : Prop where
  sent : sentWires p.conn.world.journal = p.sent
  taken : takenWires p.conn.world.journal = p.answers.take (p.conn.world.nextIn - 1)
  closing : Farewell p.conn.world.phase →
    ∃ rest last, p.sent = rest ++ [last] ∧ Consecutive (Asking (mirror c) False) 1 rest
  going : p.mock.ended = none → reportedIds p = handledIds p (p.mock.state.nextIn - 1)
  gone : p.mock.ended = some .returned → reportedIds p = handledIds p p.sent.length
  drained : p.conn.live = false → p.conn.world.nextIn = p.answers.length + 1

section

variable {c : Ctx} {env : MockEnv} {content : Bytes → Bytes} {p q : Pair} {v : World} {frames rest : List Bytes}

theorem Booked.same (booked : Booked c p) (conn : q.conn = p.conn)
    (written : q.mock.state.written = p.mock.state.written)
    (nextIn : q.mock.state.nextIn = p.mock.state.nextIn) (ended : q.mock.ended = p.mock.ended) : Booked c q := by
  have sent : q.sent = p.sent := by rw [Pair.sent,conn]; rfl
  have answers : q.answers = p.answers := by rw [Pair.answers,written]; rfl
  refine ⟨?_,?_,?_,?_,?_,?_⟩
  · rw [conn,sent]
    exact booked.sent
  · rw [conn,answers]
    exact booked.taken
  · rw [conn,sent]
    exact booked.closing
  · rw [ended,reportedIds,handledIds,answers,sent,nextIn]
    exact booked.going
  · rw [ended,reportedIds,handledIds,answers,sent]
    exact booked.gone
  · rw [conn,answers]
    exact booked.drained

theorem Talking.asksMore (talking : Talking c content p) (open' : ¬ Farewell p.conn.world.phase) :
    Consecutive (Asking (mirror c) False) 1 p.sent := by
  refine talking.asks.weaken fun n wire asking => ?_
  obtain ⟨msgType,body,letter,known⟩ := asking
  exact ⟨msgType,body,letter,known.imp_right fun closes => absurd closes.2 open'⟩

theorem Booked.turns (booked : Booked c p) (talking : Talking c content p) (stage : Serving c p ∨ Leaving c p)
    (turn : Turn c content p.conn.world frames v) (next : List Bytes)
    (found : ∀ taken, p.conn.world.nextIn = taken + 1 →
      p.answers.take taken ++ frames = p.answers.take (taken + frames.length)) :
    Booked c {p with conn := ⟨v,true⟩, pending := next} := by
  obtain ⟨taken,number,reaching⟩ := talking.reading
  obtain ⟨new,trace,-,-,-,journaled,parts⟩ := turn.trace
  have sent : ({p with conn := ⟨v,true⟩, pending := next} : Pair).sent =
      p.sent ++ (new.filterMap handedWire).reverse := by
    simp only [Pair.sent,trace,List.filterMap_append,List.reverse_append]
  have handled (n : Nat) (bound : n ≤ p.sent.length) :
      handledIds {p with conn := ⟨v,true⟩, pending := next} n = handledIds p n := by
    rw [handledIds,sent,List.take_append_of_le_length bound]
    rfl
  refine ⟨?_,?_,fun farewell => ?_,fun going => ?_,fun gone => ?_,(fun bad => by cases bad)⟩
  · rw [sent,← booked.sent]
    exact journaled
  · have heard : v.nextIn = p.conn.world.nextIn + frames.length := turn.heard
    have positive : 0 < p.conn.world.journal.nextIn := by
      have counted := talking.solid.nextIn
      omega
    change takenWires v.journal = p.answers.take (v.nextIn - 1)
    rw [turn.taken positive,booked.taken,heard,number,Nat.add_sub_cancel,found taken number]
    congr 1
    omega
  · rw [sent]
    rcases parts.2 farewell with before | ⟨wire,spoken⟩
    · rw [parts.1 before,List.reverse_nil,List.append_nil]
      exact booked.closing before
    · by_cases before : Farewell p.conn.world.phase
      · have silent := parts.1 before
        rw [spoken] at silent
        cases silent
      · exact ⟨p.sent,wire,by rw [spoken]; rfl,talking.asksMore before⟩
  · rcases stage with serving | leaving
    · obtain ⟨heard,count,hearing⟩ := serving.hearing
      change reportedIds p = handledIds _ (p.mock.state.nextIn - 1)
      rw [handled _ (by have := hearing.bound; omega)]
      exact booked.going going
    · have ended := leaving.ended
      change p.mock.ended = none at going
      rw [going] at ended
      cases ended
  · have ended : p.mock.ended = some .returned := gone
    have leaving : Leaving c p := by
      rcases stage with serving | leaving
      · have going := serving.going
        rw [ended] at going
        cases going
      · exact leaving
    rw [sent,parts.1 leaving.farewell,List.reverse_nil,List.append_nil,handled _ (Nat.le_refl _)]
    exact booked.gone ended

theorem Booked.speaks (booked : Booked c p) (talking : Talking c content p) (stage : Serving c p ∨ Leaving c p)
    (turn : Turn c content p.conn.world [] v) : Booked c {p with conn := ⟨v,true⟩} :=
  booked.turns talking stage turn p.pending fun _ _ => by simp

theorem Booked.hears (booked : Booked c p) (peers : Peers c env) (small : Small c p) (talking : Talking c content p)
    (stage : Serving c p ∨ Leaving c p) {frame : Bytes} (pending : p.pending = frame :: rest) :
    Booked c {p with conn := step c p.conn (.frame frame), pending := rest} := by
  obtain ⟨taken,number,reaching⟩ := talking.reading
  rw [pending] at reaching
  obtain ⟨found,-⟩ := reaching.next
  obtain ⟨v,run,turn,-⟩ := hearsTurn peers small talking stage number found
  rw [run]
  refine booked.turns talking stage turn rest fun n same => ?_
  have here : n = taken := by omega
  rw [here,List.length_singleton,List.take_add_one,found]
  rfl

theorem Booked.reads (booked : Booked c p) (small : Small c p) (talking : Talking c content p)
    (stage : Serving c p ∨ Leaving c p) (more : Nat) : Booked c (actorReads c p more) := by
  unfold actorReads
  split
  · exact booked
  rename_i idle
  rw [not_or,not_not] at idle
  obtain ⟨taken,number,reaching⟩ := talking.reading
  rw [idle.1] at reaching
  split
  · rename_i nothing
    split
    · rename_i hung
      have leaving : Leaving c p := by
        rcases stage with serving | leaving
        · rw [serving.going] at hung
          cases hung
        · exact leaving
      have ends : taken = p.answers.length := by
        refine reaching.ends (small.answersCuttable stage) ?_
        have empty := List.take_eq_nil_iff.mp nothing
        refine empty.resolve_left ?_
        simp only [readLimit]
        omega
      have run : step c p.conn .endOfStream = leave (hangUp p.conn.world) := by
        simp only [step,talking.live,if_true,react]
      have sent : ({p with conn := leave (hangUp p.conn.world)} : Pair).sent = p.sent := by
        simp only [Pair.sent,leave,hangUp,List.filterMap_cons,handedWire]
      have all (n : Nat) : handledIds {p with conn := leave (hangUp p.conn.world)} n = handledIds p n := by
        rw [handledIds,sent]
        rfl
      rw [run]
      refine ⟨?_,booked.taken,fun _ => ?_,fun going => ?_,fun gone => ?_,fun _ => ?_⟩
      · rw [sent]
        exact booked.sent
      · rw [sent]
        exact booked.closing leaving.farewell
      · rw [all]
        exact booked.going going
      · rw [all,sent]
        exact booked.gone gone
      · change p.conn.world.nextIn = p.answers.length + 1
        rw [number,ends]
    · exact booked
  · obtain ⟨frames,after,run,-⟩ := reaching.reads (small.answersCuttable stage)
      (List.take_append_drop (min (more + 1) readLimit) p.toActor).symm
    change ingest p.decoder (arrived more p.toActor) = _ at run
    rw [run]
    exact booked.same rfl rfl rfl rfl

theorem Booked.serves (frames : List Bytes) (booked : Booked c p) (talking : Talking c content p)
    (serving : Serving c p) {t : MockState} {outcome : Except Ending Unit} {handled : Nat} (number : p.mock.state.nextIn = handled + 1)
    (next : p.sent.take handled ++ frames = p.sent.take (handled + frames.length))
    (goes : Goes (mirror c) (handled + frames.length = p.sent.length) p.mock.state frames.length (outcome,t))
    (confirms : Confirms p.mock.state frames t)
    (small : Small c {p with mock := mockSettle (outcome.map fun _ => rest,t)}) :
    Booked c {p with mock := mockSettle (outcome.map fun _ => rest,t)} := by
  set after : Pair := {p with mock := mockSettle (outcome.map fun _ => rest,t)} with same
  have state : after.mock.state = t := settleState _
  obtain ⟨new,written,reports⟩ := confirms fun wire mem => heldFits small wire (state.symm ▸ mem)
  have answers : after.answers = p.answers ++ new.reverse := by
    rw [Pair.answers,state,written,List.reverse_append]
    rfl
  have confirmed : reportedIds after = handledIds p (handled + frames.length) := by
    have before := booked.going serving.going
    rw [number,Nat.add_sub_cancel] at before
    rw [reportedIds,answers,List.filterMap_append,reports,handledIds,← next,List.filterMap_append]
    exact congrArg (· ++ _) before
  have keeps (n : Nat) : handledIds after n = handledIds p n := rfl
  refine ⟨booked.sent,?_,booked.closing,fun going => ?_,fun gone => ?_,fun bad => ?_⟩
  · obtain ⟨taken,count,reaching⟩ := talking.reading
    change takenWires p.conn.world.journal = after.answers.take (p.conn.world.nextIn - 1)
    rw [answers,List.take_append_of_le_length (by have := reaching.bound; omega)]
    exact booked.taken
  · rw [confirmed,keeps,state]
    cases outcome with
    | error ending => cases going
    | ok done =>
      have moved : t.nextIn = p.mock.state.nextIn + frames.length := goes.nextIn
      congr 1
      omega
  · rw [confirmed,keeps]
    cases outcome with
    | ok done => cases gone
    | error ending =>
      rcases goes with full | ⟨-,last,-⟩
      · have room := small.answers
        rw [Pair.answers,List.length_reverse,state] at room
        exact absurd room (Nat.not_lt.mpr full)
      · rw [last]
        rfl
  · have live := talking.live
    change p.conn.live = false at bad
    rw [live] at bad
    cases bad

theorem Booked.asks (booked : Booked c p) (talking : Talking c content p) {heard : Nat} {frame : Bytes}
    (found : p.sent[heard]? = some frame) : Asking (mirror c) (heard + 1 = p.sent.length) (1 + heard) frame := by
  by_cases farewell : Farewell p.conn.world.phase
  · obtain ⟨rest,last,sent,asks⟩ := booked.closing farewell
    have size : p.sent.length = rest.length + 1 := by rw [sent]; simp
    by_cases early : heard < rest.length
    · rw [sent,List.getElem?_append_left early] at found
      obtain ⟨msgType,body,letter,known⟩ := asks heard frame found
      exact ⟨msgType,body,letter,known.imp_right fun closes => closes.2.elim⟩
    · obtain ⟨msgType,body,letter,known⟩ := talking.asks heard frame found
      have bound := (List.getElem?_eq_some_iff.mp found).1
      exact ⟨msgType,body,letter,known.imp_right fun closes => ⟨closes.1,by omega⟩⟩
  · obtain ⟨msgType,body,letter,known⟩ := talking.asksMore farewell heard frame found
    exact ⟨msgType,body,letter,known.imp_right fun closes => closes.2.elim⟩

theorem Booked.mockHandles (booked : Booked c p) (peers : Peers c env) (talking : Talking c content p)
    (serving : Serving c p) (before : Small c p)
    (small : Small c {p with mock := mockStep (mirror c) env p.mock .handle}) :
    Booked c {p with mock := mockStep (mirror c) env p.mock .handle} := by
  cases pending : p.mock.pending with
  | nil =>
    rw [handlesNothing serving pending]
    exact booked
  | cons frame rest =>
    obtain ⟨heard,outcome,t,same,-,number,found,-,goes⟩ := handlesTurn peers serving before pending
    obtain ⟨goes,confirms⟩ := goes _ (booked.asks talking found)
    rw [same] at small ⊢
    refine Booked.serves [frame] booked talking serving number ?_ goes confirms small
    rw [List.length_singleton,List.take_add_one,found]
    rfl

theorem Booked.mockTimes (booked : Booked c p) (peers : Peers c env) (talking : Talking c content p)
    (serving : Serving c p) (small : Small c {p with mock := mockStep (mirror c) env p.mock .timer}) :
    Booked c {p with mock := mockStep (mirror c) env p.mock .timer} := by
  obtain ⟨heard,number,-⟩ := serving.hearing
  rcases timerTurn peers serving with same | ⟨-,outcome,t,same,-,goes,confirms⟩
  · rw [same]
    exact booked
  · rw [same] at small ⊢
    exact Booked.serves [] booked talking serving number (by simp) (goes _) confirms small

theorem Booked.mockReads (booked : Booked c p) (talking : Talking c content p) (serving : Serving c p)
    (small : Small c p) (more : Nat) : Booked c (mockReads c env p more) := by
  rcases readsTurn env talking serving small more with same | ⟨frames,after,same,-⟩
  · rw [same]
    exact booked
  · rw [same]
    exact booked.same rfl rfl rfl serving.going.symm

theorem Booked.finished (booked : Booked c p) (finished : Over p) (choice : Choice) :
    Booked c (turn c env p choice) := by
  have still (input : Input) : step c p.conn input = p.conn := by
    simp only [step,finished.live,Bool.false_eq_true,if_false]
  cases choice with
  | command command =>
    simp only [turn,still,ite_self]
    exact booked
  | timer =>
    simp only [turn,still,ite_self]
    exact booked
  | reads more =>
    dsimp only [turn]
    unfold actorReads
    rw [if_pos (.inr finished.live)]
    exact booked
  | handles =>
    dsimp only [turn]
    split
    · rw [still]
      exact booked.same rfl rfl rfl rfl
    · exact booked
  | mockReads more =>
    dsimp only [turn]
    rw [mockReadsEnded finished.ended]
    exact booked
  | mockHandles =>
    dsimp only [turn]
    rw [mockStepEnded finished.ended]
    exact booked
  | mockTimer =>
    dsimp only [turn]
    rw [mockStepEnded finished.ended]
    exact booked

theorem Booked.turned (booked : Booked c p) (peers : Peers c env) {choice : Choice}
    (proper : Proper c content p choice)
    (small : Small c (turn c env p choice)) (together : Together c content p) : Booked c (turn c env p choice) := by
  have before : Small c p := small.before (turnGrows p choice)
  rcases together.stages with finished | ⟨talking,stage⟩
  · exact booked.finished finished choice
  cases choice with
  | command command =>
    dsimp only [turn]
    split
    · obtain ⟨v,run,-,turns⟩ := commandTurns peers.reliable talking.solid proper
      have acts : step c p.conn (.command command) = ⟨v,true⟩ := by
        simp only [step,talking.live,if_true,react,run,settle]
      rw [acts]
      exact booked.speaks talking stage turns
    · exact booked
  | timer =>
    dsimp only [turn]
    split
    · obtain ⟨v,run,-,turns⟩ := timerTurns peers.reliable talking.solid proper
      rw [stepTimer talking.live run]
      exact booked.speaks talking stage turns
    · exact booked
  | reads more =>
    dsimp only [turn]
    exact booked.reads before talking stage more
  | handles =>
    dsimp only [turn]
    split
    · rename_i frame rest pending
      exact booked.hears peers before talking stage pending
    · exact booked
  | mockReads more =>
    dsimp only [turn]
    rcases stage with serving | leaving
    · exact booked.mockReads talking serving before more
    · rw [mockReadsEnded leaving.ended]
      exact booked
  | mockHandles =>
    rcases stage with serving | leaving
    · exact booked.mockHandles peers talking serving before small
    · dsimp only [turn]
      rw [mockStepEnded leaving.ended]
      exact booked
  | mockTimer =>
    rcases stage with serving | leaving
    · exact booked.mockTimes peers talking serving small
    · dsimp only [turn]
      rw [mockStepEnded leaving.ended]
      exact booked

theorem Booked.started (peers : Peers c env) (tick : Nat) : Booked c (start c env tick) := by
  obtain ⟨wire,v,body,run,speaks,letter⟩ := logonSpeaks (fun id => id) peers.reliable peers.noFields tick
  have spawned : spawn c ⟨.empty,[],tick⟩ = ⟨logonSentAt v,true⟩ := by
    simp only [spawn,peers.reliable.store,run,settle]
  obtain ⟨new,trace,wires,-⟩ := speaks.trace
  have whole : v.trace = new := by rw [trace]; exact List.append_nil new
  have world : (start c env tick).conn = ⟨logonSentAt v,true⟩ := spawned
  have sent : (start c env tick).sent = [wire] := by
    simp only [Pair.sent,world,logonSentAt,whole,List.filterMap_cons,handedWire,wires,List.reverse_singleton]
  refine ⟨?_,?_,fun farewell => ?_,fun _ => rfl,(fun bad => by cases bad),fun bad => ?_⟩
  · rw [sent,world]
    exact speaks.sent
  · rw [world]
    have nothing : takenWires (entering c ⟨.empty,[],tick⟩).journal = [] := Table.belowEmpty _ _
    exact (speaks.taken.trans nothing).trans List.take_nil.symm
  · rw [world] at farewell
    simp [Farewell,logonSentAt] at farewell
  · rw [world] at bad
    cases bad

theorem Booked.run (peers : Peers c env) {choices : List Choice} (booked : Booked c p)
    (together : Together c content p)
    (proper : Along (turn c env) (Proper c content) p choices) (small : Small c (choices.foldl (turn c env) p)) :
    Booked c (choices.foldl (turn c env) p) := by
  induction choices generalizing p with
  | nil => exact booked
  | cons choice rest ih =>
    have first : Small c (turn c env p choice) := small.before (exchangeGrows (turn c env p choice) rest)
    exact ih (booked.turned peers proper.1 first together) (together.turned peers proper.1 first) proper.2 small

theorem Booked.confirms (booked : Booked c p) (together : Together c content p) :
    confirmedIds p.conn.world.journal <+: orderIds p.conn.world.journal := by
  have handled (n : Nat) : handledIds p n <+: orderIds p.conn.world.journal := by
    rw [orderIds,booked.sent]
    exact (List.take_prefix n p.sent).filterMap _
  have reports : reportedIds p <+: orderIds p.conn.world.journal := by
    cases together with
    | serving talking serving =>
      rw [booked.going serving.going]
      exact handled _
    | leaving talking leaving =>
      rw [booked.gone leaving.ended]
      exact handled _
    | finished finished =>
      rw [booked.gone finished.ended]
      exact handled _
  refine List.IsPrefix.trans ?_ reports
  rw [confirmedIds,booked.taken]
  exact (List.take_prefix _ p.answers).filterMap _

theorem Booked.whole (booked : Booked c p) (together : Together c content p) (small : Small c p)
    (quiet : p.conn.live = false ∨ p.owedToMock = 0 ∧ p.owedToActor = 0) :
    confirmedIds p.conn.world.journal = orderIds p.conn.world.journal := by
  have inStep := together.inStep small
  have all (handled : handledIds p p.sent.length = reportedIds p)
      (taken : p.conn.world.nextIn = p.answers.length + 1) :
      confirmedIds p.conn.world.journal = orderIds p.conn.world.journal := by
    rw [confirmedIds,booked.taken,taken,Nat.add_sub_cancel,List.take_length,orderIds,booked.sent]
    rw [handledIds,List.take_length] at handled
    exact handled.symm
  have drained (talking : Talking c content p) (stage : Serving c p ∨ Leaving c p) (nothing : p.owedToActor = 0) :
      p.conn.world.nextIn = p.answers.length + 1 := by
    obtain ⟨taken,number,reaching⟩ := talking.reading
    have count := reaching.count (small.answersCuttable stage)
    change taken + p.owedToActor = p.answers.length at count
    omega
  cases together with
  | serving talking serving =>
    have both := quiet.resolve_left (by simp [talking.live])
    refine all ?_ (drained talking (.inl serving) both.2)
    have outbound := inStep.outbound serving.going
    have counted := talking.counted
    rw [booked.going serving.going]
    congr 1
    omega
  | leaving talking leaving =>
    have both := quiet.resolve_left (by simp [talking.live])
    exact all (booked.gone leaving.ended).symm (drained talking (.inr leaving) both.2)
  | finished finished => exact all (booked.gone finished.ended).symm (booked.drained finished.live)

/-- The journal's reports are those on the orders it holds as sent, one for each and in
their order: the first of them at any point, all of them once nothing is on its way or
the session is over. -/
theorem ordersConfirmed (content : Bytes → Bytes) (peers : Peers c env) (tick : Nat) (choices : List Choice)
    (proper : Along (turn c env) (Proper c content) (start c env tick) choices)
    (small : Small c (exchange c env tick choices)) :
    confirmedIds (exchange c env tick choices).conn.world.journal <+:
        orderIds (exchange c env tick choices).conn.world.journal ∧
      ((exchange c env tick choices).conn.live = false ∨
          (exchange c env tick choices).owedToMock = 0 ∧ (exchange c env tick choices).owedToActor = 0 →
        confirmedIds (exchange c env tick choices).conn.world.journal =
          orderIds (exchange c env tick choices).conn.world.journal) := by
  have together : Together c content (exchange c env tick choices) :=
    Together.run peers (.started content peers tick) proper small
  have booked : Booked c (exchange c env tick choices) :=
    Booked.run peers (.started peers tick) (.started content peers tick) proper small
  exact ⟨booked.confirms together,booked.whole together small⟩

end

theorem ordersConfirmedAllDay : (exchange venueCtx venueMock 0 tradingDay).conn.live = false ∧
    orderIds (exchange venueCtx venueMock 0 tradingDay).conn.world.journal =
      [(Control.applicationOf (Control.venueOrder "order-1")).clOrdId] ∧
    confirmedIds (exchange venueCtx venueMock 0 tradingDay).conn.world.journal =
      orderIds (exchange venueCtx venueMock 0 tradingDay).conn.world.journal := by
  have ended : (exchange venueCtx venueMock 0 tradingDay).conn.live = false := by decide +kernel
  exact ⟨ended,by decide +kernel,
    (ordersConfirmed dayContent venuePeers 0 tradingDay dayProper daySmall).2 (.inl ended)⟩

end FixCli.Exchange
