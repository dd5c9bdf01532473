import FixCli.Exchange
import FixCli.PlannedAccepted
import FixCli.PlannedFields

/-! The two parties stay in step: what one has written and the other has not handled is
on its way, in order, until the mock answers a Logout. -/
namespace FixCli.Exchange
open Lib Codec Store Session Mock

structure Small (c : Ctx) (p : Pair) : Prop where
  frames : ∀ wire ∈ p.sent ++ p.answers, Takeable c.config.beginString wire
  sent : p.sent.length + 1 < u64Limit
  answers : p.answers.length + 1 < u64Limit

def Proper (c : Ctx) (content : Bytes → Bytes) (p : Pair) : Choice → Prop
  | .command command => Suits content command
  | .timer => ¬ Expires c p.conn.world
  | _ => True

structure Talking (c : Ctx) (content : Bytes → Bytes) (p : Pair) : Prop where
  live : p.conn.live = true
  solid : Solid content p.conn.world
  calmly : ∀ event ∈ p.conn.world.trace, calm event
  counted : p.conn.world.nextOut = p.sent.length + 1
  asks : Consecutive (Asking (mirror c) (Farewell p.conn.world.phase)) 1 p.sent
  phase : p.conn.world.phase ≠ .recovering
  reading : ∃ taken, p.conn.world.nextIn = taken + 1 ∧ Reaching p.answers p.read p.decoder p.pending taken

structure Serving (c : Ctx) (p : Pair) : Prop where
  going : p.mock.ended = none
  counted : Counted (mirror c) p.mock.state
  connected : p.conn.world.phase ≠ .disconnected
  hearing : ∃ taken, p.mock.state.nextIn = taken + 1 ∧
    Reaching p.sent p.heard p.mock.state.decoder p.mock.pending taken

structure Leaving (c : Ctx) (p : Pair) : Prop where
  ended : p.mock.ended = some .returned
  parted : Parted (mirror c) p.mock.state
  farewell : Farewell p.conn.world.phase
  last : p.conn.world.phase = .disconnected ↔ p.conn.world.nextIn = p.answers.length + 1

structure Over (p : Pair) : Prop where
  live : p.conn.live = false
  ended : p.mock.ended = some .returned
  phase : p.conn.world.phase = .disconnected
  calmly : ∀ event ∈ p.conn.world.trace, calm event

inductive Together (c : Ctx) (content : Bytes → Bytes) (p : Pair) : Prop
  | serving (talking : Talking c content p) (serving : Serving c p)
  | leaving (talking : Talking c content p) (leaving : Leaving c p)
  | finished (finished : Over p)

section

variable {c : Ctx} {env : MockEnv} {content : Bytes → Bytes} {p : Pair} {v : World} {taken : Nat}
  {frames : List Bytes} {closing : Prop}

theorem Small.before {q : Pair} (small : Small c q) (grows : p.sent <+: q.sent ∧ p.answers <+: q.answers) :
    Small c p := by
  refine ⟨fun wire mem => small.frames wire ?_,?_,?_⟩
  · exact (List.mem_append.mp mem).elim (fun here => List.mem_append_left _ (grows.1.subset here))
      fun here => List.mem_append_right _ (grows.2.subset here)
  · exact Nat.lt_of_le_of_lt (Nat.succ_le_succ grows.1.length_le) small.sent
  · exact Nat.lt_of_le_of_lt (Nat.succ_le_succ grows.2.length_le) small.answers

theorem Small.sentCuttable (small : Small c p) (asks : Consecutive (Asking (mirror c) closing) 1 p.sent) :
    Cuttable p.sent := by
  intro wire mem
  have takeable := small.frames wire (List.mem_append_left _ mem)
  obtain ⟨_,_,_,letter,-⟩ := asks.each mem
  obtain ⟨_,-,encodes⟩ := letter.encodes
  exact ⟨takeable.taken encodes,takeable.whole⟩

theorem answerAt (stage : Serving c p ∨ Leaving c p) {wire : Bytes} (found : p.answers[taken]? = some wire) :
    Answering (mirror c) (taken + 1) wire ∧ (Leaving c p → taken + 1 < p.answers.length) ∨
      Leaving c p ∧ taken + 1 = p.answers.length ∧ Parting (mirror c) (taken + 1) wire := by
  rcases stage with serving | leaving
  · refine .inl ⟨?_,fun leaving => ?_⟩
    · have answers := serving.counted.answers taken wire found
      rwa [Nat.add_comm] at answers
    · have ended := leaving.ended
      rw [serving.going] at ended
      cases ended
  · obtain ⟨last,rest,written,answers,parting⟩ := leaving.parted
    have whole : p.answers = rest.reverse ++ [last] := by
      rw [Pair.answers,written,List.reverse_cons]
    have size : p.answers.length = rest.length + 1 := by rw [whole]; simp
    rw [whole] at found
    by_cases early : taken < rest.length
    · rw [List.getElem?_append_left (by simpa using early)] at found
      have answering := answers taken wire found
      rw [Nat.add_comm] at answering
      exact .inl ⟨answering,fun _ => by omega⟩
    · have bound := (List.getElem?_eq_some_iff.mp found).1
      rw [List.length_append,List.length_reverse,List.length_singleton] at bound
      have here : taken = rest.length := by omega
      rw [List.getElem?_append_right (by simp [here]),here,List.length_reverse,Nat.sub_self] at found
      cases found
      exact .inr ⟨leaving,by omega,here ▸ parting⟩

theorem Small.answersCuttable (small : Small c p) (stage : Serving c p ∨ Leaving c p) : Cuttable p.answers := by
  intro wire mem
  have takeable := small.frames wire (List.mem_append_right _ mem)
  obtain ⟨taken,found⟩ := List.mem_iff_getElem?.mp mem
  refine ⟨?_,takeable.whole⟩
  rcases answerAt stage found with ⟨⟨_,_,letter,-⟩,-⟩ | ⟨-,-,letter⟩
  · obtain ⟨_,-,encodes⟩ := letter.encodes
    exact takeable.taken encodes
  · obtain ⟨_,-,encodes⟩ := letter.encodes
    exact takeable.taken encodes

theorem sentTurn (talking : Talking c content p) (turn : Turn c content p.conn.world frames v)
    (farewell : Farewell p.conn.world.phase → Farewell v.phase) (rest : List Bytes) :
    ∃ more, ({p with conn := ⟨v,true⟩, pending := rest} : Pair).sent = p.sent ++ more ∧
      v.nextOut = (p.sent ++ more).length + 1 ∧
      Consecutive (Asking (mirror c) (Farewell v.phase)) 1 (p.sent ++ more) ∧ ∀ event ∈ v.trace, calm event := by
  obtain ⟨new,trace,quiet,counted,asks,-⟩ := turn.trace
  refine ⟨(new.filterMap handedWire).reverse,?_,?_,?_,?_⟩
  · simp only [Pair.sent,trace,List.filterMap_append,List.reverse_append]
  · rw [counted,talking.counted,List.length_append,List.length_reverse]
    omega
  · refine Consecutive.append (talking.asks.weaken fun _ _ asking => ?_) ?_
    · obtain ⟨msgType,body,letter,known⟩ := asking
      exact ⟨msgType,body,letter,known.imp_right fun closes => ⟨closes.1,farewell closes.2⟩⟩
    · rw [Nat.add_comm,← talking.counted]
      exact asks
  · intro event mem
    rw [trace] at mem
    exact (List.mem_append.mp mem).elim (quiet event) (talking.calmly event)

theorem Talking.turns (talking : Talking c content p) (turn : Turn c content p.conn.world frames v)
    (farewell : Farewell p.conn.world.phase → Farewell v.phase) (phase : v.phase ≠ .recovering) {rest : List Bytes}
    (reading : ∃ taken, v.nextIn = taken + 1 ∧ Reaching p.answers p.read p.decoder rest taken) :
    Talking c content {p with conn := ⟨v,true⟩, pending := rest} := by
  obtain ⟨more,sent,counted,asks,quiet⟩ := sentTurn talking turn farewell rest
  exact ⟨rfl,turn.toSolid,quiet,by rw [sent]; exact counted,by rw [sent]; exact asks,phase,reading⟩

theorem Serving.turns (serving : Serving c p) (talking : Talking c content p)
    (turn : Turn c content p.conn.world frames v) (farewell : Farewell p.conn.world.phase → Farewell v.phase)
    (connected : v.phase ≠ .disconnected) (rest : List Bytes) :
    Serving c {p with conn := ⟨v,true⟩, pending := rest} := by
  obtain ⟨more,sent,-⟩ := sentTurn talking turn farewell rest
  obtain ⟨heard,number,reaching⟩ := serving.hearing
  exact ⟨serving.going,serving.counted,connected,heard,number,by rw [sent]; exact reaching.writes more⟩

theorem Together.turns (talking : Talking c content p) (stage : Serving c p ∨ Leaving c p)
    (turn : Turn c content p.conn.world [] v)
    (phase : v.phase = p.conn.world.phase ∨ mayLogout p.conn.world.phase = true ∧ v.phase = .logoutSent) :
    Together c content {p with conn := ⟨v,true⟩} := by
  have farewell : Farewell p.conn.world.phase → Farewell v.phase := by
    rcases phase with same | ⟨-,sent⟩
    · rw [same]
      exact id
    · exact fun _ => .inl sent
  have calm : v.phase ≠ .recovering := by
    rcases phase with same | ⟨-,sent⟩
    · rw [same]
      exact talking.phase
    · rw [sent]
      simp
  obtain ⟨heard,number,reaching⟩ := talking.reading
  have next : Talking c content {p with conn := ⟨v,true⟩} :=
    talking.turns turn farewell calm ⟨heard,turn.heard.trans number,reaching⟩
  rcases stage with serving | leaving
  · refine .serving next (serving.turns talking turn farewell ?_ p.pending)
    rcases phase with same | ⟨-,sent⟩
    · rw [same]
      exact serving.connected
    · rw [sent]
      simp
  · have same : v.phase = p.conn.world.phase := by
      refine phase.resolve_right fun sent => ?_
      have may := sent.1
      rcases leaving.farewell with sent | gone
      · rw [sent] at may
        cases may
      · rw [gone] at may
        cases may
    refine .leaving next ⟨leaving.ended,leaving.parted,farewell leaving.farewell,?_⟩
    change v.phase = .disconnected ↔ v.nextIn = p.answers.length + 1
    rw [same,turn.heard]
    exact leaving.last

structure Peers (c : Ctx) (env : MockEnv) : Prop where
  reliable : Reliable c
  noFields : c.logonFields = []
  interval : c.config.heartbeatIntervalSecs < u64Limit
  clock : ∀ tick, SOH ∉ env.sendingTime tick
  faultless : ∀ tick, env.ioFault tick = none

theorem Peers.sound (peers : Peers c env) : Sound (mirror c) env :=
  ⟨peers.reliable.sendable,⟨peers.reliable.target,peers.reliable.sender⟩,peers.clock,peers.faultless⟩

theorem stepFrame {frame : Bytes} (live : p.conn.live = true)
    (run : handleFrame c frame p.conn.world = (.ok (),v)) : step c p.conn (.frame frame) = ⟨v,true⟩ := by
  simp only [step,live,if_true,react,run,settle]

theorem stepTimer (live : p.conn.live = true) (run : heartbeatDue c p.conn.world = (.ok (),v)) :
    step c p.conn .timer = ⟨v,true⟩ := by
  have acts : step c p.conn .timer = react c p.conn.world .timer := if_pos live
  have settles : react c p.conn.world .timer = settle (heartbeatDue c p.conn.world) := by rw [react]
  rw [acts,settles,run,settle]

theorem hearsTurn (peers : Peers c env) (small : Small c p) (talking : Talking c content p)
    (stage : Serving c p ∨ Leaving c p) {frame : Bytes} (number : p.conn.world.nextIn = taken + 1)
    (found : p.answers[taken]? = some frame) : ∃ v, step c p.conn (.frame frame) = ⟨v,true⟩ ∧
      Turn c content p.conn.world [frame] v ∧ (Farewell p.conn.world.phase → Farewell v.phase) ∧ v.phase ≠ .recovering ∧
      (v.phase = .disconnected ↔ Leaving c p ∧ taken + 1 = p.answers.length) := by
  have bound : taken < p.answers.length := (List.getElem?_eq_some_iff.mp found).1
  have room := small.answers
  have below : p.conn.world.nextIn + 1 < u64Limit := by omega
  have fits := (small.frames frame (List.mem_append_right _ (List.mem_of_getElem? found))).room
  have attached : p.conn.world.phase ≠ .disconnected := by
    rcases stage with serving | leaving
    · exact serving.connected
    · intro gone
      have := leaving.last.mp gone
      omega
  rcases answerAt stage found with ⟨⟨msgType,body,letter,kind,free⟩,early⟩ | ⟨leaving,last,letter⟩
  · have replying : Replying c (p.conn.world.phase = .logoutSent) msgType body :=
      kind.imp_right fun other => other.imp_right .inl
    have other : msgType ≠ ascii "5" := by
      rcases kind with ⟨rfl,-⟩ | rfl | rfl <;> decide
    obtain ⟨v,run,behind,turn⟩ := frameTurns peers.reliable peers.noFields peers.interval talking.solid
      (number ▸ letter) fits free below replying talking.phase
    rw [phaseBehind,if_neg other] at behind
    have connected : v.phase ≠ .disconnected := by
      rcases behind with same | ⟨-,established⟩
      · rw [same]
        exact attached
      · rw [established]
        simp
    refine ⟨v,stepFrame talking.live run,turn,fun sent => ?_,?_,
      iff_of_false connected fun gone => Nat.ne_of_lt (early gone.1) gone.2⟩
    · rcases behind with same | ⟨logon,-⟩
      · rw [same]
        exact sent
      · rw [Farewell,logon] at sent
        simp at sent
    · rcases behind with same | ⟨-,established⟩
      · rw [same]
        exact talking.phase
      · rw [established]
        simp
  · have sent : p.conn.world.phase = .logoutSent := leaving.farewell.resolve_right attached
    obtain ⟨v,run,behind,turn⟩ := frameTurns peers.reliable peers.noFields peers.interval talking.solid
      (number ▸ letter) fits (by simp) below (.inr (.inr (.inr ⟨rfl,sent⟩))) talking.phase
    rw [phaseBehind,if_pos rfl] at behind
    exact ⟨v,stepFrame talking.live run,turn,fun _ => .inr behind,by rw [behind]; simp,iff_of_true behind ⟨leaving,last⟩⟩

theorem Together.hears (peers : Peers c env) (small : Small c p) (talking : Talking c content p)
    (stage : Serving c p ∨ Leaving c p) {frame : Bytes} {rest : List Bytes} (pending : p.pending = frame :: rest) :
    Together c content {p with conn := step c p.conn (.frame frame), pending := rest} := by
  obtain ⟨taken,number,reaching⟩ := talking.reading
  rw [pending] at reaching
  obtain ⟨found,onward⟩ := reaching.next
  obtain ⟨v,run,turn,farewell,calm,ends⟩ := hearsTurn peers small talking stage number found
  have heard : v.nextIn = p.conn.world.nextIn + 1 := turn.heard
  rw [run]
  have next := talking.turns turn farewell calm ⟨taken + 1,by rw [heard,number],onward⟩
  rcases stage with serving | leaving
  · refine .serving next (serving.turns talking turn farewell (fun gone => ?_) rest)
    have ended := (ends.mp gone).1.ended
    rw [serving.going] at ended
    cases ended
  · refine .leaving next ⟨leaving.ended,leaving.parted,farewell leaving.farewell,ends.trans ?_⟩
    change Leaving c p ∧ taken + 1 = p.answers.length ↔ v.nextIn = p.answers.length + 1
    rw [heard,number]
    exact ⟨fun gone => congrArg (· + 1) gone.2,fun last => ⟨leaving,Nat.succ_injective last⟩⟩

theorem Together.reads (small : Small c p) (talking : Talking c content p) (stage : Serving c p ∨ Leaving c p)
    (more : Nat) : Together c content (actorReads c p more) := by
  have here : Together c content p := stage.elim (.serving talking) (.leaving talking)
  unfold actorReads
  split
  · exact here
  rename_i idle
  rw [not_or,not_not] at idle
  split
  · split
    · rename_i hung
      have ended : p.mock.ended = some .returned := by
        rcases stage with serving | leaving
        · rw [serving.going] at hung
          cases hung
        · exact leaving.ended
      have run : step c p.conn .endOfStream = leave (hangUp p.conn.world) := by
        simp only [step,talking.live,if_true,react]
      rw [run]
      refine .finished ⟨rfl,ended,rfl,fun event mem => ?_⟩
      simp only [leave,hangUp,List.mem_cons] at mem
      rcases mem with rfl | rfl | rfl | mem
      · trivial
      · trivial
      · exact ⟨by simp,by simp⟩
      · exact talking.calmly event mem
    · exact here
  · obtain ⟨taken,number,reaching⟩ := talking.reading
    rw [idle.1] at reaching
    obtain ⟨frames,after,run,onward⟩ := reaching.reads (small.answersCuttable stage)
      (List.take_append_drop (min (more + 1) readLimit) p.toActor).symm
    change ingest p.decoder (arrived more p.toActor) = _ at run
    rw [run]
    have next : Talking c content ⟨p.conn,after,frames,p.read + (arrived more p.toActor).length,p.mock,p.heard⟩ :=
      ⟨talking.live,talking.solid,talking.calmly,talking.counted,talking.asks,talking.phase,taken,number,onward⟩
    rcases stage with serving | leaving
    · exact .serving next ⟨serving.going,serving.counted,serving.connected,serving.hearing⟩
    · exact .leaving next ⟨leaving.ended,leaving.parted,leaving.farewell,leaving.last⟩

theorem partsLonger (peers : Peers c env) {s t : MockState} (counted : Counted (mirror c) s) (longer : Longer s t)
    (parted : Parted (mirror c) t) (fits : ∀ wire ∈ t.written, wire.length < usizeLimit) :
    s.written.length < t.written.length := by
  obtain ⟨new,grown⟩ := longer
  cases new with
  | cons first new =>
    rw [grown]
    simp only [List.cons_append,List.length_cons,List.length_append]
    omega
  | nil =>
    obtain ⟨wire,rest,written,-,parting⟩ := parted
    have mem : wire ∈ t.written := written ▸ List.mem_cons_self
    obtain ⟨n,msgType,body,letter,kind,-⟩ := counted.answers.each (a := wire) (by
      rw [List.mem_reverse]
      rwa [grown,List.nil_append] at mem)
    obtain ⟨_,_,one,-⟩ := letter.parsed peers.sound.names (fits wire mem)
    obtain ⟨_,_,other,-⟩ := Letter.parsed parting peers.sound.names (fits wire mem)
    rw [one,Except.ok.injEq] at other
    have typed := letteredType.symm.trans ((congrArg (fun m => (m.values 35).head?) other).trans letteredType)
    cases typed
    rcases kind with ⟨bad,-⟩ | bad | bad <;> cases bad

theorem heldFits (small : Small c p) : ∀ wire ∈ p.mock.state.written, wire.length < usizeLimit := fun wire mem =>
  (small.frames wire (List.mem_append_right _ (List.mem_reverse.mpr mem))).room

theorem answersTurn {t : MockState} (longer : Longer p.mock.state t) :
    ∃ more, t.written.reverse = p.answers ++ more := by
  obtain ⟨new,grown⟩ := longer
  exact ⟨new.reverse,by rw [grown,List.reverse_append]; rfl⟩

theorem Talking.answered (talking : Talking c content p) (mock : MockSession)
    (longer : Longer p.mock.state mock.state) (heard : Nat) :
    Talking c content {p with mock := mock, heard := heard} := by
  obtain ⟨more,grown⟩ := answersTurn longer
  obtain ⟨taken,number,reaching⟩ := talking.reading
  refine ⟨talking.live,talking.solid,talking.calmly,talking.counted,talking.asks,talking.phase,taken,number,?_⟩
  change Reaching mock.state.written.reverse _ _ _ _
  rw [grown]
  exact reaching.writes more

theorem Together.serves (peers : Peers c env) {t : MockState} {outcome : Except Ending Unit} {rest : List Bytes}
    (talking : Talking c content p) (serving : Serving c p) (longer : Longer p.mock.state t)
    (goes : Goes (mirror c) (Farewell p.conn.world.phase) p.mock.state taken (outcome,t))
    (hearing : ∃ heard, p.mock.state.nextIn + taken = heard + 1 ∧
      Reaching p.sent p.heard p.mock.state.decoder rest heard)
    (small : Small c {p with mock := mockSettle (outcome.map fun _ => rest,t)}) :
    Together c content {p with mock := mockSettle (outcome.map fun _ => rest,t)} := by
  have next := talking.answered (mockSettle (outcome.map fun _ => rest,t)) (by rw [settleState]; exact longer) p.heard
  cases outcome with
  | ok done =>
    obtain ⟨heard,number,reaching⟩ := hearing
    refine .serving next ⟨rfl,goes.toCounted,serving.connected,heard,goes.nextIn.trans number,?_⟩
    change Reaching p.sent p.heard t.decoder rest heard
    rw [goes.decoder]
    exact reaching
  | error ending =>
    rcases goes with finished | ⟨rfl,farewell,parted⟩
    · have room := small.answers
      rw [Pair.answers,List.length_reverse] at room
      exact absurd room (Nat.not_lt.mpr finished)
    · refine .leaving next ⟨rfl,parted,farewell,iff_of_false serving.connected ?_⟩
      obtain ⟨heard,number,reaching⟩ := talking.reading
      have bound := reaching.bound
      have more := partsLonger peers serving.counted longer parted (heldFits small)
      change p.conn.world.nextIn ≠ t.written.reverse.length + 1
      rw [Pair.answers,List.length_reverse] at bound
      rw [List.length_reverse,number]
      omega

theorem mapRun {moves : MockAct Unit} (rest : List Bytes) {s t : MockState} {outcome : Except Ending Unit}
    (run : moves s = (outcome,t)) :
    (do moves; pure rest : MockAct (List Bytes)) s = (outcome.map fun _ => rest,t) := by
  cases outcome with
  | error ending => exact Prog.bindStops run
  | ok done => exact Prog.bindReturns run

theorem handlesNothing (serving : Serving c p) (pending : p.mock.pending = []) :
    mockStep (mirror c) env p.mock .handle = p.mock := by
  simp only [mockStep,serving.going,Option.isSome_none,Bool.false_eq_true,if_false,pending]

theorem handlesTurn (peers : Peers c env) (serving : Serving c p) (small : Small c p) {frame : Bytes}
    {rest : List Bytes} (pending : p.mock.pending = frame :: rest) : ∃ heard outcome t,
      mockStep (mirror c) env p.mock .handle = mockSettle (outcome.map fun _ => rest,t) ∧ Longer p.mock.state t ∧
      p.mock.state.nextIn = heard + 1 ∧ p.sent[heard]? = some frame ∧
      Reaching p.sent p.heard p.mock.state.decoder rest (heard + 1) ∧
      ∀ closing, Asking (mirror c) closing (1 + heard) frame →
        Goes (mirror c) closing p.mock.state 1 (outcome,t) ∧ Confirms p.mock.state [frame] t := by
  obtain ⟨heard,number,reaching⟩ := serving.hearing
  rw [pending] at reaching
  obtain ⟨found,onward⟩ := reaching.next
  have mem := List.mem_of_getElem? found
  have bound := (List.getElem?_eq_some_iff.mp found).1
  have room := small.sent
  have longer : Longer p.mock.state (mockHandle (mirror c) env frame p.mock.state).2 := longerHandle frame _
  rcases run : mockHandle (mirror c) env frame p.mock.state with ⟨outcome,t⟩
  rw [run] at longer
  refine ⟨heard,outcome,t,?_,longer,number,found,onward,fun closing asking => ?_⟩
  · simp only [mockStep,serving.going,Option.isSome_none,Bool.false_eq_true,if_false,pending]
    rw [mapRun rest run]
  · rw [Nat.add_comm,← number] at asking
    have goes : Goes (mirror c) closing p.mock.state 1 (mockHandle (mirror c) env frame p.mock.state) ∧ _ :=
      handles peers.sound serving.counted asking (small.frames frame (List.mem_append_left _ mem)).room (by omega)
    rwa [run] at goes

theorem Together.mockHandles (peers : Peers c env) (talking : Talking c content p) (serving : Serving c p)
    (before : Small c p) (small : Small c {p with mock := mockStep (mirror c) env p.mock .handle}) :
    Together c content {p with mock := mockStep (mirror c) env p.mock .handle} := by
  cases pending : p.mock.pending with
  | nil =>
    rw [handlesNothing serving pending]
    exact .serving talking serving
  | cons frame rest =>
    obtain ⟨heard,outcome,t,same,longer,number,found,onward,goes⟩ := handlesTurn peers serving before pending
    rw [same] at small ⊢
    exact Together.serves peers talking serving longer (goes _ (talking.asks heard frame found)).1
      ⟨heard + 1,by omega,onward⟩ small

theorem timerTurn (peers : Peers c env) (serving : Serving c p) :
    mockStep (mirror c) env p.mock .timer = p.mock ∨ p.mock.pending = [] ∧ ∃ outcome t,
      mockStep (mirror c) env p.mock .timer = mockSettle (outcome.map fun _ => [],t) ∧ Longer p.mock.state t ∧
      (∀ closing, Goes (mirror c) closing p.mock.state 0 (outcome,t)) ∧ Confirms p.mock.state [] t := by
  cases pending : p.mock.pending with
  | cons frame rest =>
    refine .inl ?_
    simp only [mockStep,serving.going,Option.isSome_none,Bool.false_eq_true,if_false,pending]
  | nil =>
    have longer : Longer p.mock.state (mockTimer (mirror c) env p.mock.state).2 := longerTimer _
    have well (closing : Prop) : Goes (mirror c) closing p.mock.state 0 (mockTimer (mirror c) env p.mock.state) ∧ _ :=
      timesWell peers.sound serving.counted
    rcases run : mockTimer (mirror c) env p.mock.state with ⟨outcome,t⟩
    rw [run] at longer well
    refine .inr ⟨rfl,outcome,t,?_,longer,fun closing => (well closing).1,(well True).2⟩
    simp only [mockStep,serving.going,Option.isSome_none,Bool.false_eq_true,if_false,pending]
    rw [mapRun [] run]

theorem Together.mockTimes (peers : Peers c env) (talking : Talking c content p) (serving : Serving c p)
    (small : Small c {p with mock := mockStep (mirror c) env p.mock .timer}) :
    Together c content {p with mock := mockStep (mirror c) env p.mock .timer} := by
  obtain ⟨heard,number,reaching⟩ := serving.hearing
  rcases timerTurn peers serving with same | ⟨pending,outcome,t,same,longer,goes,-⟩
  · rw [same]
    exact .serving talking serving
  · rw [pending] at reaching
    rw [same] at small ⊢
    exact Together.serves peers talking serving longer (goes _) ⟨heard,number,reaching⟩ small

theorem readsTurn (env : MockEnv) (talking : Talking c content p)
    (serving : Serving c p) (small : Small c p) (more : Nat) :
    Exchange.mockReads c env p more = p ∨ ∃ frames after, Exchange.mockReads c env p more =
        {p with
          mock := ⟨{p.mock.state with decoder := after},frames,none⟩
          heard := p.heard + (arrived more p.toMock).length} ∧
      ∃ taken, p.mock.state.nextIn = taken + 1 ∧
        Reaching p.sent (p.heard + (arrived more p.toMock).length) after frames taken := by
  unfold Exchange.mockReads
  split
  · exact .inl rfl
  rename_i ready
  simp only [not_or,not_not,serving.going,talking.live,and_true] at ready
  obtain ⟨heard,number,reaching⟩ := serving.hearing
  rw [ready.1] at reaching
  obtain ⟨frames,after,run,onward⟩ := reaching.reads (small.sentCuttable talking.asks)
    (List.take_append_drop (min (more + 1) readLimit) p.toMock).symm
  change ingest p.mock.state.decoder (arrived more p.toMock) = _ at run
  refine .inr ⟨frames,after,?_,heard,number,onward⟩
  simp only [mockStep,serving.going,Option.isSome_none,Bool.false_eq_true,if_false,ready.1,mockRead,ready.2.2,
    Prog.bindRun,Prog.stateRun,run,framesResult,Prog.ofExceptOk,Prog.pureRun,Prog.changeRun,mockSettle]

theorem Together.mockReads (talking : Talking c content p) (serving : Serving c p) (small : Small c p) (more : Nat) :
    Together c content (mockReads c env p more) := by
  rcases readsTurn env talking serving small more with same | ⟨frames,after,same,heard,number,onward⟩
  · rw [same]
    exact .serving talking serving
  · rw [same]
    refine .serving (talking.answered ⟨{p.mock.state with decoder := after},frames,none⟩ ⟨[],rfl⟩ _)
      ⟨rfl,?_,serving.connected,heard,number,onward⟩
    exact serving.counted.same rfl rfl serving.counted.executions

theorem mockStepEnded {mock : MockSession} {ending : Ending} (ended : mock.ended = some ending) (input : MockInput) :
    mockStep (mirror c) env mock input = mock := by
  simp only [mockStep,ended,Option.isSome_some,if_true]

theorem mockReadsEnded (ended : p.mock.ended = some .returned) (more : Nat) :
    Exchange.mockReads c env p more = p := by
  simp only [Exchange.mockReads,ended,Option.isSome_some,true_or,or_true,if_true]

theorem Over.turns (finished : Over p) (choice : Choice) : Over (turn c env p choice) := by
  have still (input : Input) : step c p.conn input = p.conn := by
    simp only [step,finished.live,Bool.false_eq_true,if_false]
  have same (decoder : FrameDecoder) (pending : List Bytes) (read : Nat) :
      Over ⟨p.conn,decoder,pending,read,p.mock,p.heard⟩ :=
    ⟨finished.live,finished.ended,finished.phase,finished.calmly⟩
  cases choice with
  | command command =>
    simp only [turn,still,ite_self]
    exact finished
  | timer =>
    simp only [turn,still,ite_self]
    exact finished
  | reads more =>
    dsimp only [turn]
    unfold actorReads
    rw [if_pos (.inr finished.live)]
    exact finished
  | handles =>
    dsimp only [turn]
    split
    · rw [still]
      exact same _ _ _
    · exact finished
  | mockReads more =>
    dsimp only [turn]
    rw [mockReadsEnded finished.ended]
    exact finished
  | mockHandles =>
    dsimp only [turn]
    rw [mockStepEnded finished.ended]
    exact finished
  | mockTimer =>
    dsimp only [turn]
    rw [mockStepEnded finished.ended]
    exact finished

theorem Together.stages (together : Together c content p) :
    Over p ∨ Talking c content p ∧ (Serving c p ∨ Leaving c p) := by
  cases together with
  | serving talking serving => exact .inr ⟨talking,.inl serving⟩
  | leaving talking leaving => exact .inr ⟨talking,.inr leaving⟩
  | finished finished => exact .inl finished

theorem Together.turned (peers : Peers c env) {choice : Choice} (proper : Proper c content p choice)
    (small : Small c (turn c env p choice)) (together : Together c content p) :
    Together c content (turn c env p choice) := by
  have before : Small c p := small.before (turnGrows p choice)
  rcases together.stages with finished | ⟨talking,stage⟩
  · exact .finished (finished.turns choice)
  cases choice with
  | command command =>
    dsimp only [turn]
    split
    · obtain ⟨v,run,phase,turns⟩ := commandTurns peers.reliable talking.solid proper
      have acts : step c p.conn (.command command) = ⟨v,true⟩ := by
        simp only [step,talking.live,if_true,react,run,settle]
      rw [acts]
      exact Together.turns talking stage turns phase
    · exact together
  | timer =>
    dsimp only [turn]
    split
    · obtain ⟨v,run,phase,turns⟩ := timerTurns peers.reliable talking.solid proper
      rw [stepTimer talking.live run]
      exact Together.turns talking stage turns (.inl phase)
    · exact together
  | reads more =>
    dsimp only [turn]
    exact Together.reads before talking stage more
  | handles =>
    dsimp only [turn]
    split
    · rename_i frame rest pending
      exact Together.hears peers before talking stage pending
    · exact together
  | mockReads more =>
    rcases stage with serving | leaving
    · dsimp only [turn]
      exact Together.mockReads talking serving before more
    · dsimp only [turn]
      rw [mockReadsEnded leaving.ended]
      exact together
  | mockHandles =>
    rcases stage with serving | leaving
    · exact Together.mockHandles peers talking serving before small
    · dsimp only [turn]
      rw [mockStepEnded leaving.ended]
      exact together
  | mockTimer =>
    rcases stage with serving | leaving
    · exact Together.mockTimes peers talking serving small
    · dsimp only [turn]
      rw [mockStepEnded leaving.ended]
      exact together

theorem Together.started (content : Bytes → Bytes) (peers : Peers c env) (tick : Nat) :
    Together c content (start c env tick) := by
  obtain ⟨wire,v,body,run,speaks,letter⟩ := logonSpeaks content peers.reliable peers.noFields tick
  have spawned : spawn c ⟨.empty,[],tick⟩ = ⟨logonSentAt v,true⟩ := by
    simp only [spawn,peers.reliable.store,run,settle]
  obtain ⟨new,trace,wires,quiet⟩ := speaks.trace
  have whole : v.trace = new := by rw [trace]; exact List.append_nil new
  have sent : (start c env tick).sent = [wire] := by
    simp only [Pair.sent,start,spawned,logonSentAt,whole,List.filterMap_cons,handedWire,wires,List.reverse_singleton]
  have world : (start c env tick).conn = ⟨logonSentAt v,true⟩ := spawned
  have first : v.nextIn = 1 := speaks.heard
  refine .serving ⟨by rw [world],?_,?_,?_,?_,by rw [world]; simp [logonSentAt],0,?_,?_⟩ ⟨rfl,?_,?_,0,rfl,?_⟩
  · have hushed : Hushed v (logonSentAt v) := ⟨rfl,rfl,rfl,rfl,rfl,[_],rfl,by simp [calm,handedWire]⟩
    rw [world]
    exact hushed.solid speaks.toSolid
  · rw [world]
    intro event mem
    rcases List.mem_cons.mp mem with rfl | old
    · exact ⟨by simp,by simp⟩
    · exact quiet event (whole ▸ old)
  · rw [sent,world]
    exact speaks.counted
  · rw [sent]
    exact .cons ⟨_,_,letter,.inl (.inl rfl)⟩ .nil
  · rw [world]
    exact first
  · exact Reaching.start _
  · exact ⟨rfl,.nil,Nat.le_refl _⟩
  · rw [world]
    simp [logonSentAt]
  · exact Reaching.start _

theorem exchangeGrows (p : Pair) (choices : List Choice) :
    p.sent <+: (choices.foldl (turn c env) p).sent ∧ p.answers <+: (choices.foldl (turn c env) p).answers := by
  induction choices generalizing p with
  | nil => exact ⟨List.prefix_rfl,List.prefix_rfl⟩
  | cons choice rest ih =>
    have one : p.sent <+: (turn c env p choice).sent ∧ p.answers <+: (turn c env p choice).answers :=
      turnGrows p choice
    have more := ih (turn c env p choice)
    exact ⟨one.1.trans more.1,one.2.trans more.2⟩

theorem Together.run (peers : Peers c env) {choices : List Choice} (together : Together c content p)
    (proper : Along (turn c env) (Proper c content) p choices) (small : Small c (choices.foldl (turn c env) p)) :
    Together c content (choices.foldl (turn c env) p) := by
  induction choices generalizing p with
  | nil => exact together
  | cons choice rest ih =>
    -- the frames of a part of the run are among those of the whole
    have first : Small c (turn c env p choice) := small.before (exchangeGrows (turn c env p choice) rest)
    exact ih (together.turned peers proper.1 first) proper.2 small

structure InStep (p : Pair) : Prop where
  mock : p.mock.ended = none ∨ p.mock.ended = some .returned
  actor : p.conn.live = true ∨ p.mock.ended = some .returned ∧ p.conn.world.phase = .disconnected
  calmly : ∀ event ∈ p.conn.world.trace, calm event
  farewell : p.mock.ended = some .returned → Farewell p.conn.world.phase
  outbound : p.mock.ended = none → p.mock.state.nextIn + p.owedToMock = p.conn.world.nextOut
  inbound : p.mock.ended = none → p.conn.world.nextIn + p.owedToActor = p.mock.state.nextOut

theorem Together.inStep (small : Small c p) (together : Together c content p) : InStep p := by
  cases together with
  | serving talking serving =>
    refine ⟨.inl serving.going,.inl talking.live,talking.calmly,fun ended => ?_,fun _ => ?_,fun _ => ?_⟩
    · rw [serving.going] at ended
      cases ended
    · obtain ⟨heard,number,reaching⟩ := serving.hearing
      have count := reaching.count (small.sentCuttable talking.asks)
      have counted := talking.counted
      change heard + p.owedToMock = p.sent.length at count
      omega
    · obtain ⟨heard,number,reaching⟩ := talking.reading
      have count := reaching.count (small.answersCuttable (.inl serving))
      have written := serving.counted.written
      change heard + p.owedToActor = p.answers.length at count
      rw [Pair.answers,List.length_reverse] at count
      omega
  | leaving talking leaving =>
    have gone : p.mock.ended ≠ none := by simp [leaving.ended]
    exact ⟨.inr leaving.ended,.inl talking.live,talking.calmly,fun _ => leaving.farewell,
      fun going => absurd going gone,fun going => absurd going gone⟩
  | finished finished =>
    have gone : p.mock.ended ≠ none := by simp [finished.ended]
    exact ⟨.inr finished.ended,.inr ⟨finished.ended,finished.phase⟩,finished.calmly,fun _ => .inr finished.phase,
      fun going => absurd going gone,fun going => absurd going gone⟩

/-- The mock never fails, the actor neither fails nor recovers, and both count the same
messages: what one wrote and the other has not handled is on its way. -/
theorem staysInStep (content : Bytes → Bytes) (peers : Peers c env) (tick : Nat) (choices : List Choice)
    (proper : Along (turn c env) (Proper c content) (start c env tick) choices)
    (small : Small c (exchange c env tick choices)) : InStep (exchange c env tick choices) :=
  (Together.run peers (.started content peers tick) proper small).inStep small

end

open Control in
theorem plannedOrdered {δ : Type} {k : Crates δ} {planner : CommandPlanner δ} {request : ApplicationRequest}
    (planned : Planned k planner request) (plain : ∀ f ∈ request.fields, sohFree f)
    (own : ¬ ascii "session:" <+: request.requestId) {content : Bytes → Bytes}
    (same : request.fingerprint = content request.requestId) : Ordered content request := by
  obtain ⟨control,ok⟩ := planned
  have shaped := plannedOrder ok
  have clOrdId : SOH ∉ request.clOrdId := by
    obtain ⟨_,_,_,rfl⟩ := planShape ok
    exact clOrdIdPlain _ _
  refine ⟨⟨clOrdId,plain⟩,shaped.msgType,fun f mem => ?_,own,same⟩
  rcases shaped.tags f mem with known | extra
  · exact fun zero => absurd (zero ▸ known) (by decide)
  · exact (shaped.unmanaged _ extra).2

theorem takeableOf {b wire : Bytes} (short : wire.length ≤ decoderLimit) : Takeable b wire := by
  refine ⟨fun body same => Nat.le_trans ?_ short,Nat.le_trans short (Nat.le_add_right _ _)⟩
  rw [same]
  simp only [frameOf,List.length_append]
  omega

def venueMock : MockEnv := ⟨fun _ => venueTime,fun _ => 0,fun _ => none⟩

def tradingDay : List Choice :=
  [.mockReads 8191,.mockHandles,.reads 8191,.handles,
    .command (.submit (Control.applicationOf (Control.venueOrder "order-1"))),.mockReads 8191,.mockHandles,.reads 40,
    .reads 8191,.handles,.command (.logout none),.mockReads 8191,.mockHandles,.reads 8191,.handles,.reads 0]

def dayContent : Bytes → Bytes := fun _ => (Control.applicationOf (Control.venueOrder "order-1")).fingerprint

theorem dayOrdered : Ordered dayContent (Control.applicationOf (Control.venueOrder "order-1")) := by
  have planned : Control.Planned Control.venueCrates Control.venuePlanner
      (Control.applicationOf (Control.venueOrder "order-1")) := ⟨Control.venueOrder "order-1",by decide +kernel⟩
  exact plannedOrdered planned (by decide +kernel) (by decide +kernel) rfl

theorem venuePeers : Peers venueCtx venueMock where
  reliable := ⟨⟨by decide,by decide,fun _ => (by decide : SOH ∉ venueTime)⟩,by unfold Sendable; decide,fun _ => rfl,
    fun _ => rfl⟩
  noFields := rfl
  interval := by decide
  clock := fun _ => (by decide : SOH ∉ venueTime)
  faultless := fun _ => rfl

theorem dayProper :
    Along (turn venueCtx venueMock) (Proper venueCtx dayContent) (start venueCtx venueMock 0) tradingDay := by
  refine alongEach (fun choice mem p => ?_) _
  simp only [tradingDay,List.mem_cons,List.not_mem_nil,or_false] at mem
  rcases mem with rfl | rfl | rfl | rfl | rfl | rfl | rfl | rfl | rfl | rfl | rfl | rfl | rfl | rfl | rfl | rfl
  all_goals first | exact dayOrdered | trivial | exact fun _ none => by cases none

theorem daySmall : Small venueCtx (exchange venueCtx venueMock 0 tradingDay) := by
  have sizes : (∀ wire ∈ (exchange venueCtx venueMock 0 tradingDay).sent ++
      (exchange venueCtx venueMock 0 tradingDay).answers, wire.length ≤ decoderLimit) ∧
      (exchange venueCtx venueMock 0 tradingDay).sent.length = 3 ∧
      (exchange venueCtx venueMock 0 tradingDay).answers.length = 3 := by
    decide +kernel
  refine ⟨fun wire mem => takeableOf (sizes.1 wire mem),?_,?_⟩
  · rw [sizes.2.1]
    decide
  · rw [sizes.2.2]
    decide

theorem staysInStepAllDay : (exchange venueCtx venueMock 0 tradingDay).mock.ended = some .returned ∧
    (exchange venueCtx venueMock 0 tradingDay).conn.live = false ∧
    InStep (exchange venueCtx venueMock 0 tradingDay) :=
  ⟨by decide +kernel,by decide +kernel,staysInStep dayContent venuePeers 0 tradingDay dayProper daySmall⟩

end FixCli.Exchange
