import FixCli.Channels
import FixCli.InitiatorHears
import FixCli.MockRuns

/-! The actor and the mock over two reliable channels, under every interleaving of
commands, timers, reads and the handling of what was read. -/
namespace FixCli.Exchange
open Lib Codec Store Session Mock

structure Pair where
  conn : Conn
  decoder : FrameDecoder
  pending : List Bytes
  read : Nat
  mock : MockSession
  heard : Nat

namespace Pair

def sent (p : Pair) : List Bytes := (p.conn.world.trace.filterMap handedWire).reverse

def answers (p : Pair) : List Bytes := p.mock.state.written.reverse

def toMock (p : Pair) : Bytes := p.sent.flatten.drop p.heard

def toActor (p : Pair) : Bytes := p.answers.flatten.drop p.read

def owedToMock (p : Pair) : Nat := p.mock.pending.length + framesIn (p.mock.state.decoder.buffer ++ p.toMock)

def owedToActor (p : Pair) : Nat := p.pending.length + framesIn (p.decoder.buffer ++ p.toActor)

end Pair

/-- Who acts next, and how far a read goes. -/
inductive Choice where
  | command (command : ActorCommand)
  | timer
  | reads (more : Nat)
  | handles
  | mockReads (more : Nat)
  | mockHandles
  | mockTimer

def readLimit : Nat := 8192

def arrived (more : Nat) (transit : Bytes) : Bytes := transit.take (min (more + 1) readLimit)

def start (c : Ctx) (env : MockEnv) (tick : Nat) : Pair :=
  ⟨spawn c ⟨.empty,[],tick⟩,⟨[],decoderLimit⟩,[],0,mockStart env,0⟩

def actorReads (c : Ctx) (p : Pair) (more : Nat) : Pair :=
  if p.pending ≠ [] ∨ p.conn.live = false then p
  else if arrived more p.toActor = [] then
    -- the stream ends once the mock has hung up and all it wrote is read
    if p.mock.ended.isSome then {p with conn := step c p.conn .endOfStream} else p
  else match ingest p.decoder (arrived more p.toActor) with
    | .ok (frames,decoder) =>
      {p with decoder := decoder, pending := frames, read := p.read + (arrived more p.toActor).length}
    | .error stop => {p with conn := step c p.conn (.decodeFailed stop)}

def mockReads (c : Ctx) (env : MockEnv) (p : Pair) (more : Nat) : Pair :=
  if p.mock.pending ≠ [] ∨ p.mock.ended.isSome ∨ arrived more p.toMock = [] ∧ p.conn.live then p
  else {p with
    mock := mockStep (mirror c) env p.mock (.read (arrived more p.toMock))
    heard := p.heard + (arrived more p.toMock).length}

/-- One turn of one party: the actor selects once the frames of a read are handled. -/
def turn (c : Ctx) (env : MockEnv) (p : Pair) : Choice → Pair
  | .command command => if p.pending = [] then {p with conn := step c p.conn (.command command)} else p
  | .timer => if p.pending = [] then {p with conn := step c p.conn .timer} else p
  | .reads more => actorReads c p more
  | .handles =>
    match p.pending with
    | frame :: rest => {p with conn := step c p.conn (.frame frame), pending := rest}
    | [] => p
  | .mockReads more => mockReads c env p more
  | .mockHandles => {p with mock := mockStep (mirror c) env p.mock .handle}
  | .mockTimer => {p with mock := mockStep (mirror c) env p.mock .timer}

def exchange (c : Ctx) (env : MockEnv) (tick : Nat) (choices : List Choice) : Pair :=
  choices.foldl (turn c env) (start c env tick)

section

variable {c : Ctx} {env : MockEnv} {p : Pair}

theorem actorGrows (conn : Conn) (input : Input) : conn.world.trace <:+ (step c conn input).world.trace :=
  growsPermits.steps (fun _ _ => trivial) (fun _ _ => trivial) conn input fun _ _ => ⟨trivial,fun _ _ => trivial⟩

theorem sentGrows {p q : Pair} (grows : p.conn.world.trace <:+ q.conn.world.trace) : p.sent <+: q.sent :=
  (grows.filterMap handedWire).reverse

theorem settleState (r : Except Ending (List Bytes) × MockState) : (mockSettle r).state = r.2 := by
  rcases r with ⟨_ | _,_⟩ <;> rfl

theorem mockGrows (m : MockSession) (input : MockInput) :
    m.state.written <:+ (mockStep (mirror c) env m input).state.written := by
  have settles {moves : MockAct (List Bytes)} (longer : Prog.Moves Longer moves) :
      m.state.written <:+ (mockSettle (moves m.state)).state.written := by
    rw [settleState]
    obtain ⟨new,grown⟩ := longer m.state
    exact ⟨new,grown.symm⟩
  unfold mockStep
  split
  · exact List.suffix_rfl
  split
  · exact settles (longerRead _)
  · exact settles (Prog.Moves.bind longerTimer fun _ => Prog.Moves.pure _)
  · exact settles (Prog.Moves.bind (longerHandle _) fun _ => Prog.Moves.pure _)
  · exact List.suffix_rfl

theorem turnGrows (p : Pair) (choice : Choice) :
    p.sent <+: (turn c env p choice).sent ∧ p.answers <+: (turn c env p choice).answers := by
  have acts (input : Input) (decoder : FrameDecoder) (pending : List Bytes) (read : Nat) :
      p.sent <+: (⟨step c p.conn input,decoder,pending,read,p.mock,p.heard⟩ : Pair).sent ∧ p.answers <+: p.answers :=
    ⟨sentGrows (actorGrows p.conn input),List.prefix_rfl⟩
  have serves (input : MockInput) : p.answers <+: (mockStep (mirror c) env p.mock input).state.written.reverse :=
    (mockGrows p.mock input).reverse
  have still : p.sent <+: p.sent ∧ p.answers <+: p.answers := ⟨List.prefix_rfl,List.prefix_rfl⟩
  cases choice with
  | command command =>
    dsimp only [turn]
    split
    · exact acts _ _ _ _
    · exact still
  | timer =>
    dsimp only [turn]
    split
    · exact acts _ _ _ _
    · exact still
  | reads more =>
    dsimp only [turn]
    unfold actorReads
    split
    · exact still
    split
    · split
      · exact acts _ _ _ _
      · exact still
    split
    · exact still
    · exact acts _ _ _ _
  | handles =>
    dsimp only [turn]
    split
    · exact acts _ _ _ _
    · exact still
  | mockReads more =>
    dsimp only [turn]
    unfold mockReads
    split
    · exact still
    · exact ⟨List.prefix_rfl,serves _⟩
  | mockHandles => exact ⟨List.prefix_rfl,serves _⟩
  | mockTimer => exact ⟨List.prefix_rfl,serves _⟩

end
end FixCli.Exchange
