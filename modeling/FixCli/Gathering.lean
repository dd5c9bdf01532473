import FixCli.Deliveries
import FixCli.Lib.Reorder

/-! The gap buffer is a reorder buffer: the frames it holds are committed in the order of
their numbers as soon as nothing is missing ahead of them. -/
namespace FixCli.Session
open Lib Codec Store

def msgTypeOf (c : Ctx) (frame : Bytes) : Bytes :=
  match parseInbound c frame with
  | .ok message => message.msgType.getD []
  | .error _ => []

structure Simple (c : Ctx) (frame : Bytes) (message : ParsedMessage) (msgSeqNum : Nat) (response : Option Bytes) :
    Prop extends Sequenced c frame message msgSeqNum where
  checks : ∀ nextOut, inboundChecks c nextOut msgSeqNum msgSeqNum message =
    .ok ⟨msgTypeOf c frame,none,response,msgSeqNum + 1⟩
  plain : msgTypeOf c frame ≠ ascii "A" ∧ msgTypeOf c frame ≠ ascii "5"

def Spoken (c : Ctx) (loud : Prop) (item : Nat → Bytes) (got : List Nat) : Prop :=
  ∀ n ∈ got, ∃ message response, Simple c (item n) message n response ∧ (response ≠ none → loud)

def book (c : Ctx) (j : Journal) (frame : Bytes) : Journal :=
  withInbound j ⟨j.nextIn,j.nextIn + 1,msgTypeOf c frame,frame,
    ⟨j.nextEvent,eventKind (msgTypeOf c frame),inboundDetails (msgTypeOf c frame) j.nextIn⟩⟩

def booked (c : Ctx) (frames : List Bytes) (j : Journal) : Journal := frames.foldl (book c) j

def phaseOf (gapBuffer : Table Nat Bytes) : SessionPhase := if gapBuffer.isEmpty then .established else .recovering

structure Abreast (base w : World) : Prop where
  onward : Onward base w
  nextIn : w.journal.nextIn = w.nextIn
  nextEvent : w.journal.nextEvent = w.nextEvent

structure Booked (c : Ctx) (base w : World) (frames : List Bytes) (v : World) : Prop extends Abreast base v where
  advanced : v.nextIn = w.nextIn + frames.length
  journal : SameInbound (booked c frames w.journal) v.journal

structure Drained (c : Ctx) (base : World) (item : Nat → Bytes) (got : List Nat) (w : World) (count : Nat) (v : World) :
    Prop extends Booked c base w ((List.range' w.nextIn count).map item) v where
  held : Holding item got v.nextIn v.gapBuffer
  missing : v.nextIn ∉ got
  passed : ∀ n, w.nextIn ≤ n → n < w.nextIn + count → n ∈ got
  smaller : v.gapBuffer.size ≤ w.gapBuffer.size

section

variable {c : Ctx} {base w : World} {item : Nat → Bytes} {got : List Nat} {n : Nat} {loud : Prop}

open Prog

theorem Abreast.still {v : World} (h : Abreast base w) (onward : Onward base v) (nextIn : v.nextIn = w.nextIn)
    (nextEvent : v.nextEvent = w.nextEvent) (same : SameInbound w.journal v.journal) : Abreast base v := by
  refine ⟨onward,?_,?_⟩
  · rw [same.nextIn,h.nextIn,nextIn]
  · rw [same.nextEvent,h.nextEvent,nextEvent]

theorem Abreast.buffer (h : Abreast base w) (gapBuffer : Table Nat Bytes) :
    Abreast base {w with gapBuffer := gapBuffer} :=
  h.still (h.onward.trans ⟨List.suffix_rfl,Nat.le_refl _⟩) rfl rfl (.refl _)

theorem bookSame {j k : Journal} (same : SameInbound j k) (frame : Bytes) :
    SameInbound (book c j frame) (book c k frame) := by
  refine ⟨?_,?_,?_,?_⟩ <;> simp only [book,withInbound,inboundRecord,same.nextIn,same.nextEvent,same.inbound,same.events]

theorem bookedSame (frames : List Bytes) {j k : Journal} (same : SameInbound j k) :
    SameInbound (booked c frames j) (booked c frames k) := by
  induction frames generalizing j k with
  | nil => exact same
  | cons frame rest ih => exact ih (bookSame same frame)

theorem bookedAppend (front back : List Bytes) (j : Journal) :
    booked c (front ++ back) j = booked c back (booked c front j) := List.foldl_append

theorem Booked.trans {u v : World} {front back : List Bytes} (h : Booked c base w front u)
    (g : Booked c base u back v) : Booked c base w (front ++ back) v := by
  refine ⟨g.toAbreast,?_,?_⟩
  · rw [g.advanced,h.advanced,List.length_append,Nat.add_assoc]
  · rw [bookedAppend]
    exact (bookedSame back h.journal).trans g.journal

theorem commitSimple (h : Abreast base w) {frame : Bytes} {message : ParsedMessage} {response : Option Bytes}
    (simple : Simple c frame message w.nextIn response) (aloud : response ≠ none → loud)
    (healthy : Healthy c base.tick) (sendable : Sendable c) :
    match commitExpected c message frame w with
    | (.ok _, v) => Booked c base w [frame] v ∧ v.gapBuffer = w.gapBuffer ∧ v.phase = w.phase
    | (.error _, v) => loud ∧ Refused base v := by
  have takes := commitTakes frame simple.sequence (simple.checks _) (Nat.lt_succ_self _) rfl simple.plain.2
    (fun tick later => healthy tick (Nat.le_trans h.onward.later later)) sendable h.nextIn h.nextEvent
  rcases run : commitExpected c message frame w with ⟨halt | _,v⟩
  · rw [run] at takes
    exact ⟨aloud takes.1,h.onward.refused takes.2⟩
  · rw [run] at takes
    have nextIn : v.nextIn = w.nextIn + 1 := takes.nextIn
    refine ⟨⟨⟨h.onward.trans takes.onward,?_,?_⟩,nextIn,?_⟩,takes.gapBuffer,?_⟩
    · rw [takes.journal.nextIn,nextIn]
      rfl
    · rw [takes.journal.nextEvent,takes.nextEvent,← h.nextEvent]
      rfl
    · refine SameInbound.trans ?_ takes.journal
      refine ⟨?_,?_,?_,?_⟩ <;>
        simp only [booked,List.foldl_cons,List.foldl_nil,book,withInbound,inboundCommit,inboundRecord,h.nextIn,
          h.nextEvent]
    · rw [takes.phase,welcomed,if_neg fun logon => simple.plain.1 logon.1]

theorem drainHeld (h : Abreast base w) {older : Nat} (held : Holding item got older w.gapBuffer)
    (ahead : older ≤ w.nextIn) (spoken : Spoken c loud item got) (healthy : Healthy c base.tick)
    (sendable : Sendable c) {fuel : Nat} (enough : w.gapBuffer.size < fuel) :
    match drain c fuel w with
    | (.ok _, v) => v.phase = w.phase ∧ ∃ count, Drained c base item got w count v
    | (.error _, v) => loud ∧ Refused base v := by
  induction fuel generalizing w older with
  | zero => omega
  | succ fuel ih =>
    simp only [drain,bindRun,changeRun,stateRun]
    set kept : World := {w with gapBuffer := w.gapBuffer.keepKeys fun sequence => w.nextIn ≤ sequence}
    have level : Abreast base kept := h.buffer _
    have skipped : Holding item got kept.nextIn kept.gapBuffer := held.skip ahead
    have fewer : kept.gapBuffer.size ≤ w.gapBuffer.size := Table.keepKeysSize _ _
    cases next : kept.gapBuffer[kept.nextIn]? with
    | none =>
      exact ⟨rfl,0,⟨⟨level,rfl,.refl _⟩,skipped,skipped.missing next,fun n above below => absurd below (by omega),fewer⟩⟩
    | some frame =>
      obtain ⟨waiting,-,rfl⟩ := skipped.entry next
      obtain ⟨message,response,simple,aloud⟩ := spoken _ waiting
      simp only [simple.parsed,ofExceptOk,bindRun,changeRun,pureRun]
      set taken : World := {kept with gapBuffer := kept.gapBuffer.erase kept.nextIn}
      have apart : Abreast base taken := level.buffer _
      have commits := commitSimple apart simple aloud healthy sendable
      rcases run : commitExpected c message (item kept.nextIn) taken with ⟨halt | _,u⟩
      · rw [run] at commits
        exact commits
      · rw [run] at commits
        obtain ⟨first,buffer,phase⟩ := commits
        have one : Booked c base w [item w.nextIn] u := ⟨first.toAbreast,first.advanced,first.journal⟩
        have nextIn : u.nextIn = w.nextIn + 1 := one.advanced
        have rest : Holding item got u.nextIn u.gapBuffer := by
          rw [nextIn,buffer]
          exact skipped.take
        have shrinks : u.gapBuffer.size < kept.gapBuffer.size := by
          rw [buffer]
          exact Table.eraseSize (Table.memOfGet next)
        have later := ih one.toAbreast rest (Nat.le_refl _) (by omega)
        rcases drains : drain c fuel u with ⟨halt | _,v⟩
        · rw [drains] at later
          simp only [drains]
          exact later
        · rw [drains] at later
          simp only [drains]
          obtain ⟨same,count,drained⟩ := later
          refine ⟨same.trans phase,count + 1,⟨?_,drained.held,drained.missing,fun n above below => ?_,?_⟩⟩
          · have whole := one.trans drained.toBooked
            rwa [nextIn,List.singleton_append,← List.map_cons,← List.range'_succ] at whole
          · by_cases own : n = w.nextIn
            · rwa [own]
            · exact drained.passed n (by omega) (by omega)
          · have smaller := drained.smaller
            omega

theorem Drained.phased {count : Nat} {v : World} (h : Drained c base item got w count v) (phase : SessionPhase) :
    Drained c base item got w count {v with phase := phase, trace := .phaseChanged phase :: v.trace} :=
  ⟨⟨h.still (h.onward.trans ⟨⟨[_],rfl⟩,Nat.le_refl _⟩) rfl rfl (.refl _),h.advanced,h.journal⟩,h.held,h.missing,
    h.passed,h.smaller⟩

theorem settleHeld (h : Abreast base w) {older : Nat} (held : Holding item got older w.gapBuffer)
    (ahead : older ≤ w.nextIn) (spoken : Spoken c loud item got) (healthy : Healthy c base.tick)
    (sendable : Sendable c) (phase : w.phase = phaseOf w.gapBuffer) :
    match (do drainBuffer c; endRecovery : Act Unit) w with
    | (.ok _, v) => v.phase = phaseOf v.gapBuffer ∧ ∃ count, Drained c base item got w count v
    | (.error _, v) => loud ∧ Refused base v := by
  have drains := drainHeld h held ahead spoken healthy sendable (Nat.lt_succ_self w.gapBuffer.size)
  have same : drainBuffer c w = drain c (w.gapBuffer.size + 1) w := rfl
  rcases run : drain c (w.gapBuffer.size + 1) w with ⟨halt | _,u⟩
  · rw [run] at drains
    rw [bindStops (same.trans run)]
    exact drains
  · rw [run] at drains
    obtain ⟨kept,count,drained⟩ := drains
    rw [bindReturns (same.trans run)]
    simp only [endRecovery,bindRun,stateRun,iteRun]
    by_cases ended : u.phase = .recovering ∧ u.gapBuffer.isEmpty = true
    · rw [if_pos ended]
      refine ⟨?_,count,drained.phased _⟩
      simp only [phaseOf,ended.2,if_true]
    · rw [if_neg ended]
      refine ⟨?_,count,drained⟩
      rw [kept,phase]
      by_cases empty : w.gapBuffer.isEmpty = true
      · have smaller := drained.smaller
        have none : u.gapBuffer.isEmpty = true := by
          rw [Std.ExtTreeMap.isEmpty_eq_size_beq_zero,beq_iff_eq] at empty ⊢
          omega
        rw [phaseOf,phaseOf,if_pos empty,if_pos none]
      · have recovering : u.phase = .recovering := by rw [kept,phase,phaseOf,if_neg empty]
        have waiting : ¬ u.gapBuffer.isEmpty = true := fun none => ended ⟨recovering,none⟩
        rw [phaseOf,phaseOf,if_neg empty,if_neg waiting]

end
end FixCli.Session
