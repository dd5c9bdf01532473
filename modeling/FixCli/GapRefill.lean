import FixCli.GapArrivals
import FixCli.PossDup
import FixCli.ReplayCover

/-! A replay delivered into a gap, piece by piece: what is still awaited is committed and
lets the held frames follow, what they have already brought is checked against them. A
GapFill whose first number was held repeats nothing, and is refused. -/
namespace FixCli.Session
open Lib Codec Store

def Reads (c : Ctx) (item : Nat → Bytes) (frame : Bytes) : Piece → Prop
  | .application n => ∃ message, Simple c frame message n none ∧ possDup message = true ∧
      ∀ record : InboundRecord, record.wire = item n → Repeats message record
  | .gapFill start newSeqNo => ∃ message, Sequenced c frame message start ∧ possDup message = true ∧
      (∀ nextOut, inboundChecks c nextOut start start message = .ok ⟨ascii "4",none,none,newSeqNo⟩) ∧
      ∀ record : InboundRecord, record.wire = item start → ¬ Repeats message record

structure Refilling (c : Ctx) (base : World) (item : Nat → Bytes) (got : List Nat) (front : Nat) (w : World) : Prop
    extends Abreast base w where
  held : Holding item got w.nextIn w.gapBuffer
  reached : front ≤ w.nextIn
  ahead : ∀ n, front ≤ n → n < w.nextIn → n ∈ got ∧
    ∃ record : InboundRecord, w.journal.inbound[n]? = some record ∧ record.wire = item n
  missing : w.nextIn ∉ got
  phase : w.phase = phaseOf w.gapBuffer

section

variable {c : Ctx} {base w : World} {item : Nat → Bytes} {got : List Nat} {n front stop : Nat} {loud : Prop}

open Prog

theorem bookInbound (j : Journal) (frame : Bytes) (n : Nat) : (book c j frame).inbound[n]? =
    if j.nextIn = n then some ⟨j.nextIn,msgTypeOf c frame,frame,j.nextEvent⟩ else j.inbound[n]? := by
  simp only [book,withInbound,inboundRecord,Std.ExtTreeMap.getElem?_insert,Std.LawfulEqCmp.compare_eq_iff_eq]

theorem bookedBelow (frames : List Bytes) {j : Journal} (below : n < j.nextIn) :
    (booked c frames j).inbound[n]? = j.inbound[n]? := by
  induction frames generalizing j with
  | nil => rfl
  | cons frame rest ih =>
    have next : n < (book c j frame).nextIn := Nat.lt_succ_of_lt below
    exact (ih next).trans ((bookInbound j frame n).trans (if_neg (Nat.ne_of_gt below)))

theorem bookedInbound {count : Nat} {j : Journal} (first : j.nextIn ≤ n) (last : n < j.nextIn + count) :
    ∃ record, (booked c ((List.range' j.nextIn count).map item) j).inbound[n]? = some record ∧
      record.wire = item n := by
  induction count generalizing j with
  | zero => omega
  | succ count ih =>
    rw [List.range'_succ,List.map_cons]
    have next : (book c j (item j.nextIn)).nextIn = j.nextIn + 1 := rfl
    rcases Nat.lt_or_eq_of_le first with later | rfl
    · rw [← next]
      exact ih (by rw [next]; exact later) (by rw [next]; omega)
    · have own := (bookInbound (c := c) j (item j.nextIn) j.nextIn).trans (if_pos rfl)
      have kept := bookedBelow (c := c) ((List.range' (j.nextIn + 1) count).map item)
        (j := book c j (item j.nextIn)) (Nat.lt_succ_self j.nextIn)
      exact ⟨_,kept.trans own,rfl⟩

theorem Awaiting.refilling (h : Awaiting c base item got w) : Refilling c base item got w.nextIn w :=
  ⟨h.toAbreast,h.reordered.held,Nat.le_refl _,fun _ first last => absurd last (Nat.not_lt.mpr first),h.missing,
    h.phase⟩

theorem refills (h : Refilling c base item got w.nextIn w) {frame msgType : Bytes} {message : ParsedMessage}
    (sequenced : Sequenced c frame message w.nextIn) (plain : msgType ≠ ascii "A" ∧ msgType ≠ ascii "5")
    (checks : ∀ nextOut, inboundChecks c nextOut w.nextIn w.nextIn message = .ok ⟨msgType,none,none,stop⟩)
    (later : w.nextIn < stop) (spoken : Spoken c loud item got) (healthy : Healthy c base.tick)
    (sendable : Sendable c) :
    match handleInbound c frame w with
    | (.ok _, v) => Refilling c base item got stop v
    | (.error _, v) => loud ∧ Refused base v := by
  have onward : Onward base (arrivedAt c w) := h.onward.trans ⟨List.suffix_rfl,Nat.le_succ _⟩
  have arrived : Abreast base (arrivedAt c w) := h.still onward rfl rfl (.refl _)
  have level : realignIfLow c w.nextIn (arrivedAt c w) = (.ok (),arrivedAt c w) := by
    simp only [realignIfLow,bindRun,stateRun,arrivedAt,Nat.lt_irrefl,if_false,pureRun]
  have here : (arrivedAt c w).nextIn = w.nextIn := rfl
  rw [handleSequenced sequenced.parsed sequenced.sequence,Session.sequenced,here,if_neg (Nat.lt_irrefl _),
    if_neg (fun low => Nat.lt_irrefl _ low.1),acceptFrame,bindReturns level]
  have takes := commitTakes (c := c) (w := arrivedAt c w) frame sequenced.sequence (checks _) later rfl plain.2
    (fun tick after => healthy tick (Nat.le_trans onward.later after)) sendable arrived.nextIn arrived.nextEvent
  rcases run : commitExpected c message frame (arrivedAt c w) with ⟨halt | _,u⟩
  · rw [run] at takes
    exact absurd rfl takes.1
  rw [run] at takes
  rw [bindReturns run]
  have nextIn : u.nextIn = stop := takes.nextIn
  have phase : u.phase = w.phase := by
    rw [takes.phase,welcomed,if_neg fun logon => plain.1 logon.1]
    rfl
  have taken : Abreast base u := by
    refine ⟨onward.trans takes.onward,?_,?_⟩
    · rw [takes.journal.nextIn,nextIn]
      rfl
    · rw [takes.journal.nextEvent,takes.nextEvent,← arrived.nextEvent]
      rfl
  have held : Holding item got w.nextIn u.gapBuffer := by
    rw [takes.gapBuffer]
    exact h.held
  have settles := settleHeld taken held (by omega) spoken healthy sendable
    (by rw [phase,takes.gapBuffer]; exact h.phase)
  rcases settle : (do drainBuffer c; endRecovery : Act Unit) u with ⟨halt | _,v⟩
  · rw [settle] at settles
    exact settles
  rw [settle] at settles
  obtain ⟨settled,count,drained⟩ := settles
  have advanced : v.nextIn = u.nextIn + count := by
    rw [drained.advanced,List.length_map,List.length_range']
  refine ⟨drained.toAbreast,drained.held,by omega,fun n first last => ⟨drained.passed n (by omega) (by omega),?_⟩,
    drained.missing,settled⟩
  have booked : ∃ record, (Session.booked c ((List.range' u.journal.nextIn count).map item) u.journal).inbound[n]? =
      some record ∧ record.wire = item n := bookedInbound (by rw [taken.nextIn]; omega) (by rw [taken.nextIn]; omega)
  rw [taken.nextIn] at booked
  rw [drained.journal.inbound]
  exact booked

instance : Std.Refl Onward := ⟨fun _ => ⟨List.suffix_rfl,Nat.le_refl _⟩⟩

instance : IsTrans World Onward := ⟨fun _ _ _ => Onward.trans⟩

theorem onwardLoads (op : StoreOp) : Moves Onward (storeApply c op) := by
  intro w
  have after : Onward w (applied op w) := ⟨⟨[_],rfl⟩,Nat.le_succ _⟩
  unfold storeApply
  split
  · split <;> exact after
  · exact ⟨⟨[_],rfl⟩,Nat.le_succ _⟩
  · exact after
  · exact ⟨List.suffix_rfl,Nat.le_succ _⟩
  · exact after

theorem onwardPossdup (message : ParsedMessage) (n : Nat) : Moves Onward (verifyPossdup c message n) := by
  refine Moves.bind (Moves.ofExcept _) fun _ => Moves.bind (onwardLoads _) fun reply => ?_
  split
  · exact Moves.ofExcept _
  · exact Moves.stop _

theorem refillRepeats (h : Refilling c base item got front w) {frame : Bytes} {message : ParsedMessage}
    (sequenced : Sequenced c frame message front) (flagged : possDup message = true) (low : front < w.nextIn)
    (healthy : Healthy c base.tick) :
    ((handleInbound c frame w).1 = .ok () ↔
      ∃ record, w.journal.inbound[front]? = some record ∧ Repeats message record) ∧
    Refilling c base item got (front + 1) (handleInbound c frame w).2 := by
  obtain ⟨accepts,unmoved⟩ := possdupAcceptance (c := c) sequenced low flagged
  have onward : Onward base (arrivedAt c w) := h.onward.trans ⟨List.suffix_rfl,Nat.le_succ _⟩
  have fault : c.env.storeFault (arrivedAt c w).tick = .none := (healthy _ onward.later).1
  have run : handleInbound c frame w = verifyPossdup c message front (arrivedAt c w) := by
    have here : (arrivedAt c w).nextIn = w.nextIn := rfl
    rw [handleSequenced sequenced.parsed sequenced.sequence,Session.sequenced,here,
      if_neg (Nat.not_lt.mpr (Nat.le_of_lt low)),if_pos ⟨low,flagged⟩]
  have after : Onward base (handleInbound c frame w).2 := by
    rw [run]
    exact onward.trans (onwardPossdup message front _)
  refine ⟨by rw [accepts]; exact and_iff_right fault,?_⟩
  refine ⟨h.still after unmoved.nextIn unmoved.nextEvent (by rw [unmoved.journal]; exact .refl _),?_,?_,?_,?_,?_⟩
  · rw [unmoved.nextIn,unmoved.gapBuffer]
    exact h.held
  · rw [unmoved.nextIn]
    exact low
  · rw [unmoved.nextIn,unmoved.journal]
    exact fun n first last => h.ahead n (by omega) last
  · rw [unmoved.nextIn]
    exact h.missing
  · rw [unmoved.phase,unmoved.gapBuffer]
    exact h.phase

theorem pieceDelivered (h : Refilling c base item got front w) {piece : Piece} {frame : Bytes}
    (reads : Reads c item frame piece) (place : piece.front = front) (positive : piece.front < piece.back)
    (spoken : Spoken c loud item got) (healthy : Healthy c base.tick) (sendable : Sendable c) :
    match handleInbound c frame w with
    | (.ok _, v) => Refilling c base item got piece.back v ∧ (piece.path = .gapFill → piece.front ∉ got)
    | (.error _, v) => Refused base v ∨ piece.path = .gapFill ∧ piece.front ∈ got := by
  subst place
  cases piece with
  | application n =>
    obtain ⟨message,simple,flagged,repeats⟩ := reads
    have own : (Piece.application n).front = n := rfl
    rcases Nat.lt_or_eq_of_le h.reached with low | here
    · obtain ⟨accepts,after⟩ := refillRepeats h simple.toSequenced flagged low healthy
      obtain ⟨-,record,found,wire⟩ := h.ahead n (Nat.le_refl _) low
      have ok := accepts.mpr ⟨record,found,repeats record wire⟩
      rcases run : handleInbound c frame w with ⟨halt | _,v⟩
      · rw [run] at ok
        cases ok
      · rw [run] at after
        exact ⟨after,fun gap => by cases gap⟩
    · rw [own] at here
      subst here
      have refilled := refills (c := c) h simple.toSequenced simple.plain simple.checks (Nat.lt_succ_self _) spoken
        healthy sendable
      rcases run : handleInbound c frame w with ⟨halt | _,v⟩
      · rw [run] at refilled
        exact .inl refilled.2
      · rw [run] at refilled
        exact ⟨refilled,fun gap => by cases gap⟩
  | gapFill start newSeqNo =>
    obtain ⟨message,sequenced,flagged,checks,other⟩ := reads
    have own : (Piece.gapFill start newSeqNo).front = start := rfl
    rcases Nat.lt_or_eq_of_le h.reached with low | here
    · obtain ⟨accepts,-⟩ := refillRepeats h sequenced flagged low healthy
      obtain ⟨inside,record,found,wire⟩ := h.ahead start (Nat.le_refl _) low
      rcases run : handleInbound c frame w with ⟨halt | _,v⟩
      · exact .inr ⟨rfl,inside⟩
      · rw [run] at accepts
        obtain ⟨record',found',repeats⟩ := accepts.mp rfl
        cases found.symm.trans found'
        exact absurd repeats (other record wire)
    · rw [own] at here
      subst here
      have refilled := refills (c := c) h sequenced (by decide) checks positive spoken healthy sendable
      rcases run : handleInbound c frame w with ⟨halt | _,v⟩
      · rw [run] at refilled
        exact .inl refilled.2
      · rw [run] at refilled
        exact ⟨refilled,fun _ => h.missing⟩

theorem piecesDelivered (spoken : Spoken c loud item got) (healthy : Healthy c base.tick) (sendable : Sendable c)
    {pieces : List Piece} {frames : List Bytes} (span : Span Piece.front Piece.back front pieces stop)
    (reads : List.Forall₂ (Reads c item) frames pieces) (h : Refilling c base item got front w) :
    match deliver c frames w with
    | (.ok _, v) => Refilling c base item got stop v ∧ ∀ piece ∈ pieces, piece.path = .gapFill → piece.front ∉ got
    | (.error _, v) => Refused base v ∨ ∃ piece ∈ pieces, piece.path = .gapFill ∧ piece.front ∈ got := by
  induction span generalizing frames w with
  | nil =>
    cases reads
    exact ⟨h,fun _ none => by cases none⟩
  | @cons piece pieces stop positive _ ih =>
    cases reads with
    | @cons frame _ frames _ here rest =>
      have delivered := pieceDelivered h here rfl positive spoken healthy sendable
      rw [deliver]
      rcases run : handleInbound c frame w with ⟨halt | _,v⟩
      · rw [run] at delivered
        rw [bindStops run]
        exact delivered.imp_right fun bad => ⟨piece,List.mem_cons_self,bad⟩
      · rw [run] at delivered
        rw [bindReturns run]
        have later := ih rest delivered.1
        rcases run : deliver c frames v with ⟨halt | _,x⟩
        · rw [run] at later
          refine later.imp_right ?_
          rintro ⟨bad,mem,held⟩
          exact ⟨bad,List.mem_cons_of_mem _ mem,held⟩
        · rw [run] at later
          refine ⟨later.1,fun other mem gap => ?_⟩
          rcases List.mem_cons.mp mem with rfl | behind
          · exact delivered.2 gap
          · exact later.2 other behind gap

theorem Refilling.complete (h : Refilling c base item got stop w) (inside : ∀ k ∈ got, k < stop) :
    w.phase = .established ∧ w.nextIn = stop ∧ w.gapBuffer = ∅ := by
  have last : w.nextIn = stop := by
    by_contra other
    have reached := h.reached
    have past := inside stop (h.ahead stop (Nat.le_refl _) (by omega)).1
    omega
  have empty : w.gapBuffer = ∅ := h.held.drained fun k mem => by rw [last]; exact inside k mem
  refine ⟨?_,last,empty⟩
  rw [h.phase,empty]
  rfl

end
end FixCli.Session
