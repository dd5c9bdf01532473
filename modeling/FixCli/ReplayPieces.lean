import FixCli.Deliveries
import FixCli.ReplayCover

/-! The pieces of a whole replay as a function of the numbers that are application
messages', and the frames that a replay writes for them, each dated by the clock of the
replay, where the store and the socket do their work. -/
namespace FixCli.Session
open Lib Codec Store

def piecesFrom (order : Nat → Bool) (stop : Nat) : List Nat → Option Nat → List Piece
  | [], gapStart => (gapStart.map fun start => .gapFill start stop).toList
  | n :: rest, gapStart =>
    if order n then
      (gapStart.map fun start => .gapFill start n).toList ++ .application n :: piecesFrom order stop rest none
    else piecesFrom order stop rest (some (gapStart.getD n))

def Drawn (c : Ctx) (j : Journal) (since : Nat) (wire : Bytes) : Piece → Prop
  | .application n => ∃ record beginString time fields tick, j.outbound[n]? = some record ∧
      ApplicationWire beginString n time fields record.wire ∧ since ≤ tick ∧
      encodeMessage c.config.beginString (copyFields (c.env.sendingTime tick) time fields) = .ok wire
  | .gapFill start newSeqNo => ∃ tick, since ≤ tick ∧
      encodeMessage c.config.beginString (gapFillFields c (c.env.sendingTime tick) start newSeqNo) = .ok wire

structure Draws (c : Ctx) (j : Journal) (since : Nat) (pieces : List Piece) (w v : World) : Prop where
  frames : ∃ frames, sentFrames v.trace = sentFrames w.trace ++ frames ∧
    List.Forall₂ (Drawn c j since) (frames.map Frame.wire) pieces
  later : w.tick ≤ v.tick

section

variable {c : Ctx} {j : Journal} {w u v : World} {since b e n stop count : Nat} {order : Nat → Bool}
  {pieces more : List Piece} {wire : Bytes}

open Prog

theorem piecesSpan {pos : Nat} {gapStart : Option Nat} (pending : ∀ start ∈ gapStart, start < pos) :
    Span Piece.front Piece.back (gapStart.getD pos) (piecesFrom order (pos + count) (List.range' pos count) gapStart)
      (pos + count) := by
  have closes {pos : Nat} {gapStart : Option Nat} (pending : ∀ start ∈ gapStart, start < pos) :
      Span Piece.front Piece.back (gapStart.getD pos) (gapStart.map fun start => Piece.gapFill start pos).toList
        pos := by
    cases gapStart with
    | none => exact .nil pos
    | some start => exact .cons (a := Piece.gapFill start pos) (pending start rfl) (.nil pos)
  induction count generalizing pos gapStart with
  | zero => exact closes pending
  | succ count ih =>
    have next : pos + (count + 1) = pos + 1 + count := by omega
    rw [List.range'_succ,piecesFrom,next]
    split
    · have rest := @ih (pos + 1) none fun _ none => by cases none
      exact (closes pending).append (.cons (a := Piece.application pos) (Nat.lt_succ_self pos) rest)
    · refine @ih (pos + 1) (some (gapStart.getD pos)) fun start same => ?_
      cases same
      cases gapStart with
      | none => exact Nat.lt_succ_self pos
      | some start => exact Nat.lt_succ_of_lt (pending start rfl)

theorem piecesOrders {numbers : List Nat} {gapStart : Option Nat} :
    .application n ∈ piecesFrom order stop numbers gapStart ↔ n ∈ numbers ∧ order n = true := by
  induction numbers generalizing gapStart with
  | nil => cases gapStart <;> simp [piecesFrom]
  | cons k rest ih =>
    rw [piecesFrom]
    by_cases here : order k = true
    · rw [if_pos here]
      cases gapStart <;> simp only [Option.map,Option.toList,List.nil_append,List.singleton_append,List.mem_cons,ih,
        Piece.application.injEq,reduceCtorEq,false_or] <;> grind
    · rw [if_neg here,ih]
      grind

theorem gapFillFronts {pos : Nat} {gapStart : Option Nat} :
    (∃ piece ∈ piecesFrom order (pos + count) (List.range' pos count) gapStart,
      piece.path = .gapFill ∧ piece.front = n) ↔ gapStart = some n ∨
        (pos ≤ n ∧ n < pos + count ∧ order n = false ∧
          (n = pos ∧ gapStart = none ∨ pos < n ∧ order (n - 1) = true)) := by
  have closes {gapStart : Option Nat} {stop : Nat} :
      (∃ piece ∈ (gapStart.map fun start => Piece.gapFill start stop).toList,
        piece.path = .gapFill ∧ piece.front = n) ↔ gapStart = some n := by
    cases gapStart <;> simp [Piece.path,Piece.front]
  induction count generalizing pos gapStart with
  | zero =>
    rw [List.range'_zero,piecesFrom,closes]
    constructor
    · exact .inl
    · rintro (same | ⟨first,last,-⟩)
      · exact same
      · omega
  | succ count ih =>
    have next : pos + (count + 1) = pos + 1 + count := by omega
    rw [List.range'_succ,piecesFrom,next]
    by_cases here : order pos = true
    · have tail := @ih (pos + 1) none
      have apart (closing tail : List Piece) (piece : Piece) :
          piece ∈ (closing ++ .application pos :: tail) ∧ piece.path = .gapFill ∧ piece.front = n ↔
            (piece ∈ closing ∧ piece.path = .gapFill ∧ piece.front = n) ∨
              (piece ∈ tail ∧ piece.path = .gapFill ∧ piece.front = n) := by
        rw [List.mem_append,List.mem_cons]
        constructor
        · rintro ⟨ahead | rfl | behind,gap⟩
          · exact .inl ⟨ahead,gap⟩
          · cases gap.1
          · exact .inr ⟨behind,gap⟩
        · rintro (⟨ahead,gap⟩ | ⟨behind,gap⟩)
          · exact ⟨.inl ahead,gap⟩
          · exact ⟨.inr (.inr behind),gap⟩
      rw [if_pos here]
      simp only [apart,exists_or,closes,tail]
      grind
    · have tail := @ih (pos + 1) (some (gapStart.getD pos))
      rw [if_neg here]
      refine tail.trans ?_
      cases gapStart <;> grind

theorem Healthy.later (healthy : Healthy c since) {tick : Nat} (later : since ≤ tick) : Healthy c tick :=
  fun other after => healthy other (later.trans after)

theorem Draws.nil (w : World) : Draws c j since [] w w := ⟨⟨[],(List.append_nil _).symm,.nil⟩,Nat.le_refl _⟩

theorem Draws.trans (h : Draws c j since pieces w u) (g : Draws c j since more u v) :
    Draws c j since (pieces ++ more) w v := by
  obtain ⟨first,grown,drawn⟩ := h.frames
  obtain ⟨second,further,rest⟩ := g.frames
  refine ⟨⟨first ++ second,by rw [further,grown,List.append_assoc],?_⟩,h.later.trans g.later⟩
  rw [List.map_append]
  exact List.rel_append drawn rest

theorem Draws.ticks (h : Draws c j since pieces {w with tick := w.tick + 1} v) : Draws c j since pieces w v :=
  ⟨h.frames,(Nat.le_succ _).trans h.later⟩

theorem transmits (healthy : Healthy c w.tick) {piece : Piece} (drawn : Drawn c j since wire piece) :
    ∃ v, writeReplayTransmission c piece.path n piece.kind wire w = (.ok (),v) ∧ Draws c j since [piece] w v := by
  set op : StoreOp := .commitTransmission ⟨n,ascii piece.kind,wire⟩
  have files : storeApply c op w = _ := storeReturns (healthy w.tick (Nat.le_refl _)).1 rfl
  set filed := applied op w
  set noted : World := {filed with trace := .logged (.outgoing wire) :: filed.trace}
  set sent := handed piece.path wire noted
  have sends : socketWrite c piece.path wire noted = (.ok (),sent) := by
    simp only [socketWrite,(healthy noted.tick (Nat.le_succ w.tick)).2]
    rfl
  set dated : World := {sent with lastOutbound := c.env.instant sent.tick, tick := sent.tick + 1}
  have writes : writeWire c piece.path wire filed = (.ok (),dated) := by
    refine (bindReturns (changeRun _ _)).trans ((bindReturns sends).trans ?_)
    rfl
  have later : w.tick ≤ dated.tick := Nat.le_add_right w.tick 3
  have found : dated.journal.transmissions[w.journal.nextTransmission]? =
      some ⟨w.journal.nextTransmission,n,ascii piece.kind,wire,.journaled⟩ := Std.ExtTreeMap.getElem?_insert_self
  have marks := storeReturns (healthy dated.tick later).1
    (congrArg Prod.fst (transmissionMarked ⟨w.journal.nextTransmission⟩ found))
  refine ⟨_,(bindReturns files).trans ((bindReturns writes).trans (bindReturns marks)),?_,later.trans (Nat.le_succ _)⟩
  exact ⟨[⟨piece.path,wire,noted.journal⟩],sentAppend [_, _, _, _] w.trace,.cons drawn .nil⟩

theorem drawsApplication (sendable : Sendable c) (healthy : Healthy c since) (reached : since ≤ w.tick)
    {record : OutboundRecord} {beginString time : Bytes} {fields : List Field} (found : j.outbound[n]? = some record)
    (app : ApplicationWire beginString n time fields record.wire) (small : n < u64Limit) :
    ∃ v, writeApplicationReplay c record.wire w = (.ok (),v) ∧ Draws c j since [.application n] w v := by
  obtain ⟨copy,encodes⟩ := copyEncodes sendable app (c.env.sendingTime w.tick)
  have drawn : Drawn c j since copy (.application n) :=
    ⟨record,beginString,time,fields,w.tick,found,app,reached,encodedOutbound encodes⟩
  obtain ⟨v,run,draws⟩ := transmits (w := {w with tick := w.tick + 1}) (n := n)
    (healthy.later (reached.trans (Nat.le_succ _))) drawn
  rw [applicationReplayRun app small,encodes]
  exact ⟨v,run,draws.ticks⟩

theorem drawsGapFill (sendable : Sendable c) (healthy : Healthy c since) (reached : since ≤ w.tick)
    (start newSeqNo : Nat) :
    ∃ v, writeGapFill c start newSeqNo w = (.ok (),v) ∧ Draws c j since [.gapFill start newSeqNo] w v := by
  obtain ⟨wire,encodes⟩ := gapFillEncodes sendable (c.env.sendingTime w.tick) start newSeqNo
  have drawn : Drawn c j since wire (.gapFill start newSeqNo) := ⟨w.tick,reached,encodedOutbound encodes⟩
  obtain ⟨v,run,draws⟩ := transmits (w := {w with tick := w.tick + 1}) (n := start)
    (healthy.later (reached.trans (Nat.le_succ _))) drawn
  have clock : sendingTime c w = (.ok (c.env.sendingTime w.tick),{w with tick := w.tick + 1}) := rfl
  rw [writeGapFill,bindReturns clock,encodes]
  exact ⟨v,run,draws.ticks⟩

theorem drawsGap (sendable : Sendable c) (healthy : Healthy c since) (reached : since ≤ w.tick)
    (gapStart : Option Nat) (newSeqNo : Nat) : ∃ v, closeGap c gapStart newSeqNo w = (.ok (),v) ∧
      Draws c j since (gapStart.map fun start => .gapFill start newSeqNo).toList w v := by
  cases gapStart with
  | none => exact ⟨w,rfl,.nil w⟩
  | some start => exact drawsGapFill sendable healthy reached start newSeqNo

theorem drawsLoop (sendable : Sendable c) (healthy : Healthy c since) (replayable : Replayable j)
    {records : Table Nat OutboundRecord} {numbers : List Nat}
    (loaded : ∀ n ∈ numbers, n < u64Limit ∧ records[n]? = j.outbound[n]? ∧ (order n = true ↔ OrderAt j n))
    (gapStart : Option Nat) (reached : since ≤ w.tick) : ∃ v, replayLoop c records e numbers gapStart w = (.ok (),v) ∧
      Draws c j since (piecesFrom order (e + 1) numbers gapStart) w v := by
  induction numbers generalizing gapStart w with
  | nil => exact drawsGap sendable healthy reached gapStart (e + 1)
  | cons n rest ih =>
    obtain ⟨small,own,orders⟩ := loaded n List.mem_cons_self
    have later : ∀ n ∈ rest, n < u64Limit ∧ records[n]? = j.outbound[n]? ∧ (order n = true ↔ OrderAt j n) :=
      fun n mem => loaded n (List.mem_cons_of_mem _ mem)
    rw [replayLoop,piecesFrom,own]
    cases found : j.outbound[n]? with
    | none =>
      have idle : ¬ order n = true := by
        rw [orders]
        rintro ⟨record,there,-⟩
        cases found.symm.trans there
      rw [if_neg idle]
      exact ih later _ reached
    | some record =>
      by_cases ordered : record.command.clOrdId ≠ []
      · obtain ⟨beginString,time,fields,app⟩ := replayable.wired n record found ordered
        rw [if_pos (orders.mpr ⟨record,found,ordered⟩)]
        simp only [if_pos ordered]
        obtain ⟨u,closes,gap⟩ := drawsGap (j := j) sendable healthy reached gapStart n
        obtain ⟨v,copies,copy⟩ := drawsApplication sendable healthy (reached.trans gap.later) found app small
        obtain ⟨x,goesOn,tail⟩ := ih later none (reached.trans (gap.later.trans copy.later))
        refine ⟨x,(bindReturns closes).trans ((bindReturns copies).trans goesOn),?_⟩
        exact gap.trans (copy.trans tail)
      · have idle : ¬ order n = true := by
          rw [orders]
          rintro ⟨other,there,replayed⟩
          cases found.symm.trans there
          exact ordered replayed
        rw [if_neg idle]
        simp only [if_neg ordered]
        exact ih later _ reached

theorem replayDraws (sendable : Sendable c) (replayable : Replayable w.journal) (healthy : Healthy c w.tick)
    (small : e < u64Limit) (orders : ∀ n, b ≤ n → n ≤ e → (order n = true ↔ OrderAt w.journal n)) :
    ∃ v, replayValidatedRange c b e w = (.ok (),v) ∧
      Draws c w.journal w.tick (piecesFrom order (e + 1) (List.range' b (e + 1 - b)) none) w v := by
  have load : storeApply c (.loadOutboundRange ⟨b,e⟩) w = _ := storeReturns (healthy w.tick (Nat.le_refl _)).1 rfl
  have start : Draws c w.journal w.tick [] w (applied (.loadOutboundRange ⟨b,e⟩) w) :=
    ⟨⟨[],(List.append_nil _).symm,.nil⟩,Nat.le_succ _⟩
  have loaded : ∀ n ∈ List.range' b (e + 1 - b), n < u64Limit ∧
      (bySequence ((List.range' b (e + 1 - b)).filterMap fun n => w.journal.outbound[n]?))[n]? =
        w.journal.outbound[n]? ∧ (order n = true ↔ OrderAt w.journal n) := by
    intro n mem
    have inside := List.mem_range'_1.mp mem
    exact ⟨by omega,by rw [loadedRecords replayable.keyed,if_pos mem],orders n inside.1 (by omega)⟩
  obtain ⟨v,run,draws⟩ := drawsLoop (e := e) sendable healthy replayable loaded none start.later
  exact ⟨v,(bindReturns load).trans run,start.trans draws⟩

end
end FixCli.Session
