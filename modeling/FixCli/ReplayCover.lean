import FixCli.ApplicationWire
import FixCli.Lib.Span
import FixCli.OutboundTable
import Mathlib.Data.List.Chain
import Mathlib.Data.List.Forall2

/-! What the replay of an accepted range writes: frames that cover the range piece by
piece, an application message by its copy and everything between by one GapFill. -/
namespace FixCli.Session
open Lib Codec Store

inductive Piece where
  | application (msgSeqNum : Nat)
  | gapFill (msgSeqNum newSeqNo : Nat)
  deriving DecidableEq, Repr

namespace Piece

def front : Piece → Nat
  | application msgSeqNum => msgSeqNum
  | gapFill msgSeqNum _ => msgSeqNum

def back : Piece → Nat
  | application msgSeqNum => msgSeqNum + 1
  | gapFill _ newSeqNo => newSeqNo

def path : Piece → SendPath
  | application _ => .applicationReplay
  | gapFill _ _ => .gapFill

def kind : Piece → String
  | application _ => "application_replay"
  | gapFill _ _ => "gap_fill"

end Piece

structure Frame where
  path : SendPath
  wire : Bytes
  journal : Journal

def sentFrame : Event → Option Frame
  | .wrote path wire journal => some ⟨path,wire,journal⟩
  | _ => none

def sentFrames (trace : List Event) : List Frame := (trace.filterMap sentFrame).reverse

def OrderAt (j : Journal) (n : Nat) : Prop :=
  ∃ record, j.outbound[n]? = some record ∧ record.command.clOrdId ≠ []

structure Replayable (j : Journal) : Prop where
  keyed : ∀ (n : Nat) (record : OutboundRecord), j.outbound[n]? = some record → record.command.msgSeqNum = n
  wired : ∀ (n : Nat) (record : OutboundRecord), j.outbound[n]? = some record → record.command.clOrdId ≠ [] →
    ∃ beginString time fields, ApplicationWire beginString n time fields record.wire

def Source (c : Ctx) (j : Journal) (fields : List Field) : Piece → Prop
  | .application n => ∃ record beginString time original sent, j.outbound[n]? = some record ∧
      record.command.clOrdId ≠ [] ∧ ApplicationWire beginString n time original record.wire ∧
      fields = copyFields sent time original
  | .gapFill start newSeqNo => (∀ n, start ≤ n → n < newSeqNo → ¬ OrderAt j n) ∧
      ∃ time, fields = gapFillFields c time start newSeqNo

structure Shipped (c : Ctx) (j : Journal) (id : Nat) (piece : Piece) (frame : Frame) : Prop where
  path : frame.path = piece.path
  fields : ∃ fields, Source c j fields piece ∧ valuesOf fields 34 = [decimal piece.front] ∧
    valuesOf fields 43 = [ascii "Y"] ∧ encodeMessage c.config.beginString fields = .ok frame.wire
  journaled : frame.journal.transmissions[id]? =
    some ⟨id,piece.front,ascii piece.kind,frame.wire,.journaled⟩

structure Ships (c : Ctx) (b : Nat) (w : World) (pieces : List Piece) (stop : Nat) (v : World) : Prop where
  span : Span Piece.front Piece.back b pieces stop
  apart : pieces.IsChain fun p q => p.path = .gapFill → q.path ≠ .gapFill
  frames : ∃ frames, sentFrames v.trace = sentFrames w.trace ++ frames ∧
    List.Forall₂ (fun entry => Shipped c w.journal entry.2 entry.1)
      (pieces.zipIdx w.journal.nextTransmission) frames
  outbound : v.journal.outbound = w.journal.outbound
  counters : v.nextOut = w.nextOut ∧ v.journal.nextOut = w.journal.nextOut

def Interrupted (c : Ctx) (tick : Nat) : Prop :=
  ∃ t, tick ≤ t ∧ (c.env.storeFault t ≠ .none ∨ c.env.ioFault t ≠ .none)

structure Between (w v : World) : Prop where
  frames : sentFrames v.trace = sentFrames w.trace
  outbound : v.journal.outbound = w.journal.outbound
  counters : v.nextOut = w.nextOut ∧ v.journal.nextOut = w.journal.nextOut
  tick : w.tick ≤ v.tick

structure Proceeds (c : Ctx) (b : Nat) (w : World) (pieces : List Piece) (stop : Nat) (v : World) : Prop
    extends Ships c b w pieces stop v where
  next : v.journal.nextTransmission = w.journal.nextTransmission + pieces.length
  tick : w.tick ≤ v.tick

def Halted (c : Ctx) (b stop : Nat) (w v : World) : Prop :=
  Interrupted c w.tick ∧ ∃ pieces reached, Ships c b w pieces reached v ∧ reached ≤ stop

structure Filed (w : World) (pieces : List Piece) (piece : Piece) (wire : Bytes) (v : World) : Prop where
  record : v.journal.transmissions[w.journal.nextTransmission + pieces.length]? =
    some ⟨w.journal.nextTransmission + pieces.length,piece.front,ascii piece.kind,wire,.journaled⟩
  next : v.journal.nextTransmission = w.journal.nextTransmission + pieces.length + 1
  tick : w.tick ≤ v.tick

structure Fits (pieces : List Piece) (piece : Piece) : Prop where
  positive : piece.front < piece.back
  alone : ∀ p ∈ pieces.getLast?, p.path = .gapFill → piece.path ≠ .gapFill

section

variable {c : Ctx} {w u v : World} {b e n stop : Nat} {pieces : List Piece} {piece : Piece} {j : Journal}

open Prog

theorem sentAppend (new old : List Event) : sentFrames (new ++ old) = sentFrames old ++ sentFrames new := by
  simp only [sentFrames,List.filterMap_append,List.reverse_append]

namespace Between

instance : Std.Refl Between := ⟨fun _ => ⟨rfl,rfl,⟨rfl,rfl⟩,Nat.le_refl _⟩⟩

theorem ships (h : Ships c b w pieces stop u) (g : Between u v) : Ships c b w pieces stop v := by
  obtain ⟨frames,grown,shipped⟩ := h.frames
  exact ⟨h.span,h.apart,⟨frames,g.frames.trans grown,shipped⟩,g.outbound.trans h.outbound,
    g.counters.1.trans h.counters.1,g.counters.2.trans h.counters.2⟩

end Between

theorem Ships.start (w : World) : Ships c b w [] b w :=
  ⟨.nil b,.nil,⟨[],(List.append_nil _).symm,.nil⟩,rfl,rfl,rfl⟩

theorem betweenTransmission {op : StoreOp} (replay : replayOp op = true) (j : Journal) :
    (apply j op).2.outbound = j.outbound ∧ (apply j op).2.nextOut = j.nextOut := by
  have effect := effectOf j op
  generalize (apply j op).2 = k at effect ⊢
  cases effect <;> first | exact ⟨rfl,rfl⟩ | cases replay

theorem betweenStore (op : StoreOp) (replay : replayOp op = true) : Moves Between (storeApply c op) := by
  intro w
  have kept := betweenTransmission replay w.journal
  have after : Between w (applied op w) := ⟨rfl,kept.1,⟨rfl,kept.2⟩,Nat.le_succ _⟩
  unfold storeApply
  split
  · split <;> exact after
  · exact ⟨rfl,rfl,⟨rfl,rfl⟩,Nat.le_succ _⟩
  · exact after
  · exact ⟨rfl,rfl,⟨rfl,rfl⟩,Nat.le_succ _⟩
  · exact after

theorem storeInterrupted {op : StoreOp} {halt : Halt} {reply : StoreReply}
    (bad : storeApply c op w = (.error halt,v)) (answer : (apply w.journal op).1 = .ok reply) :
    c.env.storeFault w.tick ≠ .none := by
  intro healthy
  rw [storeReturns healthy answer] at bad
  cases bad

variable {wire : Bytes}

theorem Ships.halted (h : Ships c b w pieces stop v) {tick : Nat} (later : w.tick ≤ tick)
    (fault : c.env.storeFault tick ≠ .none ∨ c.env.ioFault tick ≠ .none) : Halted c b stop w v :=
  ⟨⟨tick,later,fault⟩,pieces,stop,h,Nat.le_refl _⟩

theorem filesPiece : Meets (Proceeds c b w pieces stop)
    (storeApply c (.commitTransmission ⟨piece.front,ascii piece.kind,wire⟩))
    (fun reply v => reply = .transmission
        ⟨w.journal.nextTransmission + pieces.length,piece.front,ascii piece.kind,wire,.journaled⟩ ∧
      Ships c b w pieces stop v ∧ Filed w pieces piece wire v)
    (fun _ => Halted c b stop w) := by
  intro u h
  have between := betweenStore (c := c) (.commitTransmission ⟨piece.front,ascii piece.kind,wire⟩) rfl u
  rcases run : storeApply c (.commitTransmission ⟨piece.front,ascii piece.kind,wire⟩) u with ⟨halt | reply,v⟩
  · rw [run] at between
    exact (between.ships h.toShips).halted h.tick (.inl (storeInterrupted run rfl))
  · rw [run] at between
    obtain ⟨-,answer,rfl⟩ := storeReturned run
    cases answer
    refine ⟨by rw [h.next],between.ships h.toShips,?_,?_,h.tick.trans between.tick⟩
    · change (u.journal.transmissions.insert u.journal.nextTransmission _)[_]? = _
      rw [h.next]
      exact Std.ExtTreeMap.getElem?_insert_self
    · change u.journal.nextTransmission + 1 = _
      rw [h.next]

theorem writesPiece (fits : Fits pieces piece) {fields : List Field} (source : Source c w.journal fields piece) (numbered : valuesOf fields 34 = [decimal piece.front])
    (flagged : valuesOf fields 43 = [ascii "Y"]) (encodes : encodeMessage c.config.beginString fields = .ok wire) :
    Meets (fun u => Ships c b w pieces piece.front u ∧ Filed w pieces piece wire u) (socketWrite c piece.path wire)
      (fun _ v => Ships c b w (pieces ++ [piece]) piece.back v ∧ Filed w pieces piece wire v)
      (fun _ => Halted c b piece.back w) := by
  rintro u ⟨h,filed⟩
  have handedOver : Ships c b w (pieces ++ [piece]) piece.back (handed piece.path wire u) := by
    obtain ⟨frames,grown,shipped⟩ := h.frames
    refine ⟨h.span.snoc fits.positive,?_,⟨frames ++ [⟨piece.path,wire,u.journal⟩],?_,?_⟩,h.outbound,h.counters⟩
    · exact h.apart.append (.singleton _) fun p last q first => by
        cases first
        exact fits.alone p last
    · have one : sentFrames (handed piece.path wire u).trace =
          sentFrames u.trace ++ sentFrames [.wrote piece.path wire u.journal] := sentAppend [_] u.trace
      rw [one,grown,List.append_assoc]
      rfl
    · rw [List.zipIdx_append]
      exact List.rel_append shipped (.cons ⟨rfl,⟨fields,source,numbered,flagged,encodes⟩,filed.record⟩ .nil)
  have before : Halted c b piece.back w {u with tick := u.tick + 1} ∨ c.env.ioFault u.tick = .none := by
    by_cases healthy : c.env.ioFault u.tick = .none
    · exact .inr healthy
    · have kept : Ships c b w pieces piece.front {u with tick := u.tick + 1} := ⟨h.span,h.apart,h.frames,h.outbound,h.counters⟩
      exact .inl ⟨⟨u.tick,filed.tick,.inr healthy⟩,pieces,_,kept,Nat.le_of_lt fits.positive⟩
  unfold socketWrite
  cases fault : c.env.ioFault u.tick with
  | none => exact ⟨handedOver,filed.record,filed.next,filed.tick.trans (Nat.le_succ _)⟩
  | refused _ | crashBefore => exact before.resolve_right (by rw [fault]; exact fun same => nomatch same)
  | lost _ | crashAfter => exact handedOver.halted filed.tick (.inr (by rw [fault]; exact fun same => nomatch same))

theorem transmissionMarked (mark : MarkTransmissionWritten) {record : TransmissionRecord}
    (found : j.transmissions[mark.id]? = some record) : apply j (.markTransmissionWritten mark) =
      (.ok (.transmission {record with phase := .written}),withTransmissionWritten j record) := by
  simp only [apply,markTransmissionWritten,found]
  rfl

theorem marksPiece : Meets (fun u => Ships c b w (pieces ++ [piece]) piece.back u ∧ Filed w pieces piece wire u)
    (do let _ ← storeApply c (.markTransmissionWritten ⟨w.journal.nextTransmission + pieces.length⟩); pure () :
      Act Unit)
    (fun _ => Proceeds c b w (pieces ++ [piece]) piece.back) (fun _ => Halted c b piece.back w) := by
  rintro u ⟨ships,filed⟩
  have answer := transmissionMarked ⟨w.journal.nextTransmission + pieces.length⟩ filed.record
  have replay : replayOp (.markTransmissionWritten ⟨w.journal.nextTransmission + pieces.length⟩) = true := rfl
  generalize StoreOp.markTransmissionWritten ⟨w.journal.nextTransmission + pieces.length⟩ = op at answer replay ⊢
  have between := betweenStore (c := c) op replay u
  rcases run : storeApply c op u with ⟨halt | reply,v⟩
  · rw [run] at between
    rw [bindStops run]
    exact (between.ships ships).halted filed.tick (.inl (storeInterrupted run (by rw [answer])))
  · rw [run] at between
    rw [bindReturns run]
    obtain ⟨-,-,rfl⟩ := storeReturned run
    refine ⟨between.ships ships,?_,filed.tick.trans between.tick⟩
    simp only [applied,answer,withTransmissionWritten,filed.next,List.length_append,List.length_singleton,Nat.add_assoc]

theorem shipsPiece (piece : Piece) (fits : Fits pieces piece) {fields : List Field} (source : Source c w.journal fields piece)
    (numbered : valuesOf fields 34 = [decimal piece.front]) (flagged : valuesOf fields 43 = [ascii "Y"])
    (encodes : encodeMessage c.config.beginString fields = .ok wire) :
    Meets (Proceeds c b w pieces piece.front) (writeReplayTransmission c piece.path piece.front piece.kind wire)
      (fun _ => Proceeds c b w (pieces ++ [piece]) piece.back) (fun _ => Halted c b piece.back w) := by
  refine Meets.bind (Meets.weaken filesPiece (fun _ h => h) (fun _ _ h => h) ?_) fun reply => ?_
  · rintro _ v ⟨fault,ps,reached,ships,within⟩
    exact ⟨fault,ps,reached,ships,within.trans (Nat.le_of_lt fits.positive)⟩
  intro u h
  obtain ⟨rfl,ships,filed⟩ := h
  have written := writesPiece (b := b) fits source numbered flagged encodes
  have logs : Meets (fun u => Ships c b w pieces piece.front u ∧ Filed w pieces piece wire u)
      (emit (.logged (.outgoing wire))) (fun _ u => Ships c b w pieces piece.front u ∧ Filed w pieces piece wire u)
      (fun _ => Halted c b piece.back w) := Meets.change fun u h =>
    ⟨⟨h.1.span,h.1.apart,h.1.frames,h.1.outbound,h.1.counters⟩,h.2.record,h.2.next,h.2.tick⟩
  have dates : Meets (fun u => Ships c b w (pieces ++ [piece]) piece.back u ∧ Filed w pieces piece wire u)
      (do let at' ← now c; Prog.change fun w => {w with lastOutbound := at'} : Act Unit)
      (fun _ u => Ships c b w (pieces ++ [piece]) piece.back u ∧ Filed w pieces piece wire u)
      (fun _ => Halted c b piece.back w) := fun u h =>
    ⟨⟨h.1.span,h.1.apart,h.1.frames,h.1.outbound,h.1.counters⟩,h.2.record,h.2.next,h.2.tick.trans (Nat.le_succ _)⟩
  exact Meets.bind (Meets.bind logs fun _ => Meets.bind written fun _ => dates) (fun _ => marksPiece) u ⟨ships,filed⟩

theorem shipsApplication (sendable : Sendable c) (replayable : Replayable w.journal) {record : OutboundRecord}
    (found : w.journal.outbound[n]? = some record) (order : record.command.clOrdId ≠ []) (fits : n < u64Limit) :
    Meets (Proceeds c b w pieces n) (writeApplicationReplay c record.wire)
      (fun _ => Proceeds c b w (pieces ++ [.application n]) (n + 1)) (fun _ => Halted c b (n + 1) w) := by
  obtain ⟨beginString,time,original,app⟩ := replayable.wired n record found order
  intro u h
  obtain ⟨copy,encodes⟩ := copyEncodes sendable app (c.env.sendingTime u.tick)
  obtain ⟨numbered,flagged,-⟩ := copyValues (c.env.sendingTime u.tick) app.toApplicationFields
  rw [applicationReplayRun app fits,encodes]
  exact shipsPiece (.application n) ⟨Nat.lt_succ_self n,fun _ _ _ same => nomatch same⟩
    ⟨record,beginString,time,original,_,found,order,app,rfl⟩ numbered flagged (encodedOutbound encodes) _
    ⟨⟨h.span,h.apart,h.frames,h.outbound,h.counters⟩,h.next,h.tick.trans (Nat.le_succ _)⟩

theorem gapFillEncodes (sendable : Sendable c) (time : Bytes) (start newSeqNo : Nat) :
    ∃ wire, encodeOutbound c (gapFillFields c time start newSeqNo) = .ok wire := by
  have usable : ∀ f ∈ gapFillFields c time start newSeqNo, f.tag ≠ 0 ∧ f.tag ∉ [8, 9, 10] := by
    simp [gapFillFields]
  have encodes := encodeFrom ⟨sendable,rfl,(encodeBodyExact _ _).mpr ⟨usable,rfl⟩⟩
  exact ⟨_,by rw [encodeOutbound,encodes]⟩

theorem shipsGap (sendable : Sendable c) {start newSeqNo : Nat} (positive : start < newSeqNo)
    (idle : ∀ n, start ≤ n → n < newSeqNo → ¬ OrderAt w.journal n) (alone : ∀ p ∈ pieces.getLast?, p.path ≠ .gapFill) :
    Meets (Proceeds c b w pieces start) (writeGapFill c start newSeqNo)
      (fun _ => Proceeds c b w (pieces ++ [.gapFill start newSeqNo]) newSeqNo) (fun _ => Halted c b newSeqNo w) := by
  intro u h
  generalize clock : c.env.sendingTime u.tick = time
  obtain ⟨wire,encodes⟩ := gapFillEncodes sendable time start newSeqNo
  have read : sendingTime c u = (.ok time,{u with tick := u.tick + 1}) := by rw [← clock]; rfl
  unfold writeGapFill
  rw [bindReturns read,encodes]
  exact shipsPiece (.gapFill start newSeqNo) ⟨positive,fun p last gap => absurd gap (alone p last)⟩
    ⟨idle,time,rfl⟩ rfl rfl (encodedOutbound encodes) _
    ⟨⟨h.span,h.apart,h.frames,h.outbound,h.counters⟩,h.next,h.tick.trans (Nat.le_succ _)⟩

structure Pending (j : Journal) (pieces : List Piece) (gapStart : Option Nat) (pos : Nat) : Prop where
  idle : ∀ start, gapStart = some start → start < pos ∧ ∀ n, start ≤ n → n < pos → ¬ OrderAt j n
  alone : ∀ p ∈ pieces.getLast?, p.path ≠ .gapFill

theorem closesGap (sendable : Sendable c) {gapStart : Option Nat} {pos : Nat}
    (pending : Pending w.journal pieces gapStart pos) :
    Meets (Proceeds c b w pieces (gapStart.getD pos)) (closeGap c gapStart pos)
      (fun _ v => ∃ pieces, Proceeds c b w pieces pos v) (fun _ => Halted c b pos w) := by
  cases gapStart with
  | none => exact Meets.pure fun u h => ⟨pieces,h⟩
  | some start =>
    obtain ⟨positive,idle⟩ := pending.idle start rfl
    exact Meets.weaken (shipsGap sendable positive idle pending.alone) (fun _ h => h) (fun _ v h => ⟨_,h⟩)
      fun _ _ h => h

theorem Pending.extend {gapStart : Option Nat} {pos : Nat} (pending : Pending j pieces gapStart pos)
    (here : ¬ OrderAt j pos) : Pending j pieces (some (gapStart.getD pos)) (pos + 1) := by
  refine ⟨fun start same => ?_,pending.alone⟩
  cases same
  cases gapStart with
  | none => exact ⟨Nat.lt_succ_self pos,fun n first last => by
      rwa [show n = pos from Nat.le_antisymm (Nat.le_of_lt_succ last) first]⟩
  | some start =>
    obtain ⟨positive,idle⟩ := pending.idle start rfl
    refine ⟨positive.trans (Nat.lt_succ_self pos),fun n first last => ?_⟩
    rcases Nat.lt_succ_iff_lt_or_eq.mp last with before | rfl
    · exact idle n first before
    · exact here

theorem Halted.wider {reached : Nat} (h : Halted c b reached w v) (within : reached ≤ stop) : Halted c b stop w v := by
  obtain ⟨fault,pieces,short,ships,inside⟩ := h
  exact ⟨fault,pieces,short,ships,inside.trans within⟩

theorem loopShips (sendable : Sendable c) (replayable : Replayable w.journal) (small : e < u64Limit)
    {records : Table Nat OutboundRecord} {count : Nat} : ∀ {pos : Nat} {gapStart : Option Nat}, pos + count = e + 1 →
    (∀ n, pos ≤ n → n ≤ e → records[n]? = w.journal.outbound[n]?) →
    Meets (fun u => ∃ pieces, Proceeds c b w pieces (gapStart.getD pos) u ∧ Pending w.journal pieces gapStart pos)
      (replayLoop c records e (List.range' pos count) gapStart)
      (fun _ v => ∃ pieces, Proceeds c b w pieces (e + 1) v) (fun _ => Halted c b (e + 1) w) := by
  induction count with
  | zero =>
    rintro pos gapStart rest _ u ⟨pieces,h,pending⟩
    cases rest
    exact closesGap sendable pending u h
  | succ count ih =>
    rintro pos gapStart rest loaded u ⟨pieces,h,pending⟩
    have onward : ∀ n, pos + 1 ≤ n → n ≤ e → records[n]? = w.journal.outbound[n]? :=
      fun n first => loaded n (Nat.le_of_succ_le first)
    -- a number without an application message joins the pending gap
    have joins (here : ¬ OrderAt w.journal pos) : Meets (· = u)
        (replayLoop c records e (List.range' (pos + 1) count) (some (gapStart.getD pos)))
        (fun _ v => ∃ pieces, Proceeds c b w pieces (e + 1) v) (fun _ => Halted c b (e + 1) w) :=
      Meets.weaken (ih (by omega) onward) (fun _ same => same ▸ ⟨pieces,h,pending.extend here⟩) (fun _ _ h => h)
        fun _ _ h => h
    rw [List.range'_succ,replayLoop]
    cases found : records[pos]? with
    | none =>
      refine joins ?_ u rfl
      rintro ⟨record,own,-⟩
      rw [← loaded pos (Nat.le_refl _) (by omega),found] at own
      cases own
    | some record =>
      have own : w.journal.outbound[pos]? = some record := by rw [← loaded pos (Nat.le_refl _) (by omega),found]
      by_cases order : record.command.clOrdId ≠ []
      · simp only [if_pos order]
        refine Meets.bind (P := (· = u)) (Q := fun _ v => ∃ pieces, Proceeds c b w pieces pos v) ?_ (fun _ => ?_) u rfl
        · rintro _ rfl
          exact Meets.weaken (closesGap sendable pending) (fun _ h => h) (fun _ _ h => h)
            (fun _ _ halted => halted.wider (by omega)) _ h
        refine Meets.bind (Q := fun _ v => ∃ pieces, Proceeds c b w pieces (pos + 1) v ∧ Pending w.journal pieces none (pos + 1))
          ?_ fun _ => @ih _ none (by omega) onward
        rintro v ⟨pieces,h⟩
        refine Meets.weaken (shipsApplication sendable replayable own order (by omega)) (fun _ h => h)
          (fun _ _ h => ⟨_,h,⟨fun _ bad => (by cases bad),?_⟩⟩) (fun _ _ halted => halted.wider (by omega)) _ h
        simp [Piece.path]
      · simp only [if_neg order]
        refine joins ?_ u rfl
        rintro ⟨other,here,replayed⟩
        rw [own] at here
        cases here
        exact order replayed

theorem loadedRecords (keyed : ∀ (n : Nat) (record : OutboundRecord), j.outbound[n]? = some record →
    record.command.msgSeqNum = n) (numbers : List Nat) (n : Nat) :
    (bySequence (numbers.filterMap fun n => j.outbound[n]?))[n]? = if n ∈ numbers then j.outbound[n]? else none := by
  have fold : ∀ table : Table Nat OutboundRecord, ((numbers.filterMap fun n => j.outbound[n]?).foldl
      (fun table record => table.insert record.command.msgSeqNum record) table)[n]? =
        if n ∈ numbers then (j.outbound[n]?).or table[n]? else table[n]? := by
    induction numbers with
    | nil => intro table; rfl
    | cons k numbers ih =>
      intro table
      cases found : j.outbound[k]? with
      | none =>
        rw [List.filterMap_cons_none found,ih table]
        by_cases same : n = k
        · subst same
          simp [found]
        · simp [same]
      | some record =>
        rw [List.filterMap_cons_some found,List.foldl_cons,ih,keyed k record found,Std.ExtTreeMap.getElem?_insert]
        by_cases same : n = k
        · subst same
          simp [found]
        · have other : ¬ compare k n = .eq := fun eq => same (Std.compare_eq_iff_eq.mp eq).symm
          simp [same,other]
  rw [bySequence,fold]
  split <;> simp

theorem loadShips (first : b ≤ e) (pinned : w = u) : Meets (· = u) (storeApply c (.loadOutboundRange ⟨b,e⟩))
    (fun reply v => reply = .outbound ((List.range' b (e + 1 - b)).filterMap fun n => w.journal.outbound[n]?) ∧
      Proceeds c b w [] b v) (fun _ => Halted c b (e + 1) w) := by
  rintro _ rfl
  subst pinned
  have between := betweenStore (c := c) (.loadOutboundRange ⟨b,e⟩) rfl w
  rcases run : storeApply c (.loadOutboundRange ⟨b,e⟩) w with ⟨halt | reply,v⟩
  · rw [run] at between
    exact ⟨⟨w.tick,Nat.le_refl _,.inl (storeInterrupted run rfl)⟩,[],b,between.ships (.start w),by omega⟩
  · rw [run] at between
    obtain ⟨-,answer,rfl⟩ := storeReturned run
    cases answer
    exact ⟨rfl,between.ships (.start w),rfl,between.tick⟩

theorem shippedEach {k : Nat} {frames : List Frame}
    (shipped : List.Forall₂ (fun entry => Shipped c j entry.2 entry.1) (pieces.zipIdx k) frames) (mem : piece ∈ pieces) :
    ∃ id frame, Shipped c j id piece frame := by
  induction pieces generalizing k frames with
  | nil => cases mem
  | cons first rest ih =>
    rw [List.zipIdx_cons] at shipped
    rcases shipped with _ | ⟨here,later⟩
    rcases List.mem_cons.mp mem with rfl | behind
    · exact ⟨_,_,here⟩
    · exact ih later behind

theorem Ships.orders (h : Ships c b w pieces stop v) (first : b ≤ n) (last : n < stop) :
    .application n ∈ pieces ↔ OrderAt w.journal n := by
  obtain ⟨frames,-,shipped⟩ := h.frames
  constructor
  · intro mem
    obtain ⟨id,frame,sent⟩ := shippedEach shipped mem
    obtain ⟨fields,⟨record,_,_,_,_,found,order,-⟩,-⟩ := sent.fields
    exact ⟨record,found,order⟩
  · intro order
    obtain ⟨piece,mem,lower,upper⟩ := h.span.covers first last
    cases piece with
    | application k =>
      rwa [show n = k from Nat.le_antisymm (Nat.le_of_lt_succ upper) lower]
    | gapFill start newSeqNo =>
      obtain ⟨id,frame,sent⟩ := shippedEach shipped mem
      obtain ⟨fields,⟨idle,-⟩,-⟩ := sent.fields
      exact absurd order (idle n lower upper)

/-- The replay of an accepted range: what it writes covers a beginning of the range, and
the whole of it unless the store or the socket fails on the way. -/
theorem replayCoversRange (sendable : Sendable c) (replayable : Replayable w.journal)
    (range : 1 ≤ b ∧ b ≤ e ∧ e < w.nextOut) (counted : w.nextOut ≤ u64Limit) :
    ∃ pieces stop, Ships c b w pieces stop (replayValidatedRange c b e w).2 ∧ stop ≤ e + 1 ∧
      (∀ n, b ≤ n → n < stop → (.application n ∈ pieces ↔ OrderAt w.journal n)) ∧
      ((replayValidatedRange c b e w).1 = .ok () → stop = e + 1) ∧
      ((replayValidatedRange c b e w).1 ≠ .ok () → Interrupted c w.tick) := by
  obtain ⟨-,ordered,below⟩ := range
  have run : Meets (· = w) (replayValidatedRange c b e)
      (fun _ v => ∃ pieces, Proceeds c b w pieces (e + 1) v) (fun _ => Halted c b (e + 1) w) := by
    refine Meets.bind (loadShips ordered rfl) fun reply => ?_
    rintro u ⟨rfl,h⟩
    refine loopShips sendable replayable (by omega) (by omega) (fun n first last => ?_) u
      ⟨[],h,fun _ bad => (nomatch bad),fun _ bad => (nomatch bad)⟩
    rw [loadedRecords replayable.keyed,if_pos (List.mem_range'_1.mpr (by omega))]
  have outcome := run w rfl
  rcases ended : replayValidatedRange c b e w with ⟨halt | done,v⟩
  all_goals rw [ended] at outcome
  · obtain ⟨fault,pieces,stop,ships,within⟩ := outcome
    exact ⟨pieces,stop,ships,within,fun n => ships.orders,fun bad => (nomatch bad),fun _ => fault⟩
  · obtain ⟨pieces,h⟩ := outcome
    exact ⟨pieces,e + 1,h.toShips,Nat.le_refl _,fun n => h.toShips.orders,fun _ => rfl,fun bad => absurd rfl bad⟩

end

def CommitsWired (j : Journal) (op : StoreOp) : Prop :=
  MarksOwn j op ∧ ∀ commit, op = .commitOutbound commit → commit.clOrdId ≠ [] →
    ∃ beginString time fields, ApplicationWire beginString commit.msgSeqNum time fields commit.wire

theorem Replayable.effect {j k : Journal} {op : StoreOp} (agrees : Agrees j) (ledger : Ledger j) (h : Replayable j)
    (wired : CommitsWired j op) (effect : Effect j op k) : Replayable k := by
  refine ⟨fun n record found => (agreesEffect ledger agrees effect n record found).1,?_⟩
  cases effect with
  | none | transmission _ | transmissionWritten _ | inbound _ _ _ | resync _ _ => exact h.wired
  | reset => exact fun n record found => by simp [withReset] at found
  | @outbound commit fresh expected =>
    intro n record found order
    simp only [withOutbound,Std.ExtTreeMap.getElem?_insert] at found
    split at found
    · rename_i same
      cases found
      rw [← Std.compare_eq_iff_eq.mp same]
      exact wired.2 commit rfl order
    · exact h.wired n record found order
  | @written mark command outbound found same sent =>
    intro n record here order
    simp only [withWritten,Std.ExtTreeMap.getElem?_insert] at here
    split at here
    · rename_i number
      cases here
      -- the marked command is the one of the record
      have own := wired.1 mark rfl command outbound found same sent
      have onRecord := (agrees _ _ sent).2
      rw [own,found] at onRecord
      rw [← Std.compare_eq_iff_eq.mp number,same]
      exact h.wired _ outbound sent (by rw [← Option.some.inj onRecord]; exact order)
    · exact h.wired n record here order

theorem replayableJournal (ops : List StoreOp)
    (wired : Along (fun j op => (apply j op).2) CommitsWired .empty ops) : Replayable (journalOf ops) := by
  have start : Ledger Journal.empty ∧ Agrees Journal.empty ∧ Replayable Journal.empty :=
    ⟨ledgerEmpty,fun _ _ found => by simp [Journal.empty] at found,
      fun _ _ found => by simp [Journal.empty] at found,fun _ _ found => by simp [Journal.empty] at found⟩
  have kept := foldInvariant (I := fun j => Ledger j ∧ Agrees j ∧ Replayable j)
    (fun j op own h => ⟨h.1.effect (effectOf j op),agreesEffect h.1 h.2.1 (effectOf j op),
      h.2.2.effect h.2.1 h.1 own (effectOf j op)⟩) start wired
  exact kept.2.2

def orderFields : List Field :=
  headerFields (ascii "D") (ascii "CLIENT") (ascii "VENUE") 2 venueTime ++ [⟨11,ascii "C1"⟩,⟨54,ascii "1"⟩]

def orderWire : Bytes := (encodeMessage (ascii "FIX.4.4") orderFields).toOption.getD []

def orderedOps : List StoreOp :=
  [.commitOutbound ⟨ascii "session:logon:1:1",ascii "admin:A:1",[],1,ascii "logon"⟩,
    .commitOutbound ⟨ascii "order-1",ascii "f1",ascii "C1",2,orderWire⟩,
    .commitOutbound ⟨ascii "session:heartbeat:3:3",ascii "admin:0:3",[],3,ascii "heartbeat"⟩]

def afterOrder : World := {atVenue with journal := journalOf orderedOps, nextOut := 4}

theorem orderWired : ApplicationWire (ascii "FIX.4.4") 2 venueTime orderFields orderWire :=
  ⟨⟨⟨_,_,_,_,rfl,by decide⟩,by decide +kernel⟩,by decide +kernel,by decide +kernel⟩

theorem replayCoversRangeAtVenue : (4 ≤ u64Limit ∧
    ((replayValidatedRange venueCtx 1 3 afterOrder).2.trace.filterMap sentFrame).length =
      (afterOrder.trace.filterMap sentFrame).length + 3) ∧
    ∃ pieces stop, Ships venueCtx 1 afterOrder pieces stop (replayValidatedRange venueCtx 1 3 afterOrder).2 ∧
      stop ≤ 4 ∧ (∀ n, 1 ≤ n → n < stop → (.application n ∈ pieces ↔ OrderAt afterOrder.journal n)) ∧
      ((replayValidatedRange venueCtx 1 3 afterOrder).1 = .ok () → stop = 4) ∧
      ((replayValidatedRange venueCtx 1 3 afterOrder).1 ≠ .ok () → Interrupted venueCtx afterOrder.tick) := by
  have logonFree : ∀ commit, (.commitOutbound commit : StoreOp) ∈ orderedOps → commit.clOrdId ≠ [] →
      commit = ⟨ascii "order-1",ascii "f1",ascii "C1",2,orderWire⟩ := by
    intro commit mem order
    simp only [orderedOps,List.mem_cons,List.not_mem_nil,or_false,StoreOp.commitOutbound.injEq] at mem
    rcases mem with rfl | rfl | rfl
    · exact absurd rfl order
    · rfl
    · exact absurd rfl order
  have wired : Along (fun j op => (apply j op).2) CommitsWired .empty orderedOps := by
    refine alongEach (fun op mem j => ⟨fun mark same => ?_,fun commit same order => ?_⟩) _
    · subst same
      simp [orderedOps] at mem
    · subst same
      rw [logonFree commit mem order]
      exact ⟨_,_,_,orderWired⟩
  have sendable : Sendable venueCtx := ⟨by decide,by decide,by decide⟩
  exact ⟨by decide +kernel,replayCoversRange (e := 3) sendable (replayableJournal orderedOps wired) (by decide) (by decide)⟩

end FixCli.Session
