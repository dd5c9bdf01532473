import FixCli.CopiesVerify
import FixCli.GapOpening

/-! The peer's replay of what a session has lost. It closes the gap, but a GapFill knows
nothing of what was buffered meanwhile: where its first number has come out of the buffer,
the PossDup check refuses it. -/
namespace FixCli.Session
open Lib Codec Store

def replayed (p : Ctx) (u : World) (b : Nat) : List Bytes :=
  match validateReplayRange u.nextOut b 0 with
  | .ok (first,stop) =>
    ((sentFrames (replayValidatedRange p first stop u).2.trace).drop (sentFrames u.trace).length).map Frame.wire
  | .error _ => []

def piecesOf (log : Nat → LogMessage) (b last : Nat) : List Piece :=
  piecesFrom (fun n => (log n).application) (last + 1) (List.range' b (last + 1 - b)) none

def Recovers (c : Ctx) (w : World) (last : Nat) (frames : List Bytes) : Prop :=
  ∃ v, deliver c frames w = (.ok (),v) ∧ v.phase = .established ∧ v.nextIn = last + 1 ∧ v.gapBuffer = ∅

/-- No Heartbeat or TestRequest right behind an application message got through ahead of
its turn, and nothing that is delivered carries a field that the actor refuses. -/
structure Mendable (c : Ctx) (last : Nat) (log : Nat → LogMessage) (lost : List Nat) (b : Nat) : Prop where
  heads : ∀ n, b < n → n ≤ last → (log n).application = false → (log (n - 1)).application = true → n ∈ lost
  clear : ∀ n, 1 ≤ n → n ≤ last → n ∉ lost ∨ (log n).application = true → Clear c (log n).body
  fills : (∃ n, b ≤ n ∧ n ≤ last ∧ (log n).application = false) →
    isSensitiveTag c 123 = false ∧ isSensitiveTag c 36 = false

section

variable {c p : Ctx} {base u w v : World} {lost : List Nat} {b n last : Nat} {frame : Bytes} {log : Nat → LogMessage}

open Prog

theorem pairedWithin {α β : Type} {R S : α → β → Prop} {xs : List α} {ys : List β} (paired : List.Forall₂ R xs ys)
    (each : ∀ x ∈ xs, ∀ y ∈ ys, R x y → S x y) : List.Forall₂ S xs ys := by
  induction paired with
  | nil => exact .nil
  | cons here _ ih =>
    refine .cons (each _ List.mem_cons_self _ List.mem_cons_self here) (ih fun x mx y my => ?_)
    exact each x (List.mem_cons_of_mem _ mx) y (List.mem_cons_of_mem _ my)

theorem pairedWith {α β : Type} {R : α → β → Prop} {xs : List α} {ys : List β} (paired : List.Forall₂ R xs ys) {y : β}
    (mem : y ∈ ys) : ∃ x ∈ xs, R x y := by
  induction paired with
  | nil => cases mem
  | cons here _ ih =>
    rcases List.mem_cons.mp mem with rfl | behind
    · exact ⟨_,List.mem_cons_self,here⟩
    · obtain ⟨x,inside,own⟩ := ih behind
      exact ⟨x,List.mem_cons_of_mem _ inside,own⟩

theorem piecesOfSpan (within : b ≤ last) : Span Piece.front Piece.back b (piecesOf log b last) (last + 1) := by
  have stop : b + (last + 1 - b) = last + 1 := by omega
  have span := @piecesSpan (last + 1 - b) (fun n => (log n).application) b none fun _ none => by cases none
  rwa [stop] at span

theorem piecesOfFronts (within : b ≤ last) :
    (∃ piece ∈ piecesOf log b last, piece.path = .gapFill ∧ piece.front = n) ↔
      b ≤ n ∧ n ≤ last ∧ (log n).application = false ∧ (n = b ∨ b < n ∧ (log (n - 1)).application = true) := by
  have stop : b + (last + 1 - b) = last + 1 := by omega
  have fronts : (∃ piece ∈ piecesFrom (fun n => (log n).application) (b + (last + 1 - b))
      (List.range' b (last + 1 - b)) none, piece.path = .gapFill ∧ piece.front = n) ↔ _ := gapFillFronts
  rw [stop] at fronts
  refine fronts.trans ?_
  grind

theorem PeerLog.replayable (peer : PeerLog c p u last log) : Replayable u.journal := by
  refine ⟨fun n record found => (peer.recorded n record found).1,fun n record found order => ?_⟩
  obtain ⟨positive,within⟩ := (peer.sent n).mp (Table.memOfGet found)
  obtain ⟨-,orders,wires⟩ := peer.recorded n record found
  rw [wires (orders.mp order)]
  exact ⟨_,_,_,(peer.logged n positive within).wired⟩

theorem PeerLog.orders (peer : PeerLog c p u last log) (positive : 1 ≤ n) (within : n ≤ last) :
    (log n).application = true ↔ OrderAt u.journal n := by
  obtain ⟨record,found⟩ := Table.getOfMem ((peer.sent n).mpr ⟨positive,within⟩)
  obtain ⟨-,orders,-⟩ := peer.recorded n record found
  constructor
  · exact fun application => ⟨record,found,orders.mpr application⟩
  · rintro ⟨other,there,order⟩
    cases found.symm.trans there
    exact orders.mp order

theorem PeerLog.replayDrawn (peer : PeerLog c p u last log) (small : last + 1 < u64Limit) (sendable : Sendable c)
    (healthy : Healthy p u.tick) (positive : 1 ≤ b) (within : b ≤ last) :
    List.Forall₂ (Drawn p u.journal u.tick) (replayed p u b) (piecesOf log b last) := by
  have sends : Sendable p := by
    unfold Sendable
    rw [peer.beginString]
    exact sendable
  have range : validateReplayRange u.nextOut b 0 = .ok (b,last) := by
    have inside : ¬ (b = 0 ∨ b > last) := by omega
    simp only [validateReplayRange,if_true,peer.nextOut,Nat.add_sub_cancel,inside,if_false]
  obtain ⟨v,run,draws⟩ := replayDraws (e := last) sends peer.replayable healthy (by omega)
    fun n first stop => peer.orders (positive.trans first) stop
  obtain ⟨frames,grown,drawn⟩ := draws.frames
  have written : replayed p u b = frames.map Frame.wire := by
    rw [replayed,range]
    simp only [run,grown,List.drop_left]
  rw [written]
  exact drawn

theorem deliveredRead {frames : List Bytes} (run : deliver c frames w = (.ok (),v)) (mem : frame ∈ frames) :
    ∃ message, parseInbound c frame = .ok message := by
  induction frames generalizing w with
  | nil => cases mem
  | cons first rest ih =>
    obtain ⟨⟨⟩,x,heard,run⟩ := bindReturned run
    rcases List.mem_cons.mp mem with rfl | behind
    · cases parsed : parseInbound c frame with
      | ok message => exact ⟨message,rfl⟩
      | error halt =>
        rw [handleUnparsed parsed] at heard
        cases heard
    · exact ih run behind

section

variable (peer : PeerLog c p u last log) (small : last + 1 < u64Limit)
  (accepted : validateCustomLogonFields c.logonFields [] = .ok ()) (loss : Loss b last lost)
include peer small accepted

theorem survivorsClear (read : ∀ frame ∈ survivors last log lost, ∃ message, parseInbound c frame = .ok message)
    (positive : 1 ≤ n) (within : n ≤ last) (there : n ∉ lost) : Clear c (log n).body := by
  have mem : (log n).wire ∈ survivors last log lost := by
    refine List.mem_map.mpr ⟨n,List.mem_filter.mpr ⟨List.mem_range'_1.mpr (by omega),decide_eq_true there⟩,rfl⟩
  obtain ⟨message,parsed⟩ := read _ mem
  exact (LogMessage.clear accepted).mp ((peer.original small positive within).clear parsed)

variable (drawn : List.Forall₂ (Drawn p u.journal u.tick) (replayed p u b) (piecesOf log b last))
  (fits : ∀ frame ∈ replayed p u b, frame.length < usizeLimit)
include loss drawn fits

theorem replayReads (clock : ∀ n, 1 ≤ n → n ≤ last → ∀ tick, u.tick ≤ tick → ¬ p.env.sendingTime tick < (log n).time)
    (mendable : ∀ n, b ≤ n → n ≤ last → (log n).application = true → Clear c (log n).body)
    (fills : (∃ n, b ≤ n ∧ n ≤ last ∧ (log n).application = false) →
      isSensitiveTag c 123 = false ∧ isSensitiveTag c 36 = false) :
    List.Forall₂ (Reads c fun n => (log n).wire) (replayed p u b) (piecesOf log b last) := by
  obtain ⟨above,below⟩ := loss.inner b loss.first
  refine pairedWithin drawn fun frame written piece mem own => ?_
  cases piece with
  | application n =>
    obtain ⟨inside,application⟩ := piecesOrders.mp mem
    have bound := List.mem_range'_1.mp inside
    exact peer.readsCopy small accepted application own (fits frame written)
      (mendable n bound.1 (by omega) application) (clock n (by omega) (by omega))
  | gapFill start newSeqNo =>
    obtain ⟨first,positive,stop⟩ := (piecesOfSpan (Nat.le_of_lt below)).bounds mem
    obtain ⟨-,within,idle,-⟩ := (piecesOfFronts (Nat.le_of_lt below)).mp ⟨_,mem,rfl,rfl⟩
    exact peer.readsGapFill small accepted (Nat.lt_of_lt_of_le above first) within positive stop own
      (fits frame written) (fills ⟨start,first,within,idle⟩)

theorem replayClear (read : ∀ frame ∈ replayed p u b, ∃ message, parseInbound c frame = .ok message) :
    (∀ n, b ≤ n → n ≤ last → (log n).application = true → Clear c (log n).body) ∧
    ((∃ n, b ≤ n ∧ n ≤ last ∧ (log n).application = false) →
      isSensitiveTag c 123 = false ∧ isSensitiveTag c 36 = false) := by
  obtain ⟨above,below⟩ := loss.inner b loss.first
  constructor
  · intro n first within application
    have mem : .application n ∈ piecesOf log b last :=
      piecesOrders.mpr ⟨List.mem_range'_1.mpr (by omega),application⟩
    obtain ⟨frame,written,own⟩ := pairedWith drawn mem
    obtain ⟨message,parsed⟩ := read frame written
    obtain ⟨tick,-,-,addressed⟩ := peer.copied small application own (fits frame written)
    exact (copyClear accepted (peer.logged n (by omega) within).free).mp (addressed.clear parsed)
  · rintro ⟨n,first,within,idle⟩
    obtain ⟨piece,mem,lower,upper⟩ := (piecesOfSpan (Nat.le_of_lt below)).covers first (Nat.lt_succ_of_le within)
    obtain ⟨frame,written,own⟩ := pairedWith drawn mem
    obtain ⟨message,parsed⟩ := read frame written
    cases piece with
    | application k =>
      obtain ⟨-,application⟩ := piecesOrders.mp mem
      have same : k = n := Nat.le_antisymm lower (Nat.le_of_lt_succ upper)
      rw [same,idle] at application
      cases application
    | gapFill start newSeqNo =>
      obtain ⟨time,addressed⟩ := peer.filled small (Nat.le_trans lower within) own (fits frame written)
      exact (gapFillClear accepted).mp (addressed.clear parsed)

end

theorem replayDecides (peer : PeerLog c p u last log) (small : last + 1 < u64Limit)
    (accepted : validateCustomLogonFields c.logonFields [] = .ok ()) (loss : Loss b last lost)
    (clear : ∀ n, 1 ≤ n → n ≤ last → n ∉ lost → Clear c (log n).body) (attached : Attached c w)
    (phase : w.phase = .logonSent) (empty : w.gapBuffer = ∅) (positive : 1 ≤ w.nextIn) (healthy : Healthy c w.tick)
    (few : (gapAhead b last lost).length ≤ gapBufferLimit)
    (reads : List.Forall₂ (Reads c fun n => (log n).wire) (replayed p u b) (piecesOf log b last)) :
    match deliver c (survivors last log lost ++ replayed p u b) w with
    | (.ok _, v) => (v.phase = .established ∧ v.nextIn = last + 1 ∧ v.gapBuffer = ∅) ∧
        ∀ n, b < n → n ≤ last → (log n).application = false → (log (n - 1)).application = true → n ∈ lost
    | (.error _, v) => Refused w v ∨ ∃ n, b < n ∧ n ≤ last ∧ (log n).application = false ∧
        (log (n - 1)).application = true ∧ n ∉ lost := by
  obtain ⟨above,below⟩ := loss.inner b loss.first
  have gets := survivorsDelivered peer small accepted loss clear attached phase empty positive healthy few
  rw [deliverAppend]
  rcases run : deliver c (survivors last log lost) w with ⟨halt | ⟨⟩,x⟩
  · rw [run] at gets
    rw [bindStops run]
    exact .inl gets
  rw [run] at gets
  rw [bindReturns run]
  obtain ⟨-,base,onward,refilling⟩ := gets
  have inside {k : Nat} : k ∈ (gapAhead b last lost).reverse ↔ b < k ∧ k ≤ last ∧ k ∉ lost := by
    rw [List.mem_reverse,gapAheadMem loss]
  have spoken : Spoken c True (fun n => (log n).wire) (gapAhead b last lost).reverse := fun k mem =>
    aheadSpoken peer small accepted loss clear k (List.mem_reverse.mp mem)
  have delivers := piecesDelivered spoken (healthy.later onward.later) attached.sendable
    (piecesOfSpan (Nat.le_of_lt below)) reads refilling
  rcases replay : deliver c (replayed p u b) x with ⟨halt | ⟨⟩,v⟩
  · rw [replay] at delivers
    refine delivers.imp onward.refused ?_
    rintro ⟨piece,mem,gap,held⟩
    obtain ⟨first,within,idle,start | ⟨later,order⟩⟩ := (piecesOfFronts (Nat.le_of_lt below)).mp ⟨piece,mem,gap,rfl⟩
    -- the first lost number was not held, so it is another fill that was refused
    · have own := (inside.mp held).1
      omega
    · exact ⟨piece.front,later,within,idle,order,(inside.mp held).2.2⟩
  · rw [replay] at delivers
    obtain ⟨whole,fronts⟩ := delivers
    refine ⟨whole.complete fun k mem => Nat.lt_succ_of_le (inside.mp mem).2.1,fun n later within idle order => ?_⟩
    obtain ⟨piece,mem,gap,rfl⟩ := (piecesOfFronts (Nat.le_of_lt below)).mpr
      ⟨Nat.le_of_lt later,within,idle,.inr ⟨later,order⟩⟩
    by_contra there
    exact fronts piece mem gap (inside.mpr ⟨later,within,there⟩)

theorem awaitingLogon {ops : List StoreOp} {trace : List Event} {tick : Nat} {inputs : List Input}
    (alive : run c (spawn c ⟨journalOf ops,trace,tick⟩) inputs = ⟨w,true⟩) (phase : w.phase = .logonSent) :
    Attached c w ∧ validateCustomLogonFields c.logonFields [] = .ok () ∧ w.gapBuffer = ∅ ∧ 1 ≤ w.nextIn := by
  have live : (run c (spawn c ⟨journalOf ops,trace,tick⟩) inputs).live = true := by rw [alive]
  have attached : Attached c w := by
    have reached := attachedRun (c := c) ⟨journalOf ops,trace,tick⟩ inputs live
    rwa [alive] at reached
  have empty : w.gapBuffer = ∅ := by
    have none := emptyLive live (by rw [alive]; exact phase)
    rwa [alive] at none
  have positive : 1 ≤ w.nextIn := by
    have journal : 0 < (run c (spawn c ⟨journalOf ops,trace,tick⟩) inputs).world.journal.nextIn := positiveLive
    rw [alive] at journal
    rw [← attached.nextIn]
    exact journal
  exact ⟨attached,acceptedLive live,empty,positive⟩

section

variable (attached : Attached c w) (accepted : validateCustomLogonFields c.logonFields [] = .ok ())
  (empty : w.gapBuffer = ∅) (positive : 1 ≤ w.nextIn) (phase : w.phase = .logonSent) (healthy : Healthy c w.tick)
  (peer : PeerLog c p u last log) (small : last + 1 < u64Limit) (loss : Loss b last lost)
  (few : (gapAhead b last lost).length ≤ gapBufferLimit)
include attached accepted empty positive phase healthy peer small loss few

theorem asksOnce (run : deliver c (survivors last log lost) w = (.ok (),v)) : AsksFrom c b w v := by
  have clear n := survivorsClear (n := n) peer small accepted fun frame mem => deliveredRead run mem
  have gets := survivorsDelivered peer small accepted loss clear attached phase empty positive healthy few
  rw [run] at gets
  exact gets.1

theorem recoversExactly (serving : Healthy p u.tick)
    (clock : ∀ n, 1 ≤ n → n ≤ last → ∀ tick, u.tick ≤ tick → ¬ p.env.sendingTime tick < (log n).time)
    (fits : ∀ frame ∈ replayed p u b, frame.length < usizeLimit)
    (answered : ¬ Refused w (deliver c (survivors last log lost ++ replayed p u b) w).2) :
    Recovers c w last (survivors last log lost ++ replayed p u b) ↔ Mendable c last log lost b := by
  obtain ⟨above,below⟩ := loss.inner b loss.first
  have drawn := peer.replayDrawn small attached.sendable serving (Nat.le_of_lt above) (Nat.le_of_lt below)
  refine ⟨?_,fun mendable => ?_⟩
  · rintro ⟨v,run,-⟩
    have read (frame : Bytes) (mem : frame ∈ survivors last log lost ++ replayed p u b) := deliveredRead run mem
    have clear n := survivorsClear (n := n) peer small accepted fun frame mem =>
      read frame (List.mem_append_left _ mem)
    obtain ⟨applications,fills⟩ := replayClear peer small accepted loss drawn fits fun frame mem =>
      read frame (List.mem_append_right _ mem)
    have decides := replayDecides peer small accepted loss clear attached phase empty positive healthy few
      (replayReads peer small accepted loss drawn fits clock applications fills)
    rw [run] at decides
    refine ⟨decides.2,fun n first within taken => ?_,fills⟩
    by_cases there : n ∈ lost
    · exact applications n (loss.least n there) within (taken.resolve_left (not_not_intro there))
    · exact clear n first within there
  · have reads := replayReads peer small accepted loss drawn fits clock
      (fun n first within application => mendable.clear n (by omega) within (.inr application)) mendable.fills
    have decides := replayDecides peer small accepted loss
      (fun n first within there => mendable.clear n first within (.inl there)) attached phase empty positive healthy
      few reads
    rcases run : deliver c (survivors last log lost ++ replayed p u b) w with ⟨halt | ⟨⟩,v⟩
    · rw [run] at decides answered
      rcases decides with refused | ⟨n,later,within,idle,order,there⟩
      · exact absurd refused answered
      · exact absurd (mendable.heads n later within idle order) there
    · rw [run] at decides
      exact ⟨v,run,decides.1⟩

end

/-- The actor asks once for what is missing, and the peer's replay brings the session up
to the end of the log exactly if it is mendable. -/
theorem gapRecovery {ops : List StoreOp} {trace : List Event} {tick : Nat} {inputs : List Input}
    (alive : run c (spawn c ⟨journalOf ops,trace,tick⟩) inputs = ⟨w,true⟩) (phase : w.phase = .logonSent)
    (healthy : Healthy c w.tick) (peer : PeerLog c p u last log) (serving : Healthy p u.tick)
    (clock : ∀ n, 1 ≤ n → n ≤ last → ∀ tick, u.tick ≤ tick → ¬ p.env.sendingTime tick < (log n).time)
    (small : last + 1 < u64Limit) (fits : ∀ frame ∈ replayed p u b, frame.length < usizeLimit)
    (loss : Loss b last lost) (few : (gapAhead b last lost).length ≤ gapBufferLimit)
    (answered : ¬ Refused w (deliver c (survivors last log lost ++ replayed p u b) w).2) :
    (∀ v, deliver c (survivors last log lost) w = (.ok (),v) → AsksFrom c b w v) ∧
    (Recovers c w last (survivors last log lost ++ replayed p u b) ↔ Mendable c last log lost b) := by
  obtain ⟨attached,accepted,empty,positive⟩ := awaitingLogon alive phase
  refine ⟨fun v run => ?_,?_⟩
  · exact asksOnce attached accepted empty positive phase healthy peer small loss few run
  · exact recoversExactly attached accepted empty positive phase healthy peer small loss few serving clock fits answered

def firstLost (lost : List Nat) : Nat := lost.min?.getD 0

theorem lossOf (some' : lost ≠ []) (inner : ∀ n ∈ lost, 1 < n ∧ n < last) : Loss (firstLost lost) last lost := by
  obtain ⟨first,least⟩ : ∃ first, lost.min? = some first := Option.ne_none_iff_exists'.mp fun none =>
    some' (List.min?_eq_none_iff.mp none)
  obtain ⟨mem,below⟩ := List.min?_eq_some_iff.mp least
  rw [firstLost,least,Option.getD_some]
  exact ⟨mem,below,inner⟩

/-- Read by the messages that get lost, whichever they are: the replay starts at the first
of them. -/
theorem lostMessagesRecovered {ops : List StoreOp} {trace : List Event} {tick : Nat} {inputs : List Input}
    (alive : run c (spawn c ⟨journalOf ops,trace,tick⟩) inputs = ⟨w,true⟩) (phase : w.phase = .logonSent)
    (healthy : Healthy c w.tick) (peer : PeerLog c p u last log) (serving : Healthy p u.tick)
    (clock : ∀ n, 1 ≤ n → n ≤ last → ∀ tick, u.tick ≤ tick → ¬ p.env.sendingTime tick < (log n).time)
    (small : last + 1 < u64Limit) (some' : lost ≠ []) (inner : ∀ n ∈ lost, 1 < n ∧ n < last)
    (fits : ∀ frame ∈ replayed p u (firstLost lost), frame.length < usizeLimit)
    (few : (gapAhead (firstLost lost) last lost).length ≤ gapBufferLimit)
    (answered : ¬ Refused w (deliver c (survivors last log lost ++ replayed p u (firstLost lost)) w).2) :
    (∀ v, deliver c (survivors last log lost) w = (.ok (),v) → AsksFrom c (firstLost lost) w v) ∧
    (Recovers c w last (survivors last log lost ++ replayed p u (firstLost lost)) ↔
      Mendable c last log lost (firstLost lost)) := by
  have loss := lossOf some' inner
  obtain ⟨attached,accepted,empty,positive⟩ := awaitingLogon alive phase
  refine ⟨fun v run => ?_,?_⟩
  · exact asksOnce attached accepted empty positive phase healthy peer small loss few run
  · exact recoversExactly attached accepted empty positive phase healthy peer small loss few serving clock fits answered

end

def venueMessage (msgType : String) (n : Nat) (body : List Field) : LogMessage :=
  ⟨ascii msgType,venueTime,body,venueFrame msgType n body⟩

def reportLog : Nat → LogMessage
  | 0 | 1 => venueMessage "A" 1 [⟨98,ascii "0"⟩,⟨108,ascii "30"⟩]
  | 2 => venueMessage "8" 2 [⟨37,ascii "O1"⟩]
  | 3 => venueMessage "0" 3 []
  | n + 4 => venueMessage "8" (n + 4) [⟨37,ascii "O2"⟩]

def reportOps : List StoreOp :=
  [.commitOutbound ⟨ascii "session:logon:1:1",ascii "admin:A:1",[],1,(reportLog 1).wire⟩,
    .commitOutbound ⟨ascii "report-1",ascii "f1",ascii "O1",2,(reportLog 2).wire⟩,
    .commitOutbound ⟨ascii "session:heartbeat:3:3",ascii "admin:0:3",[],3,(reportLog 3).wire⟩,
    .commitOutbound ⟨ascii "report-2",ascii "f2",ascii "O2",4,(reportLog 4).wire⟩]

def reported : World := {entering mirrorCtx fresh with journal := journalOf reportOps, nextOut := 5}

def loggingOn : World := (spawn venueCtx ⟨journalOf [],[],0⟩).world

theorem reportPeer : PeerLog venueCtx mirrorCtx reported 4 reportLog where
  beginString := rfl
  sender := rfl
  target := rfl
  plain := ⟨by decide,by decide,fun _ => show SOH ∉ venueTime by decide⟩
  nextOut := rfl
  logged := fun n first within => by
    have each : ∀ n ∈ [1, 2, 3, 4], encodeMessage mirrorCtx.config.beginString ((reportLog n).fields mirrorCtx n) =
        .ok (reportLog n).wire ∧ (reportLog n).wire.length < usizeLimit ∧ isUtf8 (reportLog n).msgType = true ∧
        (∀ f ∈ (reportLog n).fields mirrorCtx n, SOH ∉ f.value) ∧ ∀ f ∈ (reportLog n).body, f.tag ∉ headerTags := by
      decide +kernel
    obtain ⟨encodes,fits,utf8,plain,free⟩ := each n (by simp only [List.mem_cons,List.not_mem_nil]; omega)
    exact ⟨encodes,fits,utf8,plain,free⟩
  logon := ⟨by decide,ascii "30",by decide +kernel⟩
  mixed := fun n later within => by
    have cases : n = 2 ∨ n = 3 ∨ n = 4 := by omega
    rcases cases with rfl | rfl | rfl
    · exact .inl (by decide)
    · exact .inr (.inl rfl)
    · exact .inl (by decide)
  sent := fun n => by
    have last : (journalOf reportOps).nextOut = 5 := by decide +kernel
    refine ((journalGapless reportOps).1 n).trans ?_
    rw [last]
    omega
  recorded := fun n record found => by
    have inside := ((journalGapless reportOps).1 n).mp (Table.memOfGet found)
    have last : (journalOf reportOps).nextOut = 5 := by decide +kernel
    have each : ∀ n ∈ [1, 2, 3, 4], ∀ record ∈ ((journalOf reportOps).outbound[n]?).toList,
        record.command.msgSeqNum = n ∧ (record.command.clOrdId ≠ [] ↔ (reportLog n).application = true) ∧
        ((reportLog n).application = true → record.wire = (reportLog n).wire) := by
      decide +kernel
    rw [last] at inside
    refine each n (by simp only [List.mem_cons,List.not_mem_nil]; omega) record ?_
    rw [show (journalOf reportOps).outbound[n]? = some record from found]
    exact List.mem_singleton_self record

theorem loggingOnAlive : run venueCtx (spawn venueCtx ⟨journalOf [],[],0⟩) [] = ⟨loggingOn,true⟩ := by
  have live : (spawn venueCtx ⟨journalOf [],[],0⟩).live = true := by decide +kernel
  exact connAlive live

theorem reportClock (n : Nat) (first : 1 ≤ n) (within : n ≤ 4) (tick : Nat) (_ : reported.tick ≤ tick) :
    ¬ mirrorCtx.env.sendingTime tick < (reportLog n).time := by
  have same : (reportLog n).time = venueTime := by
    have cases : n = 1 ∨ n = 2 ∨ n = 3 ∨ n = 4 := by omega
    rcases cases with rfl | rfl | rfl | rfl <;> rfl
  rw [same]
  exact (by decide : ¬ venueTime < venueTime)

theorem reportLoss : Loss 2 4 [2] ∧ Loss 2 4 [2, 3] :=
  ⟨⟨by decide,by decide,by decide⟩,⟨by decide,by decide,by decide⟩⟩

/-- Only the first report is lost. The Heartbeat behind it comes out of the buffer, and
then the GapFill that stands for it is refused. -/
theorem heartbeatFilled : PeerLog venueCtx mirrorCtx reported 4 reportLog ∧ Loss 2 4 [2] ∧
    run venueCtx (spawn venueCtx ⟨journalOf [],[],0⟩) [] = ⟨loggingOn,true⟩ ∧ loggingOn.phase = .logonSent ∧
    Healthy venueCtx loggingOn.tick ∧ Healthy mirrorCtx reported.tick ∧ (gapAhead 2 4 [2]).length = 2 ∧
    (∀ n, 1 ≤ n → n ≤ 4 → ∀ tick, reported.tick ≤ tick →
      ¬ mirrorCtx.env.sendingTime tick < (reportLog n).time) ∧
    ¬ Refused loggingOn (deliver venueCtx (survivors 4 reportLog [2] ++ replayed mirrorCtx reported 2) loggingOn).2 ∧
    (deliver venueCtx (survivors 4 reportLog [2]) loggingOn).1 = .ok () ∧
    (deliver venueCtx (survivors 4 reportLog [2] ++ replayed mirrorCtx reported 2) loggingOn).1 =
      .error (.fail (.protocol (ascii "PossDup payload mismatch for sequence 3"))) ∧
    ¬ Recovers venueCtx loggingOn 4 (survivors 4 reportLog [2] ++ replayed mirrorCtx reported 2) := by
  have refused : (deliver venueCtx (survivors 4 reportLog [2] ++ replayed mirrorCtx reported 2) loggingOn).1 =
      .error (.fail (.protocol (ascii "PossDup payload mismatch for sequence 3"))) := by decide +kernel
  refine ⟨reportPeer,reportLoss.1,loggingOnAlive,by decide +kernel,fun _ _ => ⟨rfl,rfl⟩,fun _ _ => ⟨rfl,rfl⟩,
    by decide,reportClock,unrefused (by decide +kernel),by decide +kernel,refused,?_⟩
  rintro ⟨v,run,-⟩
  rw [run] at refused
  cases refused

theorem gapRecoveryAtVenue : Loss 2 4 [2, 3] ∧
    (∀ v, deliver venueCtx (survivors 4 reportLog [2, 3]) loggingOn = (.ok (),v) →
      AsksFrom venueCtx 2 loggingOn v) ∧
    (Recovers venueCtx loggingOn 4 (survivors 4 reportLog [2, 3] ++ replayed mirrorCtx reported 2) ↔
      Mendable venueCtx 4 reportLog [2, 3] 2) :=
  ⟨reportLoss.2,gapRecovery loggingOnAlive (by decide +kernel) (fun _ _ => ⟨rfl,rfl⟩) reportPeer
    (fun _ _ => ⟨rfl,rfl⟩) reportClock (by decide) (by decide +kernel) reportLoss.2 (by decide)
    (unrefused (by decide +kernel))⟩

theorem heartbeatMendable : Mendable venueCtx 4 reportLog [3] (firstLost [3]) where
  heads := fun n later within idle _ => by
    have only : n = 4 := by
      have later : 3 < n := later
      omega
    subst only
    cases idle
  clear := fun n first within _ => by
    have each : ∀ n ∈ [1, 2, 3, 4], ∀ f ∈ (reportLog n).body, isSensitiveTag venueCtx f.tag = false := by decide +kernel
    exact each n (by simp only [List.mem_cons,List.not_mem_nil]; omega)
  fills := fun _ => by decide

theorem lostMessagesRecoveredAtVenue :
    (∀ v, deliver venueCtx (survivors 4 reportLog [3]) loggingOn = (.ok (),v) → AsksFrom venueCtx 3 loggingOn v) ∧
    Recovers venueCtx loggingOn 4 (survivors 4 reportLog [3] ++ replayed mirrorCtx reported 3) := by
  have inner : ∀ n ∈ [3], 1 < n ∧ n < 4 := by decide
  obtain ⟨asks,recovers⟩ := lostMessagesRecovered loggingOnAlive (by decide +kernel) (fun _ _ => ⟨rfl,rfl⟩) reportPeer
    (fun _ _ => ⟨rfl,rfl⟩) reportClock (by decide) (List.cons_ne_nil 3 []) inner (by decide +kernel) (by decide)
    (unrefused (by decide +kernel))
  exact ⟨asks,recovers.mpr heartbeatMendable⟩

end FixCli.Session
