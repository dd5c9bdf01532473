import FixCli.Gathering

/-! Frames that arrive inside a gap, one delivery after another: what lies ahead is held,
what was awaited is committed and lets the held ones follow. -/
namespace FixCli.Session
open Lib Codec Store

structure Awaiting (c : Ctx) (base : World) (item : Nat → Bytes) (got : List Nat) (w : World) : Prop
    extends Booked c base base ((List.range' base.nextIn (w.nextIn - base.nextIn)).map item) w where
  reordered : Reordered item base.nextIn got w.nextIn w.gapBuffer
  missing : w.nextIn ∉ got
  phase : w.phase = phaseOf w.gapBuffer

section

variable {c : Ctx} {base w : World} {item : Nat → Bytes} {got : List Nat} {n : Nat} {loud : Prop}

open Prog

theorem Awaiting.start (item : Nat → Bytes) (nextIn : w.journal.nextIn = w.nextIn)
    (nextEvent : w.journal.nextEvent = w.nextEvent) (established : w.phase = .established) (empty : w.gapBuffer = ∅) :
    Awaiting c w item [] w := by
  refine ⟨⟨⟨⟨List.suffix_rfl,Nat.le_refl _⟩,nextIn,nextEvent⟩,?_,?_⟩,?_,by simp,?_⟩
  · rw [Nat.sub_self]
    rfl
  · rw [Nat.sub_self]
    exact .refl _
  · rw [empty]
    exact .empty _ _
  · rw [established,empty]
    rfl

theorem awaitedArrives (h : Awaiting c base item got w) (spoken : Spoken c loud item (w.nextIn :: got))
    (healthy : Healthy c base.tick) (sendable : Sendable c) :
    match handleInbound c (item w.nextIn) w with
    | (.ok _, v) => Awaiting c base item (w.nextIn :: got) v
    | (.error _, v) => loud ∧ Refused base v := by
  obtain ⟨message,response,simple,aloud⟩ := spoken _ List.mem_cons_self
  have start := h.reordered.start
  have arrived : Abreast base (arrivedAt c w) :=
    h.still (h.onward.trans ⟨List.suffix_rfl,Nat.le_succ _⟩) rfl rfl (.refl _)
  have level : realignIfLow c w.nextIn (arrivedAt c w) = (.ok (),arrivedAt c w) := by
    simp only [realignIfLow,bindRun,stateRun,arrivedAt,Nat.lt_irrefl,if_false,pureRun]
  have here : (arrivedAt c w).nextIn = w.nextIn := rfl
  rw [handleSequenced simple.parsed simple.sequence,sequenced,here,if_neg (Nat.lt_irrefl _),
    if_neg (fun low => Nat.lt_irrefl _ low.1),acceptFrame,bindReturns level]
  have commits := commitSimple arrived simple aloud healthy sendable
  rcases run : commitExpected c message (item w.nextIn) (arrivedAt c w) with ⟨halt | _,u⟩
  · rw [run] at commits
    rw [bindStops run]
    exact commits
  rw [run] at commits
  rw [bindReturns run]
  obtain ⟨first,buffer,phase⟩ := commits
  have next : u.nextIn = w.nextIn + 1 := first.advanced
  have held : Holding item (w.nextIn :: got) u.nextIn u.gapBuffer := by
    rw [next,buffer]
    exact (h.reordered.held.pass h.missing).behind (Nat.lt_succ_self _)
  have settles := settleHeld first.toAbreast held (Nat.le_refl _) spoken healthy sendable
    (by rw [phase,buffer]; exact h.phase)
  rcases settle : (do drainBuffer c; endRecovery : Act Unit) u with ⟨halt | _,v⟩
  · rw [settle] at settles
    exact settles
  rw [settle] at settles
  obtain ⟨settled,count,drained⟩ := settles
  have advanced : v.nextIn = u.nextIn + count := by
    rw [drained.advanced,List.length_map,List.length_range']
  have whole : Booked c base base ((List.range' base.nextIn (v.nextIn - base.nextIn)).map item) v := by
    have steps : v.nextIn - base.nextIn = (w.nextIn - base.nextIn) + (1 + count) := by omega
    have turn : base.nextIn + (w.nextIn - base.nextIn) = w.nextIn := by omega
    have own : Booked c base w [item w.nextIn] u := ⟨first.toAbreast,first.advanced,first.journal⟩
    have all := h.toBooked.trans (own.trans drained.toBooked)
    rw [steps,← List.range'_append_1,turn,← List.range'_append_1,List.map_append,List.map_append,← next]
    exact all
  refine ⟨whole,⟨by omega,fun n above below => ?_,drained.held⟩,drained.missing,settled⟩
  by_cases early : n < w.nextIn
  · exact List.mem_cons_of_mem _ (h.reordered.front n above early)
  by_cases own : n = w.nextIn
  · rw [own]
    exact List.mem_cons_self
  · exact drained.passed n (by omega) (by omega)

theorem bufferingWaits (frame : Bytes) : phaseOf (buffering n frame w).gapBuffer = .recovering := by
  have present : (buffering n frame w).gapBuffer.isEmpty ≠ true := by
    simp [buffering]
  rw [phaseOf,if_neg present]

theorem laterArrives (h : Awaiting c base item got w) {message : ParsedMessage} {response : Option Bytes}
    (simple : Simple c (item n) message n response) (healthy : Healthy c base.tick) (sendable : Sendable c)
    (room : w.gapBuffer.size < gapBufferLimit) (later : w.nextIn < n) :
    match handleInbound c (item n) w with
    | (.ok _, v) => Awaiting c base item (n :: got) v ∧ v.nextIn = w.nextIn
    | (.error _, v) => Refused base v := by
  have ahead : (arrivedAt c w).nextIn < n := later
  have bounded : (arrivedAt c w).gapBuffer.size < gapBufferLimit := room
  rw [handleSequenced simple.parsed simple.sequence,sequenced,if_pos ahead,bufferGapRun _ bounded]
  have waits := bufferingWaits (n := n) (w := arrivedAt c w) (item n)
  set held := buffering n (item n) (arrivedAt c w)
  have level : Abreast base held := h.still (h.onward.trans ⟨List.suffix_rfl,Nat.le_succ _⟩) rfl rfl (.refl _)
  have missing : w.nextIn ∉ n :: got := by
    simp only [List.mem_cons,not_or]
    exact ⟨by omega,h.missing⟩
  have gathered : ∀ v, Abreast base v → v.nextIn = w.nextIn → v.gapBuffer = held.gapBuffer →
      SameInbound held.journal v.journal → v.phase = .recovering → Awaiting c base item (n :: got) v := by
    intro v after nextIn buffer same phase
    refine ⟨⟨after,by rw [nextIn]; exact h.advanced,by rw [nextIn]; exact h.journal.trans same⟩,?_,?_,?_⟩
    · rw [nextIn,buffer]
      exact h.reordered.hold later
    · rw [nextIn]
      exact missing
    · rw [phase,buffer,waits]
  by_cases recovering : (arrivedAt c w).phase = .recovering
  · rw [if_pos recovering]
    exact ⟨gathered held level rfl rfl (.refl _) recovering,rfl⟩
  rw [if_neg recovering]
  have asks := onwardResend healthy sendable (arrivedAt c w).nextIn held level.onward
  have sent := sendsResendRequest (c := c) (arrivedAt c w).nextIn held
  rcases run : sendResendRequest c (arrivedAt c w).nextIn held with ⟨halt | _,v⟩
  · rw [run] at asks
    rw [bindStops run]
    exact asks
  · rw [run] at asks sent
    rw [bindReturns run]
    have onward : Onward base v := asks
    refine ⟨gathered _ ?_ sent.nextIn sent.gapBuffer sent.journal rfl,sent.nextIn⟩
    exact level.still (onward.trans (u := {v with
      phase := .recovering, trace := .phaseChanged .recovering :: v.trace}) ⟨⟨[_],rfl⟩,Nat.le_refl _⟩)
      sent.nextIn sent.nextEvent sent.journal

theorem deliverGathers {all : List Nat} (spoken : Spoken c loud item all) (healthy : Healthy c base.tick)
    (sendable : Sendable c) (few : (all.filter fun k => decide (base.nextIn < k)).length ≤ gapBufferLimit)
    (order : List Nat) (above : ∀ n ∈ order, base.nextIn ≤ n) (inside : ∀ n ∈ order ++ got, n ∈ all)
    (once : (order ++ got).Nodup) (h : Awaiting c base item got w) :
    match deliver c (order.map item) w with
    | (.ok _, v) => Awaiting c base item (order.reverse ++ got) v
    | (.error _, v) => Refused base v := by
  induction order generalizing w got with
  | nil => exact h
  | cons n rest ih =>
    have moved : (rest ++ n :: got).Nodup := (List.perm_middle.symm.nodup_iff).mp once
    have new : n ∉ got := fun old =>
      (List.nodup_append.mp once).2.2 n List.mem_cons_self n old rfl
    have reached : w.nextIn ≤ n := by
      by_contra low
      exact new (h.reordered.front n (above n List.mem_cons_self) (by omega))
    have turn : (n :: rest).reverse ++ got = rest.reverse ++ n :: got := by simp
    have after : ∀ k ∈ rest ++ n :: got, k ∈ all := fun k mem => inside k (List.perm_middle.mem_iff.mp mem)
    have kept : ∀ k ∈ got, k ∈ all := fun k mem => inside k (List.mem_append_right _ mem)
    have member := inside n List.mem_cons_self
    rw [List.map_cons,deliver,turn]
    have later := fun k mem => above k (List.mem_cons_of_mem _ mem)
    -- the frame waits in the buffer, or it is the one awaited and what waits behind it drains
    rcases Nat.lt_or_eq_of_le reached with ahead | rfl
    · obtain ⟨message,response,simple,-⟩ := spoken n member
      have start := h.reordered.start
      have sparse : (all.filter fun k => decide (w.nextIn < k)).length ≤ gapBufferLimit := by
        refine Nat.le_trans (List.Sublist.length_le ?_) few
        refine List.monotone_filter_right _ fun k large => ?_
        simp only [decide_eq_true_eq] at large ⊢
        omega
      have room := h.reordered.held.room kept h.missing ahead member new
      have arrives := laterArrives h simple healthy sendable (by omega) ahead
      rcases run : handleInbound c (item n) w with ⟨halt | _,v⟩
      · rw [run] at arrives
        rw [bindStops run]
        exact arrives
      · rw [run] at arrives
        rw [bindReturns run]
        exact ih later after moved arrives.1
    · have arrives := awaitedArrives h (fun k mem => spoken k ((List.forall_mem_cons.mpr ⟨member,kept⟩) k mem))
        healthy sendable
      rcases run : handleInbound c (item w.nextIn) w with ⟨halt | _,v⟩
      · rw [run] at arrives
        rw [bindStops run]
        exact arrives.2
      · rw [run] at arrives
        rw [bindReturns run]
        exact ih later after moved arrives

theorem deliverInOrder {count : Nat} (done : Nat) (spoken : Spoken c loud item (List.range' base.nextIn count))
    (healthy : Healthy c base.tick) (sendable : Sendable c) (h : Awaiting c base item got w)
    (before : ∀ k, k ∈ got ↔ base.nextIn ≤ k ∧ k < base.nextIn + done) (inside : done ≤ count) :
    match deliver c ((List.range' (base.nextIn + done) (count - done)).map item) w with
    | (.ok _, v) => ∃ after, Awaiting c base item after v ∧
        ∀ k, k ∈ after ↔ base.nextIn ≤ k ∧ k < base.nextIn + count
    | (.error _, v) => loud ∧ Refused base v := by
  induction rest : count - done generalizing w got done with
  | zero =>
    have same : done = count := by omega
    exact ⟨got,h,by rw [← same]; exact before⟩
  | succ left ih =>
    have reached : w.nextIn = base.nextIn + done := (h.reordered.complete h.missing before).1
    have heard : Spoken c loud item (w.nextIn :: got) := fun k mem => by
      refine spoken k (List.mem_range'_1.mpr ?_)
      rcases List.mem_cons.mp mem with rfl | mem
      · omega
      · have bound := (before k).mp mem
        omega
    have arrives := awaitedArrives h heard healthy sendable
    have grown : ∀ k, k ∈ w.nextIn :: got ↔ base.nextIn ≤ k ∧ k < base.nextIn + (done + 1) := by
      intro k
      rw [List.mem_cons,before]
      omega
    rw [List.range'_succ,List.map_cons,deliver,← reached]
    rcases run : handleInbound c (item w.nextIn) w with ⟨halt | _,v⟩
    · rw [run] at arrives
      rw [bindStops run]
      exact arrives
    · rw [run] at arrives
      rw [bindReturns run,reached,Nat.add_assoc]
      exact ih (done + 1) arrives grown (by omega) (by omega)

theorem Awaiting.complete {count : Nat} (h : Awaiting c base item got w)
    (all : ∀ k, k ∈ got ↔ base.nextIn ≤ k ∧ k < base.nextIn + count) :
    w.phase = .established ∧ w.gapBuffer = ∅ ∧ w.nextIn = base.nextIn + count ∧
      SameInbound (Session.booked c ((List.range' base.nextIn count).map item) base.journal) w.journal := by
  obtain ⟨reached,drained⟩ := h.reordered.complete h.missing all
  refine ⟨?_,drained,reached,?_⟩
  · rw [h.phase,drained]
    rfl
  · have whole := h.journal
    rwa [reached,Nat.add_sub_cancel_left] at whole

end
end FixCli.Session
