import FixCli.SessionRun

/-! The sliding window of the control plane: the accepted request IDs of the last
second, oldest first, and the same IDs as a set. -/
namespace FixCli.Control
open Lib Session

structure RateLimitState where
  accepted : List (Nat × Bytes)
  requestIds : Table Bytes Unit

def RateLimitState.empty : RateLimitState := ⟨[],∅⟩

def expire (now : Nat) : List (Nat × Bytes) → Table Bytes Unit → RateLimitState
  | [], requestIds => ⟨[],requestIds⟩
  | (acceptedAt,requestId) :: rest, requestIds =>
    if nanosPerSec ≤ now - acceptedAt then expire now rest (requestIds.erase requestId)
    else ⟨(acceptedAt,requestId) :: rest,requestIds⟩

def tryAcquire (maximum now : Nat) (requestId : Bytes) (s : RateLimitState) : Bool × RateLimitState :=
  let s := expire now s.accepted s.requestIds
  -- a reservation that still counts is used again, under its old instant
  if s.requestIds.contains requestId then (true,s)
  else if maximum ≤ s.accepted.length then (false,s)
  else (true,⟨s.accepted ++ [(now,requestId)],s.requestIds.insert requestId ()⟩)

def release (requestId : Bytes) (s : RateLimitState) : RateLimitState :=
  ⟨s.accepted.filter fun entry => decide (entry.2 ≠ requestId),s.requestIds.erase requestId⟩

structure Orderly (maximum clock : Nat) (s : RateLimitState) : Prop where
  ids : ∀ requestId, s.requestIds.contains requestId = true ↔ ∃ at', (at',requestId) ∈ s.accepted
  distinct : (s.accepted.map Prod.snd).Nodup
  ordered : s.accepted.Pairwise fun a b => a.1 ≤ b.1
  bounded : s.accepted.length ≤ maximum
  past : ∀ entry ∈ s.accepted, entry.1 ≤ clock

section

variable {maximum clock now : Nat} {requestId : Bytes} {s : RateLimitState}

theorem orderlyEmpty (maximum clock : Nat) : Orderly maximum clock .empty :=
  ⟨by simp [RateLimitState.empty],.nil,.nil,Nat.zero_le _,by simp [RateLimitState.empty]⟩

theorem Orderly.later (h : Orderly maximum clock s) (later : clock ≤ now) : Orderly maximum now s :=
  ⟨h.ids,h.distinct,h.ordered,h.bounded,fun entry mem => (h.past entry mem).trans later⟩

theorem expires (h : Orderly maximum now s) : Orderly maximum now (expire now s.accepted s.requestIds) ∧
    ∀ entry, entry ∈ (expire now s.accepted s.requestIds).accepted ↔
      entry ∈ s.accepted ∧ now < entry.1 + nanosPerSec := by
  obtain ⟨accepted,requestIds⟩ := s
  induction accepted generalizing requestIds with
  | nil => exact ⟨h,by simp [expire]⟩
  | cons head rest ih =>
    obtain ⟨acceptedAt,own⟩ := head
    obtain ⟨fresh,distinct⟩ := List.nodup_cons.mp h.distinct
    obtain ⟨first,ordered⟩ := List.pairwise_cons.mp h.ordered
    have here := h.past (acceptedAt,own) List.mem_cons_self
    by_cases old : nanosPerSec ≤ now - acceptedAt
    · have popped : Orderly maximum now ⟨rest,requestIds.erase own⟩ := by
        refine ⟨fun other => ?_,distinct,ordered,(Nat.le_succ _).trans h.bounded,
          fun entry mem => h.past entry (List.mem_cons_of_mem _ mem)⟩
        have before := h.ids other
        simp only [Std.ExtTreeMap.contains_erase,Bool.and_eq_true,bne_iff_ne] at before ⊢
        constructor
        · rintro ⟨apart,held⟩
          obtain ⟨at',mem⟩ := before.mp held
          rcases List.mem_cons.mp mem with same | inside
          · cases same
            exact absurd Std.compare_self apart
          · exact ⟨at',inside⟩
        · rintro ⟨at',mem⟩
          refine ⟨?_,before.mpr ⟨at',List.mem_cons_of_mem _ mem⟩⟩
          have apart : own ≠ other := fun same => fresh (List.mem_map.mpr ⟨(at',other),mem,same.symm⟩)
          simpa using apart
      have left := ih _ popped
      simp only [expire,if_pos old]
      refine ⟨left.1,fun entry => (left.2 entry).trans ?_⟩
      constructor
      · exact fun kept => ⟨List.mem_cons_of_mem _ kept.1,kept.2⟩
      · rintro ⟨mem,young⟩
        rcases List.mem_cons.mp mem with rfl | inside
        · simp only at young here
          omega
        · exact ⟨inside,young⟩
    · simp only [expire,if_neg old]
      refine ⟨h,fun entry => (and_iff_left_of_imp fun mem => ?_).symm⟩
      rcases List.mem_cons.mp mem with rfl | inside
      · simp only
        omega
      · have after := first entry inside
        simp only at after
        omega

variable (requestId) in
theorem acquires (h : Orderly maximum clock s) (later : clock ≤ now) :
    Orderly maximum now (tryAcquire maximum now requestId s).2 ∧
      (∀ entry ∈ s.accepted, now < entry.1 + nanosPerSec → entry ∈ (tryAcquire maximum now requestId s).2.accepted) ∧
      ((tryAcquire maximum now requestId s).1 = true → ∃ at',
        (at',requestId) ∈ (tryAcquire maximum now requestId s).2.accepted ∧
          (at' = now ∨ (at',requestId) ∈ s.accepted ∧ now < at' + nanosPerSec)) := by
  obtain ⟨orderly,left⟩ := expires (h.later later)
  unfold tryAcquire
  dsimp only
  generalize expire now s.accepted s.requestIds = kept at orderly left
  by_cases held : kept.requestIds.contains requestId = true
  · rw [if_pos held]
    obtain ⟨at',mem⟩ := (orderly.ids requestId).mp held
    exact ⟨orderly,fun entry mem young => (left entry).mpr ⟨mem,young⟩,
      fun _ => ⟨at',mem,.inr ((left _).mp mem)⟩⟩
  rw [if_neg held]
  by_cases full : maximum ≤ kept.accepted.length
  · rw [if_pos full]
    exact ⟨orderly,fun entry mem young => (left entry).mpr ⟨mem,young⟩,fun granted => by cases granted⟩
  · rw [if_neg full]
    have absent (at' : Nat) : (at',requestId) ∉ kept.accepted := fun mem => held ((orderly.ids _).mpr ⟨at',mem⟩)
    refine ⟨⟨fun other => ?_,?_,?_,?_,?_⟩,fun entry mem young => List.mem_append_left _ ((left entry).mpr ⟨mem,young⟩),
      fun _ => ⟨now,by simp,.inl rfl⟩⟩
    · rw [Std.ExtTreeMap.contains_insert,Bool.or_eq_true,orderly.ids other]
      constructor
      · rintro (same | ⟨at',mem⟩)
        · have own : requestId = other := by simpa using same
          exact ⟨now,by simp [own]⟩
        · exact ⟨at',List.mem_append_left _ mem⟩
      · rintro ⟨at',mem⟩
        rcases List.mem_append.mp mem with inside | single
        · exact .inr ⟨at',inside⟩
        · cases List.mem_singleton.mp single
          exact .inl (by simp)
    · rw [List.map_append,List.nodup_append]
      refine ⟨orderly.distinct,by simp,?_⟩
      intro one mem other single same
      obtain ⟨⟨at',own⟩,inside,rfl⟩ := List.mem_map.mp mem
      simp only [List.map_cons,List.map_nil,List.mem_singleton] at single
      exact absent at' (by rw [← single,← same]; exact inside)
    · refine List.pairwise_append.mpr ⟨orderly.ordered,by simp,fun entry mem last single => ?_⟩
      rw [List.mem_singleton.mp single]
      exact orderly.past entry mem
    · simp only [List.length_append,List.length_singleton]
      omega
    · intro entry mem
      rcases List.mem_append.mp mem with before | own
      · exact orderly.past entry before
      · rw [List.mem_singleton.mp own]

theorem releaseKeeps (h : Orderly maximum clock s) (requestId : Bytes) :
    Orderly maximum clock (release requestId s) ∧
      ∀ entry ∈ s.accepted, entry.2 ≠ requestId → entry ∈ (release requestId s).accepted := by
  have sub : (release requestId s).accepted.Sublist s.accepted := List.filter_sublist
  refine ⟨⟨fun other => ?_,h.distinct.sublist (sub.map _),h.ordered.sublist sub,sub.length_le.trans h.bounded,
    fun entry mem => h.past entry (sub.subset mem)⟩,fun entry mem other => List.mem_filter.mpr ⟨mem,by simpa using other⟩⟩
  rw [release,Std.ExtTreeMap.contains_erase,Bool.and_eq_true,h.ids other]
  constructor
  · rintro ⟨apart,at',mem⟩
    have own : requestId ≠ other := by simpa using apart
    exact ⟨at',List.mem_filter.mpr ⟨mem,by simpa using own.symm⟩⟩
  · rintro ⟨at',mem⟩
    obtain ⟨inside,apart⟩ := List.mem_filter.mp mem
    have own : other ≠ requestId := by simpa using apart
    exact ⟨by simpa using own.symm,at',inside⟩

end
end FixCli.Control
