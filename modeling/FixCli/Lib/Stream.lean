import FixCli.Lib.Scanner

/-! A reliable byte stream between a writer and a reader that scans what it has read.
`Carried` ties the reader's buffer and the bytes in transit to the codes that were
written and not yet handed out; `Consecutive` numbers the items of a list. -/
namespace FixCli.Lib

section

variable {α β ε : Type} {s : Scanner α β ε} {as : List α} {codes : List (List β)}

theorem partWaits {a : α} {front back : List β} (taken : Taken s a (front ++ back)) (proper : back ≠ []) :
    s.take front = .ok none := by
  have whole := taken []
  rw [List.append_nil] at whole
  cases here : s.take front with
  | error e =>
    rw [s.fails here] at whole
    cases whole
  | ok item =>
    cases item with
    | none => rfl
    | some item =>
      obtain ⟨b,rest⟩ := item
      rw [s.takes here] at whole
      simp only [Except.ok.injEq,Option.some.injEq,Prod.mk.injEq] at whole
      exact absurd (List.append_eq_nil_iff.mp whole.2).2 proper

theorem scansFront {front back : List β} (empty : s.take [] = .ok none) (taken : List.Forall₂ (Taken s) as codes)
    (split : front ++ back = codes.flatten) :
    ∃ n left, n ≤ codes.length ∧ Scans s front (as.take n) none left ∧ left ++ back = (codes.drop n).flatten := by
  induction taken generalizing front with
  | nil =>
    obtain ⟨rfl,rfl⟩ := List.append_eq_nil_iff.mp split
    exact ⟨0,[],Nat.le_refl _,.waits empty,rfl⟩
  | @cons a code as codes here _ ih =>
    rw [List.flatten_cons] at split
    rcases List.append_eq_append_iff.mp split with ⟨middle,whole,rest⟩ | ⟨middle,rfl,rest⟩
    · by_cases ends : middle = []
      · subst ends
        rw [List.append_nil] at whole
        subst whole
        refine ⟨1,[],by simp,.takes (by simpa using here []) (.waits empty),?_⟩
        simpa using rest
      · refine ⟨0,front,Nat.zero_le _,.waits (partWaits (whole ▸ here) ends),?_⟩
        rw [List.drop_zero,List.flatten_cons,split]
    · obtain ⟨n,left,inside,scan,behind⟩ := ih rest.symm
      exact ⟨n + 1,left,Nat.succ_le_succ inside,.takes (here middle) scan,behind⟩

structure Carried (s : Scanner α β ε) (buffer transit : List β) (codes : List (List β)) : Prop where
  waits : s.take buffer = .ok none
  bytes : buffer ++ transit = codes.flatten

variable {buffer transit : List β}

theorem Carried.writes (h : Carried s buffer transit codes) (more : List (List β)) :
    Carried s buffer (transit ++ more.flatten) (codes ++ more) :=
  ⟨h.waits,by rw [← List.append_assoc,h.bytes,List.flatten_append]⟩

theorem Carried.reads {chunk rest : List β} (h : Carried s buffer (chunk ++ rest) codes) (empty : s.take [] = .ok none)
    (taken : List.Forall₂ (Taken s) as codes) : ∃ n left, n ≤ codes.length ∧
      Scans s (buffer ++ chunk) (as.take n) none left ∧ Carried s left rest (codes.drop n) := by
  obtain ⟨n,left,inside,scan,behind⟩ := scansFront empty taken (by rw [List.append_assoc,h.bytes])
  exact ⟨n,left,inside,scan,scansWaiting scan,behind⟩

theorem Carried.scans (h : Carried s buffer transit codes) (empty : s.take [] = .ok none)
    (taken : List.Forall₂ (Taken s) as codes) : Scans s (buffer ++ transit) as none [] :=
  h.bytes ▸ scansTaken empty taken

end

def Consecutive {α : Type} (P : Nat → α → Prop) (first : Nat) (items : List α) : Prop :=
  ∀ i a, items[i]? = some a → P (first + i) a

namespace Consecutive

variable {α : Type} {P Q : Nat → α → Prop} {first : Nat} {items more : List α}

theorem nil : Consecutive P first [] := fun _ _ found => by simp at found

theorem weaken (h : Consecutive P first items) (weaker : ∀ n a, P n a → Q n a) : Consecutive Q first items :=
  fun i a found => weaker _ a (h i a found)

theorem cons {a : α} (here : P first a) (h : Consecutive P (first + 1) items) : Consecutive P first (a :: items) := by
  intro i b found
  cases i with
  | zero => cases found; exact here
  | succ i =>
    rw [List.getElem?_cons_succ] at found
    rw [Nat.add_comm i 1,← Nat.add_assoc]
    exact h i b found

theorem uncons {a : α} (h : Consecutive P first (a :: items)) : P first a ∧ Consecutive P (first + 1) items := by
  refine ⟨h 0 a rfl,fun i b found => ?_⟩
  rw [Nat.add_assoc,Nat.add_comm 1 i]
  exact h (i + 1) b found

theorem append (h : Consecutive P first items) (g : Consecutive P (first + items.length) more) :
    Consecutive P first (items ++ more) := by
  induction items generalizing first with
  | nil => simpa using g
  | cons a items ih =>
    obtain ⟨here,later⟩ := h.uncons
    refine .cons here (ih later ?_)
    rwa [List.length_cons,Nat.add_comm items.length 1,← Nat.add_assoc] at g

theorem each (h : Consecutive P first items) {a : α} (mem : a ∈ items) : ∃ n, P n a := by
  obtain ⟨i,found⟩ := List.mem_iff_getElem?.mp mem
  exact ⟨_,h i a found⟩

end Consecutive
end FixCli.Lib
