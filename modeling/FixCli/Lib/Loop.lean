import FixCli.Lib.Prog

/-! Loops that nothing bounds from outside: a turn is run until it breaks or fails. One
whose every turn that goes on makes a measure smaller comes to an end, and with enough
fuel does nothing else. -/
namespace FixCli.Lib.Prog

variable {σ ε : Type} {turn : Prog σ ε Bool}

inductive Loops (turn : Prog σ ε Bool) : σ → Nat → Except ε Unit × σ → Prop where
  | breaks {s t : σ} (last : turn s = (.ok false,t)) : Loops turn s 0 (.ok (),t)
  | stops {s t : σ} {e : ε} (last : turn s = (.error e,t)) : Loops turn s 0 (.error e,t)
  | again {s t : σ} {n : Nat} {r : Except ε Unit × σ} (more : turn s = (.ok true,t))
      (rest : Loops turn t n r) : Loops turn s (n + 1) r

def turns (turn : Prog σ ε Bool) : Nat → Prog σ ε Unit
  | 0 => pure ()
  | fuel + 1 => do
    let more ← turn
    if more then turns turn fuel else pure ()

namespace Loops

variable {s : σ} {n k : Nat} {r t : Except ε Unit × σ}

theorem unique (h : Loops turn s n r) (g : Loops turn s k t) : k = n ∧ t = r := by
  induction h generalizing k with
  | breaks last =>
    cases g with
    | breaks other => exact ⟨rfl,by cases last.symm.trans other; rfl⟩
    | stops other | again other _ => cases last.symm.trans other
  | stops last =>
    cases g with
    | stops other => exact ⟨rfl,by cases last.symm.trans other; rfl⟩
    | breaks other | again other _ => cases last.symm.trans other
  | again more _ ih =>
    cases g with
    | breaks other | stops other => cases more.symm.trans other
    | again other rest =>
      cases more.symm.trans other
      obtain ⟨same,alike⟩ := ih rest
      exact ⟨congrArg Nat.succ same,alike⟩

theorem meets {I Q : σ → Prop} {E : ε → σ → Prop}
    (each : Meets I turn (fun more t => if more then I t else Q t) E) (start : I s) : Loops turn s n r →
    match r with
    | (.ok _, t) => Q t
    | (.error e, t) => E e t := by
  intro loops
  induction loops with
  | breaks last => simpa using each.returned start last
  | stops last => exact each.stopped start last
  | again more _ ih => exact ih (by simpa using each.returned start more)

theorem ends (size : σ → Nat) (smaller : ∀ s t, turn s = (.ok true,t) → size t < size s) (s : σ) :
    ∃ n r, n ≤ size s ∧ Loops turn s n r := by
  induction bound : size s using Nat.strongRecOn generalizing s with
  | ind _ ih =>
    rcases run : turn s with ⟨e | more,t⟩
    · exact ⟨0,_,Nat.zero_le _,.stops run⟩
    · cases more with
      | false => exact ⟨0,_,Nat.zero_le _,.breaks run⟩
      | true =>
        have less := smaller s t run
        obtain ⟨n,r,within,rest⟩ := ih (size t) (by omega) t rfl
        exact ⟨n + 1,r,by omega,.again run rest⟩

theorem fuelled (loops : Loops turn s n r) {fuel : Nat} (enough : n < fuel) : turns turn fuel s = r := by
  induction loops generalizing fuel with
  | breaks last | stops last =>
    obtain ⟨fuel,rfl⟩ : ∃ rest, fuel = rest + 1 := ⟨fuel - 1,by omega⟩
    simp only [turns,bindRun,last,Bool.false_eq_true,if_false,pureRun]
  | again more _ ih =>
    obtain ⟨fuel,rfl⟩ : ∃ rest, fuel = rest + 1 := ⟨fuel - 1,by omega⟩
    simp only [turns,bindRun,more,if_true]
    exact ih (by omega)

theorem within (size : σ → Nat) (smaller : ∀ s t, turn s = (.ok true,t) → size t < size s) {fuel : Nat}
    (enough : size s < fuel) : ∃ n ≤ size s, Loops turn s n (turns turn fuel s) := by
  obtain ⟨n,r,within,loops⟩ := ends size smaller s
  refine ⟨n,within,?_⟩
  rw [loops.fuelled (Nat.lt_of_le_of_lt within enough)]
  exact loops

end Loops
end FixCli.Lib.Prog
