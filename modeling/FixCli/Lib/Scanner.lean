import Mathlib.Data.List.Infix

/-! Items taken one by one off the front of a growing buffer. What a scanner has
decided stands when more arrives, so a stream has one scan however it is cut. -/
namespace FixCli.Lib

structure Scanner (α β ε : Type) where
  take : List β → Except ε (Option (α × List β))
  takes : ∀ {b a rest}, take b = .ok (some (a,rest)) → ∀ more, take (b ++ more) = .ok (some (a,rest ++ more))
  fails : ∀ {b e}, take b = .error e → ∀ more, take (b ++ more) = .error e
  shrinks : ∀ {b a rest}, take b = .ok (some (a,rest)) → rest.length < b.length

variable {α β ε : Type}

inductive Scans (s : Scanner α β ε) : List β → List α → Option ε → List β → Prop
  | waits {b} (here : s.take b = .ok none) : Scans s b [] none b
  | fails {b e} (here : s.take b = .error e) : Scans s b [] (some e) b
  | takes {b a rest found stop left} (here : s.take b = .ok (some (a,rest)))
      (tail : Scans s rest found stop left) : Scans s b (a :: found) stop left

variable {s : Scanner α β ε} {b more left left' : List β} {found found' : List α} {stop stop' : Option ε}

theorem scansSome (s : Scanner α β ε) (b : List β) : ∃ found stop left, Scans s b found stop left := by
  induction size : b.length using Nat.strongRecOn generalizing b with
  | ind n ih =>
    cases here : s.take b with
    | error e => exact ⟨[],some e,b,.fails here⟩
    | ok item =>
      cases item with
      | none => exact ⟨[],none,b,.waits here⟩
      | some item =>
        obtain ⟨a,rest⟩ := item
        have shorter := s.shrinks here
        obtain ⟨found,stop,left,tail⟩ := ih rest.length (by omega) rest rfl
        exact ⟨a :: found,stop,left,.takes here tail⟩

theorem scansUnique (one : Scans s b found stop left) (other : Scans s b found' stop' left') :
    found = found' ∧ stop = stop' ∧ left = left' := by
  induction one generalizing found' with
  | waits here | fails here =>
    cases other with
    | waits there | fails there | takes there _ =>
      rw [here] at there
      cases there
      try exact ⟨rfl,rfl,rfl⟩
  | takes here _ ih =>
    cases other with
    | waits there | fails there => rw [here] at there; cases there
    | takes there tail =>
      rw [here] at there
      cases there
      obtain ⟨rfl,rfl,rfl⟩ := ih tail
      exact ⟨rfl,rfl,rfl⟩

theorem scansOn (first : Scans s b found none left) (second : Scans s (left ++ more) found' stop left') :
    Scans s (b ++ more) (found ++ found') stop left' := by
  generalize waited : (none : Option ε) = stopped at first
  induction first with
  | waits _ => exact second
  | fails _ => cases waited
  | takes here _ ih => exact .takes (s.takes here more) (ih second waited)

theorem scansFailed {e : ε} (first : Scans s b found (some e) left) (more : List β) :
    Scans s (b ++ more) found (some e) (left ++ more) := by
  generalize failed : some e = stopped at first ⊢
  induction first with
  | waits _ => cases failed
  | fails here => exact .fails (s.fails here more)
  | takes here _ ih => exact .takes (s.takes here more) (ih failed)

theorem scansWaiting (scan : Scans s b found none left) : s.take left = .ok none := by
  generalize waited : (none : Option ε) = stopped at scan
  induction scan with
  | waits here => exact here
  | fails _ => cases waited
  | takes _ _ ih => exact ih waited

theorem scansShrink (scan : Scans s b found stop left) : left.length ≤ b.length := by
  induction scan with
  | waits _ | fails _ => exact Nat.le_refl _
  | takes here _ ih => exact ih.trans (s.shrinks here).le

def Taken (s : Scanner α β ε) (a : α) (code : List β) : Prop :=
  ∀ rest, s.take (code ++ rest) = .ok (some (a,rest))

theorem scansTaken {as : List α} {codes : List (List β)} (empty : s.take [] = .ok none)
    (taken : List.Forall₂ (Taken s) as codes) : Scans s codes.flatten as none [] := by
  induction taken with
  | nil => exact .waits empty
  | cons here _ ih => exact .takes (here _) ih

theorem scansTakenPart {as : List α} {codes : List (List β)} {limit : Nat} {front back : List β}
    (taken : List.Forall₂ (Taken s) as codes) (short : ∀ code ∈ codes, code.length ≤ limit)
    (split : front ++ back = codes.flatten) (scan : Scans s front found none left) : left.length ≤ limit := by
  induction taken generalizing front found with
  | nil =>
    have nothing : front = [] := (List.append_eq_nil_iff.mp split).1
    have shrink := scansShrink scan
    rw [nothing,List.length_nil] at shrink
    omega
  | @cons a code as codes here _ ih =>
    rw [List.flatten_cons] at split
    rcases List.append_eq_append_iff.mp split with ⟨middle,whole,-⟩ | ⟨middle,rfl,behind⟩
    · have size := short code List.mem_cons_self
      have shrink := scansShrink scan
      rw [whole,List.length_append] at size
      omega
    · cases scan with
      | waits none => rw [here middle] at none; cases none
      | takes there tail =>
        rw [here middle] at there
        cases there
        exact ih (fun code mem => short code (List.mem_cons_of_mem _ mem)) behind.symm tail

/-- A buffer filled chunk by chunk: each chunk is scanned behind what is left of those
before it, and what it leaves is checked. A chunk that fails hands nothing out. -/
inductive Feeds (s : Scanner α β ε) (check : List β → Option ε) :
    List β → List (List β) → List α → Except ε (List β) → Prop
  | done (b : List β) : Feeds s check b [] [] (.ok b)
  | next {b c cs found left later outcome} (scan : Scans s (b ++ c) found none left)
      (passes : check left = none) (rest : Feeds s check left cs later outcome) :
      Feeds s check b (c :: cs) (found ++ later) outcome
  | scanFails {b c cs found left e} (scan : Scans s (b ++ c) found (some e) left) :
      Feeds s check b (c :: cs) [] (.error e)
  | checkFails {b c cs found left e} (scan : Scans s (b ++ c) found none left)
      (refused : check left = some e) : Feeds s check b (c :: cs) [] (.error e)

variable {check : List β → Option ε} {chunks : List (List β)} {outcome : Except ε (List β)}

theorem feedsScan (feeds : Feeds s check b chunks found outcome) (waiting : s.take b = .ok none)
    (whole : Scans s (b ++ chunks.flatten) found' stop left) :
    found <+: found' ∧ (∀ last, outcome = .ok last → found = found' ∧ stop = none ∧ left = last) ∧
      ∀ e, outcome = .error e → stop = some e ∨ ∃ fed part waits, fed <+: chunks ∧
        Scans s (b ++ fed.flatten) part none waits ∧ check waits = some e := by
  induction feeds generalizing found' with
  | done b =>
    rw [List.flatten_nil,List.append_nil] at whole
    obtain ⟨rfl,rfl,rfl⟩ := scansUnique whole (.waits waiting)
    refine ⟨List.prefix_rfl,fun last ok => ?_,fun e failed => ?_⟩
    · cases ok
      exact ⟨rfl,rfl,rfl⟩
    · cases failed
  | @next b c cs _ kept _ _ scan _ _ ih =>
    obtain ⟨all,stopped,last,behind⟩ := scansSome s (kept ++ cs.flatten)
    rw [List.flatten_cons,← List.append_assoc] at whole
    obtain ⟨rfl,rfl,rfl⟩ := scansUnique whole (scansOn scan behind)
    obtain ⟨front,complete,failed⟩ := ih (scansWaiting scan) behind
    refine ⟨(List.prefix_append_right_inj _).mpr front,fun last ok => ?_,fun e here => ?_⟩
    · obtain ⟨rfl,stops,same⟩ := complete last ok
      exact ⟨rfl,stops,same⟩
    · rcases failed e here with stops | ⟨fed,part,waits,pre,part_scan,refused⟩
      · exact .inl stops
      · have longer := scansOn scan part_scan
        rw [List.append_assoc,← List.flatten_cons] at longer
        exact .inr ⟨c :: fed,_,waits,List.cons_prefix_cons.mpr ⟨rfl,pre⟩,longer,refused⟩
  | @scanFails b c cs _ _ _ scan =>
    rw [List.flatten_cons,← List.append_assoc] at whole
    obtain ⟨-,rfl,-⟩ := scansUnique whole (scansFailed scan _)
    refine ⟨List.nil_prefix,fun last ok => ?_,fun e failed => ?_⟩
    · cases ok
    · exact .inl (by cases failed; rfl)
  | @checkFails b c cs _ _ _ scan refused =>
    refine ⟨List.nil_prefix,fun last ok => ?_,fun e failed => ?_⟩
    · cases ok
    · cases failed
      exact .inr ⟨[c],_,_,⟨cs,rfl⟩,by simpa using scan,refused⟩

theorem feedsAll (feeds : Feeds s check b chunks found outcome) (waiting : s.take b = .ok none)
    (whole : Scans s (b ++ chunks.flatten) found' none left)
    (passes : ∀ fed part waits, fed <+: chunks → Scans s (b ++ fed.flatten) part none waits →
      check waits = none) : found = found' ∧ outcome = .ok left := by
  obtain ⟨-,complete,failed⟩ := feedsScan feeds waiting whole
  cases outcome with
  | ok last =>
    obtain ⟨rfl,-,rfl⟩ := complete last rfl
    exact ⟨rfl,rfl⟩
  | error e =>
    rcases failed e rfl with stops | ⟨fed,part,waits,pre,scan,refused⟩
    · cases stops
    · rw [passes fed part waits pre scan] at refused
      cases refused

theorem feedsStop (feeds : Feeds s check b chunks found outcome) (waiting : s.take b = .ok none)
    (whole : Scans s (b ++ chunks.flatten) found' stop left)
    (unchecked : ∀ waits e, check waits = some e → outcome ≠ .error e) (e : ε) :
    outcome = .error e ↔ stop = some e := by
  obtain ⟨-,complete,failed⟩ := feedsScan feeds waiting whole
  constructor
  · intro here
    rcases failed e here with stops | ⟨_,_,waits,_,_,refused⟩
    · exact stops
    · exact absurd here (unchecked waits e refused)
  · intro stops
    cases outcome with
    | ok last => cases stops.symm.trans (complete last rfl).2.1
    | error other =>
      rcases failed other rfl with here | ⟨_,_,waits,_,_,refused⟩
      · cases stops.symm.trans here
        rfl
      · exact absurd rfl (unchecked waits other refused)

theorem feedsAgree {chunks' : List (List β)} {outcome' : Except ε (List β)} (waiting : s.take b = .ok none)
    (same : chunks.flatten = chunks'.flatten) (one : Feeds s check b chunks found outcome)
    (other : Feeds s check b chunks' found' outcome') :
    (found <+: found' ∨ found' <+: found) ∧
    (∀ last last', outcome = .ok last → outcome' = .ok last' → found = found' ∧ last = last') ∧
    ((∀ waits e, check waits = some e → outcome ≠ .error e ∧ outcome' ≠ .error e) →
      ∀ e, outcome = .error e ↔ outcome' = .error e) := by
  obtain ⟨all,stop,left,whole⟩ := scansSome s (b ++ chunks.flatten)
  have whole' : Scans s (b ++ chunks'.flatten) all stop left := same ▸ whole
  obtain ⟨front,complete,-⟩ := feedsScan one waiting whole
  obtain ⟨front',complete',-⟩ := feedsScan other waiting whole'
  refine ⟨List.prefix_or_prefix_of_prefix front front',fun last last' ok ok' => ?_,fun unchecked e => ?_⟩
  · obtain ⟨rfl,-,rfl⟩ := complete last ok
    obtain ⟨rfl,-,rfl⟩ := complete' last' ok'
    exact ⟨rfl,rfl⟩
  · rw [feedsStop one waiting whole (fun waits e refused => (unchecked waits e refused).1) e,
      feedsStop other waiting whole' (fun waits e refused => (unchecked waits e refused).2) e]

end FixCli.Lib
