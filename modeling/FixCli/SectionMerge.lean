import FixCli.QuickfixCfg

/-! What the merged sections hold, read off the lines without any pass over them: to each
key the last value given under the section's own headers, or else under DEFAULT. -/
namespace FixCli.Cfg
open Lib Codec

inductive Line where
  | silent
  | header (name : Text)
  | pair (key value : Text)
  | unreadable
  deriving DecidableEq, Repr

def readLine (rawLine : Text) : Line :=
  let line := trim rawLine
  if line = [] ∨ line.head? = some '#' ∨ line.head? = some ';' then .silent
  else match headerName line with
  | some name => .header name
  | none => match splitOnce '=' line with
    | none => .unreadable
    | some (key,value) => .pair (trim key) (trim value)

def readLines (rawLines : List Text) : List Line := rawLines.map readLine

def ownerOf (name : Text) : Option Text := if name = defaultName then none else some name

def ownerAfter : Option Text → List Line → Option Text
  | owner, [] => owner
  | _, .header name :: rest => ownerAfter (ownerOf name) rest
  | owner, .silent :: rest | owner, .pair .. :: rest | owner, .unreadable :: rest => ownerAfter owner rest

def assigned : Option Text → List Line → List (Option Text × (Text × Text))
  | _, [] => []
  | _, .header name :: rest => assigned (ownerOf name) rest
  | owner, .pair key value :: rest => (owner,key,value) :: assigned owner rest
  | owner, .silent :: rest | owner, .unreadable :: rest => assigned owner rest

def givenFrom (start owner : Option Text) (read : List Line) : List (Text × Text) :=
  ((assigned start read).filter fun entry => entry.1 = owner).map Prod.snd

def given (owner : Option Text) (read : List Line) : List (Text × Text) := givenFrom none owner read

def headers (read : List Line) : List Text := read.filterMap fun
  | .header name => some name
  | _ => none

section

variable {past rest : List Line} {start owner : Option Text}

theorem ownerAppend : ownerAfter start (past ++ rest) = ownerAfter (ownerAfter start past) rest := by
  induction past generalizing start with
  | nil => rfl
  | cons line past ih => cases line <;> exact ih

theorem assignedAppend : assigned start (past ++ rest) = assigned start past ++ assigned (ownerAfter start past) rest := by
  induction past generalizing start with
  | nil => rfl
  | cons line past ih =>
    cases line with
    | silent | header _ | unreadable => exact ih
    | pair key value => exact congrArg ((start,key,value) :: ·) ih

theorem givenAppend : givenFrom start owner (past ++ rest) =
    givenFrom start owner past ++ givenFrom (ownerAfter start past) owner rest := by
  rw [givenFrom,assignedAppend,List.filter_append,List.map_append]
  rfl

theorem givenPair (owner : Option Text) (key value : Text) : given owner (past ++ [.pair key value]) =
    given owner past ++ if ownerAfter none past = owner then [(key,value)] else [] := by
  rw [given,givenAppend]
  simp only [givenFrom,assigned,List.filter_cons,List.filter_nil,decide_eq_true_eq]
  split <;> rfl

theorem headersAppend : headers (past ++ rest) = headers past ++ headers rest := List.filterMap_append

theorem assignedUnder {entry : Option Text × (Text × Text)} (mem : entry ∈ assigned start past) :
    entry.1 = start ∨ ∃ name ∈ headers past, entry.1 = ownerOf name := by
  induction past generalizing start with
  | nil => cases mem
  | cons line past ih =>
    cases line with
    | silent | unreadable => exact ih mem
    | header name =>
      have later : entry ∈ assigned (ownerOf name) past := mem
      rcases ih later with own | ⟨other,there,own⟩
      · exact .inr ⟨name,List.mem_cons_self,own⟩
      · exact .inr ⟨other,List.mem_cons_of_mem _ there,own⟩
    | pair key value =>
      rcases List.mem_cons.mp mem with rfl | later
      · exact .inl rfl
      · exact ih later

theorem givenUnheaded {name : Text} (absent : name ∉ headers past) : given (some name) past = [] := by
  rw [given,givenFrom,List.map_eq_nil_iff,List.filter_eq_nil_iff]
  intro entry mem own
  have own : entry.1 = some name := by simpa using own
  rcases assignedUnder mem with default | ⟨other,there,under⟩
  · rw [own] at default
    cases default
  · rw [own,ownerOf] at under
    split at under
    · cases under
    · cases under
      exact absent there

end

structure Holds (past : List Line) (scan : Scan) : Prop where
  defaults : Tabulates scan.defaultSection (given none past)
  named : ∀ name, name ∈ scan.sections ↔ name ∈ headers past
  own : ∀ name table, scan.sections[name]? = some table → Tabulates table (given (some name) past)
  current : ∀ name, scan.current = some name → name ∈ headers past
  owner : scan.current.bind ownerOf = ownerAfter none past

section

variable {past : List Line} {scan : Scan}

theorem holdsStart : Holds [] .start where
  defaults := .empty
  named := fun name => by simp [Scan.start,headers]
  own := fun name table found => by simp [Scan.start] at found
  current := nofun
  owner := rfl

theorem givenSilent {line : Line} (owner : Option Text) (silent : ∀ o, assigned o [line] = []) :
    given owner (past ++ [line]) = given owner past := by
  rw [given,givenAppend,givenFrom.eq_def _ _ [line],silent]
  exact List.append_nil _

theorem Holds.silent (h : Holds past scan) : Holds (past ++ [.silent]) scan where
  defaults := by rw [givenSilent _ fun _ => rfl]; exact h.defaults
  named := fun name => by rw [headersAppend]; simpa [headers] using h.named name
  own := fun name table found => by rw [givenSilent _ fun _ => rfl]; exact h.own name table found
  current := fun name now => by rw [headersAppend]; exact List.mem_append_left _ (h.current name now)
  owner := by rw [ownerAppend,← h.owner]; rfl

theorem Holds.header (h : Holds past scan) (name : Text) : Holds (past ++ [.header name])
    {scan with current := some name, sections := scan.sections.insertIfNew name ∅} where
  defaults := by rw [givenSilent _ fun _ => rfl]; exact h.defaults
  named := fun other => by
    have last : other ∈ headers [.header name] ↔ other = name := by simp [headers]
    rw [headersAppend,Std.ExtTreeMap.mem_insertIfNew,h.named other,List.mem_append,last,
      Std.LawfulEqOrd.compare_eq_iff_eq,or_comm,eq_comm]
  own := fun other table found => by
    rw [givenSilent _ fun _ => rfl]
    rw [Std.ExtTreeMap.getElem?_insertIfNew] at found
    split at found
    · rename_i fresh
      obtain ⟨same,absent⟩ := fresh
      obtain rfl := Std.LawfulEqOrd.compare_eq_iff_eq.mp same
      cases found
      rw [givenUnheaded fun there => absent ((h.named name).mpr there)]
      exact .empty
    · exact h.own other table found
  current := fun other now => by
    cases now
    rw [headersAppend]
    simp [headers]
  owner := by rw [ownerAppend]; rfl

theorem Holds.pair (h : Holds past scan) (key value : Text) :
    ∃ scan', insertKey scan key value = .ok scan' ∧ Holds (past ++ [.pair key value]) scan' := by
  have heads (name : Text) : name ∈ headers (past ++ [.pair key value]) ↔ name ∈ headers past := by
    rw [headersAppend]
    simp [headers]
  have owner : scan.current.bind ownerOf = ownerAfter none (past ++ [.pair key value]) := by
    rw [ownerAppend,← h.owner]
    rfl
  by_cases named : ∃ name, scan.current = some name ∧ name ≠ defaultName
  · obtain ⟨name,current,other⟩ := named
    have under : ownerAfter none past = some name := by
      rw [← h.owner,current]
      exact if_neg other
    have headed := h.current name current
    obtain ⟨own,found⟩ := Table.getOfMem ((h.named name).mpr headed)
    refine ⟨{scan with sections := scan.sections.insert name (own.insert key value)},?_,?_,fun section' => ?_,
      fun section' table there => ?_,fun section' now => (heads section').mpr (h.current section' now),owner⟩
    · simp only [insertKey,current,if_pos other,found]
    · rw [givenPair,under,if_neg nofun,List.append_nil]
      exact h.defaults
    · rw [heads,Std.ExtTreeMap.mem_insert,h.named,Std.LawfulEqOrd.compare_eq_iff_eq]
      exact ⟨fun either => either.elim (· ▸ headed) id,.inr⟩
    · rw [givenPair,under]
      rw [Std.ExtTreeMap.getElem?_insert] at there
      split at there
      · rename_i same
        obtain rfl := Std.LawfulEqOrd.compare_eq_iff_eq.mp same
        cases there
        rw [if_pos rfl]
        exact (h.own name own found).insert key value
      · rename_i apart
        rw [if_neg fun same => apart (Std.LawfulEqOrd.compare_eq_iff_eq.mpr (Option.some.inj same)),List.append_nil]
        exact h.own section' table there
  · have under : ownerAfter none past = none := by
      rw [← h.owner]
      cases current : scan.current with
      | none => rfl
      | some name => exact if_pos (Classical.not_not.mp fun other => named ⟨name,current,other⟩)
    have goes : insertKey scan key value = .ok {scan with defaultSection := scan.defaultSection.insert key value} := by
      unfold insertKey
      cases current : scan.current with
      | none => rfl
      | some name => exact if_neg fun other => named ⟨name,current,other⟩
    refine ⟨_,goes,?_,fun section' => ?_,fun section' table there => ?_,
      fun section' now => (heads section').mpr (h.current section' now),owner⟩
    · rw [givenPair,if_pos under]
      exact h.defaults.insert key value
    · rw [heads]
      exact h.named section'
    · rw [givenPair,under,if_neg nofun,List.append_nil]
      exact h.own section' table there

theorem scanLineHolds (h : Holds past scan) (index : Nat) (rawLine : Text) :
    match readLine rawLine with
    | .unreadable => scanLine scan index rawLine = .error (.error (.expectedKeyValue (index + 1) rawLine))
    | line => ∃ scan', scanLine scan index rawLine = .ok scan' ∧ Holds (past ++ [line]) scan' := by
  unfold readLine scanLine
  by_cases silent : trim rawLine = [] ∨ (trim rawLine).head? = some '#' ∨ (trim rawLine).head? = some ';'
  · simp only [if_pos silent]
    exact ⟨scan,rfl,h.silent⟩
  · simp only [if_neg silent]
    cases headerName (trim rawLine) with
    | some name => exact ⟨_,rfl,h.header name⟩
    | none =>
      cases splitOnce '=' (trim rawLine) with
      | none => rfl
      | some entry => exact h.pair _ _

theorem scanHolds (h : Holds past scan) (index : Nat) (rawLines : List Text) :
    (.unreadable ∉ readLines rawLines →
      ∃ scan', scanLines scan index rawLines = .ok scan' ∧ Holds (past ++ readLines rawLines) scan') ∧
    (.unreadable ∈ readLines rawLines →
      ∃ i rawLine, scanLines scan index rawLines = .error (.error (.expectedKeyValue i rawLine))) := by
  induction rawLines generalizing past scan index with
  | nil => exact ⟨fun _ => ⟨scan,rfl,by simpa [readLines] using h⟩,by simp [readLines]⟩
  | cons rawLine rest ih =>
    have here := scanLineHolds h index rawLine
    have reads : readLines (rawLine :: rest) = readLine rawLine :: readLines rest := rfl
    unfold scanLines
    rw [reads]
    by_cases bad : readLine rawLine = .unreadable
    · rw [bad] at here ⊢
      exact ⟨fun fine => absurd List.mem_cons_self fine,fun _ => ⟨_,_,by rw [here]; rfl⟩⟩
    · obtain ⟨scan',goes,holds⟩ : ∃ scan', scanLine scan index rawLine = .ok scan' ∧
          Holds (past ++ [readLine rawLine]) scan' := by
        revert here bad
        cases readLine rawLine with
        | unreadable => exact fun _ bad => absurd rfl bad
        | silent | header _ | pair _ _ => exact fun here _ => here
      rw [goes]
      have later := ih holds (index + 1)
      rw [List.append_assoc] at later
      exact ⟨fun fine => later.1 fun mem => fine (List.mem_cons_of_mem _ mem),
        fun mem => later.2 ((List.mem_cons.mp mem).resolve_left fun same => bad same.symm)⟩

def meaning (read : List Line) (name key : Text) : Option Text :=
  (lastOf (given (some name) read) key).or (lastOf (given none read) key)

theorem mergeMeans (h : Holds past scan) (name : Text) (table : SectionTable) : (name,table) ∈ merge scan ↔
    name ≠ defaultName ∧ name ∈ headers past ∧ ∀ key, table[key]? = meaning past name key := by
  simp only [merge,List.mem_map,List.mem_filter,Prod.exists,Prod.mk.injEq,
    Std.ExtTreeMap.mem_toList_iff_getElem?_eq_some,decide_eq_true_eq]
  constructor
  · rintro ⟨name,own,⟨found,other⟩,rfl,rfl⟩
    exact ⟨other,(h.named name).mp (Table.memOfGet found),h.defaults.overlay (h.own name own found)⟩
  · rintro ⟨other,headed,means⟩
    obtain ⟨own,found⟩ := Table.getOfMem ((h.named name).mpr headed)
    have overlaid := h.defaults.overlay (h.own name own found)
    exact ⟨name,own,⟨found,other⟩,rfl,Std.ExtTreeMap.ext_getElem? fun key => (overlaid key).trans (means key).symm⟩

theorem mergeSorted (scan : Scan) : (merge scan).Pairwise fun a b => compare a.1 b.1 = .lt := by
  rw [merge,List.pairwise_map]
  exact (Std.ExtTreeMap.ordered_keys_toList.filter _)

end

structure Rearranged (read read' : List Line) : Prop where
  readable : .unreadable ∉ read'
  given : ∀ owner, given owner read' = given owner read
  headers : ∀ name, name ∈ headers read' ↔ name ∈ headers read

theorem Rearranged.merges {read read' : List Line} {scan scan' : Scan} (same : Rearranged read read')
    (h : Holds read scan) (h' : Holds read' scan') : merge scan' = merge scan := by
  have defaults : scan'.defaultSection = scan.defaultSection := by
    have own := h'.defaults
    rw [same.given] at own
    exact own.unique h.defaults
  have sections : scan'.sections = scan.sections := by
    refine Std.ExtTreeMap.ext_getElem? fun name => ?_
    have headed : name ∈ scan'.sections ↔ name ∈ scan.sections := by rw [h'.named,h.named,same.headers]
    cases found : scan.sections[name]? with
    | none =>
      refine Std.ExtTreeMap.getElem?_eq_none fun there => ?_
      obtain ⟨own,here⟩ := Table.getOfMem (headed.mp there)
      rw [found] at here
      cases here
    | some own =>
      obtain ⟨own',found'⟩ := Table.getOfMem (headed.mpr (Table.memOfGet found))
      have reads := h'.own name own' found'
      rw [same.given] at reads
      rw [found',reads.unique (h.own name own found)]
  rw [merge,merge,defaults,sections]

structure Block where
  name : Text
  header : Text
  body : List Text
  headed : readLine header = .header name
  plain : headers (readLines body) = []

def Block.lines (block : Block) : List Text := block.header :: block.body

def pairs (read : List Line) : List (Text × Text) := read.filterMap fun
  | .pair key value => some (key,value)
  | _ => none

section

theorem plainGiven {read : List Line} (plain : headers read = []) (start owner : Option Text) :
    givenFrom start owner read = if start = owner then pairs read else [] := by
  induction read with
  | nil => simp [givenFrom,assigned,pairs]
  | cons line rest ih =>
    cases line with
    | header name => cases plain
    | silent | unreadable => exact ih plain
    | pair key value =>
      have behind := ih plain
      simp only [givenFrom,assigned,List.filter_cons,decide_eq_true_eq,pairs,List.filterMap_cons] at behind ⊢
      split
      · rename_i same
        rw [if_pos same] at behind
        rw [List.map_cons,behind]
      · rename_i apart
        rw [if_neg apart] at behind
        exact behind

theorem blocksGiven (blocks : List Block) (start owner : Option Text) :
    givenFrom start owner (readLines (blocks.flatMap Block.lines)) =
      (blocks.filter fun block => ownerOf block.name = owner).flatMap fun block => pairs (readLines block.body) := by
  induction blocks generalizing start with
  | nil => rfl
  | cons block rest ih =>
    have reads : readLines ((block :: rest).flatMap Block.lines) =
        .header block.name :: (readLines block.body ++ readLines (rest.flatMap Block.lines)) := by
      simp [readLines,Block.lines,block.headed]
    have opens : givenFrom start owner (readLines ((block :: rest).flatMap Block.lines)) =
        givenFrom (ownerOf block.name) owner (readLines block.body ++ readLines (rest.flatMap Block.lines)) := by
      rw [reads]
      rfl
    rw [opens,givenAppend,ih,plainGiven block.plain,List.filter_cons]
    by_cases own : ownerOf block.name = owner
    · rw [if_pos own,if_pos (by simpa using own)]
      rfl
    · rw [if_neg own,if_neg (by simpa using own),List.nil_append]

theorem ownerNone {name : Text} : ownerOf name = none ↔ name = defaultName := by simp [ownerOf]

theorem ownerSome {name other : Text} : ownerOf name = some other ↔ name ≠ defaultName ∧ name = other := by simp [ownerOf]

theorem ownerFilter {blocks blocks' : List Block}
    (same : ∀ name, (blocks'.filter fun block => block.name = name) = blocks.filter fun block => block.name = name)
    (owner : Option Text) : (blocks'.filter fun block => ownerOf block.name = owner) =
      blocks.filter fun block => ownerOf block.name = owner := by
  cases owner with
  | none =>
    simp only [ownerNone]
    exact same defaultName
  | some name =>
    simp only [ownerSome]
    by_cases other : name = defaultName
    · have foreign (block : Block) : ¬ (block.name ≠ defaultName ∧ block.name = name) := fun own => own.1 (own.2.trans other)
      simp only [foreign,decide_false,List.filter_false]
    · have exactly (block : Block) : (block.name ≠ defaultName ∧ block.name = name) ↔ block.name = name :=
        ⟨And.right,fun own => ⟨fun default => other (own.symm.trans default),own⟩⟩
      simp only [exactly]
      exact same name

theorem blocksMem {blocks blocks' : List Block}
    (same : ∀ name, (blocks'.filter fun block => block.name = name) = blocks.filter fun block => block.name = name)
    (block : Block) : block ∈ blocks' ↔ block ∈ blocks := by
  have own (list : List Block) : block ∈ list ↔ block ∈ list.filter fun other => other.name = block.name := by simp
  rw [own,own blocks,same]

theorem movedRearranged {prelude : List Text} {blocks blocks' : List Block}
    (same : ∀ name, (blocks'.filter fun block => block.name = name) = blocks.filter fun block => block.name = name)
    (readable : .unreadable ∉ readLines (prelude ++ blocks.flatMap Block.lines)) :
    Rearranged (readLines (prelude ++ blocks.flatMap Block.lines)) (readLines (prelude ++ blocks'.flatMap Block.lines)) := by
  have lines (rawLine : Text) :
      rawLine ∈ prelude ++ blocks'.flatMap Block.lines ↔ rawLine ∈ prelude ++ blocks.flatMap Block.lines := by
    simp only [List.mem_append,List.mem_flatMap,blocksMem same]
  have whole (line : Line) : line ∈ readLines (prelude ++ blocks'.flatMap Block.lines) ↔
      line ∈ readLines (prelude ++ blocks.flatMap Block.lines) := by
    simp only [readLines,List.mem_map,lines]
  refine ⟨fun mem => readable ((whole _).mp mem),fun owner => ?_,fun name => ?_⟩
  · simp only [given,readLines,List.map_append,givenAppend]
    exact congrArg _ ((blocksGiven blocks' _ owner).trans
      ((congrArg _ (ownerFilter same owner)).trans (blocksGiven blocks _ owner).symm))
  · simp only [headers,List.mem_filterMap,whole]

end

theorem sectionsMerged {text : Text} {merged : List (Text × SectionTable)} (ok : mergedSections text = .ok merged) :
    merged.Pairwise (fun a b => compare a.1 b.1 = .lt) ∧
    (∀ name table, (name,table) ∈ merged ↔ name ≠ defaultName ∧ name ∈ headers (readLines (lines text)) ∧
      ∀ key, table[key]? = meaning (readLines (lines text)) name key) ∧
    (∀ text', Rearranged (readLines (lines text)) (readLines (lines text')) → mergedSections text' = .ok merged) ∧
    ∀ text' prelude (blocks blocks' : List Block), lines text = prelude ++ blocks.flatMap Block.lines →
      lines text' = prelude ++ blocks'.flatMap Block.lines →
      (∀ name, (blocks'.filter fun block => block.name = name) = blocks.filter fun block => block.name = name) →
        mergedSections text' = .ok merged := by
  have start := scanHolds holdsStart 0 (lines text)
  rw [List.nil_append] at start
  have readable : .unreadable ∉ readLines (lines text) := by
    intro bad
    obtain ⟨i,rawLine,fails⟩ := start.2 bad
    rw [mergedSections,fails] at ok
    cases ok
  obtain ⟨scan,goes,holds⟩ := start.1 readable
  rw [mergedSections,goes] at ok
  cases ok
  have moves (text' : Text) (same : Rearranged (readLines (lines text)) (readLines (lines text'))) :
      mergedSections text' = .ok (merge scan) := by
    obtain ⟨scan',goes',holds'⟩ := (scanHolds holdsStart 0 (lines text')).1 same.readable
    rw [List.nil_append] at holds'
    rw [mergedSections,goes',← same.merges holds holds']
    rfl
  refine ⟨mergeSorted scan,mergeMeans holds,moves,fun text' prelude blocks blocks' parts parts' same => moves text' ?_⟩
  rw [parts,parts']
  exact movedRearranged same (parts ▸ readable)

def textOf (rawLines : List String) : Text := rawLines.flatMap fun rawLine => rawLine.toList ++ ['\n']

def sampleCfg : Text := textOf ["A=1", "[s]", "B=2", "# C=9", "[DEFAULT]", "A=3", "B=5", "[ s ]", "B = 4"]

theorem accepted {ε α : Type} {r : Except ε α} (fine : r.isOk = true) : ∃ a, r = .ok a := by
  cases r with
  | ok a => exact ⟨a,rfl⟩
  | error e => cases fine

theorem sectionsMergedSample :
    (mergedSections sampleCfg).isOk = true ∧ ∃ merged, mergedSections sampleCfg = .ok merged ∧
      ∀ table, ("s".toList,table) ∈ merged →
        table["A".toList]? = some "3".toList ∧ table["B".toList]? = some "4".toList ∧ table["C".toList]? = none := by
  have fine : (mergedSections sampleCfg).isOk = true := by decide +kernel
  obtain ⟨merged,run⟩ := accepted fine
  refine ⟨fine,merged,run,fun table mem => ?_⟩
  have means (key : Text) : table[key]? = meaning (readLines (lines sampleCfg)) "s".toList key :=
    ((sectionsMerged run).2.1 _ _ |>.mp mem).2.2 key
  refine ⟨?_,?_,?_⟩
  all_goals rw [means]; decide +kernel

end FixCli.Cfg
