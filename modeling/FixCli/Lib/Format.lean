import FixCli.Lib.Json
import FixCli.Lib.Table

/-! Formats of compact JSON: a writer and a reader together, with the proof that the
reader takes back what the writer put in front of any text. -/
namespace FixCli.Lib

abbrev Reader (α : Type) := Bytes → Option (α × Bytes)

def Closed : Bytes → Prop
  | [] => True
  | b :: _ => isDigit b = false

def Inverts {α : Type} (read : Reader α) (write : α → Bytes) : Prop :=
  ∀ a rest, Closed rest → read (write a ++ rest) = some (a,rest)

def Opens : Bytes → Prop
  | [] => False
  | b :: _ => b ≠ 0x5D ∧ b ≠ 0x7D

theorem Opens.append {s : Bytes} (h : Opens s) (t : Bytes) : Opens (s ++ t) := by
  cases s with
  | nil => cases h
  | cons b s => exact h

structure Format (α : Type) where
  write : α → Bytes
  read : Reader α
  inverts : Inverts read write
  opens : ∀ a, Opens (write a)

namespace Format

variable {α β : Type}

def expect (b : UInt8) : Reader Unit
  | [] => none
  | c :: rest => if c = b then some ((),rest) else none

theorem expected (b : UInt8) (rest : Bytes) : expect b (b :: rest) = some ((),rest) := if_pos rfl

def readNumber : Reader Nat := fun s =>
  if s.takeWhile isDigit = [] then none else some (valueOf 0 (s.takeWhile isDigit),s.dropWhile isDigit)

theorem closedStops {rest : Bytes} (closed : Closed rest) :
    rest.takeWhile isDigit = [] ∧ rest.dropWhile isDigit = rest := by
  cases rest with
  | nil => exact ⟨rfl,rfl⟩
  | cons b rest =>
    have stop : isDigit b = false := closed
    simp [stop]

theorem numberInverts : Inverts readNumber decimal := by
  intro n rest closed
  obtain ⟨none,all⟩ := closedStops closed
  have digits : ∀ b ∈ decimal n, isDigit b = true := decimalDigits n
  rw [readNumber,List.takeWhile_append_of_pos digits,List.dropWhile_append_of_pos digits,none,all,List.append_nil,
    if_neg (decimalNonempty n),decimalValue]

theorem numberOpens (n : Nat) : Opens (decimal n) := by
  have digits := decimalDigits n
  cases text : decimal n with
  | nil => exact absurd text (decimalNonempty n)
  | cons b rest =>
    have one : isDigit b = true := digits b (by simp [text])
    constructor <;> rintro rfl <;> cases one

def number : Format Nat := ⟨decimal,readNumber,numberInverts,numberOpens⟩

def hexValue (b : UInt8) : Nat := if isDigit b then digit b else b.toNat - 87

theorem hexInverts : ∀ n < 16, hexValue (hexDigit n) = n := by decide

def escapes : List (UInt8 × UInt8) :=
  [(0x22,0x22),(0x5C,0x5C),(0x62,0x08),(0x74,0x09),(0x6E,0x0A),(0x66,0x0C),(0x72,0x0D)]

def readEscape : Reader UInt8
  | 0x75 :: _ :: _ :: high :: low :: rest => some ((16 * hexValue high + hexValue low).toUInt8,rest)
  | c :: rest => (escapes.lookup c).map fun b => (b,rest)
  | [] => none

def readByte : Reader UInt8
  | [] => none
  | b :: rest => if b = 0x5C then readEscape rest else some (b,rest)

theorem byteInverts (b : UInt8) (rest : Bytes) : readByte (escapeByte b ++ rest) = some (b,rest) := by
  unfold escapeByte
  split_ifs with quoted back tab line form carriage control
  · rcases quoted with rfl | rfl <;> rfl
  · subst back; rfl
  · subst tab; rfl
  · subst line; rfl
  · subst form; rfl
  · subst carriage; rfl
  · have unicode : ascii "\\u00" = [0x5C,0x75,0x30,0x30] := by decide
    have small : b.toNat < 0x20 := UInt8.lt_iff_toNat_lt.mp control
    have both : 16 * (b.toNat / 16) + b.toNat % 16 = b.toNat := Nat.div_add_mod _ _
    change readByte (ascii "\\u00" ++ [hexDigit (b.toNat / 16),hexDigit (b.toNat % 16)] ++ rest) = _
    rw [unicode]
    change some ((16 * hexValue (hexDigit (b.toNat / 16)) + hexValue (hexDigit (b.toNat % 16))).toUInt8,rest) = _
    rw [hexInverts _ (by omega),hexInverts _ (by omega),both]
    simp
  · have plain : b ≠ 0x5C := fun same => quoted (.inr same)
    simp [readByte,plain]

theorem escapeNoQuote (b : UInt8) : ∃ c more, escapeByte b = c :: more ∧ c ≠ 0x22 := by
  unfold escapeByte
  split_ifs with quoted
  · exact ⟨0x5C,[b],rfl,by decide⟩
  · exact ⟨0x5C,ascii "b",rfl,by decide⟩
  · exact ⟨0x5C,ascii "t",rfl,by decide⟩
  · exact ⟨0x5C,ascii "n",rfl,by decide⟩
  · exact ⟨0x5C,ascii "f",rfl,by decide⟩
  · exact ⟨0x5C,ascii "r",rfl,by decide⟩
  · exact ⟨0x5C,ascii "u00" ++ [hexDigit (b.toNat / 16),hexDigit (b.toNat % 16)],rfl,by decide⟩
  · exact ⟨b,[],rfl,fun same => quoted (.inl same)⟩

def readBytes : Nat → Reader Bytes
  | 0,_ => none
  | fuel + 1,s => match expect 0x22 s with
    | some ((),rest) => some ([],rest)
    | none => do
      let (b,rest) ← readByte s
      let (bytes,rest) ← readBytes fuel rest
      some (b :: bytes,rest)

theorem bytesInvert (s rest : Bytes) {fuel : Nat} (enough : s.length < fuel) :
    readBytes fuel (escaped s ++ 0x22 :: rest) = some (s,rest) := by
  induction s generalizing fuel with
  | nil =>
    obtain ⟨fuel,rfl⟩ := Nat.exists_eq_add_one_of_ne_zero (Nat.ne_of_gt enough)
    rfl
  | cons b s ih =>
    obtain ⟨fuel,rfl⟩ := Nat.exists_eq_add_one_of_ne_zero (Nat.ne_of_gt (Nat.zero_lt_of_lt enough))
    have here : escaped (b :: s) ++ 0x22 :: rest = escapeByte b ++ (escaped s ++ 0x22 :: rest) := by simp [escaped]
    obtain ⟨c,more,text,other⟩ := escapeNoQuote b
    have inside : expect 0x22 (escapeByte b ++ (escaped s ++ 0x22 :: rest)) = none := by
      rw [text]
      exact if_neg other
    have later := ih (Nat.lt_of_succ_lt_succ enough)
    rw [here]
    simp only [readBytes,inside,byteInverts,later,Option.bind_eq_bind,Option.bind_some]

def readString : Reader Bytes := fun s => do
  let ((),rest) ← expect 0x22 s
  readBytes (s.length + 1) rest

theorem stringInverts : Inverts readString jsonString := by
  intro s rest _
  have text : jsonString s ++ rest = 0x22 :: (escaped s ++ 0x22 :: rest) := by simp [jsonString]
  have room := (escapedBounds s).1
  rw [text,readString,expected]
  refine bytesInvert s rest ?_
  simp only [List.length_cons,List.length_append]
  omega

def string : Format Bytes := ⟨jsonString,readString,stringInverts,fun _ => by constructor <;> decide⟩

def readKey (key : String) : Reader Unit := fun s => do
  let (name,rest) ← readString s
  let ((),rest) ← expect 0x3A rest
  if name = ascii key then some ((),rest) else none

theorem keyInverts (key : String) (rest : Bytes) :
    readKey key (jsonString (ascii key) ++ 0x3A :: rest) = some ((),rest) := by
  have name := stringInverts (ascii key) (0x3A :: rest) rfl
  simp only [readKey,name,expected,Option.bind_eq_bind,Option.bind_some,if_true]

def member (key : String) (value : Format α) : Format α where
  write a := Lib.member key (value.write a)
  read := fun s => do
    let ((),rest) ← readKey key s
    value.read rest
  inverts := by
    intro a rest closed
    have text : Lib.member key (value.write a) ++ rest =
        jsonString (ascii key) ++ 0x3A :: (value.write a ++ rest) := by simp [Lib.member]
    have name := keyInverts key (value.write a ++ rest)
    rw [text]
    simp only [name,Option.bind_eq_bind,Option.bind_some]
    exact value.inverts a rest closed
  opens a := (string.opens (ascii key)).append _

def joined (between : UInt8) (apart : isDigit between = false) (first : Format α) (last : Format β) :
    Format (α × β) where
  write both := first.write both.1 ++ between :: last.write both.2
  read := fun s => do
    let (a,rest) ← first.read s
    let ((),rest) ← expect between rest
    let (b,rest) ← last.read rest
    some ((a,b),rest)
  inverts := by
    rintro ⟨a,b⟩ rest closed
    have front := first.inverts a (between :: (last.write b ++ rest)) apart
    have back := last.inverts b rest closed
    simp only [List.append_assoc,List.cons_append,front,expected,back,Option.bind_eq_bind,Option.bind_some]
  opens both := (first.opens both.1).append _

def and (first : Format α) (last : Format β) : Format (α × β) := joined 0x2C rfl first last

def entry (key : Format α) (value : Format β) : Format (α × β) := joined 0x3A rfl key value

def enclosed (opening close : UInt8) (outer : opening ≠ 0x5D ∧ opening ≠ 0x7D) (ends : isDigit close = false)
    (inner : Format α) : Format α where
  write a := opening :: (inner.write a ++ [close])
  read := fun s => do
    let ((),rest) ← expect opening s
    let (a,rest) ← inner.read rest
    let ((),rest) ← expect close rest
    some (a,rest)
  inverts := by
    intro a rest _
    have within := inner.inverts a (close :: rest) ends
    simp only [List.cons_append,List.append_assoc,List.nil_append,expected,within,Option.bind_eq_bind,Option.bind_some]
  opens _ := outer

def object (members : Format α) : Format α := enclosed 0x7B 0x7D (by decide) rfl members

def tuple (items : Format α) : Format α := enclosed 0x5B 0x5D (by decide) rfl items

def through (format : Format α) (into : β → α) (back : α → Option β) (law : ∀ b, back (into b) = some b) :
    Format β where
  write b := format.write (into b)
  read := fun s => do
    let (a,rest) ← format.read s
    let b ← back a
    some (b,rest)
  inverts := by
    intro b rest closed
    have inner := format.inverts (into b) rest closed
    simp only [inner,law,Option.bind_eq_bind,Option.bind_some]
  opens b := format.opens (into b)

def named (name : α → Bytes) (all : List α) (law : ∀ a, all.find? (fun b => name b = name a) = some a) : Format α :=
  string.through name (fun text => all.find? fun b => name b = text) law

def option (value : Format α) (apart : ∀ a, (value.write a).head? ≠ some 0x6E) : Format (Option α) where
  write := jsonOption value.write
  read := fun s => if s.take 4 = jsonNull then some (none,s.drop 4) else (value.read s).map fun (a,rest) => (some a,rest)
  inverts := by
    intro a rest closed
    cases a with
    | none => rfl
    | some a =>
      have other : (value.write a ++ rest).take 4 ≠ jsonNull := by
        have opens := value.opens a
        have first := apart a
        cases text : value.write a with
        | nil =>
          rw [text] at opens
          cases opens
        | cons b more =>
          rw [text] at first
          intro same
          have head : some b = jsonNull.head? := congrArg List.head? same
          exact first (head.trans (by decide))
      simp only [jsonOption,if_neg other,value.inverts a rest closed,Option.map_some]
  opens a := by
    cases a with
    | none => constructor <;> decide
    | some a => exact value.opens a

def Refuses (read : Reader α) (front : Bytes) : Prop := ∀ rest, read (front ++ rest) = none

def either (first : Format α) (last : Format β) (apart : ∀ b, Refuses first.read (last.write b)) : Format (α ⊕ β) where
  write := Sum.elim first.write last.write
  read := fun s => match first.read s with
    | some (a,rest) => some (.inl a,rest)
    | none => (last.read s).map fun (b,rest) => (.inr b,rest)
  inverts := by
    intro a rest closed
    cases a with
    | inl a => simp only [Sum.elim_inl,first.inverts a rest closed]
    | inr b => simp only [Sum.elim_inr,apart b rest,last.inverts b rest closed,Option.map_some]
  opens a := by
    cases a with
    | inl a => exact first.opens a
    | inr b => exact last.opens b

def constant (text : Bytes) : Format Unit :=
  string.through (fun _ => text) (fun read => if read = text then some () else none) fun _ => if_pos rfl

def tag (key : String) (text : Bytes) : Format Unit := object (member key (constant text))

def tagged (key : String) (text : Bytes) (members : Format α) : Format α :=
  (object ((member key (constant text)).and members)).through (fun a => ((),a)) (fun both => some both.2) fun _ => rfl

def tagFront (key : String) (text : Bytes) : Bytes := 0x7B :: Lib.member key (jsonString text)

theorem tagBegins (key : String) (text : Bytes) (a : Unit) :
    (tag key text).write a = tagFront key text ++ [0x7D] := rfl

theorem taggedBegins (key : String) (text : Bytes) (members : Format α) (a : α) :
    (tagged key text members).write a = tagFront key text ++ 0x2C :: (members.write a ++ [0x7D]) := by
  simp only [tagged,through,object,enclosed,and,joined,member,constant,tagFront,string,List.append_assoc,List.cons_append]

theorem closedAppend {back : Bytes} (closed : Closed back) (more : back ≠ []) (rest : Bytes) : Closed (back ++ rest) := by
  cases back with
  | nil => exact absurd rfl more
  | cons b back => exact closed

section

variable (key : String) {text other back : Bytes} (differ : other ≠ text)
include differ

theorem constantRefuses (closed : Closed back) :
    (member key (constant text)).read (Lib.member key (jsonString other) ++ back) = none := by
  have split : Lib.member key (jsonString other) ++ back =
      jsonString (ascii key) ++ 0x3A :: (jsonString other ++ back) := by simp [Lib.member]
  have name := keyInverts key (jsonString other ++ back)
  have value := stringInverts other back closed
  rw [split]
  simp only [member,constant,through,string,name,value,if_neg differ,Option.bind_eq_bind,Option.bind_some,
    Option.bind_none]

theorem tagRefuses (closed : Closed back) (more : back ≠ []) : Refuses (tag key text).read (tagFront key other ++ back) := by
  intro rest
  have refused := constantRefuses key differ (closedAppend closed more rest)
  simp only [tag,object,enclosed,tagFront,List.cons_append,List.append_assoc,expected,refused,Option.bind_eq_bind,
    Option.bind_some,Option.bind_none]

theorem taggedRefuses (members : Format α) (closed : Closed back) (more : back ≠ []) :
    Refuses (tagged key text members).read (tagFront key other ++ back) := by
  intro rest
  have refused := constantRefuses key differ (closedAppend closed more rest)
  simp only [tagged,through,object,enclosed,and,joined,tagFront,List.cons_append,List.append_assoc,expected,refused,
    Option.bind_eq_bind,Option.bind_some,Option.bind_none]

end

def readItems (item : Reader α) (close : UInt8) : Nat → Reader (List α)
  | 0,_ => none
  | fuel + 1,s => do
    let (a,rest) ← item s
    match expect close rest with
    | some ((),rest) => some ([a],rest)
    | none => do
      let ((),rest) ← expect 0x2C rest
      let (items,rest) ← readItems item close fuel rest
      some (a :: items,rest)

theorem itemsInvert {item : Reader α} {write : α → Bytes} (inverts : Inverts item write) {close : UInt8}
    (bracket : close ≠ 0x2C) (ends : isDigit close = false) (a : α) (items : List α) (rest : Bytes) {fuel : Nat}
    (enough : items.length < fuel) :
    readItems item close fuel (commaed ((a :: items).map write) ++ close :: rest) = some (a :: items,rest) := by
  induction items generalizing a fuel with
  | nil =>
    obtain ⟨fuel,rfl⟩ := Nat.exists_eq_add_one_of_ne_zero (Nat.ne_of_gt enough)
    have last := inverts a (close :: rest) ends
    simp only [List.map_cons,List.map_nil,commaed,readItems,last,expected,Option.bind_eq_bind,Option.bind_some]
  | cons b items ih =>
    obtain ⟨fuel,rfl⟩ := Nat.exists_eq_add_one_of_ne_zero (Nat.ne_of_gt (Nat.zero_lt_of_lt enough))
    have first := inverts a (0x2C :: (commaed ((b :: items).map write) ++ close :: rest)) rfl
    have goesOn : expect close (0x2C :: (commaed ((b :: items).map write) ++ close :: rest)) = none :=
      if_neg bracket.symm
    have later := ih b (Nat.lt_of_succ_lt_succ enough)
    simp only [List.map_cons] at first goesOn later ⊢
    simp only [commaed,List.append_assoc,List.cons_append,readItems,first,goesOn,expected,later,Option.bind_eq_bind,
      Option.bind_some]

def readList (item : Reader α) (opening close : UInt8) : Reader (List α) := fun s => do
  let ((),rest) ← expect opening s
  match expect close rest with
  | some ((),rest) => some ([],rest)
  | none => readItems item close s.length rest

theorem commaedOpens {texts : List Bytes} {text : Bytes} (opens : Opens text) : Opens (commaed (text :: texts)) := by
  cases texts with
  | nil => exact opens
  | cons next rest => exact opens.append _

theorem commaedRoom (texts : List Bytes) (opens : ∀ text ∈ texts, Opens text) :
    texts.length ≤ (commaed texts).length := by
  induction texts with
  | nil => exact Nat.le_refl _
  | cons text rest ih =>
    have one : 1 ≤ text.length := by
      cases text with
      | nil => exact (opens [] List.mem_cons_self).elim
      | cons b text => simp
    have others := ih fun other mem => opens other (List.mem_cons_of_mem text mem)
    cases rest with
    | nil => exact one
    | cons next rest =>
      simp only [commaed,List.length_cons,List.length_append] at others ⊢
      omega

theorem listInverts (item : Format α) {opening close : UInt8} (bracket : close = 0x5D ∨ close = 0x7D) :
    Inverts (readList item.read opening close)
      fun items => opening :: (commaed (items.map item.write) ++ [close]) := by
  intro items rest _
  have text : opening :: (commaed (items.map item.write) ++ [close]) ++ rest =
      opening :: (commaed (items.map item.write) ++ close :: rest) := by simp
  rw [text]
  cases items with
  | nil => simp [readList,expected,commaed]
  | cons a items =>
    have opens : Opens (commaed ((a :: items).map item.write) ++ close :: rest) :=
      (commaedOpens (item.opens a)).append _
    have inside : expect close (commaed ((a :: items).map item.write) ++ close :: rest) = none := by
      cases front : commaed ((a :: items).map item.write) ++ close :: rest with
      | nil => rfl
      | cons b more =>
        rw [front] at opens
        exact if_neg fun same => bracket.elim (fun h => opens.1 (same.trans h)) fun h => opens.2 (same.trans h)
    have room := commaedRoom ((a :: items).map item.write) fun written mem => by
      obtain ⟨b,_,rfl⟩ := List.mem_map.mp mem
      exact item.opens b
    simp only [readList,expected,inside,Option.bind_eq_bind,Option.bind_some]
    refine itemsInvert item.inverts ?_ ?_ a items rest ?_
    · rcases bracket with rfl | rfl <;> decide
    · rcases bracket with rfl | rfl <;> decide
    · simp only [List.length_cons,List.length_append,List.length_map] at room ⊢
      omega

def list (item : Format α) : Format (List α) where
  write items := jsonArray (items.map item.write)
  read := readList item.read 0x5B 0x5D
  inverts := listInverts item (.inl rfl)
  opens _ := by constructor <;> decide

def table : Format (Table Bytes Bytes) where
  write t := 0x7B :: (commaed (t.toList.map (entry string string).write) ++ [0x7D])
  read := fun s => do
    let (entries,rest) ← readList (entry string string).read 0x7B 0x7D s
    some (Std.ExtTreeMap.ofList entries compare,rest)
  inverts := by
    intro t rest closed
    have inner : readList (entry string string).read 0x7B 0x7D _ = _ :=
      listInverts (entry string string) (.inr rfl) t.toList rest closed
    simp only [inner,Table.ofEntries,Option.bind_eq_bind,Option.bind_some]
  opens _ := by constructor <;> decide

def readAll (format : Format α) (text : Bytes) : Option α :=
  match format.read text with
  | some (a,[]) => some a
  | _ => none

theorem readsAll (format : Format α) (a : α) : format.readAll (format.write a) = some a := by
  have whole := format.inverts a [] trivial
  rw [List.append_nil] at whole
  simp only [readAll,whole]

end Format
end FixCli.Lib
