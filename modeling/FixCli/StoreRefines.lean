import FixCli.RedbStore

/-! The tables of a `RedbStore` stand for a journal, and every operation on the tables
concludes as the journal's own: its answer, and tables that stand for what it leaves. -/
namespace FixCli.Redb
open Lib Store

section

variable {κ ρ : Type} [Ord κ] [Std.TransOrd κ]

def Coded.Faithful (coded : Coded ρ) : Prop :=
  ∀ record, ∃ bytes, coded.toVec record = .ok bytes ∧ coded.fromSlice bytes = .ok record

structure Serde.Faithful (serde : Serde) : Prop where
  command : serde.command.Faithful
  outbound : serde.outbound.Faithful
  transmission : serde.transmission.Faithful
  inbound : serde.inbound.Faithful
  event : serde.event.Faithful

def Rows (coded : Coded ρ) (rows : Table κ Bytes) (records : Table κ ρ) : Prop :=
  ∀ key : κ, (rows[key]?).map coded.fromSlice = (records[key]?).map .ok

variable {coded : Coded ρ} {rows : Table κ Bytes} {records : Table κ ρ} {key : κ} {record : ρ} {bytes : Bytes}

theorem Rows.empty : Rows coded (∅ : Table κ Bytes) (∅ : Table κ ρ) := fun key => by simp

theorem Rows.found (h : Rows coded rows records) (stored : records[key]? = some record) :
    ∃ bytes, rows[key]? = some bytes ∧ coded.fromSlice bytes = .ok record := by
  have here := h key
  rw [stored,Option.map_some,Option.map_eq_some_iff] at here
  exact here

theorem Rows.missing (h : Rows coded rows records) (absent : records[key]? = none) : rows[key]? = none := by
  have here := h key
  rw [absent,Option.map_none,Option.map_eq_none_iff] at here
  exact here

theorem Rows.insert (h : Rows coded rows records) (read : coded.fromSlice bytes = .ok record) (key : κ) :
    Rows coded (rows.insert key bytes) (records.insert key record) := by
  intro other
  rw [Std.ExtTreeMap.getElem?_insert,Std.ExtTreeMap.getElem?_insert]
  split
  · rw [Option.map_some,Option.map_some,read]
  · exact h other

end

structure Represents (serde : Serde) (t : Tables) (j : Journal) : Prop where
  nextOut : t.counters[ascii "next_out"]? = some j.nextOut
  nextIn : t.counters[ascii "next_in"]? = some j.nextIn
  nextEvent : t.counters[ascii "next_event"]? = some j.nextEvent
  nextTransmission : t.counters[ascii "next_transmission"]? = some j.nextTransmission
  commands : Rows serde.command t.commands j.commands
  outbound : Rows serde.outbound t.outbound j.outbound
  transmissions : Rows serde.transmission t.transmissions j.transmissions
  inbound : Rows serde.inbound t.inbound j.inbound
  events : Rows serde.event t.events j.events

section

variable {serde : Serde} {t : Tables} {j : Journal} {bytes : Bytes}

theorem counterPut {counters : Table Bytes Nat} {key other : Bytes} (n : Nat) (apart : key ≠ other) :
    (counters.insert key n)[other]? = counters[other]? := by
  rw [Std.ExtTreeMap.getElem?_insert,if_neg]
  simpa using apart

theorem Represents.putNextOut (h : Represents serde t j) (n : Nat) :
    Represents serde (META_TABLE.put ((META_TABLE.rows t).insert (ascii "next_out") n) t) {j with nextOut := n} :=
  {h with
    nextOut := Std.ExtTreeMap.getElem?_insert_self
    nextIn := (counterPut n (by decide)).trans h.nextIn
    nextEvent := (counterPut n (by decide)).trans h.nextEvent
    nextTransmission := (counterPut n (by decide)).trans h.nextTransmission}

theorem Represents.putNextIn (h : Represents serde t j) (n : Nat) :
    Represents serde (META_TABLE.put ((META_TABLE.rows t).insert (ascii "next_in") n) t) {j with nextIn := n} :=
  {h with
    nextOut := (counterPut n (by decide)).trans h.nextOut
    nextIn := Std.ExtTreeMap.getElem?_insert_self
    nextEvent := (counterPut n (by decide)).trans h.nextEvent
    nextTransmission := (counterPut n (by decide)).trans h.nextTransmission}

theorem Represents.putNextEvent (h : Represents serde t j) (n : Nat) :
    Represents serde (META_TABLE.put ((META_TABLE.rows t).insert (ascii "next_event") n) t)
      {j with nextEvent := n} :=
  {h with
    nextOut := (counterPut n (by decide)).trans h.nextOut
    nextIn := (counterPut n (by decide)).trans h.nextIn
    nextEvent := Std.ExtTreeMap.getElem?_insert_self
    nextTransmission := (counterPut n (by decide)).trans h.nextTransmission}

theorem Represents.putNextTransmission (h : Represents serde t j) (n : Nat) :
    Represents serde (META_TABLE.put ((META_TABLE.rows t).insert (ascii "next_transmission") n) t)
      {j with nextTransmission := n} :=
  {h with
    nextOut := (counterPut n (by decide)).trans h.nextOut
    nextIn := (counterPut n (by decide)).trans h.nextIn
    nextEvent := (counterPut n (by decide)).trans h.nextEvent
    nextTransmission := Std.ExtTreeMap.getElem?_insert_self}

theorem Represents.putCommand (h : Represents serde t j) {record : CommandRecord}
    (read : serde.command.fromSlice bytes = .ok record) (key : Bytes) :
    Represents serde (COMMAND_TABLE.put ((COMMAND_TABLE.rows t).insert key bytes) t)
      {j with commands := j.commands.insert key record} :=
  {h with commands := h.commands.insert read key}

theorem Represents.putOutbound (h : Represents serde t j) {record : OutboundRecord}
    (read : serde.outbound.fromSlice bytes = .ok record) (key : Nat) :
    Represents serde (OUTBOUND_TABLE.put ((OUTBOUND_TABLE.rows t).insert key bytes) t)
      {j with outbound := j.outbound.insert key record} :=
  {h with outbound := h.outbound.insert read key}

theorem Represents.putTransmission (h : Represents serde t j) {record : TransmissionRecord}
    (read : serde.transmission.fromSlice bytes = .ok record) (key : Nat) :
    Represents serde (TRANSMISSION_TABLE.put ((TRANSMISSION_TABLE.rows t).insert key bytes) t)
      {j with transmissions := j.transmissions.insert key record} :=
  {h with transmissions := h.transmissions.insert read key}

theorem Represents.putInbound (h : Represents serde t j) {record : InboundRecord}
    (read : serde.inbound.fromSlice bytes = .ok record) (key : Nat) :
    Represents serde (INBOUND_TABLE.put ((INBOUND_TABLE.rows t).insert key bytes) t)
      {j with inbound := j.inbound.insert key record} :=
  {h with inbound := h.inbound.insert read key}

theorem Represents.putEvent (h : Represents serde t j) {record : EventRecord}
    (read : serde.event.fromSlice bytes = .ok record) (key : Nat) :
    Represents serde (EVENT_TABLE.put ((EVENT_TABLE.rows t).insert key bytes) t)
      {j with events := j.events.insert key record} :=
  {h with events := h.events.insert read key}

theorem Represents.cleared (h : Represents serde t j) :
    Represents serde (INBOUND_TABLE.put ∅ (TRANSMISSION_TABLE.put ∅ (OUTBOUND_TABLE.put ∅ t)))
      {j with outbound := ∅, transmissions := ∅, inbound := ∅} :=
  {h with
    outbound := .empty
    transmissions := .empty
    inbound := .empty}

end

section

variable {κ ν ρ : Type} [Ord κ] [Std.TransOrd κ] {fault : Nat → CallFault} {t : Tables}

open Txn (Yields Concludes)

theorem callYields : Yields fault .backend (call fault) t () t := Yields.call t

theorem getYields (table : TableDefinition κ ν) {key : κ} {row : Option ν} (here : (table.rows t)[key]? = row) :
    Yields fault .backend (get fault table key) t row t := here ▸ Yields.read (fun t => (table.rows t)[key]?) t

theorem insertYields (table : TableDefinition κ ν) (key : κ) (value : ν) :
    Yields fault .backend (insert fault table key value) t () (table.put ((table.rows t).insert key value) t) :=
  Yields.write _ t

theorem removeYields (table : TableDefinition κ ν) (key : κ) :
    Yields fault .backend (remove fault table key) t () (table.put ((table.rows t).erase key) t) :=
  Yields.write _ t

theorem getFromYields (table : TableDefinition κ ν) {key : κ} {row : Option ν} (here : (table.rows t)[key]? = row) :
    Yields fault .backend (getFrom fault table key) t row t :=
  callYields.bind (getYields table here)

theorem insertIntoYields (table : TableDefinition κ ν) (key : κ) (value : ν) :
    Yields fault .backend (insertInto fault table key value) t () (table.put ((table.rows t).insert key value) t) :=
  callYields.bind (insertYields table key value)

theorem decodedYields {coded : Coded ρ} {bytes : Bytes} {record : ρ} (read : coded.fromSlice bytes = .ok record) :
    Yields fault .backend (decoded coded bytes) t record t :=
  Yields.ofExcept (by rw [read]; rfl) t

theorem encodedYields {coded : Coded ρ} {bytes : Bytes} {record : ρ} (written : coded.toVec record = .ok bytes) :
    Yields fault .backend (encoded coded record) t bytes t :=
  Yields.ofExcept (by rw [written]; rfl) t

theorem decodedRowYields {coded : Coded ρ} {row : Option Bytes} {record : Option ρ}
    (same : row.map coded.fromSlice = record.map .ok) :
    Yields fault .backend (decodedRow coded row) t record t := by
  cases record with
  | none =>
    rw [Option.map_none,Option.map_eq_none_iff] at same
    subst same
    exact .pure none t
  | some record =>
    rw [Option.map_some,Option.map_eq_some_iff] at same
    obtain ⟨bytes,rfl,read⟩ := same
    exact (decodedYields read).bind (.pure (some record) t)

theorem counterYields {key : String} {n : Nat} (here : t.counters[ascii key]? = some n) :
    Yields fault .backend (counter fault key) t n t :=
  (getYields META_TABLE here).bind (.pure n t)

theorem iterateYields (keys : List Nat) : Yields fault .backend (iterate fault keys) t () t := by
  induction keys with
  | nil => exact .pure () t
  | cons key rest ih => exact callYields.bind ih

def erased (table : TableDefinition Nat Bytes) (keys : List Nat) (t : Tables) : Tables :=
  keys.foldl (fun t key => table.put ((table.rows t).erase key) t) t

theorem removeAllYields (table : TableDefinition Nat Bytes) (keys : List Nat) (t : Tables) :
    Yields fault .backend (removeAll fault table keys) t () (erased table keys t) := by
  induction keys generalizing t with
  | nil => exact .pure () t
  | cons key rest ih => exact (removeYields table key).bind (ih _)

theorem erasedRows (table : TableDefinition Nat Bytes) (keys : List Nat) (t : Tables) :
    erased table keys t = table.put (keys.foldl (fun rows key => rows.erase key) (table.rows t)) t := by
  induction keys generalizing t with
  | nil => exact (table.putRows t).symm
  | cons key rest ih =>
    change erased table rest (table.put ((table.rows t).erase key) t) = _
    rw [ih,table.rowsPut,table.putPut]
    rfl

theorem eraseMany (keys : List Nat) (rows : Table Nat Bytes) (key : Nat) :
    (keys.foldl (fun rows key => rows.erase key) rows)[key]? = if key ∈ keys then none else rows[key]? := by
  induction keys generalizing rows with
  | nil => rfl
  | cons other rest ih =>
    rw [List.foldl_cons,ih,Std.ExtTreeMap.getElem?_erase]
    by_cases here : key = other
    · simp [here]
    · simp [here,Ne.symm here]

theorem clearYields (table : TableDefinition Nat Bytes) (t : Tables) :
    Yields fault .backend (clear fault table) t () (table.put ∅ t) := by
  have none : (table.rows t).keys.foldl (fun rows key => rows.erase key) (table.rows t) = ∅ := by
    apply Std.ExtTreeMap.ext_getElem?
    intro key
    rw [eraseMany,Std.ExtTreeMap.getElem?_empty]
    split
    · rfl
    · rename_i absent
      exact Std.ExtTreeMap.getElem?_eq_none (mt Std.ExtTreeMap.mem_keys.mpr absent)
  have removed : Yields fault .backend (removeAll fault table (table.rows t).keys) t () (table.put ∅ t) := by
    have each : Yields fault .backend (removeAll fault table (table.rows t).keys) t () _ := removeAllYields table _ t
    rwa [erasedRows,none] at each
  exact callYields.bind ((Yields.read (fun t => (table.rows t).keys) t).bind ((iterateYields _).bind removed))

end

section

variable {fault : Nat → CallFault} {serde : Serde} {t : Tables} {j : Journal}

open Txn (Yields Concludes)

theorem loadRowsYield (h : Represents serde t j) (sequences : List Nat) :
    Yields fault .backend (loadRows fault serde sequences) t
      (sequences.filterMap fun sequence => j.outbound[sequence]?) t := by
  induction sequences with
  | nil => exact .pure [] t
  | cons sequence rest ih =>
    refine (getYields OUTBOUND_TABLE rfl).bind ((decodedRowYields (h.outbound sequence)).bind (ih.bind ?_))
    cases found : j.outbound[sequence]? with
    | none => rw [List.filterMap_cons_none found]; exact .pure _ t
    | some record => rw [List.filterMap_cons_some found]; exact .pure _ t

def Refines {α : Type} (fault : Nat → CallFault) (serde : Serde) (m : StoreTxn α) (t : Tables)
    (answer : Except StoreError α) (left : Journal) : Prop :=
  ∃ u, Represents serde u left ∧ ∀ w, Concludes fault .backend m t w answer u

theorem writing {α : Type} {f : Unit → StoreTxn α} {answer : Except StoreError α} {left : Journal}
    (body : ∃ u, Represents serde u left ∧ Concludes fault .backend (f ()) t t answer u) :
    Refines fault serde (beginWrite fault >>= f) t answer left := by
  obtain ⟨u,h,body⟩ := body
  refine ⟨u,h,fun w => ?_⟩
  rw [beginWrite,bind_assoc]
  exact Concludes.started (callYields.concludes body) w

theorem reading {α : Type} {f : Unit → StoreTxn α} {a : α} (h : Represents serde t j)
    (body : Concludes fault .backend (f ()) t t (.ok a) t) :
    Refines fault serde (beginRead fault >>= f) t (.ok a) j :=
  ⟨t,h,Concludes.started body⟩

theorem commitOutboundRefines (faithful : serde.Faithful) (h : Represents serde t j) (commit : OutboundCommit) :
    Refines fault serde (commitOutbound fault serde commit) t (Store.commitOutbound j commit).1
      (Store.commitOutbound j commit).2 := by
  apply writing
  unfold Store.commitOutbound
  cases found : j.commands[commit.requestId]? with
  | some existing =>
    obtain ⟨bytes,row,read⟩ := h.commands.found found
    by_cases conflict : existing.fingerprint ≠ commit.fingerprint
    · simp only [if_pos conflict]
      refine ⟨t,h,(getFromYields COMMAND_TABLE row).concludes ((decodedYields read).concludes ?_)⟩
      simp only [if_pos conflict]
      exact Concludes.fail t t _
    · simp only [if_neg conflict]
      refine ⟨t,h,(getFromYields COMMAND_TABLE row).concludes ((decodedYields read).concludes ?_)⟩
      simp only [if_neg conflict]
      exact Concludes.pure t t _
  | none =>
    by_cases skipped : commit.msgSeqNum ≠ j.nextOut
    · simp only [if_pos skipped]
      refine ⟨t,h,(getFromYields COMMAND_TABLE (h.commands.missing found)).concludes
        (callYields.concludes ((counterYields h.nextOut).concludes ?_))⟩
      simp only [if_pos skipped]
      exact Concludes.fail t t _
    · simp only [if_neg skipped]
      obtain ⟨commandBytes,commandWritten,commandRead⟩ := faithful.command (journaledCommand commit)
      obtain ⟨outboundBytes,outboundWritten,outboundRead⟩ := faithful.outbound ⟨journaledCommand commit,commit.wire⟩
      refine ⟨_,((h.putCommand commandRead commit.requestId).putOutbound outboundRead commit.msgSeqNum).putNextOut
        (j.nextOut + 1),(getFromYields COMMAND_TABLE (h.commands.missing found)).concludes
          (callYields.concludes ((counterYields h.nextOut).concludes ?_))⟩
      simp only [if_neg skipped]
      exact (encodedYields commandWritten).concludes ((encodedYields outboundWritten).concludes
        ((insertIntoYields _ _ _).concludes ((insertIntoYields _ _ _).concludes
          ((insertIntoYields _ _ _).concludes (Concludes.commit _ _ _)))))

theorem markOutboundWrittenRefines (faithful : serde.Faithful) (h : Represents serde t j)
    (mark : MarkOutboundWritten) :
    Refines fault serde (markOutboundWritten fault serde mark) t (Store.markOutboundWritten j mark).1
      (Store.markOutboundWritten j mark).2 := by
  obtain ⟨requestId,sequence⟩ := mark
  apply writing
  unfold Store.markOutboundWritten
  cases found : j.commands[requestId]? with
  | none =>
    exact ⟨t,h,(getFromYields COMMAND_TABLE (h.commands.missing found)).concludes (Concludes.fail t t _)⟩
  | some command =>
    obtain ⟨bytes,row,read⟩ := h.commands.found found
    by_cases other : command.msgSeqNum ≠ sequence
    · simp only [if_pos other]
      refine ⟨t,h,(getFromYields COMMAND_TABLE row).concludes ((decodedYields read).concludes ?_)⟩
      simp only [if_pos other]
      exact Concludes.fail t t _
    · simp only [if_neg other]
      cases sent : j.outbound[sequence]? with
      | none =>
        refine ⟨t,h,(getFromYields COMMAND_TABLE row).concludes ((decodedYields read).concludes ?_)⟩
        simp only [if_neg other]
        exact (getFromYields OUTBOUND_TABLE (h.outbound.missing sent)).concludes (Concludes.fail t t _)
      | some outbound =>
        obtain ⟨wireBytes,wireRow,wireRead⟩ := h.outbound.found sent
        obtain ⟨commandBytes,commandWritten,commandRead⟩ := faithful.command {command with phase := .written}
        obtain ⟨outboundBytes,outboundWritten,outboundRead⟩ :=
          faithful.outbound {outbound with command := {command with phase := .written}}
        obtain rfl := Classical.not_not.mp other
        refine ⟨_,(h.putCommand commandRead command.requestId).putOutbound outboundRead command.msgSeqNum,
          (getFromYields COMMAND_TABLE row).concludes ((decodedYields read).concludes ?_)⟩
        simp only [if_neg other]
        exact (getFromYields OUTBOUND_TABLE wireRow).concludes ((decodedYields wireRead).concludes
          ((encodedYields commandWritten).concludes ((encodedYields outboundWritten).concludes
            ((insertIntoYields _ _ _).concludes ((insertIntoYields _ _ _).concludes (Concludes.commit _ _ _))))))

theorem commitTransmissionRefines (faithful : serde.Faithful) (h : Represents serde t j)
    (commit : TransmissionCommit) :
    Refines fault serde (commitTransmission fault serde commit) t (Store.commitTransmission j commit).1
      (Store.commitTransmission j commit).2 := by
  apply writing
  obtain ⟨bytes,written,read⟩ := faithful.transmission
    ⟨j.nextTransmission,commit.msgSeqNum,commit.kind,commit.wire,.journaled⟩
  refine ⟨_,(h.putTransmission read j.nextTransmission).putNextTransmission (j.nextTransmission + 1),
    callYields.concludes ((counterYields h.nextTransmission).concludes ?_)⟩
  exact (encodedYields written).concludes ((insertIntoYields _ _ _).concludes
    ((insertIntoYields _ _ _).concludes (Concludes.commit _ _ _)))

theorem markTransmissionWrittenRefines (faithful : serde.Faithful) (h : Represents serde t j)
    (mark : MarkTransmissionWritten) :
    Refines fault serde (markTransmissionWritten fault serde mark) t (Store.markTransmissionWritten j mark).1
      (Store.markTransmissionWritten j mark).2 := by
  apply writing
  unfold Store.markTransmissionWritten
  cases found : j.transmissions[mark.id]? with
  | none =>
    exact ⟨t,h,(getFromYields TRANSMISSION_TABLE (h.transmissions.missing found)).concludes (Concludes.fail t t _)⟩
  | some record =>
    obtain ⟨bytes,row,read⟩ := h.transmissions.found found
    obtain ⟨after,written,again⟩ := faithful.transmission {record with phase := .written}
    exact ⟨_,h.putTransmission again record.id,(getFromYields TRANSMISSION_TABLE row).concludes
      ((decodedYields read).concludes ((encodedYields written).concludes ((insertIntoYields _ _ _).concludes
        (Concludes.commit _ _ _))))⟩

theorem commitInboundRefines (faithful : serde.Faithful) (h : Represents serde t j) (commit : InboundCommit) :
    Refines fault serde (commitInbound fault serde commit) t (Store.commitInbound j commit).1
      (Store.commitInbound j commit).2 := by
  apply writing
  unfold Store.commitInbound
  have counted : ∀ {f : Nat → Nat → StoreTxn StoreReply} {answer : Except StoreError StoreReply} {u : Tables},
      Concludes fault .backend (f j.nextIn j.nextEvent) t t answer u →
      Concludes fault .backend (do
        call fault
        let nextIn ← counter fault "next_in"
        let nextEvent ← counter fault "next_event"
        f nextIn nextEvent) t t answer u := fun body =>
    callYields.concludes ((counterYields h.nextIn).concludes ((counterYields h.nextEvent).concludes body))
  by_cases skipped : commit.msgSeqNum ≠ j.nextIn
  · simp only [if_pos skipped]
    refine ⟨t,h,counted ?_⟩
    simp only [if_pos skipped]
    exact Concludes.fail t t _
  · by_cases stray : commit.event.id ≠ j.nextEvent
    · simp only [if_neg skipped,if_pos stray]
      refine ⟨t,h,counted ?_⟩
      simp only [if_neg skipped,if_pos stray]
      exact Concludes.fail t t _
    · by_cases back : commit.nextInAfter ≤ j.nextIn
      · simp only [if_neg skipped,if_neg stray,if_pos back]
        refine ⟨t,h,counted ?_⟩
        simp only [if_neg skipped,if_neg stray,if_pos back]
        exact Concludes.fail t t _
      · simp only [if_neg skipped,if_neg stray,if_neg back]
        obtain ⟨recordBytes,recordWritten,recordRead⟩ := faithful.inbound (inboundRecord commit)
        obtain ⟨eventBytes,eventWritten,eventRead⟩ := faithful.event commit.event
        refine ⟨_,(((h.putInbound recordRead commit.msgSeqNum).putEvent eventRead commit.event.id).putNextIn
          commit.nextInAfter).putNextEvent (j.nextEvent + 1),counted ?_⟩
        simp only [if_neg skipped,if_neg stray,if_neg back]
        exact (encodedYields recordWritten).concludes ((encodedYields eventWritten).concludes
          ((insertIntoYields _ _ _).concludes ((insertIntoYields _ _ _).concludes
            ((insertIntoYields _ _ _).concludes ((insertYields _ _ _).concludes (Concludes.commit _ _ _))))))

theorem resyncInboundRefines (faithful : serde.Faithful) (h : Represents serde t j) (commit : ResyncInboundCommit) :
    Refines fault serde (resyncInbound fault serde commit) t (Store.resyncInbound j commit).1
      (Store.resyncInbound j commit).2 := by
  apply writing
  unfold Store.resyncInbound
  by_cases zero : commit.nextInAfter = 0
  · simp only [if_pos zero]
    exact ⟨t,h,callYields.concludes ((counterYields h.nextEvent).concludes (Concludes.fail t t _))⟩
  · by_cases stray : commit.event.id ≠ j.nextEvent
    · simp only [if_neg zero,if_pos stray]
      refine ⟨t,h,callYields.concludes ((counterYields h.nextEvent).concludes ?_)⟩
      simp only [if_pos stray]
      exact Concludes.fail t t _
    · simp only [if_neg zero,if_neg stray]
      obtain ⟨bytes,written,read⟩ := faithful.event commit.event
      refine ⟨_,((h.putEvent read commit.event.id).putNextIn commit.nextInAfter).putNextEvent (j.nextEvent + 1),
        callYields.concludes ((counterYields h.nextEvent).concludes ?_)⟩
      simp only [if_neg stray]
      exact (encodedYields written).concludes ((insertIntoYields _ _ _).concludes
        ((insertIntoYields _ _ _).concludes ((insertYields _ _ _).concludes (Concludes.commit _ _ _))))

theorem resetSequencesRefines (h : Represents serde t j) :
    Refines fault serde (resetSequences fault) t (Store.resetSequences j).1 (Store.resetSequences j).2 := by
  apply writing
  refine ⟨_,(((h.cleared.putNextOut 1).putNextIn 1).putNextTransmission 1).putNextEvent (j.nextEvent + 1),?_⟩
  refine (clearYields OUTBOUND_TABLE t).concludes ((clearYields TRANSMISSION_TABLE _).concludes
    ((clearYields INBOUND_TABLE _).concludes (callYields.concludes
      ((counterYields h.cleared.nextEvent).concludes ?_))))
  exact (insertYields _ _ _).concludes ((insertYields _ _ _).concludes ((insertYields _ _ _).concludes
    ((insertYields _ _ _).concludes (Concludes.commit _ _ _))))

theorem loadOutboundRangeRefines (h : Represents serde t j) (range : OutboundRange) :
    Refines fault serde (loadOutboundRange fault serde range) t (Store.loadOutboundRange j range).1 j :=
  reading h (callYields.concludes ((loadRowsYield h _).concludes (Concludes.pure t t _)))

theorem loadInboundRefines (h : Represents serde t j) (sequence : Nat) :
    Refines fault serde (loadInbound fault serde sequence) t (.ok (.storedInbound j.inbound[sequence]?)) j :=
  reading h ((getFromYields _ rfl).concludes ((decodedRowYields (h.inbound sequence)).concludes
    (Concludes.pure t t _)))

theorem loadCommandRefines (h : Represents serde t j) (requestId : Bytes) :
    Refines fault serde (loadCommand fault serde requestId) t (.ok (.storedCommand j.commands[requestId]?)) j :=
  reading h ((getFromYields _ rfl).concludes ((decodedRowYields (h.commands requestId)).concludes
    (Concludes.pure t t _)))

theorem loadTransmissionRefines (h : Represents serde t j) (id : Nat) :
    Refines fault serde (loadTransmission fault serde id) t (.ok (.storedTransmission j.transmissions[id]?)) j :=
  reading h ((getFromYields _ rfl).concludes ((decodedRowYields (h.transmissions id)).concludes
    (Concludes.pure t t _)))

theorem recoverRefines (h : Represents serde t j) : Refines fault serde (recover fault) t (.ok (Store.recover j)) j :=
  reading h (callYields.concludes ((counterYields h.nextOut).concludes ((counterYields h.nextIn).concludes
    ((counterYields h.nextEvent).concludes (Concludes.pure t t _)))))

theorem applyRefines (faithful : serde.Faithful) (h : Represents serde t j) (op : StoreOp) :
    Refines fault serde (apply fault serde op) t (Store.apply j op).1 (Store.apply j op).2 := by
  cases op with
  | commitOutbound commit => exact commitOutboundRefines faithful h commit
  | markOutboundWritten mark => exact markOutboundWrittenRefines faithful h mark
  | commitTransmission commit => exact commitTransmissionRefines faithful h commit
  | markTransmissionWritten mark => exact markTransmissionWrittenRefines faithful h mark
  | commitInbound commit => exact commitInboundRefines faithful h commit
  | resyncInbound commit => exact resyncInboundRefines faithful h commit
  | resetSequences => exact resetSequencesRefines h
  | loadCommand requestId => exact loadCommandRefines h requestId
  | loadOutboundRange range => exact loadOutboundRangeRefines h range
  | loadInbound sequence => exact loadInboundRefines h sequence
  | loadTransmission id => exact loadTransmissionRefines h id

theorem initialCounterKept {key : String} {n : Nat} (here : t.counters[ascii key]? = some n) :
    Yields fault .backend (initialCounter fault key) t () t :=
  (getYields META_TABLE here).bind (.pure () t)

def withCounter (key : String) (t : Tables) : Tables := META_TABLE.put ((META_TABLE.rows t).insert (ascii key) 1) t

@[simp] theorem withCounterSame (key : String) (t : Tables) : (withCounter key t).counters[ascii key]? = some 1 :=
  Std.ExtTreeMap.getElem?_insert_self

theorem withCounterOther {key other : String} (apart : ascii key ≠ ascii other) (t : Tables) :
    (withCounter key t).counters[ascii other]? = t.counters[ascii other]? := counterPut 1 apart

theorem initialCounterPut {key : String} (absent : t.counters[ascii key]? = none) :
    Yields fault .backend (initialCounter fault key) t () (withCounter key t) :=
  (getYields META_TABLE absent).bind (insertYields _ _ _)

theorem tablesOpened (t u : Tables) :
    Concludes fault .backend (do
      call fault
      call fault
      call fault
      call fault
      call fault
      commit fault
      pure ()) t u (.ok ()) u :=
  callYields.concludes (callYields.concludes (callYields.concludes (callYields.concludes (callYields.concludes
    (Concludes.commit t u ())))))

theorem openStoreRefines (h : Represents serde t j) : Refines fault serde (openStore fault) t (.ok ()) j := by
  obtain ⟨u,left,opens⟩ : Refines fault serde (initializeStore fault) t (.ok ()) j := by
    apply writing
    exact ⟨t,h,callYields.concludes ((initialCounterKept h.nextOut).concludes
      ((initialCounterKept h.nextIn).concludes ((initialCounterKept h.nextEvent).concludes
        ((initialCounterKept h.nextTransmission).concludes (tablesOpened t t)))))⟩
  exact ⟨u,left,fun w => callYields.concludes (opens w)⟩

def created : Tables :=
  withCounter "next_transmission" (withCounter "next_event" (withCounter "next_in" (withCounter "next_out" .blank)))

theorem createdRepresents : Represents serde created Journal.empty where
  nextOut := by
    rw [created,withCounterOther (by decide),withCounterOther (by decide),withCounterOther (by decide),
      withCounterSame]
    rfl
  nextIn := by rw [created,withCounterOther (by decide),withCounterOther (by decide),withCounterSame]; rfl
  nextEvent := by rw [created,withCounterOther (by decide),withCounterSame]; rfl
  nextTransmission := by rw [created,withCounterSame]; rfl
  commands := .empty
  outbound := .empty
  transmissions := .empty
  inbound := .empty
  events := .empty

theorem openStoreCreates : Refines fault serde (openStore fault) Tables.blank (.ok ()) Journal.empty := by
  have none (key : String) : Tables.blank.counters[ascii key]? = none := Std.ExtTreeMap.getElem?_empty
  obtain ⟨u,left,opens⟩ : Refines fault serde (initializeStore fault) Tables.blank (.ok ()) Journal.empty := by
    apply writing
    refine ⟨created,createdRepresents,callYields.concludes ((initialCounterPut (none _)).concludes
      ((initialCounterPut ?_).concludes ((initialCounterPut ?_).concludes ((initialCounterPut ?_).concludes
        (tablesOpened _ _)))))⟩
    · rw [withCounterOther (by decide),none]
    · rw [withCounterOther (by decide),withCounterOther (by decide),none]
    · rw [withCounterOther (by decide),withCounterOther (by decide),withCounterOther (by decide),none]
  exact ⟨u,left,fun w => callYields.concludes (opens w)⟩

end
end FixCli.Redb
