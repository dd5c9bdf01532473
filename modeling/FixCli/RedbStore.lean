import FixCli.Lib.Transaction
import FixCli.Store

/-! `RedbStore` as it is written: six tables of bytes in a transactional database, the
records in them as JSON, and every call into the database one that may fail. -/
namespace FixCli.Redb
open Lib Store

/-- `serde_json` for one type of record. -/
structure Coded (ρ : Type) where
  toVec : ρ → Except Bytes Bytes
  fromSlice : Bytes → Except Bytes ρ

structure Serde where
  command : Coded CommandRecord
  outbound : Coded OutboundRecord
  transmission : Coded TransmissionRecord
  inbound : Coded InboundRecord
  event : Coded EventRecord

structure Tables where
  counters : Table Bytes Nat
  commands : Table Bytes Bytes
  outbound : Table Nat Bytes
  transmissions : Table Nat Bytes
  inbound : Table Nat Bytes
  events : Table Nat Bytes

def Tables.blank : Tables := ⟨∅,∅,∅,∅,∅,∅⟩

structure TableDefinition (κ ν : Type) [Ord κ] where
  rows : Tables → Table κ ν
  put : Table κ ν → Tables → Tables
  rowsPut : ∀ r t, rows (put r t) = r := by intros; rfl
  putPut : ∀ r s t, put r (put s t) = put r t := by intros; rfl
  putRows : ∀ t, put (rows t) t = t := by intros; rfl

def META_TABLE : TableDefinition Bytes Nat where
  rows := Tables.counters
  put rows t := {t with counters := rows}

def COMMAND_TABLE : TableDefinition Bytes Bytes where
  rows := Tables.commands
  put rows t := {t with commands := rows}

def OUTBOUND_TABLE : TableDefinition Nat Bytes where
  rows := Tables.outbound
  put rows t := {t with outbound := rows}

def TRANSMISSION_TABLE : TableDefinition Nat Bytes where
  rows := Tables.transmissions
  put rows t := {t with transmissions := rows}

def INBOUND_TABLE : TableDefinition Nat Bytes where
  rows := Tables.inbound
  put rows t := {t with inbound := rows}

def EVENT_TABLE : TableDefinition Nat Bytes where
  rows := Tables.events
  put rows t := {t with events := rows}

abbrev StoreTxn (α : Type) := Txn Tables StoreError α

section

variable {κ ν ρ : Type} [Ord κ] [Std.TransOrd κ] (fault : Nat → CallFault)

def call : StoreTxn Unit := Txn.call fault .backend

def beginWrite : StoreTxn Unit := do
  Txn.start fault .backend
  call fault

def beginRead : StoreTxn Unit := Txn.start fault .backend

def get (table : TableDefinition κ ν) (key : κ) : StoreTxn (Option ν) :=
  Txn.read fault .backend fun t => (table.rows t)[key]?

def insert (table : TableDefinition κ ν) (key : κ) (value : ν) : StoreTxn Unit :=
  Txn.write fault .backend fun t => table.put ((table.rows t).insert key value) t

def remove (table : TableDefinition κ ν) (key : κ) : StoreTxn Unit :=
  Txn.write fault .backend fun t => table.put ((table.rows t).erase key) t

def getFrom (table : TableDefinition κ ν) (key : κ) : StoreTxn (Option ν) := do
  call fault
  get fault table key

def insertInto (table : TableDefinition κ ν) (key : κ) (value : ν) : StoreTxn Unit := do
  call fault
  insert fault table key value

def commit : StoreTxn Unit := Txn.commit fault .backend

def serdeResult {α : Type} : Except Bytes α → Except (Abort StoreError) α
  | .ok a => .ok a
  | .error text => .error (.error (.decode text))

def decoded (coded : Coded ρ) (bytes : Bytes) : StoreTxn ρ := Prog.ofExcept (serdeResult (coded.fromSlice bytes))

def encoded (coded : Coded ρ) (record : ρ) : StoreTxn Bytes := Prog.ofExcept (serdeResult (coded.toVec record))

def decodedRow (coded : Coded ρ) : Option Bytes → StoreTxn (Option ρ)
  | some bytes => do
    let record ← decoded coded bytes
    pure (some record)
  | none => pure none

def counter (key : String) : StoreTxn Nat := do
  match ← get fault META_TABLE (ascii key) with
  | some n => pure n
  | none => Txn.fail (.decode (ascii key ++ ascii " is missing"))

end

section

variable (fault : Nat → CallFault) (serde : Serde)

def initialCounter (key : String) : StoreTxn Unit := do
  match ← get fault META_TABLE (ascii key) with
  | none => insert fault META_TABLE (ascii key) 1
  | some _ => pure ()

def initializeStore : StoreTxn Unit := do
  beginWrite fault
  call fault
  initialCounter fault "next_out"
  initialCounter fault "next_in"
  initialCounter fault "next_event"
  initialCounter fault "next_transmission"
  -- the five other tables are opened, so that they exist
  call fault
  call fault
  call fault
  call fault
  call fault
  commit fault
  pure ()

def openStore : StoreTxn Unit := do
  call fault
  initializeStore fault

def commitOutbound (commit : OutboundCommit) : StoreTxn StoreReply := do
  beginWrite fault
  match ← getFrom fault COMMAND_TABLE commit.requestId with
  | some existing => do
    let existing ← decoded serde.command existing
    if existing.fingerprint ≠ commit.fingerprint then Txn.fail (.idempotencyConflict commit.requestId)
    else pure (.command existing)
  | none => do
    call fault
    let nextOut ← counter fault "next_out"
    if commit.msgSeqNum ≠ nextOut then Txn.fail (.outboundSequenceMismatch nextOut commit.msgSeqNum)
    else do
      let command := journaledCommand commit
      let commandBytes ← encoded serde.command command
      let outboundBytes ← encoded serde.outbound ⟨command,commit.wire⟩
      insertInto fault COMMAND_TABLE command.requestId commandBytes
      insertInto fault OUTBOUND_TABLE command.msgSeqNum outboundBytes
      insertInto fault META_TABLE (ascii "next_out") (nextOut + 1)
      Redb.commit fault
      pure (.command command)

def markOutboundWritten (mark : MarkOutboundWritten) : StoreTxn StoreReply := do
  beginWrite fault
  match ← getFrom fault COMMAND_TABLE mark.requestId with
  | none => Txn.fail (.unknownCommand mark.requestId)
  | some commandBytes => do
    let command ← decoded serde.command commandBytes
    if command.msgSeqNum ≠ mark.msgSeqNum then
      Txn.fail (.outboundSequenceMismatch command.msgSeqNum mark.msgSeqNum)
    else do
      match ← getFrom fault OUTBOUND_TABLE mark.msgSeqNum with
      | none => Txn.fail (.unknownCommand mark.requestId)
      | some outboundBytes => do
        let outbound ← decoded serde.outbound outboundBytes
        let command := {command with phase := .written}
        let outbound := {outbound with command := command}
        let commandBytes ← encoded serde.command command
        let outboundBytes ← encoded serde.outbound outbound
        insertInto fault COMMAND_TABLE command.requestId commandBytes
        insertInto fault OUTBOUND_TABLE mark.msgSeqNum outboundBytes
        commit fault
        pure (.command command)

def commitTransmission (commit : TransmissionCommit) : StoreTxn StoreReply := do
  beginWrite fault
  call fault
  let nextTransmission ← counter fault "next_transmission"
  let record : TransmissionRecord := ⟨nextTransmission,commit.msgSeqNum,commit.kind,commit.wire,.journaled⟩
  let recordBytes ← encoded serde.transmission record
  insertInto fault TRANSMISSION_TABLE record.id recordBytes
  insertInto fault META_TABLE (ascii "next_transmission") (nextTransmission + 1)
  Redb.commit fault
  pure (.transmission record)

def markTransmissionWritten (mark : MarkTransmissionWritten) : StoreTxn StoreReply := do
  beginWrite fault
  match ← getFrom fault TRANSMISSION_TABLE mark.id with
  | none => Txn.fail (.unknownTransmission mark.id)
  | some recordBytes => do
    let record ← decoded serde.transmission recordBytes
    let record := {record with phase := .written}
    let recordBytes ← encoded serde.transmission record
    insertInto fault TRANSMISSION_TABLE record.id recordBytes
    commit fault
    pure (.transmission record)

def commitInbound (commit : InboundCommit) : StoreTxn StoreReply := do
  beginWrite fault
  call fault
  let nextIn ← counter fault "next_in"
  let nextEvent ← counter fault "next_event"
  if commit.msgSeqNum ≠ nextIn then Txn.fail (.inboundSequenceMismatch nextIn commit.msgSeqNum)
  else if commit.event.id ≠ nextEvent then Txn.fail (.eventSequenceMismatch nextEvent commit.event.id)
  else if commit.nextInAfter ≤ nextIn then Txn.fail (.invalidNextInbound nextIn commit.nextInAfter)
  else do
    let record := inboundRecord commit
    let recordBytes ← encoded serde.inbound record
    let eventBytes ← encoded serde.event commit.event
    insertInto fault INBOUND_TABLE record.msgSeqNum recordBytes
    insertInto fault EVENT_TABLE commit.event.id eventBytes
    insertInto fault META_TABLE (ascii "next_in") commit.nextInAfter
    insert fault META_TABLE (ascii "next_event") (nextEvent + 1)
    Redb.commit fault
    pure (.inbound record)

def resyncInbound (commit : ResyncInboundCommit) : StoreTxn StoreReply := do
  beginWrite fault
  call fault
  let nextEvent ← counter fault "next_event"
  if commit.nextInAfter = 0 then Txn.fail (.invalidNextInbound 0 0)
  else if commit.event.id ≠ nextEvent then Txn.fail (.eventSequenceMismatch nextEvent commit.event.id)
  else do
    let eventBytes ← encoded serde.event commit.event
    insertInto fault EVENT_TABLE commit.event.id eventBytes
    insertInto fault META_TABLE (ascii "next_in") commit.nextInAfter
    insert fault META_TABLE (ascii "next_event") (nextEvent + 1)
    Redb.commit fault
    pure (.resyncedInbound commit.nextInAfter)

def iterate : List Nat → StoreTxn Unit
  | [] => pure ()
  | _ :: rest => do
    call fault
    iterate rest

def removeAll (table : TableDefinition Nat Bytes) : List Nat → StoreTxn Unit
  | [] => pure ()
  | key :: rest => do
    remove fault table key
    removeAll table rest

def clear (table : TableDefinition Nat Bytes) : StoreTxn Unit := do
  call fault
  let keys ← Txn.read fault .backend fun t => (table.rows t).keys
  -- the keys are collected first, one call for each entry
  iterate fault keys
  removeAll fault table keys

def resetSequences : StoreTxn StoreReply := do
  beginWrite fault
  clear fault OUTBOUND_TABLE
  clear fault TRANSMISSION_TABLE
  clear fault INBOUND_TABLE
  call fault
  let nextEvent ← counter fault "next_event"
  insert fault META_TABLE (ascii "next_out") 1
  insert fault META_TABLE (ascii "next_in") 1
  insert fault META_TABLE (ascii "next_transmission") 1
  insert fault META_TABLE (ascii "next_event") (nextEvent + 1)
  commit fault
  pure (.sequencesReset (nextEvent + 1))

def loadRows : List Nat → StoreTxn (List OutboundRecord)
  | [] => pure []
  | sequence :: rest => do
    let row ← get fault OUTBOUND_TABLE sequence
    let record ← decodedRow serde.outbound row
    let records ← loadRows rest
    pure (record.toList ++ records)

def loadOutboundRange (range : OutboundRange) : StoreTxn StoreReply := do
  beginRead fault
  call fault
  let records ← loadRows fault serde (List.range' range.begin (range.stop + 1 - range.begin))
  pure (.outbound records)

def loadInbound (sequence : Nat) : StoreTxn StoreReply := do
  beginRead fault
  let row ← getFrom fault INBOUND_TABLE sequence
  let record ← decodedRow serde.inbound row
  pure (.storedInbound record)

def loadCommand (requestId : Bytes) : StoreTxn StoreReply := do
  beginRead fault
  let row ← getFrom fault COMMAND_TABLE requestId
  let record ← decodedRow serde.command row
  pure (.storedCommand record)

def loadTransmission (id : Nat) : StoreTxn StoreReply := do
  beginRead fault
  let row ← getFrom fault TRANSMISSION_TABLE id
  let record ← decodedRow serde.transmission row
  pure (.storedTransmission record)

def recover : StoreTxn RecoveryState := do
  beginRead fault
  call fault
  let nextOut ← counter fault "next_out"
  let nextIn ← counter fault "next_in"
  let nextEvent ← counter fault "next_event"
  pure ⟨nextOut,nextIn,nextEvent⟩

def apply : StoreOp → StoreTxn StoreReply
  | .commitOutbound commit => commitOutbound fault serde commit
  | .markOutboundWritten mark => markOutboundWritten fault serde mark
  | .commitTransmission commit => commitTransmission fault serde commit
  | .markTransmissionWritten mark => markTransmissionWritten fault serde mark
  | .commitInbound commit => commitInbound fault serde commit
  | .resyncInbound commit => resyncInbound fault serde commit
  | .resetSequences => resetSequences fault
  | .loadCommand requestId => loadCommand fault serde requestId
  | .loadOutboundRange range => loadOutboundRange fault serde range
  | .loadInbound sequence => loadInbound fault serde sequence
  | .loadTransmission id => loadTransmission fault serde id

end
end FixCli.Redb
