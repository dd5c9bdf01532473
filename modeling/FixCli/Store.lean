import FixCli.Lib.Table
import FixCli.Lib.Text

/-! The journal of `fix-store`: six tables, four counters, and the operations a
write transaction performs on them. A refused operation drops its transaction,
so it leaves the journal as it was; the JSON records are kept decoded. Sequence
counters count one commit at a time and are natural numbers. -/
namespace FixCli.Store
open Lib

inductive CommandPhase where
  | journaled
  | written
  deriving DecidableEq, Repr

structure CommandRecord where
  requestId : Bytes
  fingerprint : Bytes
  clOrdId : Bytes
  msgSeqNum : Nat
  phase : CommandPhase
  deriving DecidableEq, Repr

structure OutboundRecord where
  command : CommandRecord
  wire : Bytes
  deriving DecidableEq, Repr

inductive TransmissionPhase where
  | journaled
  | written
  deriving DecidableEq, Repr

structure TransmissionRecord where
  id : Nat
  msgSeqNum : Nat
  kind : Bytes
  wire : Bytes
  phase : TransmissionPhase
  deriving DecidableEq, Repr

structure EventRecord where
  id : Nat
  kind : Bytes
  details : Table Bytes Bytes

structure InboundRecord where
  msgSeqNum : Nat
  msgType : Bytes
  wire : Bytes
  eventId : Nat
  deriving DecidableEq, Repr

structure RecoveryState where
  nextOut : Nat
  nextIn : Nat
  nextEvent : Nat
  deriving DecidableEq, Repr

structure ResyncInboundCommit where
  nextInAfter : Nat
  event : EventRecord

structure OutboundCommit where
  requestId : Bytes
  fingerprint : Bytes
  clOrdId : Bytes
  msgSeqNum : Nat
  wire : Bytes

structure MarkOutboundWritten where
  requestId : Bytes
  msgSeqNum : Nat

structure TransmissionCommit where
  msgSeqNum : Nat
  kind : Bytes
  wire : Bytes

structure MarkTransmissionWritten where
  id : Nat

structure InboundCommit where
  msgSeqNum : Nat
  nextInAfter : Nat
  msgType : Bytes
  wire : Bytes
  event : EventRecord

structure OutboundRange where
  begin : Nat
  stop : Nat

inductive StoreOp where
  | commitOutbound (commit : OutboundCommit)
  | markOutboundWritten (mark : MarkOutboundWritten)
  | commitTransmission (commit : TransmissionCommit)
  | markTransmissionWritten (mark : MarkTransmissionWritten)
  | commitInbound (commit : InboundCommit)
  | resyncInbound (commit : ResyncInboundCommit)
  | resetSequences
  | loadCommand (requestId : Bytes)
  | loadOutboundRange (range : OutboundRange)
  | loadInbound (sequence : Nat)
  | loadTransmission (id : Nat)

inductive StoreReply where
  | command (record : CommandRecord)
  | storedCommand (record : Option CommandRecord)
  | transmission (record : TransmissionRecord)
  | storedTransmission (record : Option TransmissionRecord)
  | inbound (record : InboundRecord)
  | resyncedInbound (nextIn : Nat)
  | sequencesReset (nextEvent : Nat)
  | storedInbound (record : Option InboundRecord)
  | outbound (records : List OutboundRecord)
  deriving DecidableEq, Repr

inductive StoreError where
  | idempotencyConflict (requestId : Bytes)
  | outboundSequenceMismatch (expected actual : Nat)
  | inboundSequenceMismatch (expected actual : Nat)
  | eventSequenceMismatch (expected actual : Nat)
  | invalidNextInbound (current nextInAfter : Nat)
  | unknownCommand (requestId : Bytes)
  | unknownTransmission (id : Nat)
  | backend (text : Bytes)
  | decode (text : Bytes)
  | workerStopped
  deriving DecidableEq, Repr

def StoreError.text : StoreError → Bytes
  | .idempotencyConflict requestId =>
      ascii "request ID " ++ requestId ++ ascii " was reused with a different fingerprint"
  | .outboundSequenceMismatch expected actual =>
      ascii "expected outbound sequence " ++ decimal expected ++ ascii ", got " ++ decimal actual
  | .inboundSequenceMismatch expected actual =>
      ascii "expected inbound sequence " ++ decimal expected ++ ascii ", got " ++ decimal actual
  | .eventSequenceMismatch expected actual =>
      ascii "expected event ID " ++ decimal expected ++ ascii ", got " ++ decimal actual
  | .invalidNextInbound current nextInAfter =>
      ascii "next inbound sequence " ++ decimal nextInAfter ++ ascii " must be greater than current " ++
        decimal current
  | .unknownCommand requestId => ascii "request ID " ++ requestId ++ ascii " is not present in the journal"
  | .unknownTransmission id => ascii "transmission ID " ++ decimal id ++ ascii " is not present in the journal"
  | .backend text => ascii "storage backend error: " ++ text
  | .decode text => ascii "stored record could not be decoded: " ++ text
  | .workerStopped => ascii "store worker stopped"

structure Journal where
  nextOut : Nat
  nextIn : Nat
  nextEvent : Nat
  nextTransmission : Nat
  commands : Table Bytes CommandRecord
  outbound : Table Nat OutboundRecord
  transmissions : Table Nat TransmissionRecord
  inbound : Table Nat InboundRecord
  events : Table Nat EventRecord

def Journal.empty : Journal := ⟨1,1,1,1,∅,∅,∅,∅,∅⟩

abbrev Answer := Except StoreError StoreReply × Journal

def journaledCommand (commit : OutboundCommit) : CommandRecord :=
  ⟨commit.requestId,commit.fingerprint,commit.clOrdId,commit.msgSeqNum,.journaled⟩

def withOutbound (j : Journal) (commit : OutboundCommit) : Journal :=
  {j with
    commands := j.commands.insert commit.requestId (journaledCommand commit)
    outbound := j.outbound.insert commit.msgSeqNum ⟨journaledCommand commit,commit.wire⟩
    nextOut := j.nextOut + 1}

def commitOutbound (j : Journal) (commit : OutboundCommit) : Answer :=
  match j.commands[commit.requestId]? with
  | some existing =>
    if existing.fingerprint ≠ commit.fingerprint then
      (.error (.idempotencyConflict commit.requestId),j)
    -- the same command again: its record is the answer, whatever number was asked for
    else (.ok (.command existing),j)
  | none =>
    if commit.msgSeqNum ≠ j.nextOut then
      (.error (.outboundSequenceMismatch j.nextOut commit.msgSeqNum),j)
    else (.ok (.command (journaledCommand commit)),withOutbound j commit)

def withWritten (j : Journal) (command : CommandRecord) (outbound : OutboundRecord) : Journal :=
  {j with
    commands := j.commands.insert command.requestId {command with phase := .written}
    outbound := j.outbound.insert command.msgSeqNum {outbound with command := {command with phase := .written}}}

def markOutboundWritten (j : Journal) (mark : MarkOutboundWritten) : Answer :=
  match j.commands[mark.requestId]? with
  | none => (.error (.unknownCommand mark.requestId),j)
  | some command =>
    if command.msgSeqNum ≠ mark.msgSeqNum then
      (.error (.outboundSequenceMismatch command.msgSeqNum mark.msgSeqNum),j)
    else match j.outbound[mark.msgSeqNum]? with
      | none => (.error (.unknownCommand mark.requestId),j)
      | some outbound =>
        (.ok (.command {command with phase := .written}),withWritten j command outbound)

def commitTransmission (j : Journal) (commit : TransmissionCommit) : Answer :=
  let record : TransmissionRecord :=
    ⟨j.nextTransmission,commit.msgSeqNum,commit.kind,commit.wire,.journaled⟩
  (.ok (.transmission record),
    {j with
      transmissions := j.transmissions.insert record.id record
      nextTransmission := j.nextTransmission + 1})

def markTransmissionWritten (j : Journal) (mark : MarkTransmissionWritten) : Answer :=
  match j.transmissions[mark.id]? with
  | none => (.error (.unknownTransmission mark.id),j)
  | some record =>
    let record := {record with phase := .written}
    (.ok (.transmission record),{j with transmissions := j.transmissions.insert record.id record})

def inboundRecord (commit : InboundCommit) : InboundRecord :=
  ⟨commit.msgSeqNum,commit.msgType,commit.wire,commit.event.id⟩

def withInbound (j : Journal) (commit : InboundCommit) : Journal :=
  {j with
    inbound := j.inbound.insert commit.msgSeqNum (inboundRecord commit)
    events := j.events.insert commit.event.id commit.event
    nextIn := commit.nextInAfter
    nextEvent := j.nextEvent + 1}

def commitInbound (j : Journal) (commit : InboundCommit) : Answer :=
  if commit.msgSeqNum ≠ j.nextIn then
    (.error (.inboundSequenceMismatch j.nextIn commit.msgSeqNum),j)
  else if commit.event.id ≠ j.nextEvent then
    (.error (.eventSequenceMismatch j.nextEvent commit.event.id),j)
  else if commit.nextInAfter ≤ j.nextIn then
    (.error (.invalidNextInbound j.nextIn commit.nextInAfter),j)
  else (.ok (.inbound (inboundRecord commit)),withInbound j commit)

def withResync (j : Journal) (commit : ResyncInboundCommit) : Journal :=
  {j with
    events := j.events.insert commit.event.id commit.event
    nextIn := commit.nextInAfter
    nextEvent := j.nextEvent + 1}

def resyncInbound (j : Journal) (commit : ResyncInboundCommit) : Answer :=
  if commit.nextInAfter = 0 then (.error (.invalidNextInbound 0 0),j)
  else if commit.event.id ≠ j.nextEvent then
    (.error (.eventSequenceMismatch j.nextEvent commit.event.id),j)
  else (.ok (.resyncedInbound commit.nextInAfter),withResync j commit)

def resetSequences (j : Journal) : Answer :=
  (.ok (.sequencesReset (j.nextEvent + 1)),
    -- commands and events are kept
    {j with
      outbound := ∅
      transmissions := ∅
      inbound := ∅
      nextOut := 1
      nextIn := 1
      nextTransmission := 1
      nextEvent := j.nextEvent + 1})

def loadOutboundRange (j : Journal) (range : OutboundRange) : Answer :=
  (.ok (.outbound ((List.range' range.begin (range.stop + 1 - range.begin)).filterMap
    (fun sequence => j.outbound[sequence]?))),j)

def apply (j : Journal) : StoreOp → Answer
  | .commitOutbound commit => commitOutbound j commit
  | .markOutboundWritten mark => markOutboundWritten j mark
  | .commitTransmission commit => commitTransmission j commit
  | .markTransmissionWritten mark => markTransmissionWritten j mark
  | .commitInbound commit => commitInbound j commit
  | .resyncInbound commit => resyncInbound j commit
  | .resetSequences => resetSequences j
  | .loadCommand requestId => (.ok (.storedCommand j.commands[requestId]?),j)
  | .loadOutboundRange range => loadOutboundRange j range
  | .loadInbound sequence => (.ok (.storedInbound j.inbound[sequence]?),j)
  | .loadTransmission id => (.ok (.storedTransmission j.transmissions[id]?),j)

section

variable {j : Journal} {reply : StoreReply}

theorem commitOutboundSource {commit : OutboundCommit} (ok : (commitOutbound j commit).1 = .ok reply) :
    (∃ existing, j.commands[commit.requestId]? = some existing ∧
      existing.fingerprint = commit.fingerprint ∧ reply = .command existing ∧
      (commitOutbound j commit).2 = j) ∨
    (j.commands[commit.requestId]? = none ∧ commit.msgSeqNum = j.nextOut ∧
      reply = .command (journaledCommand commit) ∧ (commitOutbound j commit).2 = withOutbound j commit) := by
  unfold commitOutbound at ok ⊢
  cases found : j.commands[commit.requestId]? with
  | some existing =>
    by_cases same : existing.fingerprint ≠ commit.fingerprint
    · simp only [found,if_pos same] at ok
      cases ok
    · simp only [found,if_neg same] at ok ⊢
      cases ok
      exact .inl ⟨existing,rfl,Classical.not_not.mp same,rfl,trivial⟩
  | none =>
    by_cases expected : commit.msgSeqNum ≠ j.nextOut
    · simp only [found,if_pos expected] at ok
      cases ok
    · simp only [found,if_neg expected] at ok ⊢
      cases ok
      exact .inr ⟨trivial,Classical.not_not.mp expected,rfl,trivial⟩

theorem commitOutboundFresh {commit : OutboundCommit} (fresh : j.commands[commit.requestId]? = none)
    (expected : commit.msgSeqNum = j.nextOut) :
    commitOutbound j commit = (.ok (.command (journaledCommand commit)),withOutbound j commit) := by
  simp only [commitOutbound,fresh,expected,ne_eq,not_true_eq_false,if_false]

theorem markOutboundWrittenSource {mark : MarkOutboundWritten}
    (ok : (markOutboundWritten j mark).1 = .ok reply) :
    ∃ command outbound, j.commands[mark.requestId]? = some command ∧ command.msgSeqNum = mark.msgSeqNum ∧
      j.outbound[mark.msgSeqNum]? = some outbound ∧ reply = .command {command with phase := .written} ∧
      (markOutboundWritten j mark).2 = withWritten j command outbound := by
  unfold markOutboundWritten at ok ⊢
  cases found : j.commands[mark.requestId]? with
  | none => simp only [found] at ok; cases ok
  | some command =>
    by_cases same : command.msgSeqNum ≠ mark.msgSeqNum
    · simp only [found,if_pos same] at ok
      cases ok
    · cases sent : j.outbound[mark.msgSeqNum]? with
      | none => simp only [found,if_neg same,sent] at ok; cases ok
      | some outbound =>
        simp only [found,if_neg same,sent] at ok ⊢
        cases ok
        exact ⟨command,outbound,rfl,Classical.not_not.mp same,rfl,rfl,rfl⟩

theorem markOutboundWrites {mark : MarkOutboundWritten} {command : CommandRecord} {outbound : OutboundRecord}
    (found : j.commands[mark.requestId]? = some command) (same : command.msgSeqNum = mark.msgSeqNum)
    (sent : j.outbound[mark.msgSeqNum]? = some outbound) :
    markOutboundWritten j mark =
      (.ok (.command {command with phase := .written}),withWritten j command outbound) := by
  simp only [markOutboundWritten,found,same,sent,ne_eq,not_true_eq_false,if_false]

theorem commitInboundSource {commit : InboundCommit} (ok : (commitInbound j commit).1 = .ok reply) :
    commit.msgSeqNum = j.nextIn ∧ commit.event.id = j.nextEvent ∧ j.nextIn < commit.nextInAfter ∧
      reply = .inbound (inboundRecord commit) ∧ (commitInbound j commit).2 = withInbound j commit := by
  unfold commitInbound at ok ⊢
  by_cases expected : commit.msgSeqNum ≠ j.nextIn
  · rw [if_pos expected] at ok; cases ok
  · by_cases event : commit.event.id ≠ j.nextEvent
    · rw [if_neg expected,if_pos event] at ok; cases ok
    · by_cases later : commit.nextInAfter ≤ j.nextIn
      · rw [if_neg expected,if_neg event,if_pos later] at ok; cases ok
      · rw [if_neg expected,if_neg event,if_neg later] at ok ⊢
        cases ok
        exact ⟨Classical.not_not.mp expected,Classical.not_not.mp event,by omega,rfl,rfl⟩

theorem commitInboundStores {commit : InboundCommit} (expected : commit.msgSeqNum = j.nextIn)
    (event : commit.event.id = j.nextEvent) (later : j.nextIn < commit.nextInAfter) :
    commitInbound j commit = (.ok (.inbound (inboundRecord commit)),withInbound j commit) := by
  rw [commitInbound,if_neg (by simp [expected]),if_neg (by simp [event]),if_neg (by omega)]

theorem resyncInboundSource {commit : ResyncInboundCommit} (ok : (resyncInbound j commit).1 = .ok reply) :
    commit.nextInAfter ≠ 0 ∧ commit.event.id = j.nextEvent ∧ reply = .resyncedInbound commit.nextInAfter ∧
      (resyncInbound j commit).2 = withResync j commit := by
  unfold resyncInbound at ok ⊢
  by_cases zero : commit.nextInAfter = 0
  · rw [if_pos zero] at ok; cases ok
  · by_cases event : commit.event.id ≠ j.nextEvent
    · rw [if_neg zero,if_pos event] at ok; cases ok
    · rw [if_neg zero,if_neg event] at ok ⊢
      cases ok
      exact ⟨zero,Classical.not_not.mp event,rfl,rfl⟩

theorem resyncInboundStores (commit : ResyncInboundCommit) (positive : commit.nextInAfter ≠ 0)
    (event : commit.event.id = j.nextEvent) :
    resyncInbound j commit = (.ok (.resyncedInbound commit.nextInAfter),withResync j commit) := by
  rw [resyncInbound,if_neg positive,if_neg (by simp [event])]

end

def recover (j : Journal) : RecoveryState := ⟨j.nextOut,j.nextIn,j.nextEvent⟩

end FixCli.Store
