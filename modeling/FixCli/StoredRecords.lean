import FixCli.Lib.Format
import FixCli.StoreRefines

/-! The records as `serde_json` writes them, read back. -/
namespace FixCli.Redb
open Lib Store

def commandPhaseName : CommandPhase → Bytes
  | .journaled => ascii "Journaled"
  | .written => ascii "Written"

def commandPhaseNamed (name : Bytes) : Option CommandPhase :=
  if name = ascii "Journaled" then some .journaled else if name = ascii "Written" then some .written else none

def transmissionPhaseName : TransmissionPhase → Bytes
  | .journaled => ascii "Journaled"
  | .written => ascii "Written"

def transmissionPhaseNamed (name : Bytes) : Option TransmissionPhase :=
  if name = ascii "Journaled" then some .journaled else if name = ascii "Written" then some .written else none

theorem commandPhaseReadBack (phase : CommandPhase) : commandPhaseNamed (commandPhaseName phase) = some phase := by
  cases phase <;> decide

theorem transmissionPhaseReadBack (phase : TransmissionPhase) :
    transmissionPhaseNamed (transmissionPhaseName phase) = some phase := by
  cases phase <;> decide

open Format

theorem wireReadBack (wire : Bytes) : some ((wire.map UInt8.toNat).map Nat.toUInt8) = some wire := by
  induction wire with
  | nil => rfl
  | cons b rest ih =>
    have same : b.toNat.toUInt8 = b := UInt8.ofNat_toNat
    simpa only [List.map_cons,same,Option.some.injEq,List.cons.injEq,true_and] using ih

def wireFormat : Format Bytes :=
  (list number).through (fun wire => wire.map UInt8.toNat) (fun ns => some (ns.map Nat.toUInt8)) wireReadBack

def commandFormat : Format CommandRecord :=
  ((member "request_id" string).and ((member "fingerprint" string).and ((member "cl_ord_id" string).and
    ((member "msg_seq_num" number).and (member "phase" (string.through commandPhaseName commandPhaseNamed
      commandPhaseReadBack)))))).object.through
    (fun r => (r.requestId,r.fingerprint,r.clOrdId,r.msgSeqNum,r.phase))
    (fun (requestId,fingerprint,clOrdId,msgSeqNum,phase) => some ⟨requestId,fingerprint,clOrdId,msgSeqNum,phase⟩)
    fun _ => rfl

def outboundFormat : Format OutboundRecord :=
  ((member "command" commandFormat).and (member "wire" wireFormat)).object.through
    (fun r => (r.command,r.wire)) (fun (command,wire) => some ⟨command,wire⟩) fun _ => rfl

def transmissionFormat : Format TransmissionRecord :=
  ((member "id" number).and ((member "msg_seq_num" number).and ((member "kind" string).and
    ((member "wire" wireFormat).and (member "phase" (string.through transmissionPhaseName transmissionPhaseNamed
      transmissionPhaseReadBack)))))).object.through
    (fun r => (r.id,r.msgSeqNum,r.kind,r.wire,r.phase))
    (fun (id,msgSeqNum,kind,wire,phase) => some ⟨id,msgSeqNum,kind,wire,phase⟩) fun _ => rfl

def inboundFormat : Format InboundRecord :=
  ((member "msg_seq_num" number).and ((member "msg_type" string).and ((member "wire" wireFormat).and
    (member "event_id" number)))).object.through
    (fun r => (r.msgSeqNum,r.msgType,r.wire,r.eventId))
    (fun (msgSeqNum,msgType,wire,eventId) => some ⟨msgSeqNum,msgType,wire,eventId⟩) fun _ => rfl

def eventFormat : Format EventRecord :=
  ((member "id" number).and ((member "kind" string).and (member "details" table))).object.through
    (fun r => (r.id,r.kind,r.details)) (fun (id,kind,details) => some ⟨id,kind,details⟩) fun _ => rfl

def codedBy {ρ : Type} (format : Format ρ) : Coded ρ where
  toVec record := .ok (format.write record)
  fromSlice bytes := match format.readAll bytes with
    | some record => .ok record
    | none => .error (ascii "expected value")

theorem codedFaithful {ρ : Type} (format : Format ρ) : (codedBy format).Faithful := fun record =>
  ⟨format.write record,rfl,by simp only [codedBy,format.readsAll]⟩

def jsonRecords : Serde :=
  ⟨codedBy commandFormat,codedBy outboundFormat,codedBy transmissionFormat,codedBy inboundFormat,codedBy eventFormat⟩

theorem jsonFaithful : jsonRecords.Faithful :=
  ⟨codedFaithful _,codedFaithful _,codedFaithful _,codedFaithful _,codedFaithful _⟩

example : commandFormat.write ⟨ascii "r-1",ascii "f",ascii "c\n",12,.journaled⟩ =
    ascii "\x7b\"request_id\":\"r-1\",\"fingerprint\":\"f\",\"cl_ord_id\":\"c\\n\",\"msg_seq_num\":12," ++
      ascii "\"phase\":\"Journaled\"\x7d" := by
  decide

end FixCli.Redb
