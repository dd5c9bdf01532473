import FixCli.Lib.Trace
import FixCli.Store

/-! What one store operation can do to the journal, said once: it leaves it alone
or makes one of seven changes, each under the conditions the operation checked. -/
namespace FixCli.Store
open Lib

def withTransmission (j : Journal) (commit : TransmissionCommit) : Journal :=
  {j with
    transmissions := j.transmissions.insert j.nextTransmission
      ⟨j.nextTransmission,commit.msgSeqNum,commit.kind,commit.wire,.journaled⟩
    nextTransmission := j.nextTransmission + 1}

def withTransmissionWritten (j : Journal) (record : TransmissionRecord) : Journal :=
  {j with transmissions := j.transmissions.insert record.id {record with phase := .written}}

def withReset (j : Journal) : Journal :=
  {j with
    outbound := ∅
    transmissions := ∅
    inbound := ∅
    nextOut := 1
    nextIn := 1
    nextTransmission := 1
    nextEvent := j.nextEvent + 1}

inductive Effect (j : Journal) : StoreOp → Journal → Prop
  | none (op : StoreOp) : Effect j op j
  | outbound {commit : OutboundCommit} (fresh : j.commands[commit.requestId]? = none)
      (expected : commit.msgSeqNum = j.nextOut) : Effect j (.commitOutbound commit) (withOutbound j commit)
  | written {mark : MarkOutboundWritten} {command : CommandRecord} {outbound : OutboundRecord}
      (found : j.commands[mark.requestId]? = some command) (same : command.msgSeqNum = mark.msgSeqNum)
      (sent : j.outbound[mark.msgSeqNum]? = some outbound) :
      Effect j (.markOutboundWritten mark) (withWritten j command outbound)
  | transmission (commit : TransmissionCommit) :
      Effect j (.commitTransmission commit) (withTransmission j commit)
  | transmissionWritten {mark : MarkTransmissionWritten} {record : TransmissionRecord}
      (found : j.transmissions[mark.id]? = some record) :
      Effect j (.markTransmissionWritten mark) (withTransmissionWritten j record)
  | inbound {commit : InboundCommit} (expected : commit.msgSeqNum = j.nextIn)
      (event : commit.event.id = j.nextEvent) (later : j.nextIn < commit.nextInAfter) :
      Effect j (.commitInbound commit) (withInbound j commit)
  | resync {commit : ResyncInboundCommit} (positive : commit.nextInAfter ≠ 0)
      (event : commit.event.id = j.nextEvent) : Effect j (.resyncInbound commit) (withResync j commit)
  | reset : Effect j .resetSequences (withReset j)

theorem effectOf (j : Journal) (op : StoreOp) : Effect j op (apply j op).2 := by
  cases op with
  | commitOutbound commit =>
    simp only [apply,commitOutbound]
    split
    · split <;> exact .none _
    · rename_i fresh
      split
      · exact .none _
      · rename_i expected
        exact .outbound fresh (Classical.not_not.mp expected)
  | markOutboundWritten mark =>
    simp only [apply,markOutboundWritten]
    split
    · exact .none _
    · rename_i command found
      split
      · exact .none _
      · rename_i same
        split
        · exact .none _
        · rename_i outbound sent
          exact .written found (Classical.not_not.mp same) sent
  | commitTransmission commit => exact .transmission commit
  | markTransmissionWritten mark =>
    simp only [apply,markTransmissionWritten]
    split
    · exact .none _
    · rename_i record found
      exact .transmissionWritten found
  | commitInbound commit =>
    simp only [apply,commitInbound]
    split
    · exact .none _
    · rename_i expected
      split
      · exact .none _
      · rename_i event
        split
        · exact .none _
        · rename_i later
          exact .inbound (Classical.not_not.mp expected) (Classical.not_not.mp event) (by omega)
  | resyncInbound commit =>
    simp only [apply,resyncInbound]
    split
    · exact .none _
    · rename_i positive
      split
      · exact .none _
      · rename_i event
        exact .resync positive (Classical.not_not.mp event)
  | resetSequences => exact .reset
  | loadCommand _ | loadOutboundRange _ | loadInbound _ | loadTransmission _ => exact .none _

def journalOf (ops : List StoreOp) : Journal := ops.foldl (fun j op => (apply j op).2) .empty

theorem journalInvariant {I : Journal → Prop} (empty : I .empty)
    (each : ∀ j op k, I j → Effect j op k → I k) (ops : List StoreOp) : I (journalOf ops) :=
  have free : Along (fun j op => (apply j op).2) (fun _ _ => True) .empty ops := alongAlways (fun _ _ => trivial) _ ops
  foldInvariant (fun j op _ h => each j op _ h (effectOf j op)) empty free

theorem journalAppend (ops more : List StoreOp) :
    journalOf (ops ++ more) = more.foldl (fun j op => (apply j op).2) (journalOf ops) := List.foldl_append

end FixCli.Store
