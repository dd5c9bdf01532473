import FixCli.Ledger
import FixCli.Lib.Numbered

/-! What a journal says was sent and was taken, in the order of the numbers. -/
namespace FixCli.Store
open Lib

def sentWires (j : Journal) : List Bytes := Table.below j.outbound j.nextOut OutboundRecord.wire

def takenWires (j : Journal) : List Bytes := Table.below j.inbound j.nextIn InboundRecord.wire

variable {j : Journal}

theorem sentOutbound (ledger : Ledger j) {commit : OutboundCommit} (expected : commit.msgSeqNum = j.nextOut) :
    sentWires (withOutbound j commit) = sentWires j ++ [commit.wire] := by
  have row := Table.belowAppend ledger.positive j.outbound ⟨journaledCommand commit,commit.wire⟩ OutboundRecord.wire
  rw [← expected] at row
  rw [sentWires,withOutbound]
  dsimp only
  rw [← expected,row,sentWires,expected]

theorem sentWritten {command : CommandRecord} {outbound : OutboundRecord}
    (sent : j.outbound[command.msgSeqNum]? = some outbound) :
    sentWires (withWritten j command outbound) = sentWires j := by
  let marked : OutboundRecord := {outbound with command := {command with phase := .written}}
  have same : marked.wire = outbound.wire := rfl
  exact Table.belowRewrite sent same j.nextOut

theorem takenInbound (positive : 0 < j.nextIn) {commit : InboundCommit} (expected : commit.msgSeqNum = j.nextIn)
    (next : commit.nextInAfter = j.nextIn + 1) :
    takenWires (withInbound j commit) = takenWires j ++ [commit.wire] := by
  have row := Table.belowAppend positive j.inbound (inboundRecord commit) InboundRecord.wire
  rw [takenWires,withInbound]
  dsimp only
  rw [next,expected,row]
  rfl

end FixCli.Store
