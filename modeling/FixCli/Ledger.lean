import FixCli.StoreEffects

/-! What every journal holds that came about by store operations: records lie
under their own request ID and sequence number, and under no number still to come. -/
namespace FixCli.Store
open Lib

structure Ledger (j : Journal) : Prop where
  keyed : ∀ requestId (record : CommandRecord), j.commands[requestId]? = some record → record.requestId = requestId
  numbered : ∀ sequence (record : OutboundRecord), j.outbound[sequence]? = some record → record.command.msgSeqNum = sequence
  below : ∀ sequence record, j.outbound[sequence]? = some record → 0 < sequence ∧ sequence < j.nextOut
  positive : 0 < j.nextOut

theorem ledgerEmpty : Ledger .empty :=
  ⟨fun _ _ found => by simp [Journal.empty] at found,fun _ _ found => by simp [Journal.empty] at found,
    fun _ _ found => by simp [Journal.empty] at found,by decide⟩

section

variable {j : Journal} (h : Ledger j)
include h

theorem Ledger.books {k : Journal} (commands : k.commands = j.commands) (outbound : k.outbound = j.outbound)
    (nextOut : k.nextOut = j.nextOut) : Ledger k :=
  ⟨by rw [commands]; exact h.keyed,by rw [outbound]; exact h.numbered,
    by rw [outbound,nextOut]; exact h.below,by rw [nextOut]; exact h.positive⟩

theorem Ledger.outbound {commit : OutboundCommit} (expected : commit.msgSeqNum = j.nextOut) :
    Ledger (withOutbound j commit) where
  keyed := fun requestId record found => by
    simp only [withOutbound,Std.ExtTreeMap.getElem?_insert] at found
    split at found
    · rename_i same
      cases found
      simpa [journaledCommand] using same
    · exact h.keyed requestId record found
  numbered := fun sequence record found => by
    simp only [withOutbound,Std.ExtTreeMap.getElem?_insert] at found
    split at found
    · rename_i same
      cases found
      simpa [journaledCommand] using same
    · exact h.numbered sequence record found
  below := fun sequence record found => by
    change 0 < sequence ∧ sequence < j.nextOut + 1
    simp only [withOutbound,Std.ExtTreeMap.getElem?_insert] at found
    split at found
    · rename_i same
      have number : commit.msgSeqNum = sequence := by simpa using same
      have positive := h.positive
      omega
    · have before := h.below sequence record found
      omega
  positive := Nat.succ_pos _

theorem Ledger.written {command : CommandRecord} {outbound : OutboundRecord}
    (sent : j.outbound[command.msgSeqNum]? = some outbound) : Ledger (withWritten j command outbound) where
  keyed := fun other record here => by
    simp only [withWritten,Std.ExtTreeMap.getElem?_insert] at here
    split at here
    · rename_i same
      cases here
      simpa using same
    · exact h.keyed other record here
  numbered := fun sequence record here => by
    simp only [withWritten,Std.ExtTreeMap.getElem?_insert] at here
    split at here
    · rename_i same
      cases here
      simpa using same
    · exact h.numbered sequence record here
  below := fun sequence record here => by
    change 0 < sequence ∧ sequence < j.nextOut
    simp only [withWritten,Std.ExtTreeMap.getElem?_insert] at here
    split at here
    · rename_i same
      have number : command.msgSeqNum = sequence := by simpa using same
      exact number ▸ h.below _ outbound sent
    · exact h.below sequence record here
  positive := h.positive

theorem Ledger.effect {op : StoreOp} {k : Journal} (effect : Effect j op k) : Ledger k := by
  cases effect with
  | none => exact h
  | outbound _ expected => exact h.outbound expected
  | written _ same sent => exact h.written (same ▸ sent)
  | transmission _ | transmissionWritten _ | inbound _ _ _ | resync _ _ => exact h.books rfl rfl rfl
  | reset => exact ⟨h.keyed,fun _ _ found => by simp [withReset] at found,
      fun _ _ found => by simp [withReset] at found,Nat.one_pos⟩

theorem ledgerApply (op : StoreOp) : Ledger (apply j op).2 := h.effect (effectOf j op)

end

theorem ledgerJournal (ops : List StoreOp) : Ledger (journalOf ops) :=
  journalInvariant ledgerEmpty (fun _ _ _ h effect => h.effect effect) ops

end FixCli.Store
