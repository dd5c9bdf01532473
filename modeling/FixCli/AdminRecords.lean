import FixCli.SessionLoop

/-! The numbers under which the journal holds no application message. Administrative
sends keep them so, and a ResendRequest for them is answered by gap fills: none of
this is an event that a Logon has to come before. -/
namespace FixCli.Session
open Lib Codec Store

def gated : Event → Bool
  | .phaseChanged .established => true
  | .wrote .application _ _ | .wrote .applicationReplay _ _ => true
  | _ => false

structure AdminAt (j : Journal) (sequence : Nat) : Prop where
  outbound : ∀ record, j.outbound[sequence]? = some record → record.command.clOrdId = []
  commands : ∀ requestId command, sessionKey requestId → j.commands[requestId]? = some command →
    command.msgSeqNum = sequence → command.clOrdId = []

def asks (message : ParsedMessage) (sequence : Nat) : Prop :=
  message.msgType = some (ascii "2") ∧ ∃ beginSeqNum endSeqNum,
    requiredU64 message 7 = .ok beginSeqNum ∧ requiredU64 message 16 = .ok endSeqNum ∧
      beginSeqNum ≤ sequence ∧ (endSeqNum = 0 ∨ sequence ≤ endSeqNum)

def Tame (w v : World) : Prop := ∀ sequence, AdminAt w.journal sequence → AdminAt v.journal sequence

def tameOp : StoreOp → Prop
  | .commitOutbound commit => commit.clOrdId = []
  | .markOutboundWritten mark => sessionKey mark.requestId
  | _ => True

instance : Std.Refl Tame := ⟨fun _ _ h => h⟩

instance : IsTrans World Tame := ⟨fun _ _ _ h g sequence admin => g sequence (h sequence admin)⟩

section

variable {j : Journal} {sequence : Nat}

theorem adminCommit {commit : OutboundCommit} (tame : commit.clOrdId = []) (h : AdminAt j sequence) :
    AdminAt (withOutbound j commit) sequence := by
  constructor
  · intro record found
    simp only [withOutbound,Std.ExtTreeMap.getElem?_insert] at found
    split at found
    · cases found; exact tame
    · exact h.outbound record found
  · intro requestId command key found number
    simp only [withOutbound,Std.ExtTreeMap.getElem?_insert] at found
    split at found
    · cases found; exact tame
    · exact h.commands requestId command key found number

theorem adminMark {requestId : Bytes} {command : CommandRecord} {outbound : OutboundRecord}
    (key : sessionKey requestId) (found : j.commands[requestId]? = some command) (h : AdminAt j sequence) :
    AdminAt (withWritten j command outbound) sequence := by
  constructor
  · intro record at'
    simp only [withWritten,Std.ExtTreeMap.getElem?_insert] at at'
    split at at'
    · rename_i same
      cases at'
      exact h.commands requestId command key found (by simpa using same)
    · exact h.outbound record at'
  · intro other record otherKey at' number
    simp only [withWritten,Std.ExtTreeMap.getElem?_insert] at at'
    split at at'
    · cases at'
      exact h.commands requestId command key found number
    · exact h.commands other record otherKey at' number

theorem adminKept (op : StoreOp) (tame : tameOp op) (h : AdminAt j sequence) :
    AdminAt (apply j op).2 sequence := by
  cases op with
  | commitOutbound commit =>
    simp only [apply,commitOutbound]
    repeat' split
    all_goals first | exact h | exact adminCommit tame h
  | markOutboundWritten mark =>
    simp only [apply,markOutboundWritten]
    repeat' split
    all_goals first | exact h | exact adminMark tame (by assumption) h
  | markTransmissionWritten mark =>
    simp only [apply,markTransmissionWritten]
    split <;> exact ⟨h.outbound,h.commands⟩
  | commitInbound commit =>
    simp only [apply,commitInbound]
    repeat' split
    all_goals exact ⟨h.outbound,h.commands⟩
  | resyncInbound commit =>
    simp only [apply,resyncInbound]
    repeat' split
    all_goals exact ⟨h.outbound,h.commands⟩
  | resetSequences => exact ⟨fun record found => by simp [apply,resetSequences] at found,h.commands⟩
  | commitTransmission _ | loadCommand _ | loadOutboundRange _ | loadInbound _ | loadTransmission _ =>
    exact ⟨h.outbound,h.commands⟩

end

section

variable {c : Ctx} {α : Type}

open Prog

theorem tameStore (op : StoreOp) (tame : tameOp op) : Moves Tame (storeApply c op) := by
  intro w
  have after : Tame w (applied op w) := fun _ => adminKept op tame
  have same (u : World) (kept : u.journal = w.journal) : Tame w u := fun _ h => by rwa [kept]
  unfold storeApply
  cases c.env.storeFault w.tick with
  | none => cases (apply w.journal op).1 <;> exact after
  | refused text => exact same _ rfl
  | lost text => exact after
  | crashBefore => exact same _ rfl
  | crashAfter => exact after

theorem tameChange {f : World → World} (same : ∀ w, (f w).journal = w.journal) :
    Moves Tame (Prog.change f : Act Unit) := Moves.change fun w _ h => by rwa [same]

theorem tameAdvances : Advances c Tame (fun _ => True) tameOp where
  logs := fun _ => tameChange fun _ => rfl
  ticks := fun _ _ _ h => h
  writes := by
    intro path wire _ w
    unfold socketWrite
    cases c.env.ioFault w.tick <;> exact fun _ h => h
  sent := fun _ _ _ h => h
  stores := fun op allowed => tameStore op allowed
  advance := fun _ _ _ h => h

theorem tameAdminOp (o : StoreOp) (admin : adminOp o) : tameOp o := by
  cases o with
  | commitOutbound commit => exact admin.2
  | markOutboundWritten mark => exact admin
  | _ => trivial

theorem tameReplayOp (o : StoreOp) (replay : replayOp o = true) : tameOp o := by
  cases o with
  | commitOutbound _ | markOutboundWritten _ => cases replay
  | _ => trivial

theorem tameHeartbeat (testRequestId : Option Bytes) : Moves Tame (sendHeartbeatResponse c testRequestId) :=
  tameAdvances.heartbeatResponse tameAdminOp trivial _

theorem tameLogout (text : Option Bytes) : Moves Tame (sendLogout c text) :=
  tameAdvances.logout tameAdminOp trivial (tameChange fun _ => rfl) _

structure Subdued (w v : World) : Prop where
  nextIn : v.nextIn = w.nextIn
  gapBuffer : v.gapBuffer = w.gapBuffer
  records : Tame w v
  trace : ∃ new, v.trace = new ++ w.trace ∧ ∀ event ∈ new, gated event = false

instance : Std.Refl Subdued := ⟨fun _ => ⟨rfl,rfl,fun _ h => h,[],rfl,by simp⟩⟩

instance : IsTrans World Subdued where
  trans := by
    intro u v w h g
    obtain ⟨first,hfirst,quietFirst⟩ := h.trace
    obtain ⟨second,hsecond,quietSecond⟩ := g.trace
    refine ⟨g.nextIn.trans h.nextIn,g.gapBuffer.trans h.gapBuffer,IsTrans.trans u v w h.records g.records,
      second ++ first,by rw [hsecond,hfirst,List.append_assoc],?_⟩
    intro event mem
    rcases List.mem_append.mp mem with newer | older
    · exact quietSecond event newer
    · exact quietFirst event older

theorem sentUngated {p : List SendPath} (application : SendPath.application ∉ p)
    (replay : SendPath.applicationReplay ∉ p) {event : Event} (sent : sentEvent p event) :
    gated event = false := by
  cases event with
  | wrote path _ _ =>
    cases path <;> first | rfl | exact absurd sent application | exact absurd sent replay
  | phaseChanged _ => cases sent
  | stored _ _ | logged _ | replied _ | transportClosed | protocolError _ | expecting _ => rfl

theorem Subdued.sends {p : List SendPath} {w v : World} (h : Sends p w v) (tame : Tame w v)
    (application : SendPath.application ∉ p) (replay : SendPath.applicationReplay ∉ p) : Subdued w v := by
  obtain ⟨new,trace,sent⟩ := h.trace
  exact ⟨h.nextIn,h.gapBuffer,tame,new,trace,fun event mem => sentUngated application replay (sent event mem)⟩

theorem bySequenceMem {records : List OutboundRecord} {sequence : Nat} {record : OutboundRecord}
    (found : (bySequence records)[sequence]? = some record) : record ∈ records := by
  have each : ∀ (records : List OutboundRecord) (table : Table Nat OutboundRecord),
      (records.foldl (fun table record => table.insert record.command.msgSeqNum record) table)[sequence]? =
        some record → record ∈ records ∨ table[sequence]? = some record := by
    intro records
    induction records with
    | nil => exact fun table found => .inr found
    | cons head rest ih =>
      intro table found
      rcases ih _ found with later | here
      · exact .inl (List.mem_cons_of_mem _ later)
      · rw [Std.ExtTreeMap.getElem?_insert] at here
        split at here
        · cases here; exact .inl List.mem_cons_self
        · exact .inr here
  rcases each records ∅ found with mem | empty
  · exact mem
  · simp at empty

theorem subduedMoves {p : List SendPath} {m : Act α} (sends : Moves (Sends p) m) (tame : Moves Tame m)
    (application : SendPath.application ∉ p) (replay : SendPath.applicationReplay ∉ p) : Moves Subdued m :=
  fun w => .sends (sends w) (tame w) application replay

theorem subduedReplay {beginSeqNum endSeqNum : Nat} {w : World}
    (admin : ∀ sequence, beginSeqNum ≤ sequence → sequence ≤ endSeqNum → AdminAt w.journal sequence) :
    Subdued w (replayValidatedRange c beginSeqNum endSeqNum w).2 := by
  set records := (List.range' beginSeqNum (endSeqNum + 1 - beginSeqNum)).filterMap
    (fun sequence => w.journal.outbound[sequence]?) with loaded
  have filled (sequence : Nat) (record : OutboundRecord) (found : (bySequence records)[sequence]? = some record) :
      record.command.clOrdId = [] := by
    obtain ⟨number,inside,here⟩ := List.mem_filterMap.mp (bySequenceMem found)
    have between : beginSeqNum ≤ number ∧ number < beginSeqNum + (endSeqNum + 1 - beginSeqNum) :=
      List.mem_range'_1.mp inside
    exact (admin number between.1 (by omega)).outbound record here
  have loads : Subdued w (storeApply c (.loadOutboundRange ⟨beginSeqNum,endSeqNum⟩) w).2 :=
    .sends (p := []) (sendsStore rfl w) (tameStore (.loadOutboundRange ⟨beginSeqNum,endSeqNum⟩) trivial w) (by simp) (by simp)
  rw [replayValidatedRange,bindRun]
  rcases run : storeApply c (.loadOutboundRange ⟨beginSeqNum,endSeqNum⟩) w with ⟨halt | reply,v⟩
  · rwa [run] at loads
  · rw [run] at loads
    obtain ⟨-,answer,-⟩ := storeReturned run
    cases answer
    exact IsTrans.trans w v _ loads (.sends (p := [.gapFill])
      (sendsDoes.replayLoop (fun o h => replayOutbound o (transmissionReplays h)) (by simp)
        (fun sequence record found application => absurd (filled sequence record found) application) _ _ _ v)
      (tameAdvances.replayLoop (fun o h => tameReplayOp o (transmissionReplays h)) trivial
        (fun _ _ _ _ => trivial) _ _ _ v) (by simp) (by simp))

theorem validRange {nextOut first last beginSeqNum endSeqNum : Nat}
    (ok : validateReplayRange nextOut first last = .ok (beginSeqNum,endSeqNum)) :
    beginSeqNum = first ∧ (last = 0 ∨ endSeqNum ≤ last) := by
  simp only [validateReplayRange] at ok
  by_cases whole : last = 0
  · rw [if_pos whole] at ok
    split at ok <;> cases ok
    exact ⟨rfl,.inl whole⟩
  · rw [if_neg whole] at ok
    split at ok <;> cases ok
    exact ⟨rfl,.inr (by omega)⟩

theorem requestedAsks {nextOut baseline msgSeqNum : Nat} {message : ParsedMessage} {e : Expected}
    {beginSeqNum endSeqNum sequence : Nat} (checked : Checked c nextOut baseline msgSeqNum message e)
    (range : e.requestedResend = some (beginSeqNum,endSeqNum)) (low : beginSeqNum ≤ sequence)
    (high : sequence ≤ endSeqNum) : asks message sequence := by
  have resend := checked.resend
  unfold requestedResend at resend
  split at resend
  · rename_i isResend
    obtain ⟨first,hfirst,resend⟩ := boundOk resend
    obtain ⟨last,hlast,resend⟩ := boundOk resend
    obtain ⟨found,hrange,resend⟩ := boundOk resend
    rw [range] at resend
    cases resend
    obtain ⟨rfl,inside⟩ := validRange hrange
    exact ⟨isResend ▸ (inboundMsgTypeSource checked.msgType).1,_,last,hfirst,hlast,low,by omega⟩
  · rw [range] at resend
    cases resend

end
end FixCli.Session
