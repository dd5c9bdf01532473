import FixCli.SessionRun

/-! The walk through the outbound routines, made once for every relation between
the world before and the world after. `Does` says what a relation has to allow:
log records, the passing of time, writes on some paths and some store operations;
`Advances` adds the move of the outbound counter. -/
namespace FixCli.Session
open Lib Codec Store

structure Does (c : Ctx) (R : World → World → Prop) (path : SendPath → Prop) (op : StoreOp → Prop) : Prop where
  logs : ∀ record, Prog.Moves R (emit (.logged record))
  ticks : ∀ (w : World) tick, R w {w with tick := tick}
  writes : ∀ own wire, path own → Prog.Moves R (socketWrite c own wire)
  sent : ∀ (w : World) lastOutbound, R w {w with lastOutbound := lastOutbound}
  stores : ∀ o, op o → Prog.Moves R (storeApply c o)

structure Retransmits (c : Ctx) (R : World → World → Prop) (path : SendPath → Prop) : Prop where
  ticks : ∀ (w : World) tick, R w {w with tick := tick}
  transmits : ∀ own msgSeqNum kind wire, path own →
    Prog.Moves R (writeReplayTransmission c own msgSeqNum kind wire)

structure Advances (c : Ctx) (R : World → World → Prop) (path : SendPath → Prop) (op : StoreOp → Prop) : Prop
    extends Does c R path op where
  advance : ∀ (w : World) nextOut, R w {w with nextOut := nextOut}

def replayOp : StoreOp → Bool
  | .commitTransmission _ | .markTransmissionWritten _ | .loadOutboundRange _ => true
  | _ => false

def transmissionOp : StoreOp → Bool
  | .commitTransmission _ | .markTransmissionWritten _ => true
  | _ => false

theorem transmissionReplays {o : StoreOp} (h : transmissionOp o = true) : replayOp o = true := by
  cases o <;> first | rfl | cases h

def sessionKey (requestId : Bytes) : Prop := ascii "session:" <+: requestId

def adminOp : StoreOp → Prop
  | .commitOutbound commit => sessionKey commit.requestId ∧ commit.clOrdId = []
  | .markOutboundWritten mark => sessionKey mark.requestId
  | _ => False

def submitOp (request : ApplicationRequest) : StoreOp → Prop
  | .commitOutbound commit => commit.requestId = request.requestId ∧
      commit.fingerprint = request.fingerprint ∧ commit.clOrdId = request.clOrdId
  | .markOutboundWritten mark => mark.requestId = request.requestId
  | _ => False

theorem adminKeySession (kind : Bytes) (nextOut nextEvent : Nat) :
    sessionKey (adminKey kind nextOut nextEvent) := by
  simp only [sessionKey,adminKey,List.append_assoc]
  exact List.prefix_append _ _

section

variable {c : Ctx} {R : World → World → Prop} {path : SendPath → Prop} {op : StoreOp → Prop} {α : Type}

open Prog

namespace Retransmits

variable [IsTrans World R] [Std.Refl R]

theorem replayFields (d : Retransmits c R path) (time : Bytes) (fields : List Field) :
    Moves R (replayFields c time fields) := by
  induction fields with
  | nil => exact Moves.pure _
  | cons field rest ih =>
    simp only [Session.replayFields]
    split
    · exact ih
    split
    · exact Moves.bind ih fun _ => Moves.pure _
    split
    · exact Moves.bind (fun w => d.ticks w _) fun _ => Moves.bind ih fun _ => Moves.pure _
    · exact Moves.bind ih fun _ => Moves.pure _

theorem applicationReplay (d : Retransmits c R path) (allowed : path .applicationReplay) (bytes : Bytes) : Moves R (writeApplicationReplay c bytes) :=
  Moves.bind (Moves.ofExcept _) fun _ => Moves.bind (Moves.ofExcept _) fun _ =>
    Moves.bind (Moves.ofExcept _) fun _ => Moves.bind (d.replayFields _ _) fun _ =>
      Moves.bind (Moves.ofExcept _) fun _ => d.transmits _ _ _ _ allowed

theorem gapFill (d : Retransmits c R path) (allowed : path .gapFill)
    (gapStart newSeqNum : Nat) : Moves R (writeGapFill c gapStart newSeqNum) :=
  Moves.bind (fun w => d.ticks w _) fun _ => Moves.bind (Moves.ofExcept _) fun _ => d.transmits _ _ _ _ allowed

theorem closeGap (d : Retransmits c R path) (allowed : path .gapFill)
    (gapStart : Option Nat) (newSeqNum : Nat) : Moves R (closeGap c gapStart newSeqNum) := by
  cases gapStart with
  | none => exact Moves.pure _
  | some start => exact d.gapFill allowed _ _

theorem replayLoop (d : Retransmits c R path) (gap : path .gapFill)
    {records : Table Nat OutboundRecord}
    (replays : ∀ (sequence : Nat) (record : OutboundRecord), records[sequence]? = some record →
      record.command.clOrdId ≠ [] → path .applicationReplay)
    (endSeqNum : Nat) (sequences : List Nat) (gapStart : Option Nat) :
    Moves R (replayLoop c records endSeqNum sequences gapStart) := by
  induction sequences generalizing gapStart with
  | nil => exact d.closeGap gap _ _
  | cons sequence rest ih =>
    simp only [Session.replayLoop]
    split
    · rename_i record found
      split
      · rename_i application
        exact Moves.bind (d.closeGap gap _ _) fun _ =>
          Moves.bind (d.applicationReplay (replays sequence record found application) _) fun _ => ih none
      · exact ih _
    · exact ih _

end Retransmits

namespace Does

theorem time (d : Does c R path op) : Moves R (sendingTime c) := fun w => d.ticks w _

theorem now (d : Does c R path op) : Moves R (now c) := fun w => d.ticks w _

variable [IsTrans World R]

theorem wire (d : Does c R path op) {own : SendPath} (allowed : path own) (bytes : Bytes) :
    Moves R (writeWire c own bytes) :=
  Moves.bind (d.logs _) fun _ => Moves.bind (d.writes own bytes allowed) fun _ =>
    Moves.bind d.now fun _ => Moves.change fun w => d.sent w _

variable [Std.Refl R]

theorem header (d : Does c R path op) (msgType : Bytes) : Moves R (standardHeader c msgType) :=
  Moves.bind d.time fun _ => Moves.bind Moves.state fun _ => Moves.pure _

theorem appendBody (d : Does c R path op) (requiresTransactTime : Bool) (fields : List Field) :
    Moves R (appendBody c requiresTransactTime fields) := by
  induction fields with
  | nil => exact Moves.pure _
  | cons field rest ih =>
    simp only [Session.appendBody]
    split
    · exact Moves.bind d.time fun _ => Moves.bind ih fun _ => Moves.pure _
    · exact Moves.bind ih fun _ => Moves.pure _

theorem submitFields (d : Does c R path op) (request : ApplicationRequest) :
    Moves R (submitFields c request) := by
  refine Moves.bind (d.header _) fun _ => Moves.bind (Moves.ofExcept _) fun _ =>
    Moves.bind (d.appendBody _ _) fun _ => ?_
  dsimp only
  split
  · exact Moves.stop _
  · exact Moves.pure _

theorem transmission (d : Does c R path op) (ops : ∀ o, transmissionOp o = true → op o) {own : SendPath}
    (allowed : path own) (msgSeqNum : Nat) (kind : String) (bytes : Bytes) :
    Moves R (writeReplayTransmission c own msgSeqNum kind bytes) := by
  refine Moves.bind (d.stores _ (ops _ rfl)) fun reply => ?_
  split
  · exact Moves.bind (d.wire allowed _) fun _ => Moves.bind (d.stores _ (ops _ rfl)) fun _ => Moves.pure _
  · exact Moves.stop _

theorem retransmits (d : Does c R path op) (ops : ∀ o, transmissionOp o = true → op o) : Retransmits c R path where
  ticks := d.ticks
  transmits := fun _ _ _ _ allowed => d.transmission ops allowed _ _ _

theorem applicationReplay (d : Does c R path op) (ops : ∀ o, transmissionOp o = true → op o)
    (allowed : path .applicationReplay) (bytes : Bytes) : Moves R (writeApplicationReplay c bytes) :=
  (d.retransmits ops).applicationReplay allowed bytes

theorem replayLoop (d : Does c R path op) (ops : ∀ o, transmissionOp o = true → op o) (gap : path .gapFill)
    {records : Table Nat OutboundRecord}
    (replays : ∀ (sequence : Nat) (record : OutboundRecord), records[sequence]? = some record →
      record.command.clOrdId ≠ [] → path .applicationReplay)
    (endSeqNum : Nat) (sequences : List Nat) (gapStart : Option Nat) :
    Moves R (replayLoop c records endSeqNum sequences gapStart) :=
  (d.retransmits ops).replayLoop gap replays endSeqNum sequences gapStart

theorem replay (d : Does c R path op) (ops : ∀ o, replayOp o = true → op o) (gap : path .gapFill)
    (application : path .applicationReplay) (beginSeqNum endSeqNum : Nat) :
    Moves R (replayValidatedRange c beginSeqNum endSeqNum) := by
  refine Moves.bind (d.stores _ (ops _ rfl)) fun reply => ?_
  split
  · exact d.replayLoop (fun o h => ops o (transmissionReplays h)) gap (fun _ _ _ _ => application) _ _ _
  · exact Moves.stop _

theorem verifyPossdup (d : Does c R path op) (replay : ParsedMessage) (msgSeqNum : Nat)
    (load : op (.loadInbound msgSeqNum)) : Moves R (verifyPossdup c replay msgSeqNum) := by
  refine Moves.bind (Moves.ofExcept _) fun _ => Moves.bind (d.stores _ load) fun reply => ?_
  split
  · exact Moves.ofExcept _
  · exact Moves.stop _

end Does

namespace Advances

variable [Std.Refl R] [IsTrans World R]

theorem admin (d : Advances c R path op) (ops : ∀ o, adminOp o → op o) {send : AdminSend}
    (allowed : path send.path) (key : sessionKey send.requestId) {afterWrite : Act Unit}
    (after : Moves R afterWrite) : Moves R (sendAdmin c send afterWrite) := by
  refine Moves.bind Moves.state fun w => Moves.bind (d.stores _ (ops _ ⟨key,rfl⟩)) fun reply => ?_
  split
  · exact Moves.bind (d.wire allowed _) fun _ => Moves.bind after fun _ =>
      Moves.bind (d.stores _ (ops _ key)) fun _ => Moves.change fun w => d.advance w _
  · exact Moves.stop _

theorem resendRequest (d : Advances c R path op) (ops : ∀ o, adminOp o → op o) (allowed : path .resendRequest)
    (beginSeqNum : Nat) : Moves R (sendResendRequest c beginSeqNum) :=
  Moves.bind (d.header _) fun _ => Moves.bind (Moves.ofExcept _) fun _ =>
    Moves.bind Moves.state fun _ => d.admin ops allowed (adminKeySession _ _ _) (Moves.pure _)

theorem heartbeatResponse (d : Advances c R path op) (ops : ∀ o, adminOp o → op o) (allowed : path .heartbeat)
    (testRequestId : Option Bytes) : Moves R (sendHeartbeatResponse c testRequestId) :=
  Moves.bind (d.header _) fun _ => Moves.bind (Moves.ofExcept _) fun _ =>
    Moves.bind Moves.state fun _ => d.admin ops allowed (adminKeySession _ _ _) (Moves.pure _)

theorem testRequest (d : Advances c R path op) (ops : ∀ o, adminOp o → op o) (allowed : path .testRequest)
    (asked : ∀ (w : World) n deadline, R w {w with testRequest := some ⟨ascii "TEST-" ++ decimal n,deadline⟩})
    (responseTimeout : Nat) : Moves R (sendTestRequest c responseTimeout) :=
  Moves.bind Moves.state fun _ => Moves.bind (d.header _) fun _ => Moves.bind (Moves.ofExcept _) fun _ =>
    Moves.bind (d.admin ops allowed (adminKeySession _ _ _) (Moves.pure _)) fun _ =>
      Moves.bind d.now fun _ => Moves.change fun w => asked w _ _

theorem logout (d : Advances c R path op) (ops : ∀ o, adminOp o → op o) (allowed : path .logout)
    (shuts : Moves R (setPhase .logoutSent)) (text : Option Bytes) : Moves R (sendLogout c text) := by
  refine Moves.bind Moves.state fun w => ?_
  split
  · exact Moves.stop _
  · exact Moves.bind (d.header _) fun _ => Moves.bind (Moves.ofExcept _) fun _ =>
      Moves.bind Moves.state fun _ =>
        Moves.bind (d.admin ops allowed (adminKeySession _ _ _) (Moves.pure _)) fun _ => shuts

theorem submit (d : Advances c R path op) (request : ApplicationRequest) (ops : ∀ o, submitOp request o → op o)
    (allowed : path .application) : Moves R (submitApplication c request) := by
  refine Moves.bind Moves.state fun w => ?_
  split
  · exact Moves.stop _
  refine Moves.bind (Moves.ofExcept _) fun _ => Moves.bind (d.submitFields request) fun _ =>
    Moves.bind (Moves.ofExcept _) fun _ => Moves.bind (d.stores _ (ops _ ⟨rfl,rfl,rfl⟩)) fun reply => ?_
  split
  · split
    · exact Moves.pure _
    · split
      · exact Moves.stop _
      · refine Moves.bind (d.wire allowed _) fun _ => Moves.bind (d.stores _ (ops _ rfl)) fun reply => ?_
        split
        · exact Moves.bind (Moves.change fun w => d.advance w _) fun _ => Moves.pure _
        · exact Moves.stop _
  · exact Moves.stop _

end Advances

end
end FixCli.Session
