import FixCli.OrderWire
import FixCli.SubmitChecks

/-! A submit under a request ID that is on record: it answers the record and does nothing
else exactly as long as the record's number lies below the session's. -/
namespace FixCli.Session
open Lib Codec Store Control

structure Retried (record : CommandRecord) (w : World) (outcome : Except Halt CommandRecord × World) : Prop where
  returned : outcome.1 = .ok record
  unwritten : ∃ new, outcome.2.trace = new ++ w.trace ∧ new.filterMap handedWire = []
  nextOut : outcome.2.nextOut = w.nextOut
  journal : outcome.2.journal = w.journal

section

variable {c : Ctx} {request : ApplicationRequest} {record : CommandRecord} {w v : World}

open Prog

theorem commitRetried (found : w.journal.commands[request.requestId]? = some record)
    (same : record.fingerprint = request.fingerprint) (n : Nat) (wire : Bytes) :
    apply w.journal (.commitOutbound ⟨request.requestId,request.fingerprint,request.clOrdId,n,wire⟩) =
      (.ok (.command record),w.journal) := by
  simp only [apply,commitOutbound,found,same,ne_eq,not_true_eq_false,if_false]

theorem commitRun (healthy : c.env.storeFault w.tick = .none)
    (found : w.journal.commands[request.requestId]? = some record) (same : record.fingerprint = request.fingerprint)
    {n : Nat} (old : record.msgSeqNum < n) (wire : Bytes) : ∃ op, handedWire (.stored op (apply w.journal op).1) = none ∧
      commitSubmit c request n wire w = (.ok record,applied op w) ∧ (applied op w).journal = w.journal := by
  have answer := commitRetried found same n wire
  refine ⟨_,rfl,?_,congrArg Prod.snd answer⟩
  unfold commitSubmit
  rw [bindReturns (storeReturns healthy (congrArg Prod.fst answer))]
  simp only [if_pos old]
  rfl

theorem commitMoves (found : w.journal.commands[request.requestId]? = some record)
    (same : record.fingerprint = request.fingerprint) {n : Nat} {wire : Bytes} (late : ¬ record.msgSeqNum < n)
    (ok : commitSubmit c request n wire w = (.ok record,v)) : v.nextOut = n + 1 := by
  have answer := commitRetried found same n wire
  unfold commitSubmit at ok
  obtain ⟨reply,u,stored,ok⟩ := bindReturned ok
  obtain ⟨-,given,-⟩ := storeReturned stored
  rw [answer] at given
  cases given
  simp only [if_neg late] at ok
  by_cases last : record.msgSeqNum = n
  · simp only [last,ne_eq,not_true_eq_false,if_false] at ok
    obtain ⟨_,_,-,ok⟩ := bindReturned ok
    obtain ⟨reply,_,stored,ok⟩ := bindReturned ok
    obtain ⟨-,given,-⟩ := storeReturned stored
    obtain ⟨command,_,-,number,-,rfl,-⟩ := markOutboundWrittenSource given
    cases ok
    exact congrArg (· + 1) number
  · simp only [ne_eq,last,not_false_eq_true,if_true] at ok
    cases ok

theorem retriedIff (sendable : Sendable c) (established : w.phase = .established) (wellFormed : WellFormed request)
    (found : w.journal.commands[request.requestId]? = some record)
    (same : record.fingerprint = request.fingerprint) : Retried record w (submitApplication c request w) ↔
      c.env.storeFault (submitFields c request w).2.tick = .none ∧ record.msgSeqNum < w.nextOut := by
  obtain ⟨fields,tick,prepared⟩ := wellFormed.prepares (c := c) w
  obtain ⟨wire,encodes⟩ := wellFormed.encodes sendable prepared
  rw [submitRun established wellFormed.valid prepared,prepared,encodes,inSession,ofExceptOk,
    bindReturns (pureRun _ _)]
  constructor
  · intro retried
    rcases run : commitSubmit c request w.nextOut wire {w with tick := tick} with ⟨halt | command,v⟩
    · rw [run] at retried
      cases retried.returned
    · rw [run] at retried
      cases retried.returned
      have healthy : c.env.storeFault tick = .none := by
        obtain ⟨reply,u,stored,-⟩ := bindReturned run
        exact (storeReturned stored).1
      refine ⟨healthy,?_⟩
      by_contra late
      have moved := commitMoves (w := {w with tick := tick}) found same late run
      exact absurd (moved.symm.trans retried.nextOut) (by simp)
  · rintro ⟨healthy,old⟩
    obtain ⟨op,silent,run,kept⟩ := commitRun (w := {w with tick := tick}) healthy found same old wire
    rw [run]
    exact ⟨rfl,⟨[_],rfl,by simp [silent]⟩,rfl,kept⟩

theorem submitIdempotent (s : Shared) (inputs : List Input) (live : (run c (spawn c s) inputs).live = true)
    (established : (run c (spawn c s) inputs).world.phase = .established) (wellFormed : WellFormed request)
    (found : (run c (spawn c s) inputs).world.journal.commands[request.requestId]? = some record)
    (same : record.fingerprint = request.fingerprint) :
    (Retried record (run c (spawn c s) inputs).world
        (submitApplication c request (run c (spawn c s) inputs).world) ∧
      (step c (run c (spawn c s) inputs) (.command (.submit request))).live = true) ↔
    c.env.storeFault (submitFields c request (run c (spawn c s) inputs).world).2.tick = .none ∧
      record.msgSeqNum < (run c (spawn c s) inputs).world.nextOut := by
  have sendable := (attachedRun s inputs live).sendable
  generalize run c (spawn c s) inputs = conn at live established found ⊢
  rw [← retriedIff sendable established wellFormed found same]
  refine and_iff_left_of_imp fun retried => ?_
  rcases submitted : submitApplication c request conn.world with ⟨halt | command,v⟩
  · rw [submitted] at retried
    cases retried.returned
  · have ran : commandResult c (.submit request) conn.world = (.ok (.command command),v) := bindReturns submitted
    simp only [step,live,if_true,react,handleCommandRun,ran,settle]

end

def orderOne : ApplicationRequest := applicationOf (venueOrder "order-1")

def ordered : Conn := venueConn fresh [.frame (venueLogon 1),.command (.submit orderOne)]

def resetCtx : Ctx := {venueCtx with config := {venueCtx.config with resetOnLogon := true}}

def reordered : Conn := run resetCtx (spawn resetCtx ordered.world.toShared) [.frame (venueLogon 1)]

def orderRecord : CommandRecord := ⟨orderOne.requestId,orderOne.fingerprint,orderOne.clOrdId,2,.written⟩

theorem orderWellFormed : WellFormed orderOne := ⟨⟨by decide +kernel,by decide +kernel,by decide +kernel⟩,by decide +kernel⟩

theorem resetResends :
    (reordered.live = true ∧ reordered.world.phase = .established ∧ WellFormed orderOne ∧
      reordered.world.journal.commands[orderOne.requestId]? = some orderRecord) ∧
    ¬ Retried orderRecord reordered.world (submitApplication resetCtx orderOne reordered.world) ∧
    (submitApplication resetCtx orderOne reordered.world).1 =
      .error (.fail (.store (StoreError.unknownCommand orderOne.requestId).text)) ∧
    ((submitApplication resetCtx orderOne reordered.world).2.trace.filterMap handedWire).length =
      (reordered.world.trace.filterMap handedWire).length + 1 := by
  have outcome : (submitApplication resetCtx orderOne reordered.world).1 =
      .error (.fail (.store (StoreError.unknownCommand orderOne.requestId).text)) := by decide +kernel
  refine ⟨⟨by decide +kernel,by decide +kernel,orderWellFormed,by decide +kernel⟩,fun retried => ?_,outcome,
    by decide +kernel⟩
  exact absurd (outcome.symm.trans retried.returned) (by simp)

theorem submitIdempotentAtVenue : ordered.world.nextOut = 3 ∧
    ((Retried orderRecord ordered.world (submitApplication venueCtx orderOne ordered.world) ∧
      (step venueCtx ordered (.command (.submit orderOne))).live = true) ↔
    venueCtx.env.storeFault (submitFields venueCtx orderOne ordered.world).2.tick = .none ∧
      orderRecord.msgSeqNum < ordered.world.nextOut) := by
  have reached : run venueCtx (spawn venueCtx fresh) [.frame (venueLogon 1),.command (.submit orderOne)] = ordered := rfl
  have retries := @submitIdempotent venueCtx orderOne orderRecord fresh
    [.frame (venueLogon 1),.command (.submit orderOne)]
  rw [reached] at retries
  have stored : ordered.world.journal.commands[orderOne.requestId]? = some orderRecord := by decide +kernel
  exact ⟨by decide +kernel,retries (by decide +kernel) (by decide +kernel) orderWellFormed stored rfl⟩

end FixCli.Session
