import FixCli.ActorMoves

/-! What the outbound routines leave alone. `Sends` says it once for all of them:
they move neither the phase nor the inbound side, and what they add to the trace
is log records, outbound store operations and writes on their own paths. -/
namespace FixCli.Session
open Lib Codec Store

structure SameInbound (j k : Journal) : Prop where
  nextIn : k.nextIn = j.nextIn
  nextEvent : k.nextEvent = j.nextEvent
  inbound : k.inbound = j.inbound
  events : k.events = j.events

theorem SameInbound.refl (j : Journal) : SameInbound j j := ⟨rfl,rfl,rfl,rfl⟩

theorem SameInbound.trans {j k l : Journal} (h : SameInbound j k) (g : SameInbound k l) : SameInbound j l :=
  ⟨g.nextIn.trans h.nextIn,g.nextEvent.trans h.nextEvent,g.inbound.trans h.inbound,g.events.trans h.events⟩

def inboundOp : StoreOp → Bool
  | .commitInbound _ | .resyncInbound _ | .resetSequences => true
  | _ => false

theorem outboundOpKeeps {op : StoreOp} (outbound : inboundOp op = false) (j : Journal) :
    SameInbound j (apply j op).2 := by
  cases op with
  | commitInbound _ | resyncInbound _ | resetSequences => cases outbound
  | commitOutbound commit =>
    simp only [apply,commitOutbound]
    repeat' split
    all_goals exact ⟨rfl,rfl,rfl,rfl⟩
  | markOutboundWritten mark =>
    simp only [apply,markOutboundWritten]
    repeat' split
    all_goals exact ⟨rfl,rfl,rfl,rfl⟩
  | markTransmissionWritten mark =>
    simp only [apply,markTransmissionWritten]
    split <;> exact ⟨rfl,rfl,rfl,rfl⟩
  | commitTransmission _ | loadCommand _ | loadOutboundRange _ | loadInbound _ | loadTransmission _ =>
    exact ⟨rfl,rfl,rfl,rfl⟩

def sentEvent (paths : List SendPath) : Event → Prop
  | .stored op _ => inboundOp op = false
  | .wrote path _ _ => path ∈ paths
  | .logged _ | .replied _ => True
  | _ => False

structure Sends (p : List SendPath) (w v : World) : Prop where
  phase : v.phase = w.phase
  nextIn : v.nextIn = w.nextIn
  nextEvent : v.nextEvent = w.nextEvent
  gapBuffer : v.gapBuffer = w.gapBuffer
  journal : SameInbound w.journal v.journal
  trace : ∃ new, v.trace = new ++ w.trace ∧ ∀ event ∈ new, sentEvent p event

namespace Sends

variable {p : List SendPath} {w v : World}

instance : Std.Refl (Sends p) := ⟨fun w => ⟨rfl,rfl,rfl,rfl,.refl _,[],rfl,by simp⟩⟩

instance : IsTrans World (Sends p) where
  trans := by
    intro a b c h g
    obtain ⟨first,hfirst,firstSent⟩ := h.trace
    obtain ⟨second,hsecond,secondSent⟩ := g.trace
    refine ⟨g.phase.trans h.phase,g.nextIn.trans h.nextIn,g.nextEvent.trans h.nextEvent,
      g.gapBuffer.trans h.gapBuffer,h.journal.trans g.journal,
      second ++ first,by rw [hsecond,hfirst,List.append_assoc],?_⟩
    intro event mem
    rcases List.mem_append.mp mem with newer | older
    · exact secondSent event newer
    · exact firstSent event older

theorem widen {more : List SendPath} (h : Sends p w v) (wider : ∀ path ∈ p, path ∈ more) :
    Sends more w v := by
  obtain ⟨new,htrace,sent⟩ := h.trace
  refine ⟨h.phase,h.nextIn,h.nextEvent,h.gapBuffer,h.journal,new,htrace,?_⟩
  intro event mem
  have here := sent event mem
  cases event with
  | wrote path _ _ => exact wider path here
  | stored _ _ | logged _ | phaseChanged _ | transportClosed | protocolError _ | expecting _ | replied _ =>
    exact here

theorem counters (w : World) (tick nextOut lastOutbound : Nat)
    (testRequest : Option TestRequestOutstanding) :
    Sends p w {w with
      tick := tick, nextOut := nextOut, lastOutbound := lastOutbound, testRequest := testRequest} :=
  ⟨rfl,rfl,rfl,rfl,.refl _,[],rfl,by simp⟩

theorem event (w : World) (tick : Nat) (event : Event) (sent : sentEvent p event) :
    Sends p w {w with trace := event :: w.trace, tick := tick} :=
  ⟨rfl,rfl,rfl,rfl,.refl _,[event],rfl,fun _ mem => by rwa [List.mem_singleton.mp mem]⟩

end Sends

section

variable {c : Ctx} {p : List SendPath} {op : StoreOp → Prop} {α : Type}

open Prog

theorem sendsEmit {event : Event} (sent : sentEvent p event) : Moves (Sends p) (emit event) :=
  Moves.change fun w => .event w _ event sent

theorem sendsInfo (text : Bytes) : Moves (Sends p) (info text) := sendsEmit trivial

theorem sendsApplied {op : StoreOp} (outbound : inboundOp op = false) (w : World) :
    Sends p w (applied op w) :=
  ⟨rfl,rfl,rfl,rfl,outboundOpKeeps outbound _,[_],rfl,
    fun _ mem => by rw [List.mem_singleton.mp mem]; exact outbound⟩

theorem sendsStore {op : StoreOp} (outbound : inboundOp op = false) :
    Moves (Sends p) (storeApply c op) := by
  intro w
  unfold storeApply
  cases c.env.storeFault w.tick with
  | none => cases (apply w.journal op).1 <;> exact sendsApplied outbound w
  | refused text => exact .event w _ (.stored op _) outbound
  | lost text => exact sendsApplied outbound w
  | crashBefore => exact .counters w ..
  | crashAfter => exact sendsApplied outbound w

theorem sendsAdvances (outbound : ∀ o, op o → inboundOp o = false) : Advances c (Sends p) (· ∈ p) op where
  logs := fun _ => sendsEmit trivial
  ticks := fun w _ => .counters w ..
  writes := by
    intro path wire own w
    have written : Sends p w (handed path wire w) := .event w _ (.wrote path wire _) own
    have untouched : Sends p w {w with tick := w.tick + 1} := .counters w ..
    unfold socketWrite
    cases c.env.ioFault w.tick <;> assumption
  sent := fun w _ => .counters w ..
  stores := fun _ allowed => sendsStore (outbound _ allowed)
  advance := fun w _ => .counters w ..

theorem sendsDoes : Does c (Sends p) (· ∈ p) (fun o => inboundOp o = false) :=
  (sendsAdvances fun _ h => h).toDoes

theorem adminOutbound (o : StoreOp) (admin : adminOp o) : inboundOp o = false := by
  cases o <;> first | rfl | cases admin

theorem submitOutbound (request : ApplicationRequest) (o : StoreOp) (submit : submitOp request o) :
    inboundOp o = false := by
  cases o <;> first | rfl | cases submit

theorem replayOutbound (o : StoreOp) (replay : replayOp o = true) : inboundOp o = false := by
  cases o <;> first | rfl | cases replay

theorem sendsHeader (msgType : Bytes) : Moves (Sends p) (standardHeader c msgType) := sendsDoes.header msgType

theorem sendsAdmin {send : AdminSend} {afterWrite : Act Unit} (own : send.path ∈ p)
    (key : sessionKey send.requestId) (after : Moves (Sends p) afterWrite) :
    Moves (Sends p) (sendAdmin c send afterWrite) :=
  (sendsAdvances adminOutbound).admin (fun _ h => h) own key after

theorem sendsResendRequest (beginSeqNum : Nat) :
    Moves (Sends [.resendRequest]) (sendResendRequest c beginSeqNum) :=
  (sendsAdvances adminOutbound).resendRequest (fun _ h => h) (by simp) _

theorem sendsHeartbeatResponse (testRequestId : Option Bytes) :
    Moves (Sends [.heartbeat]) (sendHeartbeatResponse c testRequestId) :=
  (sendsAdvances adminOutbound).heartbeatResponse (fun _ h => h) (by simp) _

theorem sendsTestRequest (responseTimeout : Nat) :
    Moves (Sends [.testRequest]) (sendTestRequest c responseTimeout) :=
  (sendsAdvances adminOutbound).testRequest (fun _ h => h) (by simp) (fun w _ _ => .counters w ..) _

theorem sendsSubmit (request : ApplicationRequest) :
    Moves (Sends [.application]) (submitApplication c request) :=
  (sendsAdvances (submitOutbound request)).submit request (fun _ h => h) (by simp)

abbrev replayPaths : List SendPath := [.applicationReplay, .gapFill]

theorem sendsReplay (beginSeqNum endSeqNum : Nat) :
    Moves (Sends replayPaths) (replayValidatedRange c beginSeqNum endSeqNum) :=
  sendsDoes.replay replayOutbound (by simp) (by simp) _ _

end

def openingEvent : Event → Prop
  | .expecting nextIn => nextIn = 1
  | .stored .resetSequences _ => True
  | event => sentEvent [.logon] event

structure Opens (w v : World) : Prop where
  phase : v.phase = w.phase
  gapBuffer : v.gapBuffer = w.gapBuffer
  trace : ∃ new, v.trace = new ++ w.trace ∧ ∀ event ∈ new, openingEvent event

theorem openingSent {event : Event} (sent : sentEvent [.logon] event) : openingEvent event := by
  cases event with
  | stored op answer =>
    cases op with
    | resetSequences => trivial
    | _ => exact sent
  | expecting _ => cases sent
  | _ => exact sent

namespace Opens

instance : Std.Refl Opens := ⟨fun _ => ⟨rfl,rfl,[],rfl,by simp⟩⟩

instance : IsTrans World Opens where
  trans := by
    intro a b c h g
    obtain ⟨first,hfirst,firstOpens⟩ := h.trace
    obtain ⟨second,hsecond,secondOpens⟩ := g.trace
    refine ⟨g.phase.trans h.phase,g.gapBuffer.trans h.gapBuffer,second ++ first,
      by rw [hsecond,hfirst,List.append_assoc],?_⟩
    intro event mem
    rcases List.mem_append.mp mem with newer | older
    · exact secondOpens event newer
    · exact firstOpens event older

theorem sends {w v : World} (h : Sends [.logon] w v) : Opens w v := by
  obtain ⟨new,trace,sent⟩ := h.trace
  exact ⟨h.phase,h.gapBuffer,new,trace,fun event mem => openingSent (sent event mem)⟩

end Opens

section

variable {c : Ctx} {α : Type}

open Prog

theorem opensSends {m : Act α} (h : Moves (Sends [.logon]) m) : Moves Opens m :=
  h.weaken fun _ _ => Opens.sends

theorem opensReset : Moves Opens (resetOnLogon c) := by
  have stores : Moves Opens (storeApply c .resetSequences) := by
    intro w
    have after : Opens w (applied .resetSequences w) :=
      ⟨rfl,rfl,[_],rfl,fun _ mem => by rw [List.mem_singleton.mp mem]; trivial⟩
    unfold storeApply
    cases c.env.storeFault w.tick with
    | none => cases (apply w.journal .resetSequences).1 <;> exact after
    | refused text => exact ⟨rfl,rfl,[_],rfl,fun _ mem => by rw [List.mem_singleton.mp mem]; trivial⟩
    | lost text => exact after
    | crashBefore => exact ⟨rfl,rfl,[],rfl,by simp⟩
    | crashAfter => exact after
  refine Moves.bind stores fun reply => ?_
  split
  · refine Moves.bind (Moves.change fun w => ⟨rfl,rfl,[],rfl,by simp⟩) fun _ =>
      Moves.bind (Moves.change fun w => ⟨rfl,rfl,[.expecting 1],rfl,?_⟩) fun _ => opensSends (sendsInfo _)
    exact fun _ mem => by rw [List.mem_singleton.mp mem]; rfl
  · exact Moves.stop _

theorem opensLogon : Moves Opens (sendLogon c) := by
  refine Moves.bind (Moves.ofExcept _) fun _ => Moves.bind ?_ fun _ => opensSends
    (Moves.bind (sendsHeader _) fun _ => Moves.bind (Moves.ofExcept _) fun _ =>
      Moves.bind (Moves.ofExcept _) fun _ => Moves.bind Moves.state fun _ =>
        sendsAdmin (by simp) (adminKeySession _ _ _) (sendsInfo _))
  unfold resetIfConfigured
  split
  · exact opensReset
  · exact Moves.pure _

end

def Grows (w v : World) : Prop := w.trace <:+ v.trace

theorem Sends.grows {p : List SendPath} {w v : World} (h : Sends p w v) : Grows w v := by
  obtain ⟨new,trace,_⟩ := h.trace
  exact ⟨new,trace.symm⟩

theorem growsPermits : Permits (fun _ => True) (fun _ => True) Grows where
  refl := fun _ => List.suffix_rfl
  trans := fun _ _ _ first second => first.trans second
  ticks := fun _ _ => List.suffix_rfl
  notes := fun _ _ _ => List.suffix_cons _ _
  moves := fun _ _ _ => List.suffix_rfl
  asks := fun _ _ _ => List.suffix_rfl
  stores := fun _ _ _ => List.suffix_cons _ _
  refuses := fun _ _ _ _ => List.suffix_cons _ _
  writes := fun _ _ _ _ => List.suffix_cons _ _

instance : Std.Refl Grows := growsPermits.isRefl

instance : IsTrans World Grows := growsPermits.isTrans

section

variable {c : Ctx} {α : Type}

open Prog

theorem growsSends {p : List SendPath} {m : Act α} (h : Moves (Sends p) m) : Moves Grows m :=
  h.weaken fun _ _ => Sends.grows

theorem sendsTestRequestAnswered {p : List SendPath} (message : ParsedMessage) (msgType : Bytes) :
    Moves (Sends p) (testRequestAnswered message msgType) := by
  refine Moves.change fun w => ?_
  repeat' split
  all_goals exact .counters w ..

theorem sendsAnswers (expected : Expected) : Moves (Sends (.heartbeat :: replayPaths)) (do
    answerResendRequest c expected.requestedResend
    answerTestRequest c expected.heartbeatResponse) := by
  refine Moves.bind ?_ fun _ => ?_
  · cases expected.requestedResend with
    | none => exact Moves.pure _
    | some range => exact (sendsReplay _ _).weaken fun _ _ h => h.widen (by simp)
  · cases expected.heartbeatResponse with
    | none => exact Moves.pure _
    | some id => exact (sendsHeartbeatResponse _).weaken fun _ _ h => h.widen (by simp)

end

end FixCli.Session
