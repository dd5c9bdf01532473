import FixCli.SessionEffects

/-! The rules by which a property of the actor is carried through an arriving
frame. `InboundRules` says what is owed at the few places where something
happens; the walk through `handle_inbound` and its drain loop is made once. -/
namespace FixCli.Session
open Lib Codec Store

def lookupOp : StoreOp → Bool
  | .loadCommand _ | .loadOutboundRange _ | .loadInbound _ | .loadTransmission _ => true
  | _ => false

def quietEvent : Event → Prop
  | .stored op answer => lookupOp op = true ∧ ∀ error, answer = .error error → ∃ text, error = .backend text
  | .logged _ | .replied _ => True
  | _ => False

def heardAt (actor : Actor) (lastInbound : Nat) : Actor := {actor with lastInbound := lastInbound}

structure Quiet (w v : World) : Prop where
  actor : ∃ lastInbound, v.toActor = heardAt w.toActor lastInbound
  journal : v.journal = w.journal
  trace : ∃ new, v.trace = new ++ w.trace ∧ ∀ event ∈ new, quietEvent event

namespace Quiet

instance : Std.Refl Quiet := ⟨fun w => ⟨⟨w.lastInbound,rfl⟩,rfl,[],rfl,by simp⟩⟩

instance : IsTrans World Quiet where
  trans := by
    intro a b d h g
    obtain ⟨one,hone⟩ := h.actor
    obtain ⟨two,htwo⟩ := g.actor
    obtain ⟨first,hfirst,quietFirst⟩ := h.trace
    obtain ⟨second,hsecond,quietSecond⟩ := g.trace
    refine ⟨⟨two,by rw [htwo,hone]; rfl⟩,g.journal.trans h.journal,second ++ first,
      by rw [hsecond,hfirst,List.append_assoc],?_⟩
    intro event mem
    rcases List.mem_append.mp mem with newer | older
    · exact quietSecond event newer
    · exact quietFirst event older

theorem tick (w : World) (n : Nat) : Quiet w {w with tick := n} := ⟨⟨w.lastInbound,rfl⟩,rfl,[],rfl,by simp⟩

theorem event (w : World) (n : Nat) (event : Event) (quiet : quietEvent event) :
    Quiet w {w with trace := event :: w.trace, tick := n} :=
  ⟨⟨w.lastInbound,rfl⟩,rfl,[event],rfl,fun _ mem => by rwa [List.mem_singleton.mp mem]⟩

theorem arrived (c : Ctx) (w : World) : Quiet w (arrivedAt c w) := ⟨⟨_,rfl⟩,rfl,[],rfl,by simp⟩

section

variable {w v : World} (h : Quiet w v)
include h

theorem same {α : Type} (f : Actor → α) (deaf : ∀ actor t, f (heardAt actor t) = f actor) :
    f v.toActor = f w.toActor := by
  obtain ⟨lastInbound,actor⟩ := h.actor
  rw [actor,deaf]

theorem phase : v.phase = w.phase := h.same Actor.phase fun _ _ => rfl
theorem nextOut : v.nextOut = w.nextOut := h.same Actor.nextOut fun _ _ => rfl
theorem nextIn : v.nextIn = w.nextIn := h.same Actor.nextIn fun _ _ => rfl
theorem nextEvent : v.nextEvent = w.nextEvent := h.same Actor.nextEvent fun _ _ => rfl
theorem gapBuffer : v.gapBuffer = w.gapBuffer := h.same Actor.gapBuffer fun _ _ => rfl

theorem sends {p : List SendPath} : Sends p w v := by
  obtain ⟨new,trace,quiet⟩ := h.trace
  refine ⟨h.phase,h.nextIn,h.nextEvent,h.gapBuffer,by rw [h.journal]; exact .refl _,new,trace,?_⟩
  intro event mem
  have here := quiet event mem
  cases event with
  | stored op answer =>
    have lookup := here.1
    cases op <;> first | rfl | cases lookup
  | logged _ | replied _ => trivial
  | wrote _ _ _ | phaseChanged _ | transportClosed | protocolError _ | expecting _ => cases here

end

end Quiet

section

variable {c : Ctx} {α : Type}

open Prog

theorem lookupAnswer {op : StoreOp} (lookup : lookupOp op = true) (j : Journal) :
    (∃ reply, (apply j op).1 = .ok reply) ∧ (apply j op).2 = j := by
  cases op <;> first | exact ⟨⟨_,rfl⟩,rfl⟩ | cases lookup

theorem quietLookup {op : StoreOp} (lookup : lookupOp op = true) : Moves Quiet (storeApply c op) := by
  intro w
  obtain ⟨⟨reply,answer⟩,kept⟩ := lookupAnswer lookup w.journal
  have after : Quiet w (applied op w) :=
    ⟨⟨w.lastInbound,rfl⟩,kept,[.stored op (.ok reply)],by simp only [applied,answer]; rfl,
      fun _ mem => by rw [List.mem_singleton.mp mem]; exact ⟨lookup,fun _ bad => nomatch bad⟩⟩
  unfold storeApply
  cases c.env.storeFault w.tick with
  | none => simpa only [answer] using after
  | refused text => exact .event w _ (.stored op _) ⟨lookup,fun _ same => ⟨text,by cases same; rfl⟩⟩
  | lost text => exact after
  | crashBefore => exact .tick w _
  | crashAfter => exact after

theorem quietPossdup (replay : ParsedMessage) (msgSeqNum : Nat) :
    Moves Quiet (verifyPossdup c replay msgSeqNum) := by
  refine Moves.bind (Moves.ofExcept _) fun _ => Moves.bind (quietLookup rfl) fun reply => ?_
  split
  · exact Moves.ofExcept _
  · exact Moves.stop _

end

structure Sequenced (c : Ctx) (frame : Bytes) (message : ParsedMessage) (msgSeqNum : Nat) : Prop where
  parsed : parseInbound c frame = .ok message
  sequence : requiredU64 message 34 = .ok msgSeqNum

theorem Sequenced.unique {c : Ctx} {frame : Bytes} {message other : ParsedMessage} {n k : Nat}
    (h : Sequenced c frame message n) (g : Sequenced c frame other k) : other = message ∧ k = n := by
  have same : message = other := Except.ok.inj (h.parsed.symm.trans g.parsed)
  subst same
  exact ⟨rfl,Except.ok.inj (g.sequence.symm.trans h.sequence)⟩

def typeLogon (message : ParsedMessage) : Prop := message.msgType = some (ascii "A")

structure InboundRules (c : Ctx) (frame : Bytes) (Before Head After Failed : World → Prop)
    (Ready : Bytes → ParsedMessage → Nat → World → Prop) : Prop where
  quiet : ∀ w v, Quiet w v → Before w → Before v
  beforeFails : ∀ w, Before w → Failed w
  headFails : ∀ w, Head w → Failed w
  headAfter : ∀ w, Head w → After w
  readyFails : ∀ f m n w, Ready f m n w → Failed w
  replayed : ∀ message msgSeqNum w, Sequenced c frame message msgSeqNum → Before w →
    msgSeqNum < w.nextIn → possDup message = true → After w
  ahead : ∀ message msgSeqNum, Sequenced c frame message msgSeqNum →
    Prog.Meets (fun w => Before w ∧ w.nextIn < msgSeqNum) (bufferGap c msgSeqNum frame)
      (fun _ => After) (fun _ => Failed)
  behind : ∀ message msgSeqNum, Sequenced c frame message msgSeqNum → possDup message = false →
    Prog.Meets (fun w => Before w ∧ msgSeqNum < w.nextIn) (realign c msgSeqNum)
      (fun _ => Ready frame message msgSeqNum) (fun _ => Failed)
  expected : ∀ message msgSeqNum w, Sequenced c frame message msgSeqNum → Before w → w.nextIn = msgSeqNum →
    Ready frame message msgSeqNum w
  awaited : ∀ f m n w, Ready f m n w → w.nextIn = n
  commit : ∀ f m n e, Sequenced c f m n →
    Prog.Meets (fun w => Ready f m n w ∧ inboundChecks c w.nextOut n n m = .ok e) (commitChecked c m n f e)
      (fun _ => Head) (fun _ => Failed)
  skip : ∀ w, Head w → Head {w with gapBuffer := w.gapBuffer.keepKeys (fun sequence => w.nextIn ≤ sequence)}
  take : ∀ w f, Head w → w.gapBuffer[w.nextIn]? = some f →
    ∃ m, Sequenced c f m w.nextIn ∧ Ready f m w.nextIn {w with gapBuffer := w.gapBuffer.erase w.nextIn}
  recovered : ∀ w, Head w → w.phase = .recovering → w.gapBuffer.isEmpty = true →
    After {w with phase := .established, trace := .phaseChanged .established :: w.trace}

namespace InboundRules

variable {c : Ctx} {frame : Bytes} {Before Head After Failed : World → Prop}
  {Ready : Bytes → ParsedMessage → Nat → World → Prop}

open Prog

theorem commits (rules : InboundRules c frame Before Head After Failed Ready) {f : Bytes} {m : ParsedMessage}
    {n : Nat} (sequenced : Sequenced c f m n) :
    Meets (Ready f m n) (commitExpected c m f) (fun _ => Head) (fun _ => Failed) := by
  intro w ready
  rw [commitExpectedRun f sequenced.sequence (rules.awaited f m n w ready)]
  cases checks : inboundChecks c w.nextOut n n m with
  | error halt => exact rules.readyFails f m n w ready
  | ok expected => exact rules.commit f m n expected sequenced w ⟨ready,checks⟩

theorem drains (rules : InboundRules c frame Before Head After Failed Ready) (fuel : Nat) :
    Meets Head (drain c fuel) (fun _ => Head) (fun _ => Failed) := by
  induction fuel with
  | zero => exact Meets.pure fun _ h => h
  | succ fuel ih =>
    refine Meets.bind (Meets.change rules.skip) fun _ => Meets.bind (Q := fun w v => Head v ∧ w = v)
      (Meets.state fun w h => ⟨h,rfl⟩) fun w => ?_
    cases next : w.gapBuffer[w.nextIn]? with
    | none => exact Meets.pure fun _ h => h.1
    | some f =>
      have taken : Meets (fun v => Head v ∧ w = v)
          (Prog.change fun w => {w with gapBuffer := w.gapBuffer.erase w.nextIn} : Act Unit)
          (fun _ v => ∃ m, Sequenced c f m w.nextIn ∧ Ready f m w.nextIn v) (fun _ => Failed) := by
        refine Meets.change ?_
        rintro v ⟨after,rfl⟩
        exact rules.take w f after next
      refine Meets.bind taken fun _ => Meets.bind (Q := fun m v => Sequenced c f m w.nextIn ∧
        Ready f m w.nextIn v) (Meets.ofExcept ?_ ?_) fun m => ?_
      · rintro message parsed v ⟨m,sequenced,ready⟩
        have same := parsed.symm.trans sequenced.parsed
        cases same
        exact ⟨sequenced,ready⟩
      · rintro halt failed v ⟨m,sequenced,ready⟩
        rw [sequenced.parsed] at failed
        cases failed
      · refine Meets.bind (Meets.each fun v h => ?_) fun _ => ih
        intro u same
        cases same
        exact rules.commits h.1 v h.2

theorem settles (rules : InboundRules c frame Before Head After Failed Ready) :
    Meets Head (do drainBuffer c; endRecovery) (fun _ => After) (fun _ => Failed) := by
  refine Meets.bind (Q := fun _ => Head) (Meets.bind (Q := fun _ => Head) (Meets.state fun _ h => h)
    fun w => rules.drains _) fun _ => Meets.bind (Q := fun w v => Head v ∧ w = v)
      (Meets.state fun w h => ⟨h,rfl⟩) fun w => ?_
  split
  · rename_i ended
    refine Meets.change ?_
    rintro v ⟨head,rfl⟩
    exact rules.recovered w head ended.1 ended.2
  · exact Meets.pure fun _ h => rules.headAfter _ h.1

theorem accepts (rules : InboundRules c frame Before Head After Failed Ready) {m : ParsedMessage} {n : Nat}
    (sequenced : Sequenced c frame m n) :
    Meets (fun w => Before w ∧ ¬ w.nextIn < n ∧ ¬ (n < w.nextIn ∧ possDup m = true))
      (acceptFrame c m n frame) (fun _ => After) (fun _ => Failed) := by
  have realigns : Meets (fun w => Before w ∧ ¬ w.nextIn < n ∧ ¬ (n < w.nextIn ∧ possDup m = true))
      (realignIfLow c n) (fun _ => Ready frame m n) (fun _ => Failed) := by
    rintro w ⟨before,notAhead,notReplay⟩
    simp only [realignIfLow,bindRun,stateRun,iteRun]
    by_cases low : n < w.nextIn
    · have original : possDup m = false := by simpa [low] using notReplay
      rw [if_pos low]
      exact rules.behind m n sequenced original w ⟨before,low⟩
    · rw [if_neg low]
      exact rules.expected m n w sequenced before (by omega)
  exact Meets.bind realigns fun _ => Meets.bind (rules.commits sequenced) fun _ => rules.settles

theorem verifies (rules : InboundRules c frame Before Head After Failed Ready) {m : ParsedMessage} {n : Nat}
    (sequenced : Sequenced c frame m n) :
    Meets (fun w => Before w ∧ n < w.nextIn ∧ possDup m = true) (verifyPossdup c m n)
      (fun _ => After) (fun _ => Failed) := by
  rintro w ⟨before,low,replay⟩
  have moved := quietPossdup (c := c) m n w
  have kept := rules.quiet w _ moved before
  have nextIn := moved.nextIn
  split
  · rename_i u v run
    rw [run] at kept nextIn
    exact rules.replayed m n v sequenced kept (lt_of_lt_of_eq low nextIn.symm) replay
  · rename_i halt v run
    rw [run] at kept
    exact rules.beforeFails v kept

theorem handles (rules : InboundRules c frame Before Head After Failed Ready) :
    Meets Before (handleInbound c frame) (fun _ => After) (fun _ => Failed) := by
  intro w before
  have arrived := rules.quiet w _ (.arrived c w) before
  cases parsed : parseInbound c frame with
  | error halt => rw [handleUnparsed parsed]; exact rules.beforeFails w before
  | ok message =>
    cases sequence : requiredU64 message 34 with
    | error error => rw [handleUnsequenced parsed sequence]; exact rules.beforeFails _ arrived
    | ok msgSeqNum =>
      have shape : Sequenced c frame message msgSeqNum := ⟨parsed,sequence⟩
      rw [handleSequenced parsed sequence,sequenced]
      by_cases ahead : (arrivedAt c w).nextIn < msgSeqNum
      · rw [if_pos ahead]
        exact rules.ahead message msgSeqNum shape _ ⟨arrived,ahead⟩
      · rw [if_neg ahead]
        by_cases replay : msgSeqNum < (arrivedAt c w).nextIn ∧ possDup message = true
        · rw [if_pos replay]
          exact rules.verifies shape _ ⟨arrived,replay⟩
        · rw [if_neg replay]
          exact rules.accepts shape _ ⟨arrived,ahead,replay⟩

theorem frames (rules : InboundRules c frame Before Head After Failed Ready) :
    Meets Before (handleFrame c frame) (fun _ => After) (fun _ => Failed) :=
  Meets.bind (Q := fun _ => Before) (Meets.change fun w h => rules.quiet w _ (.event w _ _ trivial) h)
    fun _ => rules.handles

end InboundRules
end FixCli.Session
