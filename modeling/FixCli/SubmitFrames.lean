import FixCli.AppendOnly
import FixCli.SharedMoves
import FixCli.SessionLoop

/-! What a submit leaves on record and on the socket, and that nothing else puts an
application's original frame there. -/
namespace FixCli.Session
open Lib Codec Store

structure Records (s t : Shared) : Prop where
  commands : ∀ requestId : Bytes, (s.journal.commands[requestId]?).isSome = true →
    (t.journal.commands[requestId]?).isSome = true
  grows : Recorded s.journal → Recorded t.journal ∧ Extends s.journal t.journal

structure Retains (s t : Shared) : Prop extends Records s t where
  frames : applicationFrames t.trace = applicationFrames s.trace

namespace Records

theorem refl (s : Shared) : Records s s := ⟨fun _ found => found,fun h => ⟨h,.refl _⟩⟩

theorem trans {r s t : Shared} (h : Records r s) (g : Records s t) : Records r t := by
  refine ⟨fun id found => g.commands id (h.commands id found),fun recorded => ?_⟩
  obtain ⟨middle,first⟩ := h.grows recorded
  obtain ⟨last,second⟩ := g.grows middle
  exact ⟨last,first.trans second⟩

theorem stored (s : Shared) (op : StoreOp) : Records s {s with journal := (apply s.journal op).2} := by
  have effect := effectOf s.journal op
  refine ⟨fun id found => ?_,fun recorded => ⟨recorded.effect effect,recorded.extends effect⟩⟩
  have inserted (key : Bytes) (record : CommandRecord) :
      ((s.journal.commands.insert key record)[id]?).isSome = true := by
    rw [Std.ExtTreeMap.getElem?_insert]
    split
    · rfl
    · exact found
  generalize (apply s.journal op).2 = k at effect ⊢
  cases effect with
  | outbound _ _ | written _ _ _ => exact inserted _ _
  | none | transmission _ | transmissionWritten _ | inbound _ _ _ | resync _ _ | reset => exact found

end Records

theorem allowsRecords : Allows (fun _ => True) Records where
  refl := .refl
  trans := fun _ _ _ => .trans
  ticks := fun s _ => ⟨(Records.refl s).commands,(Records.refl s).grows⟩
  notes := fun s _ _ => ⟨(Records.refl s).commands,(Records.refl s).grows⟩
  stores := .stored
  writes := fun s _ _ _ => ⟨(Records.refl s).commands,(Records.refl s).grows⟩

theorem allowsRetains : Allows (· ≠ .application) Retains where
  refl := fun s => ⟨.refl s,rfl⟩
  trans := fun _ _ _ h g => ⟨h.toRecords.trans g.toRecords,g.frames.trans h.frames⟩
  ticks := fun s tick => ⟨allowsRecords.ticks s tick,rfl⟩
  notes := fun s event other => by
    refine ⟨allowsRecords.notes s event other,?_⟩
    cases event <;> first | rfl | cases other
  stores := fun s op => ⟨.stored s op,rfl⟩
  writes := fun s own wire other => by
    refine ⟨allowsRecords.writes s own wire trivial,?_⟩
    cases own <;> first | rfl | exact absurd rfl other

section

variable {c : Ctx} {request : ApplicationRequest}

open Prog

theorem writeFrames (wire : Bytes) (w : World) : (writeWire c .application wire w).2.journal = w.journal ∧
    (applicationFrames (writeWire c .application wire w).2.trace = applicationFrames w.trace ∨
      applicationFrames (writeWire c .application wire w).2.trace = wire :: applicationFrames w.trace) := by
  have logged : emit (.logged (.outgoing wire)) w =
      ((.ok (),{w with trace := .logged (.outgoing wire) :: w.trace}) : Except Halt Unit × World) := rfl
  unfold writeWire
  rw [bindReturns logged,bindRun]
  unfold socketWrite
  dsimp only
  cases c.env.ioFault w.tick with
  | none | lost _ | crashAfter => exact ⟨rfl,.inr rfl⟩
  | refused _ | crashBefore => exact ⟨rfl,.inl rfl⟩

theorem commitRecorded {commit : OutboundCommit} {w v : World} {reply : StoreReply}
    (ok : storeApply c (.commitOutbound commit) w = (.ok reply,v)) :
    ∃ command, reply = .command command ∧ v.journal.commands[commit.requestId]? = some command := by
  obtain ⟨-,answer,rfl⟩ := storeReturned ok
  change ∃ command, _ ∧ ((apply w.journal (.commitOutbound commit)).2).commands[commit.requestId]? = some command
  rcases commitOutboundSource answer with ⟨existing,found,-,rfl,after⟩ | ⟨-,-,rfl,after⟩
  · exact ⟨existing,rfl,by rw [show (apply w.journal (.commitOutbound commit)).2 = w.journal from after,found]⟩
  · refine ⟨_,rfl,?_⟩
    rw [show (apply w.journal (.commitOutbound commit)).2 = withOutbound w.journal commit from after]
    simp [withOutbound]

theorem markRecorded {mark : MarkOutboundWritten} {w v : World} {reply : StoreReply} (recorded : Recorded w.journal)
    (ok : storeApply c (.markOutboundWritten mark) w = (.ok reply,v)) :
    ∃ command, reply = .command command ∧ v.journal.commands[mark.requestId]? = some command := by
  obtain ⟨-,answer,rfl⟩ := storeReturned ok
  change ∃ command, _ ∧ ((apply w.journal (.markOutboundWritten mark)).2).commands[mark.requestId]? = some command
  obtain ⟨command,outbound,found,-,-,rfl,after⟩ := markOutboundWrittenSource answer
  have key : command.requestId = mark.requestId := recorded.ledger.keyed _ _ found
  refine ⟨_,rfl,?_⟩
  rw [show (apply w.journal (.markOutboundWritten mark)).2 = withWritten w.journal command outbound from after]
  simp [withWritten,key]

theorem submitReports {w v : World} {command : CommandRecord} (recorded : Recorded w.journal)
    (ok : submitApplication c request w = (.ok command,v)) : v.journal.commands[request.requestId]? = some command := by
  have := allowsRecords.isTrans
  have := allowsRecords.isRefl
  unfold submitApplication at ok
  rw [bindReturns (stateRun w),iteRun] at ok
  split at ok
  · cases ok
  obtain ⟨_,_,first,ok⟩ := bindReturned ok
  obtain ⟨_,_,second,ok⟩ := bindReturned ok
  obtain ⟨wire,u,third,ok⟩ := bindReturned ok
  obtain ⟨reply,x,stored,ok⟩ := bindReturned ok
  have kept {α : Type} {m : Act α} (moves : Moves (Sharing Records) m) {a b : World} {r : Except Halt α}
      (run : m a = (r,b)) (before : Recorded a.journal) : Recorded b.journal := by
    have moved := moves a
    rw [run] at moved
    exact (moved.grows before).1
  have recorded := kept (Moves.ofExcept _) first recorded
  have recorded := kept (allowsRecords.advances.submitFields request) second recorded
  have recorded := kept (Moves.ofExcept _) third recorded
  have recorded := kept (allowsRecords.store _) stored recorded
  obtain ⟨answered,rfl,found⟩ := commitRecorded stored
  dsimp only at ok
  split at ok
  · cases ok
    exact found
  split at ok
  · cases ok
  · obtain ⟨_,_,fourth,ok⟩ := bindReturned ok
    have recorded := kept (allowsRecords.advances.wire trivial _) fourth recorded
    obtain ⟨reply,y,marked,ok⟩ := bindReturned ok
    obtain ⟨answered,rfl,found⟩ := markRecorded recorded marked
    cases ok
    exact found

def Framed (request : ApplicationRequest) (base : List Bytes) (halt : Option Halt) (v : World) : Prop :=
  applicationFrames v.trace = base ∨ (∃ wire, applicationFrames v.trace = wire :: base) ∧
    (v.journal.commands[request.requestId]?).isSome = true ∧ ∀ stopped, halt = some stopped → quits stopped

theorem commitFrames (n : Nat) (wire : Bytes) (base : List Bytes) :
    Meets (fun w => applicationFrames w.trace = base) (commitSubmit c request n wire)
      (fun _ => Framed request base none) (fun halt => Framed request base (some halt)) := by
  let Recorded' (w : World) : Prop :=
    (applicationFrames w.trace = base ∨ ∃ wire, applicationFrames w.trace = wire :: base) ∧
      (w.journal.commands[request.requestId]?).isSome = true
  have framed (halt : Halt) (w : World) (h : Recorded' w) (ends : quits halt) : Framed request base (some halt) w :=
    h.1.imp_right fun one => ⟨one,h.2,fun _ same => by cases same; exact ends⟩
  have done (w : World) (h : Recorded' w) : Framed request base none w :=
    h.1.imp_right fun one => ⟨one,h.2,fun _ same => by cases same⟩
  have after {α : Type} {m : Act α} (moves : Moves (Sharing Retains) m) (stops : StopsOnly quits m) :
      Meets Recorded' m (fun _ => Recorded') (fun halt => Framed request base (some halt)) := by
    intro w h
    have kept := moves w
    have ends := stops w trivial
    have later : Recorded' (m w).2 := ⟨by rw [kept.frames]; exact h.1,kept.commands _ h.2⟩
    split
    · rename_i run
      rwa [run] at later
    · rename_i run
      rw [run] at later ends
      exact framed _ _ later ends
  have writes : Meets (fun w => applicationFrames w.trace = base ∧
        (w.journal.commands[request.requestId]?).isSome = true) (writeWire c .application wire)
      (fun _ => Recorded') (fun halt => Framed request base (some halt)) := by
    rintro w ⟨same,found⟩
    obtain ⟨journal,frames⟩ := writeFrames (c := c) wire w
    have ends := quitsWire (c := c) .application wire w trivial
    have later : Recorded' (writeWire c .application wire w).2 := by
      rw [same] at frames
      exact ⟨frames.imp_right fun one => ⟨wire,one⟩,by rw [journal]; exact found⟩
    split
    · rename_i run
      rwa [run] at later
    · rename_i run
      rw [run] at later ends
      exact framed _ _ later ends
  have protests (text : Bytes) : Meets Recorded' (fail (.store text) : Act CommandRecord)
      (fun _ => Framed request base none) (fun halt => Framed request base (some halt)) :=
    fun w h => framed _ w h (.inr ⟨_,rfl,rfl⟩)
  unfold commitSubmit
  refine Meets.bind (Q := fun _ w => applicationFrames w.trace = base ∧
    (w.journal.commands[request.requestId]?).isSome = true) ?_ fun reply => ?_
  · intro w same
    have kept := (allowsRetains.store (c := c) (.commitOutbound
      ⟨request.requestId,request.fingerprint,request.clOrdId,n,wire⟩) w).frames
    split
    · rename_i run
      rw [run] at kept
      obtain ⟨command,-,found⟩ := commitRecorded run
      exact ⟨kept.trans same,by rw [found]; rfl⟩
    · rename_i run
      rw [run] at kept
      exact .inl (kept.trans same)
  split
  · split
    · exact Meets.pure fun w h => done w ⟨.inl h.1,h.2⟩
    split
    · exact fun w h => protests _ w ⟨.inl h.1,h.2⟩
    · refine Meets.bind writes fun _ => Meets.bind (after (allowsRetains.store _) (quitsStore _)) fun reply => ?_
      split
      · exact Meets.bind (Q := fun _ => Recorded') (Meets.change fun w h => h) fun _ => Meets.pure fun w h => done w h
      · exact protests _
  · exact fun w h => protests _ w ⟨.inl h.1,h.2⟩

theorem submitFrames (request : ApplicationRequest) (base : List Bytes) :
    Meets (fun w => applicationFrames w.trace = base) (submitApplication c request)
      (fun _ => Framed request base none) (fun halt => Framed request base (some halt)) := by
  have := allowsRetains.isRefl
  have := allowsRetains.isTrans
  have early {α : Type} {m : Act α} (moves : Moves (Sharing Retains) m) :
      Meets (fun w => applicationFrames w.trace = base) m (fun _ w => applicationFrames w.trace = base)
        (fun halt => Framed request base (some halt)) :=
    Meets.weaken (Meets.ofMoves (J := fun w : World => applicationFrames w.trace = base) moves
      (fun w v kept same => kept.frames.trans same) fun _ same => same) (fun _ h => h) (fun _ _ h => h)
      fun _ _ same => .inl same
  refine Meets.bind (Q := fun _ w => applicationFrames w.trace = base) (Meets.state fun _ same => same) fun u => ?_
  split
  · exact Meets.stop fun _ same => .inl same
  · exact Meets.bind (early (Moves.ofExcept _)) fun _ =>
      Meets.bind (early (allowsRetains.advances.submitFields request)) fun _ =>
        Meets.bind (early (Moves.ofExcept _)) fun wire => commitFrames _ wire _

end
end FixCli.Session
