import FixCli.Ledger
import FixCli.Lib.Trace
import FixCli.SessionCarry

/-! The counters that the actor caches against those of its journal. They agree
between any two inputs as long as no command on record answers an administrative
send, which takes over whatever number the answer carries. -/
namespace FixCli.Session
open Lib Codec Store

structure InStep (w : World) : Prop where
  nextOut : w.nextOut = w.journal.nextOut
  nextIn : w.nextIn = w.journal.nextIn
  nextEvent : w.nextEvent = w.journal.nextEvent

def Unplanted (j : Journal) : Prop :=
  ∀ requestId fingerprint o e, AdminPair requestId fingerprint o e → j.nextOut ≤ o → j.nextEvent ≤ e →
    ∀ record : CommandRecord, j.commands[requestId]? = some record → record.fingerprint = fingerprint →
      o ≤ record.msgSeqNum + 1

def PlantsNothing (conn : Conn) (input : Input) : Prop :=
  ∀ request, input = .command (.submit request) → conn.world.phase = .established →
    ∀ o e, AdminPair request.requestId request.fingerprint o e → conn.world.nextEvent ≤ e →
      o ≤ conn.world.nextOut + 1

structure Books (c : Ctx) (w : World) : Prop where
  nextIn : w.nextIn = w.journal.nextIn
  nextEvent : w.nextEvent = w.journal.nextEvent
  unplanted : Unplanted w.journal
  ledger : Ledger w.journal
  buffered : Buffered c w
  matched : Matched w

structure Synced (c : Ctx) (w : World) : Prop extends Books c w where
  nextOut : w.nextOut = w.journal.nextOut

structure Owed (c : Ctx) (requestId : Bytes) (n : Nat) (w : World) : Prop where
  books : Books c w
  command : ∃ command, w.journal.commands[requestId]? = some command ∧ command.msgSeqNum = n
  late : w.journal.nextOut ≤ n + 1

section

variable {w v : World} {c : Ctx}

theorem unplantedSame {j k : Journal} (h : Unplanted j) (nextOut : k.nextOut = j.nextOut)
    (nextEvent : k.nextEvent = j.nextEvent) (commands : k.commands = j.commands) : Unplanted k := by
  unfold Unplanted
  rw [nextOut,nextEvent,commands]
  exact h

theorem Books.still (h : Books c w) (moved : Still w v) : Books c v where
  nextIn := by rw [moved.nextIn,moved.inbound.1,h.nextIn]
  nextEvent := by rw [moved.nextEvent,moved.inbound.2,h.nextEvent]
  unplanted := unplantedSame h.unplanted moved.outbound.1 moved.inbound.2 moved.outbound.2.1
  ledger := h.ledger.books moved.outbound.2.1 moved.outbound.2.2 moved.outbound.1
  buffered := h.buffered.same moved.gapBuffer
  matched := moved.clean h.matched

theorem Books.advanced {n : Nat} (h : Books c w) (nextOut : w.journal.nextOut = n) :
    Synced c {w with nextOut := n} :=
  ⟨⟨h.nextIn,h.nextEvent,h.unplanted,h.ledger,h.buffered.same rfl,h.matched⟩,nextOut.symm⟩

theorem Synced.still (h : Synced c w) (moved : Still w v) : Synced c v :=
  ⟨h.toBooks.still moved,by rw [moved.nextOut,moved.outbound.1,h.nextOut]⟩

theorem Owed.still {requestId : Bytes} {n : Nat} (h : Owed c requestId n w) (moved : Still w v) :
    Owed c requestId n v :=
  ⟨h.books.still moved,by rw [moved.outbound.2.1]; exact h.command,by rw [moved.outbound.1]; exact h.late⟩

end

section

variable {c : Ctx} {α : Type}

open Prog

theorem Owed.marked {w : World} {requestId : Bytes} {n : Nat} {reply : StoreReply} (h : Owed c requestId n w)
    (answer : (apply w.journal (.markOutboundWritten ⟨requestId,n⟩)).1 = .ok reply) :
    (∃ command, reply = .command command ∧ command.msgSeqNum = n) ∧
      Books c (applied (.markOutboundWritten ⟨requestId,n⟩) w) ∧
      (applied (.markOutboundWritten ⟨requestId,n⟩) w).journal.nextOut = n + 1 := by
  have ledger := ledgerApply h.books.ledger (.markOutboundWritten ⟨requestId,n⟩)
  obtain ⟨command,outbound,found,number,sent,reply,after⟩ := markOutboundWrittenSource answer
  have journal : (applied (.markOutboundWritten ⟨requestId,n⟩) w).journal = withWritten w.journal command outbound :=
    after
  have key : command.requestId = requestId := h.books.ledger.keyed requestId command found
  have below := (h.books.ledger.below n outbound sent).2
  refine ⟨⟨_,reply,number⟩,⟨by rw [journal]; exact h.books.nextIn,by rw [journal]; exact h.books.nextEvent,
    ?_,ledger,h.books.buffered.same rfl,?_⟩,?_⟩
  · rw [journal]
    intro other fingerprint o e pair out event record here same
    simp only [withWritten,Std.ExtTreeMap.getElem?_insert] at here
    split at here
    · rename_i isKey
      cases here
      have id : requestId = other := key ▸ (by simpa using isKey)
      subst id
      exact h.books.unplanted _ fingerprint o e pair out event command found same
    · exact h.books.unplanted other fingerprint o e pair out event record here same
  · exact List.forall_mem_cons.mpr ⟨by rw [answer]; rfl,h.books.matched⟩
  · rw [journal]
    change w.journal.nextOut = n + 1
    have late := h.late
    omega

theorem Owed.unmatched {w : World} {requestId : Bytes} {n : Nat} {error : StoreError} (h : Owed c requestId n w)
    (answer : (apply w.journal (.markOutboundWritten ⟨requestId,n⟩)).1 = .error error) :
    mismatch error = false := by
  obtain ⟨command,found,number⟩ := h.command
  simp only [apply,markOutboundWritten,found,number,ne_eq,not_true_eq_false,if_false] at answer
  split at answer <;> cases answer
  rfl

section

variable (healthy : ∀ tick, c.env.storeFault tick = .none)
include healthy

theorem matchedStore {op : StoreOp} {w : World} {halt : Halt} {v : World} (h : Matched w)
    (answered : ∀ error, (apply w.journal op).1 = .error error → mismatch error = false)
    (run : storeApply c op w = (.error halt,v)) : Matched v := by
  unfold storeApply at run
  rw [healthy w.tick] at run
  simp only at run
  split at run <;> cases run
  rename_i error answer
  refine List.forall_mem_cons.mpr ⟨?_,h⟩
  rw [answer]
  simp [matched,answered error answer]

theorem owedMarks (requestId : Bytes) (n : Nat) :
    Meets (Owed c requestId n) (storeApply c (.markOutboundWritten ⟨requestId,n⟩))
      (fun reply w => (∃ command, reply = .command command ∧ command.msgSeqNum = n) ∧
        Books c w ∧ w.journal.nextOut = n + 1) (fun _ => Matched) := by
  intro w h
  split
  · rename_i reply v run
    obtain ⟨-,answer,rfl⟩ := storeReturned run
    exact h.marked answer
  · rename_i halt v run
    exact matchedStore healthy h.books.matched (fun _ => h.unmatched) run

theorem commitOwes (commit : OutboundCommit) (actor : Actor) (number : commit.msgSeqNum = actor.nextOut)
    (harmless : ∀ o e, AdminPair commit.requestId commit.fingerprint o e → actor.nextEvent ≤ e →
      o ≤ actor.nextOut + 1) :
    Meets (fun w => Synced c w ∧ w.toActor = actor)
      (storeApply c (.commitOutbound commit))
      (fun reply w => ∃ command, reply = .command command ∧
        (Synced c w ∧ w.toActor = actor ∧ w.journal.commands[commit.requestId]? = some command ∧
            command.fingerprint = commit.fingerprint ∨
          Owed c commit.requestId command.msgSeqNum w ∧ command.msgSeqNum = commit.msgSeqNum))
      (fun _ => Matched) := by
  rintro w ⟨h,rfl⟩
  have expected : commit.msgSeqNum = w.journal.nextOut := number.trans h.nextOut
  have ledger := ledgerApply h.ledger (.commitOutbound commit)
  split
  · rename_i reply v run
    obtain ⟨-,answer,rfl⟩ := storeReturned run
    have clean : Matched (applied (.commitOutbound commit) w) :=
      List.forall_mem_cons.mpr ⟨by rw [answer]; rfl,h.matched⟩
    rcases commitOutboundSource answer with ⟨existing,found,same,rfl,after⟩ | ⟨fresh,-,rfl,after⟩
    · have journal : (applied (.commitOutbound commit) w).journal = w.journal := after
      refine ⟨existing,rfl,.inl ⟨⟨⟨?_,?_,?_,ledger,h.buffered.same rfl,clean⟩,?_⟩,rfl,?_,same⟩⟩
      · rw [journal]; exact h.nextIn
      · rw [journal]; exact h.nextEvent
      · rw [journal]; exact h.unplanted
      · rw [journal]; exact h.nextOut
      · rw [journal]; exact found
    · have journal : (applied (.commitOutbound commit) w).journal = withOutbound w.journal commit := after
      refine ⟨journaledCommand commit,rfl,.inr ⟨⟨⟨?_,?_,?_,ledger,h.buffered.same rfl,clean⟩,?_,?_⟩,rfl⟩⟩
      · rw [journal]; exact h.nextIn
      · rw [journal]; exact h.nextEvent
      · rw [journal]
        intro requestId fingerprint o e pair out event record here same
        have later : w.journal.nextOut + 1 ≤ o := out
        simp only [withOutbound,Std.ExtTreeMap.getElem?_insert] at here
        split at here
        · rename_i isKey
          cases here
          have id : commit.requestId = requestId := by simpa using isKey
          subst id
          subst same
          have bound := harmless o e pair (h.nextEvent ▸ event)
          change o ≤ commit.msgSeqNum + 1
          omega
        · exact h.unplanted requestId fingerprint o e pair (by omega) event record here same
      · exact ⟨journaledCommand commit,by rw [journal]; simp [withOutbound],rfl⟩
      · rw [journal]
        change w.journal.nextOut + 1 ≤ commit.msgSeqNum + 1
        omega
  · rename_i halt v run
    refine matchedStore healthy h.matched (fun error answer => ?_) run
    simp only [apply,commitOutbound,expected,ne_eq,not_true_eq_false,if_false] at answer
    split at answer
    · split at answer <;> cases answer
      rfl
    · cases answer

theorem syncAdmin {requestId fingerprint : Bytes} {o e : Nat} (wire : Bytes)
    (pair : AdminPair requestId fingerprint o e) :
    Meets (fun w => Synced c w ∧ w.nextOut = o ∧ w.nextEvent = e)
      (storeApply c (.commitOutbound ⟨requestId,fingerprint,[],o,wire⟩))
      (fun reply w => ∃ command, reply = .command command ∧ Owed c requestId command.msgSeqNum w)
      (fun _ => Matched) := by
  rintro u ⟨synced,rfl,rfl⟩
  refine Meets.weaken (commitOwes healthy ⟨requestId,fingerprint,[],u.nextOut,wire⟩ u.toActor rfl
    fun p d other _ => ?_) (fun _ h => h) ?_ (fun _ _ h => h) u ⟨synced,rfl⟩
  · have same := adminPairCounters pair other
    omega
  · rintro reply w ⟨command,rfl,⟨h,actor,found,same⟩ | ⟨owed,-⟩⟩
    · have out : w.journal.nextOut = u.nextOut := h.nextOut.symm.trans (congrArg Actor.nextOut actor)
      have event : w.journal.nextEvent = u.nextEvent := h.nextEvent.symm.trans (congrArg Actor.nextEvent actor)
      have bound := h.unplanted _ _ _ _ pair (Nat.le_of_eq out) (Nat.le_of_eq event) command found same
      exact ⟨command,rfl,h.toBooks,⟨command,found,rfl⟩,out ▸ bound⟩
    · exact ⟨command,rfl,owed⟩

theorem syncSubmitted {request : ApplicationRequest} {u : World} (wire : Bytes)
    (plants : ∀ o e, AdminPair request.requestId request.fingerprint o e → u.nextEvent ≤ e → o ≤ u.nextOut + 1) :
    Meets (fun w => Synced c w ∧ w.nextOut = u.nextOut ∧ w.nextEvent = u.nextEvent)
      (storeApply c (.commitOutbound ⟨request.requestId,request.fingerprint,request.clOrdId,u.nextOut,wire⟩))
      (fun reply w => ∃ command, reply = .command command ∧
        (Synced c w ∧ command.msgSeqNum < u.nextOut ∨
          Owed c request.requestId command.msgSeqNum w ∧ ¬ command.msgSeqNum < u.nextOut))
      (fun _ => Matched) := by
  rintro v ⟨synced,out,event⟩
  refine Meets.weaken (commitOwes healthy ⟨request.requestId,request.fingerprint,request.clOrdId,u.nextOut,wire⟩
    v.toActor out.symm fun o e pair later => ?_) (fun _ h => h) ?_ (fun _ _ h => h) v ⟨synced,rfl⟩
  · rw [out]
    exact plants o e pair (event ▸ later)
  · rintro reply w ⟨command,rfl,⟨kept,actor,found,-⟩ | ⟨owed,number⟩⟩
    · refine ⟨command,rfl,?_⟩
      by_cases old : command.msgSeqNum < u.nextOut
      · exact .inl ⟨kept,old⟩
      · have last : w.journal.nextOut = u.nextOut :=
          kept.nextOut.symm.trans ((congrArg Actor.nextOut actor).trans out)
        exact .inr ⟨⟨kept.toBooks,⟨command,found,rfl⟩,by omega⟩,old⟩
    · exact ⟨command,rfl,.inr ⟨owed,by rw [number]; simp⟩⟩

omit healthy in
theorem unplantedLater {j k : Journal} (h : Unplanted j) (commands : k.commands = j.commands)
    (out : j.nextOut ≤ k.nextOut) (event : j.nextEvent ≤ k.nextEvent) : Unplanted k := by
  intro requestId fingerprint o e pair late after record found same
  rw [commands] at found
  exact h requestId fingerprint o e pair (out.trans late) (event.trans after) record found same

theorem syncRealign (n : Nat) : Meets (Synced c) (realign c n) (fun _ w => Synced c w ∧ w.nextIn = n)
    (fun _ => Matched) := by
  intro w h
  by_cases phase : w.phase = .logonSent
  · rw [realignRun phase]
    have clean : Matched (desynced w n) := List.forall_mem_cons.mpr ⟨rfl,h.matched⟩
    have ledger := ledgerApply h.ledger (.resyncInbound (resyncCommit w n))
    rcases run : storeApply c (.resyncInbound (resyncCommit w n)) (desynced w n) with ⟨halt | reply,v⟩
    · refine matchedStore healthy clean (fun error answer => ?_) run
      change (resyncInbound w.journal (resyncCommit w n)).1 = _ at answer
      simp only [resyncInbound,resyncCommit,h.nextEvent,ne_eq,not_true_eq_false,if_false] at answer
      split at answer <;> cases answer
      rfl
    · obtain ⟨-,answer,rfl⟩ := storeReturned run
      obtain ⟨-,-,-,after⟩ := resyncInboundSource answer
      have journal : (realigned n (applied (.resyncInbound (resyncCommit w n)) (desynced w n))).journal =
          withResync w.journal (resyncCommit w n) := after
      refine ⟨⟨⟨?_,?_,?_,ledger,h.buffered.same rfl,?_⟩,?_⟩,rfl⟩
      · rw [journal]; rfl
      · rw [journal]; exact congrArg (· + 1) h.nextEvent
      · rw [journal]; exact unplantedLater h.unplanted rfl (Nat.le_refl _) (Nat.le_succ _)
      · refine List.forall_mem_cons.mpr ⟨rfl,List.forall_mem_cons.mpr ⟨?_,clean⟩⟩
        rw [answer]
        rfl
      · rw [journal]; exact h.nextOut
  · rw [realignRefused phase]
    exact h.matched

theorem syncCommit (w : World) (f : Bytes) (e : Expected) (h : Synced c w) :
    match storeApply c (.commitInbound (inboundCommit w w.nextIn f e)) w with
    | (.ok _, v) => Synced c (counted e v)
    | (.error _, v) => Matched v := by
  have ledger := ledgerApply h.ledger (.commitInbound (inboundCommit w w.nextIn f e))
  rcases run : storeApply c (.commitInbound (inboundCommit w w.nextIn f e)) w with ⟨halt | reply,v⟩
  · refine matchedStore healthy h.matched (fun error answer => ?_) run
    simp only [apply,commitInbound,inboundCommit,h.nextIn,h.nextEvent,ne_eq,not_true_eq_false,if_false] at answer
    split at answer <;> cases answer
    rfl
  · obtain ⟨-,answer,rfl⟩ := storeReturned run
    obtain ⟨-,-,-,-,after⟩ := commitInboundSource answer
    have journal : (counted e (applied (.commitInbound (inboundCommit w w.nextIn f e)) w)).journal =
        withInbound w.journal (inboundCommit w w.nextIn f e) := after
    refine ⟨⟨?_,?_,?_,ledger,h.buffered.same rfl,?_⟩,?_⟩
    · rw [journal]; rfl
    · rw [journal]; exact congrArg (· + 1) h.nextEvent
    · rw [journal]; exact unplantedLater h.unplanted rfl (Nat.le_refl _) (Nat.le_succ _)
    · refine List.forall_mem_cons.mpr ⟨rfl,List.forall_mem_cons.mpr ⟨?_,h.matched⟩⟩
      rw [answer]
      rfl
    · rw [journal]; exact h.nextOut

theorem syncCarries : Carries c (Synced c) Matched (Owed c) where
  fails := fun _ h => h.matched
  owedFails := fun _ _ _ h => h.books.matched
  idle := fun _ _ moved h => h.still moved.toStill
  owedIdle := fun _ _ _ _ moved h => h.still moved.toStill
  ends := fun _ _ moved h => moved.clean h
  buffered := fun _ h => h.buffered
  buffers := fun _ _ h inside => ⟨⟨h.nextIn,h.nextEvent,h.unplanted,h.ledger,inside,h.matched⟩,h.nextOut⟩
  admin := fun _ _ _ _ wire pair => syncAdmin healthy wire pair
  marks := fun requestId n => Meets.weaken (owedMarks healthy requestId n) (fun _ h => h)
    (fun _ _ h => ⟨h.1,h.2.1.advanced h.2.2⟩) fun _ _ h => h
  realign := syncRealign healthy
  commit := fun w f _ e _ _ h => syncCommit healthy w f e h

end

end
end FixCli.Session
