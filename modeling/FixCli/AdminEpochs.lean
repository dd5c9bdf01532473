import FixCli.Ledger
import FixCli.Lib.Mint
import FixCli.Planner
import FixCli.SessionCarry
import Mathlib.Data.Prod.Lex

/-! The administrative keys over the epochs of a journal. A key carries the event
counter and the outbound counter; taken in this order they only ever move forward,
through resets and realignments too, so that the keys still to come are free of
whatever the actor journaled itself. -/
namespace FixCli.Session
open Lib Codec Store

def adminKinds : List Bytes :=
  [ascii "logon", ascii "resend-request", ascii "heartbeat", ascii "test-request", ascii "logout"]

theorem adminPairKind {requestId fingerprint : Bytes} {o e : Nat} (pair : AdminPair requestId fingerprint o e) :
    ∃ kind ∈ adminKinds, requestId = adminKey kind o e := by
  cases pair <;> exact ⟨_,by simp [adminKinds],rfl⟩

def stamp (nextOut nextEvent : Nat) : Nat ×ₗ Nat := toLex (nextEvent,nextOut)

def stampOf (j : Journal) : Nat ×ₗ Nat := stamp j.nextOut j.nextEvent

def adminName (kind : Bytes) (at' : Nat ×ₗ Nat) : Bytes := adminKey kind (ofLex at').2 (ofLex at').1

theorem stampLe {o e p d : Nat} : stamp o e ≤ stamp p d ↔ e < d ∨ e = d ∧ o ≤ p := Prod.Lex.toLex_le_toLex

theorem stampLt {o e p d : Nat} : stamp o e < stamp p d ↔ e < d ∨ e = d ∧ o < p := Prod.Lex.toLex_lt_toLex

theorem adminNameStamp (kind other : Bytes) (s t : Nat ×ₗ Nat) (same : adminName kind s = adminName other t) :
    s = t := by
  obtain ⟨-,out,event⟩ := adminKeyInjective same
  exact Prod.ext event out

theorem stampForward {j k : Journal} {op : StoreOp} (effect : Effect j op k) : stampOf j ≤ stampOf k := by
  cases effect with
  | none => exact le_refl _
  | outbound _ _ => exact stampLe.mpr (.inr ⟨rfl,Nat.le_succ _⟩)
  | written _ _ _ | transmission _ | transmissionWritten _ => exact le_refl _
  | inbound _ _ _ | resync _ _ | reset => exact stampLe.mpr (.inl (Nat.lt_succ_self _))

def adminCommits (trace : List Event) : List (OutboundCommit × Except StoreError StoreReply) :=
  trace.filterMap fun event => match event with
    | .stored (.commitOutbound commit) answer => if commit.clOrdId = [] then some (commit,answer) else none
    | _ => none

def journaledKeys (trace : List Event) : List Bytes :=
  (adminCommits trace).filterMap fun pair => match pair.2 with
    | .ok _ => some pair.1.requestId
    | .error _ => none

def administrative : Event → Prop
  | .stored (.commitOutbound commit) _ => commit.clOrdId = []
  | _ => False

theorem adminCommitsPlain (new : List Event) {trace : List Event} (plain : ∀ event ∈ new, ¬ administrative event) :
    adminCommits (new ++ trace) = adminCommits trace := by
  have none : adminCommits new = [] := by
    refine List.filterMap_eq_nil_iff.mpr fun event mem => ?_
    have here := plain event mem
    cases event with
    | stored op answer =>
      cases op with
      | commitOutbound commit => exact if_neg here
      | _ => rfl
    | _ => rfl
  have split : adminCommits (new ++ trace) = adminCommits new ++ adminCommits trace := List.filterMap_append
  rw [split,none,List.nil_append]

theorem adminCommitsOwn {commit : OutboundCommit} (own : commit.clOrdId = [])
    (answer : Except StoreError StoreReply) (trace : List Event) :
    adminCommits (.stored (.commitOutbound commit) answer :: trace) = (commit,answer) :: adminCommits trace := by
  simp [adminCommits,own]

def answeredBy (taken : Bytes → Prop) (commit : OutboundCommit) : Except StoreError StoreReply → Prop
  | .ok reply => reply = .command (journaledCommand commit)
  | .error (.backend _) => True
  | .error (.idempotencyConflict _) => ∃ fingerprint, taken fingerprint
  | .error _ => False

def Free (taken : Bytes → Prop) (j : Journal) : Prop :=
  ∀ kind ∈ adminKinds, ∀ o e, stampOf j ≤ stamp o e → ∀ record : CommandRecord,
    j.commands[adminKey kind o e]? = some record → taken record.fingerprint

structure Settled (taken : Bytes → Prop) (s : Shared) : Prop where
  ledger : Ledger s.journal
  free : Free taken s.journal
  spent : Spent adminName (stampOf s.journal) (journaledKeys s.trace)
  answered : ∀ pair ∈ adminCommits s.trace, answeredBy taken pair.1 pair.2

def Harmless (taken : Bytes → Prop) (j : Journal) : StoreOp → Prop
  | .commitOutbound commit =>
    (commit.clOrdId = [] → commit.msgSeqNum = j.nextOut ∧ ¬ taken commit.fingerprint ∧
      ∃ kind ∈ adminKinds, commit.requestId = adminKey kind j.nextOut j.nextEvent) ∧
    ∀ kind ∈ adminKinds, ∀ o e, commit.requestId = adminKey kind o e →
      taken commit.fingerprint ∨ stamp o e ≤ stampOf j
  | _ => True

theorem settledFresh (taken : Bytes → Prop) : Settled taken fresh :=
  ⟨ledgerEmpty,fun _ _ _ _ _ _ found => by simp [fresh,Journal.empty] at found,.none,
    fun _ mem => by simp [fresh,adminCommits] at mem⟩

section

variable {taken : Bytes → Prop} {c : Ctx}

theorem Free.effect {j k : Journal} {op : StoreOp} (h : Free taken j) (ledger : Ledger j)
    (harmless : Harmless taken j op) (effect : Effect j op k) : Free taken k := by
  intro kind known o e ahead record found
  have before : stampOf j ≤ stamp o e := (stampForward effect).trans ahead
  cases effect with
  | none | transmission _ | transmissionWritten _ | inbound _ _ _ | resync _ _ | reset =>
    exact h kind known o e before record found
  | @outbound commit _ _ =>
    simp only [withOutbound,Std.ExtTreeMap.getElem?_insert] at found
    split at found
    · rename_i own
      cases found
      rcases harmless.2 kind known o e (by simpa using own) with planted | behind
      · exact planted
      · have gone : stampOf j < stampOf (withOutbound j commit) := stampLt.mpr (.inr ⟨rfl,Nat.lt_succ_self _⟩)
        exact absurd (gone.trans_le (ahead.trans behind)) (lt_irrefl _)
    · exact h kind known o e before record found
  | @written mark command outbound here _ _ =>
    have key : command.requestId = mark.requestId := ledger.keyed _ _ here
    simp only [withWritten,Std.ExtTreeMap.getElem?_insert] at found
    split at found
    · rename_i own
      cases found
      have same : mark.requestId = adminKey kind o e := key ▸ (by simpa using own)
      exact h kind known o e before command (same ▸ here)
    · exact h kind known o e before record found

theorem Settled.finds {j : Journal} (free : Free taken j) {commit : OutboundCommit}
    (harmless : Harmless taken j (.commitOutbound commit)) (own : commit.clOrdId = []) :
    (∃ fingerprint, taken fingerprint ∧
        commitOutbound j commit = (.error (.idempotencyConflict commit.requestId),j)) ∨
      commitOutbound j commit = (.ok (.command (journaledCommand commit)),withOutbound j commit) := by
  obtain ⟨expected,untaken,kind,known,key⟩ := harmless.1 own
  cases found : j.commands[commit.requestId]? with
  | none => exact .inr (commitOutboundFresh found expected)
  | some existing =>
    have planted := free kind known _ _ (le_refl _) existing (key ▸ found)
    refine .inl ⟨_,planted,?_⟩
    have differs : existing.fingerprint ≠ commit.fingerprint := fun same => untaken (same ▸ planted)
    simp only [commitOutbound,found,if_pos differs]

theorem Settled.applied {w : World} (h : Settled taken w.toShared) (op : StoreOp)
    (harmless : Harmless taken w.journal op) : Settled taken (applied op w).toShared := by
  have effect := effectOf w.journal op
  have ledger : Ledger (apply w.journal op).2 := h.ledger.effect effect
  have free : Free taken (apply w.journal op).2 := h.free.effect h.ledger harmless effect
  have plainly (plain : ¬ administrative (.stored op (apply w.journal op).1)) :
      Settled taken (Session.applied op w).toShared := by
    have same : adminCommits (Session.applied op w).trace = adminCommits w.trace :=
      adminCommitsPlain [_] (by simpa using plain)
    refine ⟨ledger,free,?_,fun pair mem => h.answered pair (same ▸ mem)⟩
    rw [journaledKeys,same]
    exact h.spent.forward (stampForward effect)
  cases op with
  | commitOutbound commit =>
    by_cases own : commit.clOrdId = []
    · have commits := adminCommitsOwn own (apply w.journal (.commitOutbound commit)).1 w.trace
      have trace : adminCommits (Session.applied (.commitOutbound commit) w).trace = _ := commits
      obtain ⟨-,-,kind,-,key⟩ := harmless.1 own
      rcases Settled.finds h.free harmless own with ⟨fingerprint,planted,run⟩ | run
      · have answer : (apply w.journal (.commitOutbound commit)).1 =
            .error (.idempotencyConflict commit.requestId) := congrArg Prod.fst run
        rw [answer] at trace
        refine ⟨ledger,free,?_,fun pair mem => ?_⟩
        · rw [journaledKeys,trace]
          exact h.spent.forward (stampForward effect)
        · rw [trace] at mem
          rcases List.mem_cons.mp mem with rfl | older
          · exact ⟨fingerprint,planted⟩
          · exact h.answered pair older
      · have answer : (apply w.journal (.commitOutbound commit)).1 = .ok (.command (journaledCommand commit)) :=
          congrArg Prod.fst run
        have after : (apply w.journal (.commitOutbound commit)).2 = withOutbound w.journal commit :=
          congrArg Prod.snd run
        have gone : stampOf w.journal < stampOf (apply w.journal (.commitOutbound commit)).2 := by
          rw [after]
          exact stampLt.mpr (.inr ⟨rfl,Nat.lt_succ_self _⟩)
        rw [answer] at trace
        refine ⟨ledger,free,?_,fun pair mem => ?_⟩
        · have minted := h.spent.mint adminNameStamp kind (le_refl _) gone
          rw [journaledKeys,trace]
          change Spent adminName _ (commit.requestId :: journaledKeys w.trace)
          rw [key]
          exact minted
        · rw [trace] at mem
          rcases List.mem_cons.mp mem with rfl | older
          · exact rfl
          · exact h.answered pair older
    · exact plainly own
  | _ => exact plainly fun bad => bad

theorem Settled.plain {j : Journal} {trace : List Event} {tick other : Nat}
    (h : Settled taken ⟨j,trace,tick⟩) (new : List Event) (plain : ∀ event ∈ new, ¬ administrative event) :
    Settled taken ⟨j,new ++ trace,other⟩ := by
  have same : adminCommits (new ++ trace) = adminCommits trace := adminCommitsPlain new plain
  refine ⟨h.ledger,h.free,?_,fun pair mem => h.answered pair (same ▸ mem)⟩
  rw [journaledKeys,same]
  exact h.spent

theorem Settled.stores {w : World} (h : Settled taken w.toShared) (op : StoreOp)
    (harmless : Harmless taken w.journal op) : Settled taken (storeApply c op w).2.toShared := by
  have after := h.applied op harmless
  have untouched : Settled taken ({w with tick := w.tick + 1} : World).toShared := h.plain [] (by simp)
  have refused (text : Bytes) :
      Settled taken ({w with
        trace := .stored op (.error (.backend text)) :: w.trace, tick := w.tick + 1} : World).toShared := by
    cases op with
    | commitOutbound commit =>
      by_cases own : commit.clOrdId = []
      · have trace := adminCommitsOwn own (.error (.backend text)) w.trace
        refine ⟨h.ledger,h.free,by rw [journaledKeys,trace]; exact h.spent,fun pair mem => ?_⟩
        rw [trace] at mem
        rcases List.mem_cons.mp mem with rfl | older
        · trivial
        · exact h.answered pair older
      · exact h.plain [_] (by simpa [administrative] using own)
    | _ => exact h.plain [_] (by simp [administrative])
  unfold storeApply
  cases c.env.storeFault w.tick with
  | none => cases (apply w.journal op).1 <;> exact after
  | refused text => exact refused text
  | lost text => exact after
  | crashBefore => exact untouched
  | crashAfter => exact after

theorem Settled.idle {w v : World} (h : Settled taken w.toShared) (moved : Idle w v) : Settled taken v.toShared := by
  obtain ⟨new,trace,idle⟩ := moved.trace
  have plain : ∀ event ∈ new, ¬ administrative event := by
    intro event mem own
    have here := idle event mem
    cases event with
    | stored op answer =>
      cases op with
      | commitOutbound commit => rcases here.1 with aside | aside <;> cases aside
      | _ => cases own
    | _ => cases own
  have same : adminCommits v.trace = adminCommits w.trace := by rw [trace]; exact adminCommitsPlain new plain
  have stamps : stampOf v.journal = stampOf w.journal := by
    simp only [stampOf,moved.outbound.1,moved.inbound.2]
  refine ⟨h.ledger.books moved.outbound.2.1 moved.outbound.2.2 moved.outbound.1,?_,?_,
    fun pair mem => h.answered pair (same ▸ mem)⟩
  · unfold Free
    rw [stamps,moved.outbound.2.1]
    exact h.free
  · rw [stamps,journaledKeys,same]
    exact h.spent

end
end FixCli.Session
