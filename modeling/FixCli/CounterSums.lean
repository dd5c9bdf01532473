import FixCli.SessionLoop
import FixCli.StoreEffects

/-! The sums that the store and the actor form with sequence numbers. All but those ahead
of an operation count what was recorded, and stay below the number of messages and events
on record, which `Within` carries through whatever is sent. -/
namespace FixCli.Session
open Lib Codec Store

def aheadOf : StoreOp → List Nat
  | .commitInbound commit => if commit.msgType = ascii "4" then [] else [commit.msgSeqNum + 1]
  | .loadOutboundRange range => [range.stop + 1]
  | _ => []

def behindOf : StoreOp → StoreReply → List Nat
  | .commitOutbound _, .command record | .markOutboundWritten _, .command record => [record.msgSeqNum + 1]
  | .commitTransmission _, .transmission record => [record.id + 1]
  | .commitInbound commit, _ => [commit.event.id + 1]
  | .resyncInbound commit, _ => [commit.event.id + 1]
  | .resetSequences, .sequencesReset nextEvent => [nextEvent]
  | _, _ => []

def sums : Event → List Nat
  | .stored op (.ok reply) => aheadOf op ++ behindOf op reply
  | .stored op (.error _) => aheadOf op
  | _ => []

def messageRecorded : Event → Bool
  | .stored (.commitOutbound commit) (.ok (.command record)) => decide (record = journaledCommand commit)
  | .stored (.commitTransmission _) (.ok _) => true
  | _ => false

def eventRecorded : Event → Bool
  | .stored (.commitInbound _) (.ok _) | .stored (.resyncInbound _) (.ok _) | .stored .resetSequences (.ok _) => true
  | _ => false

def recorded (event : Event) : Bool := messageRecorded event || eventRecorded event

def recordings (trace : List Event) : Nat := trace.countP recorded

theorem recordedApart (event : Event) : messageRecorded event = false ∨ eventRecorded event = false := by
  cases event with
  | stored op answer =>
    cases op with
    | commitInbound _ | resyncInbound _ | resetSequences => exact .inl rfl
    | _ => exact .inr rfl
  | _ => exact .inl rfl

theorem recordingsSplit (trace : List Event) :
    recordings trace = trace.countP messageRecorded + trace.countP eventRecorded := by
  induction trace with
  | nil => rfl
  | cons event past ih =>
    unfold recordings at ih ⊢
    simp only [List.countP_cons,ih,recorded]
    rcases recordedApart event with none | none <;>
    · simp only [none,Bool.or_false,Bool.false_or,Bool.false_eq_true,if_false]
      omega

structure Numbers (j : Journal) (n : Nat) : Prop where
  nextOut : j.nextOut ≤ n + 1
  nextEvent : j.nextEvent ≤ n + 1
  commands : ∀ (requestId : Bytes) (record : CommandRecord), j.commands[requestId]? = some record →
    record.msgSeqNum ≤ n

def small (n k : Nat) : Prop := k < u64Limit ∨ k ≤ n + 1

structure Within (s : Shared) : Prop extends Numbers s.journal (recordings s.trace) where
  nextTransmission : s.journal.nextTransmission ≤ recordings s.trace + 1
  sums : ∀ event ∈ s.trace, ∀ k ∈ sums event, small (recordings s.trace) k

def counting (event : Event) (n : Nat) : Nat := if recorded event then n + 1 else n

theorem recordingsMore (event : Event) (trace : List Event) :
    recordings (event :: trace) = counting event (recordings trace) := by
  simp only [recordings,counting,List.countP_cons]
  split <;> rfl

theorem countingMore (event : Event) (n : Nat) : n ≤ counting event n := by
  unfold counting
  split <;> omega

section

variable {j : Journal} {n m k : Nat}

theorem small.later (h : small n k) (more : n ≤ m) : small m k := h.imp_right fun le => by omega

theorem Numbers.later (h : Numbers j n) (more : n ≤ m) : Numbers j m :=
  ⟨h.nextOut.trans (Nat.succ_le_succ more),h.nextEvent.trans (Nat.succ_le_succ more),
    fun id record found => (h.commands id record found).trans more⟩

theorem insertedNumbers {commands : Table Bytes CommandRecord} {key id : Bytes} {record other : CommandRecord}
    (each : ∀ (requestId : Bytes) (record : CommandRecord), commands[requestId]? = some record → record.msgSeqNum ≤ n)
    (fits : record.msgSeqNum ≤ n) (found : (commands.insert key record)[id]? = some other) : other.msgSeqNum ≤ n := by
  rw [Std.ExtTreeMap.getElem?_insert] at found
  split at found
  · cases found
    exact fits
  · exact each id other found

structure Counts (j : Journal) (n : Nat) (op : StoreOp) : Prop where
  numbers : Numbers (apply j op).2 (counting (.stored op (apply j op).1) n)
  nextTransmission : j.nextTransmission ≤ n + 1 →
    (apply j op).2.nextTransmission ≤ counting (.stored op (apply j op).1) n + 1
  behind : j.nextTransmission ≤ n + 1 → ∀ reply, (apply j op).1 = .ok reply → ∀ k ∈ behindOf op reply,
    k ≤ counting (.stored op (apply j op).1) n + 1

theorem countedKept (h : Numbers j n) {op : StoreOp} (kept : (apply j op).2 = j)
    (silent : ∀ reply, (apply j op).1 = .ok reply → ∀ k ∈ behindOf op reply, k ≤ n + 1) : Counts j n op := by
  have more := countingMore (.stored op (apply j op).1) n
  refine ⟨by rw [kept]; exact h.later more,fun _ => by rw [kept]; omega,fun _ reply ok k mem => ?_⟩
  have := silent reply ok k mem
  omega

theorem countedRefused (h : Numbers j n) {op : StoreOp} {error : StoreError} (answer : (apply j op).1 = .error error)
    (kept : (apply j op).2 = j) : Counts j n op :=
  countedKept h kept fun reply ok => by rw [answer] at ok; cases ok

theorem commitOutboundCounted (h : Numbers j n) (commit : OutboundCommit) : Counts j n (.commitOutbound commit) := by
  cases answer : (apply j (.commitOutbound commit)).1 with
  | error error =>
    refine countedRefused h answer ?_
    simp only [apply,commitOutbound] at answer ⊢
    repeat' split at answer
    all_goals cases answer
    all_goals simp_all
  | ok reply =>
    rcases commitOutboundSource answer with ⟨existing,found,-,rfl,after⟩ | ⟨-,number,rfl,after⟩
    · refine countedKept h after fun reply ok k mem => ?_
      rw [answer] at ok
      cases ok
      have := h.commands _ _ found
      simp only [behindOf,List.mem_singleton] at mem
      omega
    · have here : counting (.stored (.commitOutbound commit) (apply j (.commitOutbound commit)).1) n = n + 1 := by
        rw [answer]
        simp [counting,recorded,messageRecorded]
      have out := h.nextOut
      have journal : (apply j (.commitOutbound commit)).2 = withOutbound j commit := after
      refine ⟨?_,fun transmission => ?_,fun _ reply ok k mem => ?_⟩
      · rw [here,journal]
        refine ⟨Nat.succ_le_succ out,(h.later (Nat.le_succ n)).nextEvent,fun id record found => ?_⟩
        refine insertedNumbers (h.later (Nat.le_succ n)).commands ?_ found
        change commit.msgSeqNum ≤ n + 1
        omega
      · rw [here,journal]
        exact Nat.le_succ_of_le transmission
      · rw [answer] at ok
        cases ok
        have same : k = commit.msgSeqNum + 1 := by simpa [behindOf,journaledCommand] using mem
        omega

theorem markOutboundCounted (h : Numbers j n) (mark : MarkOutboundWritten) :
    Counts j n (.markOutboundWritten mark) := by
  have more := countingMore (.stored (.markOutboundWritten mark) (apply j (.markOutboundWritten mark)).1) n
  cases answer : (apply j (.markOutboundWritten mark)).1 with
  | error error =>
    refine countedRefused h answer ?_
    simp only [apply,markOutboundWritten] at answer ⊢
    repeat' split at answer
    all_goals cases answer
    all_goals simp_all
  | ok reply =>
    rw [answer] at more
    obtain ⟨command,outbound,found,-,-,rfl,after⟩ := markOutboundWrittenSource answer
    have number := h.commands _ _ found
    have journal : (apply j (.markOutboundWritten mark)).2 = withWritten j command outbound := after
    refine ⟨?_,fun transmission => ?_,fun _ reply ok k mem => ?_⟩
    · rw [answer,journal]
      refine ⟨(h.later more).nextOut,(h.later more).nextEvent,fun id record here => ?_⟩
      refine insertedNumbers (h.later more).commands ?_ here
      exact number.trans more
    · rw [answer,journal]
      change j.nextTransmission ≤ _
      omega
    · rw [answer] at ok ⊢
      cases ok
      have same : k = command.msgSeqNum + 1 := by simpa [behindOf] using mem
      omega

theorem eventCounted (h : Numbers j n) {op : StoreOp} {reply : StoreReply} (answer : (apply j op).1 = .ok reply)
    (here : recorded (.stored op (.ok reply)) = true) (nextOut : (apply j op).2.nextOut ≤ n + 1)
    (nextEvent : (apply j op).2.nextEvent = j.nextEvent + 1) (commands : (apply j op).2.commands = j.commands)
    (nextTransmission : j.nextTransmission ≤ n + 1 → (apply j op).2.nextTransmission ≤ n + 1)
    (sum : ∀ k ∈ behindOf op reply, k = j.nextEvent + 1) : Counts j n op := by
  have event := h.nextEvent
  have next : counting (.stored op (apply j op).1) n = n + 1 := by rw [answer,counting,if_pos here]
  refine ⟨⟨by rw [next]; omega,by rw [next]; omega,fun id record found => ?_⟩,fun transmission => ?_,
    fun _ reply ok k mem => ?_⟩
  · rw [next]
    exact (h.commands id record (commands ▸ found)).trans (Nat.le_succ n)
  · rw [next]
    exact Nat.le_succ_of_le (nextTransmission transmission)
  · rw [answer] at ok
    cases ok
    have := sum k mem
    omega

theorem countsApply (h : Numbers j n) (op : StoreOp) : Counts j n op := by
  cases op with
  | commitOutbound commit => exact commitOutboundCounted h commit
  | markOutboundWritten mark => exact markOutboundCounted h mark
  | commitTransmission commit =>
    refine ⟨⟨Nat.le_succ_of_le h.nextOut,Nat.le_succ_of_le h.nextEvent,fun id record found => ?_⟩,
      fun transmission => Nat.succ_le_succ transmission,fun transmission reply ok k mem => ?_⟩
    · exact (h.commands id record found).trans (Nat.le_succ n)
    · cases ok
      have same : k = j.nextTransmission + 1 := by simpa [behindOf] using mem
      exact same ▸ Nat.succ_le_succ transmission
  | markTransmissionWritten mark =>
    cases found : j.transmissions[mark.id]? with
    | none =>
      have answer : apply j (.markTransmissionWritten mark) = (.error (.unknownTransmission mark.id),j) := by
        simp only [apply,markTransmissionWritten,found]
      exact countedRefused h (congrArg Prod.fst answer) (congrArg Prod.snd answer)
    | some record =>
      have answer : apply j (.markTransmissionWritten mark) = (.ok (.transmission {record with phase := .written}),
          {j with transmissions := j.transmissions.insert record.id {record with phase := .written}}) := by
        simp only [apply,markTransmissionWritten,found]
      refine ⟨?_,fun transmission => ?_,fun _ reply ok k mem => ?_⟩
      · rw [answer]
        exact ⟨h.nextOut,h.nextEvent,h.commands⟩
      · rw [answer]
        exact transmission
      · simp [behindOf] at mem
  | commitInbound commit =>
    cases answer : (apply j (.commitInbound commit)).1 with
    | error error =>
      refine countedRefused h answer ?_
      simp only [apply,commitInbound] at answer ⊢
      repeat' split at answer
      all_goals cases answer
      all_goals simp_all
    | ok reply =>
      obtain ⟨-,id,-,rfl,after⟩ := commitInboundSource answer
      have journal : (apply j (.commitInbound commit)).2 = withInbound j commit := after
      refine eventCounted h answer rfl ?_ ?_ ?_ (fun transmission => ?_) fun k mem => ?_
      · rw [journal]; exact h.nextOut
      · rw [journal]; rfl
      · rw [journal]; rfl
      · rw [journal]; exact transmission
      · simpa [behindOf,id] using mem
  | resyncInbound commit =>
    cases answer : (apply j (.resyncInbound commit)).1 with
    | error error =>
      refine countedRefused h answer ?_
      simp only [apply,resyncInbound] at answer ⊢
      repeat' split at answer
      all_goals cases answer
      all_goals simp_all
    | ok reply =>
      obtain ⟨-,id,rfl,after⟩ := resyncInboundSource answer
      have journal : (apply j (.resyncInbound commit)).2 = withResync j commit := after
      refine eventCounted h answer rfl ?_ ?_ ?_ (fun transmission => ?_) fun k mem => ?_
      · rw [journal]; exact h.nextOut
      · rw [journal]; rfl
      · rw [journal]; rfl
      · rw [journal]; exact transmission
      · simpa [behindOf,id] using mem
  | resetSequences =>
    refine eventCounted h rfl rfl (Nat.le_add_left 1 n) rfl rfl (fun _ => Nat.le_add_left 1 n) fun k mem => ?_
    simpa [behindOf] using mem
  | loadCommand _ | loadOutboundRange _ | loadInbound _ | loadTransmission _ =>
    exact countedKept h rfl fun reply ok k mem => by cases ok; simp [behindOf] at mem

end

structure Keeps (w v : World) : Prop where
  grows : recordings w.trace ≤ recordings v.trace
  within : Within w.toShared → Within v.toShared

section

variable {c : Ctx} {s : Shared} {α : Type}

open Prog

theorem Within.event (h : Within s) (tick : Nat) {event : Event}
    (fits : ∀ k ∈ Session.sums event, small (recordings s.trace) k) :
    Within {s with trace := event :: s.trace, tick := tick} := by
  have more := countingMore event (recordings s.trace)
  refine ⟨?_,?_,fun e mem k inside => ?_⟩
  · simp only [recordingsMore]
    exact h.toNumbers.later more
  · simp only [recordingsMore]
    exact h.nextTransmission.trans (Nat.succ_le_succ more)
  · simp only [recordingsMore]
    rcases List.mem_cons.mp mem with rfl | older
    · exact (fits k inside).later more
    · exact (h.sums e older k inside).later more

theorem Within.note (h : Within s) (event : Event) (none : Session.sums event = []) :
    Within {s with trace := event :: s.trace} := h.event s.tick (by simp [none])

theorem Within.stored (h : Within s) (tick : Nat) {op : StoreOp}
    (fits : ∀ k ∈ aheadOf op, small (recordings s.trace) k) :
    Within {s with
      journal := (apply s.journal op).2, trace := .stored op (apply s.journal op).1 :: s.trace, tick := tick} := by
  have count := countsApply h.toNumbers op
  have more := countingMore (.stored op (apply s.journal op).1) (recordings s.trace)
  refine ⟨?_,?_,fun e mem k inside => ?_⟩
  · simp only [recordingsMore]
    exact count.numbers
  · simp only [recordingsMore]
    exact count.nextTransmission h.nextTransmission
  · simp only [recordingsMore]
    rcases List.mem_cons.mp mem with rfl | older
    · cases answer : (apply s.journal op).1 with
      | error error =>
        rw [answer] at inside more
        exact (fits k inside).later more
      | ok reply =>
        have each := count.behind h.nextTransmission reply answer k
        rw [answer] at inside more each
        rcases List.mem_append.mp inside with ahead | behind
        · exact (fits k ahead).later more
        · exact .inr (each behind)
    · exact (h.sums e older k inside).later more

theorem Within.ticks (h : Within s) (tick : Nat) : Within {s with tick := tick} :=
  ⟨h.toNumbers,h.nextTransmission,h.sums⟩

theorem Within.stores {w : World} (h : Within w.toShared) {op : StoreOp}
    (fits : ∀ k ∈ aheadOf op, small (recordings w.trace) k) : Within (storeApply c op w).2.toShared := by
  have after : Within (applied op w).toShared := h.stored _ fits
  have tick : Within {w.toShared with tick := w.tick + 1} := h.ticks _
  unfold storeApply
  cases c.env.storeFault w.tick with
  | none => cases (apply w.journal op).1 <;> exact after
  | refused text =>
    have refused : ∀ k ∈ Session.sums (.stored op (.error (.backend text))), small (recordings w.trace) k := fits
    exact h.event _ refused
  | lost text => exact after
  | crashBefore => exact tick
  | crashAfter => exact after

theorem storesGrow (op : StoreOp) (w : World) : recordings w.trace ≤ recordings (storeApply c op w).2.trace := by
  obtain ⟨-,same | ⟨answer,trace⟩⟩ := storeTrace c op w
  · rw [same]
  · rw [trace,recordingsMore]
    exact countingMore _ _

theorem keepsEvent (w : World) (actor : Actor) (tick : Nat) {event : Event} (none : Session.sums event = []) :
    Keeps w {toActor := actor, toShared := {w.toShared with trace := event :: w.trace, tick := tick}} := by
  refine ⟨?_,fun h => h.event tick (by simp [none])⟩
  rw [recordingsMore]
  exact countingMore _ _

theorem keepsActor (w : World) (actor : Actor) (tick : Nat) :
    Keeps w {toActor := actor, toShared := {w.toShared with tick := tick}} :=
  ⟨Nat.le_refl _,fun h => h.ticks tick⟩

theorem remarkSums {event : Event} (h : remark event) : Session.sums event = [] := by
  cases event <;> first | rfl | cases h

theorem keepsPermits : Permits (fun _ => True) (fun op => aheadOf op = []) Keeps where
  refl := fun _ => ⟨Nat.le_refl _,id⟩
  trans := fun _ _ _ first second => ⟨first.grows.trans second.grows,fun h => second.within (first.within h)⟩
  ticks := fun w tick => keepsActor w _ tick
  notes := fun w _ other => keepsEvent w _ w.tick (remarkSums other)
  moves := fun w actor _ => keepsActor w actor w.tick
  asks := fun w _ _ => keepsActor w _ w.tick
  stores := fun w op none => by
    refine ⟨?_,fun h => h.stored _ (by simp [none])⟩
    rw [show (applied op w).trace = .stored op (apply w.journal op).1 :: w.trace from rfl,recordingsMore]
    exact countingMore _ _
  refuses := fun w op _ none => keepsEvent w _ w.tick (show aheadOf op = [] from none)
  writes := fun w _ _ _ => keepsEvent w _ w.tick rfl

instance : Std.Refl Keeps := keepsPermits.isRefl

instance : IsTrans World Keeps := keepsPermits.isTrans

theorem plainAhead (op : StoreOp) (plain : plainOp op) : aheadOf op = [] := by
  cases op <;> first | rfl | cases plain

theorem transmissionAhead (op : StoreOp) (transmission : transmissionOp op = true) : aheadOf op = [] := by
  cases op <;> first | rfl | cases transmission

theorem submitAhead {request : ApplicationRequest} (op : StoreOp) (submit : submitOp request op) :
    aheadOf op = [] := by
  cases op <;> first | rfl | cases submit

end
end FixCli.Session
