import FixCli.InitiatorSends
import FixCli.MockAnswers

/-! The inputs of an actor whose peer is the mock: its commands, its timer and the frames
that the mock sends. -/
namespace FixCli.Session
open Lib Codec Store Mock

def mirror (c : Ctx) : MockConfig :=
  ⟨c.config.beginString,c.config.targetCompId,c.config.senderCompId,c.config.heartbeatIntervalSecs⟩

def Farewell (phase : SessionPhase) : Prop := phase = .logoutSent ∨ phase = .disconnected

def PartsLast (w v : World) (spoken : List Bytes) : Prop :=
  (Farewell w.phase → spoken = []) ∧ (Farewell v.phase → Farewell w.phase ∨ ∃ wire, spoken = [wire])

structure Turn (c : Ctx) (content : Bytes → Bytes) (w : World) (taken : List Bytes) (v : World) : Prop
    extends Solid content v where
  trace : ∃ new, v.trace = new ++ w.trace ∧ (∀ event ∈ new, calm event) ∧
    v.nextOut = w.nextOut + (new.filterMap handedWire).length ∧
    Consecutive (Asking (mirror c) (Farewell v.phase)) w.nextOut (new.filterMap handedWire).reverse ∧
    sentWires v.journal = sentWires w.journal ++ (new.filterMap handedWire).reverse ∧
    PartsLast w v (new.filterMap handedWire)
  heard : v.nextIn = w.nextIn + taken.length
  taken : 0 < w.journal.nextIn → takenWires v.journal = takenWires w.journal ++ taken

section

variable {c : Ctx} {content : Bytes → Bytes} {w v : World} {wire frame : Bytes}

open Prog

def Utters (c : Ctx) (content : Bytes → Bytes) (closing : Prop) (w v : World) : Prop :=
  ∃ spoken, Speaks content w spoken v ∧ Consecutive (Asking (mirror c) closing) w.nextOut spoken.reverse ∧
    (Farewell w.phase → spoken = [])

theorem Speaks.utters {closing : Prop} (h : Speaks content w [] v) : Utters c content closing w v :=
  ⟨[],h,.nil,fun _ => rfl⟩

theorem Speaks.utter {closing : Prop} (h : Speaks content w [wire] v) (asks : Asking (mirror c) closing w.nextOut wire)
    (open' : ¬ Farewell w.phase) : Utters c content closing w v := ⟨[wire],h,.cons asks .nil,fun bad => absurd bad open'⟩

theorem Utters.trans {closing : Prop} {u : World} (h : Utters c content closing w v) (g : Utters c content closing v u) :
    Utters c content closing w u := by
  obtain ⟨spoken,first,asking,silent⟩ := h
  obtain ⟨more,second,later,silent'⟩ := g
  refine ⟨more ++ spoken,first.trans second,?_,fun farewell => ?_⟩
  · rw [List.reverse_append]
    refine asking.append ?_
    rwa [List.length_reverse,← first.counted]
  · rw [silent farewell,silent' (first.phase.symm ▸ farewell)]
    rfl

theorem Speaks.turns {u : World} {spoken : List Bytes} (speaks : Speaks content w spoken v)
    (asking : Consecutive (Asking (mirror c) (Farewell u.phase)) w.nextOut spoken.reverse)
    (parts : PartsLast w u spoken) (hushed : Hushed v u) : Turn c content w [] u := by
  obtain ⟨old,before,wires,calmly⟩ := speaks.trace
  obtain ⟨new,trace,quiet⟩ := hushed.trace
  have none : new.filterMap handedWire = [] := List.filterMap_eq_nil_iff.mpr fun event mem => (quiet event mem).2
  have all : (new ++ old).filterMap handedWire = spoken := by
    rw [List.filterMap_append,none,List.nil_append,wires]
  refine ⟨hushed.solid speaks.toSolid,⟨new ++ old,by rw [trace,before,List.append_assoc],?_,?_,?_,?_,?_⟩,
    hushed.nextIn.trans speaks.heard,fun _ => ?_⟩
  · exact fun event mem => (List.mem_append.mp mem).elim (fun here => (quiet event here).1) (calmly event)
  · rw [hushed.nextOut,all,speaks.counted]
  · rwa [all]
  · rw [all,hushed.journal,speaks.sent]
  · rwa [all]
  · rw [hushed.journal,speaks.taken,List.append_nil]

theorem Utters.turns {u : World} (h : Utters c content (Farewell u.phase) w v) (farewell : Farewell u.phase → Farewell w.phase)
    (hushed : Hushed v u) : Turn c content w [] u := by
  obtain ⟨spoken,speaks,asking,silent⟩ := h
  exact speaks.turns asking ⟨silent,fun gone => .inl (farewell gone)⟩ hushed

theorem Utters.closes (h : Utters c content (Farewell w.phase) w v) :
    v.phase = w.phase ∧ Utters c content (Farewell v.phase) w v := by
  obtain ⟨spoken,speaks,asking⟩ := h
  exact ⟨speaks.phase,by rw [speaks.phase]; exact ⟨spoken,speaks,asking⟩⟩

theorem Utters.turn (h : Utters c content (Farewell w.phase) w v) : v.phase = w.phase ∧ Turn c content w [] v :=
  ⟨h.closes.1,h.closes.2.turns (h.closes.1 ▸ id) ⟨rfl,rfl,rfl,rfl,rfl,[],rfl,by simp⟩⟩

theorem Utters.replies (h : Utters c content (Farewell w.phase) w v) (reply : Except SessionError ActorReply) :
    (replied reply v).phase = w.phase ∧ Turn c content w [] (replied reply v) :=
  ⟨h.closes.1,Utters.turns (u := replied reply v) h.closes.2 (h.closes.1 ▸ id)
    ⟨rfl,rfl,rfl,rfl,rfl,[_],rfl,by simp [calm,handedWire]⟩⟩

theorem Turn.behind {u : World} {taken : List Bytes} (h : Turn c content u taken v) (hushed : Hushed w u)
    (phase : u.phase = w.phase) : Turn c content w taken v := by
  obtain ⟨new,trace,quiet⟩ := hushed.trace
  obtain ⟨newer,later,calmly,counted,asking,journaled,parts⟩ := h.trace
  have none : new.filterMap handedWire = [] := List.filterMap_eq_nil_iff.mpr fun event mem => (quiet event mem).2
  have all : (newer ++ new).filterMap handedWire = newer.filterMap handedWire := by
    rw [List.filterMap_append,none,List.append_nil]
  refine ⟨h.toSolid,⟨newer ++ new,by rw [later,trace,List.append_assoc],?_,?_,?_,?_,?_⟩,?_,?_⟩
  · exact fun event mem => (List.mem_append.mp mem).elim (calmly event) fun here => (quiet event here).1
  · rw [all,counted,hushed.nextOut]
  · rw [all,← hushed.nextOut]
    exact asking
  · rw [all,journaled,hushed.journal]
  · rw [all,PartsLast,← phase]
    exact parts
  · rw [h.heard,hushed.nextIn]
  · rw [← hushed.journal]
    exact h.taken

def Overdue (c : Ctx) (w : World) : Prop :=
  ∃ outstanding, w.testRequest = some outstanding ∧ outstanding.deadline ≤ c.env.instant w.tick

def Expires (c : Ctx) (w : World) : Prop :=
  w.lastOutbound + heartbeatInterval c ≤ c.env.instant w.tick ∧
    Overdue c (heartbeatIfEstablished c {w with tick := w.tick + 1}).2

theorem beatUtters (closing : Prop) (reliable : Reliable c) (solid : Solid content w) :
    ∃ v, heartbeatIfEstablished c w = (.ok (),v) ∧ Utters c content closing w v := by
  unfold heartbeatIfEstablished
  rw [bindReturns (stateRun w),iteRun]
  split
  · rename_i established
    obtain ⟨wire,v,run,speaks,letter⟩ := heartbeatSpeaks reliable solid
    exact ⟨v,run,speaks.utter ⟨_,_,letter,.inl (.inr (.inl rfl))⟩ (by simp [Farewell,established])⟩
  · exact ⟨w,rfl,(Speaks.ticked solid w.tick).utters⟩

theorem dueUtters (closing : Prop) (reliable : Reliable c) (solid : Solid content w) (timely : ¬ Overdue c w) :
    ∃ v, testRequestDue c w = (.ok (),v) ∧ Utters c content closing w v := by
  have clock : now c w = (.ok (c.env.instant w.tick),{w with tick := w.tick + 1}) := rfl
  have ticked := Speaks.ticked solid (w.tick + 1)
  unfold testRequestDue
  rw [bindReturns (stateRun w)]
  cases request : w.testRequest with
  | some outstanding =>
    have early : ¬ outstanding.deadline ≤ c.env.instant w.tick := fun late => timely ⟨outstanding,request,late⟩
    dsimp only
    rw [bindReturns clock,if_neg early]
    exact ⟨_,rfl,ticked.utters⟩
  | none =>
    dsimp only
    split
    · rename_i established
      rw [bindReturns clock]
      split
      · obtain ⟨wire,v,id,run,speaks,letter⟩ := testRequestSpeaks reliable ticked.toSolid (heartbeatInterval c)
        exact ⟨v,run,ticked.utters.trans (speaks.utter ⟨_,_,letter,.inl (.inr (.inr (.inl rfl)))⟩
          (by simp [Farewell,established]))⟩
      · exact ⟨_,rfl,ticked.utters⟩
    · exact ⟨w,rfl,(Speaks.ticked solid w.tick).utters⟩

theorem timerTurns (reliable : Reliable c) (solid : Solid content w) (timely : ¬ Expires c w) :
    ∃ v, heartbeatDue c w = (.ok (),v) ∧ v.phase = w.phase ∧ Turn c content w [] v := by
  have clock : now c w = (.ok (c.env.instant w.tick),{w with tick := w.tick + 1}) := rfl
  have ticked := Speaks.ticked solid (w.tick + 1)
  unfold heartbeatDue
  rw [bindReturns (stateRun w),bindReturns clock]
  split
  · exact ⟨_,rfl,Utters.turn ticked.utters⟩
  · rename_i woken
    obtain ⟨u,beats,first⟩ := beatUtters (Farewell w.phase) reliable ticked.toSolid
    obtain ⟨_,speaks,-⟩ := id first
    have timely' : ¬ Overdue c u := fun late => timely ⟨Nat.le_of_not_lt woken,by rw [beats]; exact late⟩
    obtain ⟨v,asks,second⟩ := dueUtters (Farewell w.phase) reliable speaks.toSolid timely'
    exact ⟨v,(bindReturns beats).trans asks,Utters.turn (ticked.utters.trans (first.trans second))⟩

def Suits (content : Bytes → Bytes) : ActorCommand → Prop
  | .submit request => Ordered content request
  | .logout text => ∀ value ∈ text, SOH ∉ value
  | .status | .lookupCommand _ => True

theorem lookupRun (reliable : Reliable c) (requestId : Bytes) (w : World) : commandResult c (.lookupCommand requestId) w =
    (.ok (.storedCommand w.journal.commands[requestId]?),
      answered (.loadCommand requestId) (.storedCommand w.journal.commands[requestId]?) w.journal w) := by
  have run := storeRun (w := w) reliable (.loadCommand requestId) rfl
  have loads : loadCommand c requestId w = (.ok w.journal.commands[requestId]?,
      answered (.loadCommand requestId) (.storedCommand w.journal.commands[requestId]?) w.journal w) := bindReturns run
  exact bindReturns loads

theorem submitUtters (reliable : Reliable c) (solid : Solid content w) {request : ApplicationRequest}
    (ordered : Ordered content request) (closing : Prop) :
    (∀ halt, (submitApplication c request w).1 = .error halt → ∃ error, halt = .fail error ∧ error.isFatal = false) ∧
      Utters c content closing w (submitApplication c request w).2 := by
  have submits := submitSubmits reliable solid ordered
  refine ⟨submits.gentle,?_⟩
  rcases submits.spoken with silent | ⟨established,wire,msgType,body,speaks,letter,known,named⟩
  · exact silent.utters
  · simp only [List.mem_cons,List.not_mem_nil,or_false] at known
    exact speaks.utter ⟨_,_,letter,.inl (.inr (.inr (.inr ⟨known,named⟩)))⟩ (by simp [Farewell,established])

theorem commandTurns (reliable : Reliable c) (solid : Solid content w) {command : ActorCommand} (suits : Suits content command) :
    ∃ v, handleCommand c command w = (.ok (),v) ∧ (v.phase = w.phase ∨ mayLogout w.phase = true ∧ v.phase = .logoutSent) ∧
      Turn c content w [] v := by
  have still := Speaks.ticked solid w.tick
  rw [handleCommandRun]
  cases command with
  | status =>
    obtain ⟨phase,turn⟩ := Utters.replies still.utters (.ok (.status (sessionStatus w)))
    exact ⟨_,rfl,.inl phase,turn⟩
  | lookupCommand requestId =>
    rw [lookupRun reliable]
    have loaded : Speaks content w [] (answered (.loadCommand requestId) (.storedCommand w.journal.commands[requestId]?)
        w.journal w) := Hushed.speaks ⟨rfl,rfl,rfl,rfl,rfl,[_],rfl,by simp [calm,handedWire]⟩ solid rfl
    obtain ⟨phase,turn⟩ := Utters.replies loaded.utters (.ok (.storedCommand w.journal.commands[requestId]?))
    exact ⟨_,rfl,.inl phase,turn⟩
  | submit request =>
    obtain ⟨gentle,utters⟩ := submitUtters reliable solid suits (Farewell w.phase)
    rcases run : submitApplication c request w with ⟨halt | record,v⟩
    · rw [run] at gentle utters
      obtain ⟨error,rfl,mild⟩ := gentle halt rfl
      have result : commandResult c (.submit request) w = (.error (.fail error),v) := bindStops run
      rw [result]
      obtain ⟨phase,turn⟩ := utters.replies (.error error)
      exact ⟨_,by simp only [mild]; rfl,.inl phase,turn⟩
    · rw [run] at utters
      have result : commandResult c (.submit request) w = (.ok (.command record),v) := bindReturns run
      rw [result]
      obtain ⟨phase,turn⟩ := utters.replies (.ok (.command record))
      exact ⟨_,rfl,.inl phase,turn⟩
  | logout text =>
    cases may : mayLogout w.phase with
    | false =>
      have refused : sendLogout c text w = (.error (.fail .notEstablished),w) := by
        rcases logoutCases (c := c) text w with ⟨-,refused⟩ | ⟨open',-⟩
        · exact refused
        · rw [may] at open'
          cases open'
      have result : commandResult c (.logout text) w = (.error (.fail .notEstablished),w) := bindStops refused
      rw [result]
      obtain ⟨phase,turn⟩ := Utters.replies still.utters (.error .notEstablished)
      exact ⟨_,rfl,.inl phase,turn⟩
    | true =>
      obtain ⟨wire,v,run,speaks,-,letter⟩ := logoutSpeaks reliable solid may suits
      have result : commandResult c (.logout text) w = (.ok .ack,loggingOut v) := bindReturns run
      rw [result]
      have asks : Asking (mirror c) (Farewell .logoutSent) w.nextOut wire := ⟨_,_,letter,.inr ⟨rfl,.inl rfl⟩⟩
      have open' : ¬ Farewell w.phase := by
        rintro (sent | gone)
        · rw [sent] at may; cases may
        · rw [gone] at may; cases may
      exact ⟨_,rfl,.inr ⟨rfl,rfl⟩,Speaks.turns (u := replied (.ok .ack) (loggingOut v)) speaks (.cons asks .nil)
        ⟨fun bad => absurd bad open',fun _ => .inr ⟨wire,rfl⟩⟩
        ⟨rfl,rfl,rfl,rfl,rfl,[_, _],rfl,by simp [calm,handedWire]⟩⟩

end
end FixCli.Session
