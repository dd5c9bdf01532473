import FixCli.SessionLoop

/-! The deadline of the timer arm. A write stamps `last_outbound` behind the wake, so the
next deadline is later; an actor that is not established writes nothing at its timer, and
wakes again at once. -/
namespace FixCli.Session
open Lib Codec Store

def Forward (c : Ctx) : Prop := ∀ s t, s ≤ t → c.env.instant s ≤ c.env.instant t

def Woken (c : Ctx) (w : World) : Prop := w.lastOutbound + heartbeatInterval c ≤ c.env.instant w.tick

def Since (tick : Nat) (w : World) : Prop := tick ≤ w.tick

def Stamped (c : Ctx) (tick : Nat) (w : World) : Prop :=
  Since tick w ∧ ∃ t, tick ≤ t ∧ w.lastOutbound = c.env.instant t

section

variable {c : Ctx} {tick : Nat} {w v : World}

open Prog

theorem anywhere {α : Type} {P : World → Prop} (m : Act α) : Meets P m (fun _ _ => True) (fun _ _ => True) := by
  intro w _
  split <;> trivial

theorem sinceStore (op : StoreOp) :
    Meets (Since tick) (storeApply c op) (fun _ => Since tick) (fun _ _ => True) := by
  intro w since
  split
  · rename_i stored
    obtain ⟨-,-,rfl⟩ := storeReturned stored
    exact Nat.le_succ_of_le since
  · trivial

theorem stampedStore (op : StoreOp) :
    Meets (Stamped c tick) (storeApply c op) (fun _ => Stamped c tick) (fun _ _ => True) := by
  intro w stamped
  split
  · rename_i stored
    obtain ⟨-,-,rfl⟩ := storeReturned stored
    exact ⟨Nat.le_succ_of_le stamped.1,stamped.2⟩
  · trivial

theorem writeStamps (path : SendPath) (wire : Bytes) :
    Meets (Since tick) (writeWire c path wire) (fun _ => Stamped c tick) (fun _ _ => True) := by
  have socket : Meets (Since tick) (socketWrite c path wire) (fun _ => Since tick) (fun _ _ => True) := by
    intro w since
    unfold socketWrite
    cases c.env.ioFault w.tick with
    | none => exact Nat.le_succ_of_le since
    | refused | lost | crashBefore | crashAfter => trivial
  have clock : Meets (Since tick) (now c) (fun at' v => Since tick v ∧ ∃ t, tick ≤ t ∧ at' = c.env.instant t)
      (fun _ _ => True) := fun w since => ⟨Nat.le_succ_of_le since,w.tick,since,rfl⟩
  exact Meets.bind (Q := fun _ => Since tick) (Meets.change fun w since => since) fun _ => Meets.bind socket fun _ =>
    Meets.bind clock fun at' => Meets.change fun w read => read

theorem adminStamps (send : AdminSend) :
    Meets (Since tick) (sendAdmin c send (pure ())) (fun _ => Stamped c tick) (fun _ _ => True) := by
  refine Meets.bind (Q := fun _ => Since tick) (Meets.state fun _ since => since) fun w =>
    Meets.bind (sinceStore _) fun reply => ?_
  split
  · exact Meets.bind (writeStamps _ _) fun _ => Meets.bind (Q := fun _ => Stamped c tick) (Meets.pure fun w h => h) fun _ =>
      Meets.bind (stampedStore _) fun _ => Meets.change fun w stamped => stamped
  · exact Meets.stop fun _ _ => trivial

theorem headedStamps (msgType : Bytes) (body : List Field) (send : World → Bytes → AdminSend) :
    Meets (Since tick)
      (do
        let header ← standardHeader c msgType
        let wire ← Prog.ofExcept (inSession (encodeOutbound c (header ++ body)))
        let w ← Prog.state
        sendAdmin c (send w wire) (pure ()))
      (fun _ => Stamped c tick) (fun _ _ => True) := by
  have header : Meets (Since tick) (standardHeader c msgType) (fun _ => Since tick) (fun _ _ => True) :=
    fun w since => Nat.le_succ_of_le since
  exact Meets.bind header fun _ => Meets.bind (Q := fun _ => Since tick)
    (Meets.ofExcept (fun _ _ _ h => h) fun _ _ _ _ => trivial) fun _ =>
      Meets.bind (Q := fun _ => Since tick) (Meets.state fun w since => since) fun _ => adminStamps _

theorem heartbeatStamps : Meets (Since tick) (sendHeartbeat c) (fun _ => Stamped c tick) (fun _ _ => True) :=
  headedStamps (ascii "0") [] fun w wire =>
    ⟨.heartbeat,adminKey (ascii "heartbeat") w.nextOut w.nextEvent,ascii "admin:0:" ++ decimal w.nextOut,wire,wire,
      "heartbeat commit returned the wrong record type"⟩

theorem stampedClock : Meets (Stamped c tick) (now c) (fun _ => Stamped c tick) (fun _ _ => True) :=
  fun _ stamped => ⟨Nat.le_succ_of_le stamped.1,stamped.2⟩

theorem testRequestStamps (timeout : Nat) :
    Meets (Since tick) (sendTestRequest c timeout) (fun _ => Stamped c tick) (fun _ _ => True) := by
  refine Meets.bind (Q := fun _ => Since tick) (Meets.state fun _ since => since) fun _ => ?_
  have header : Meets (Since tick) (standardHeader c (ascii "1")) (fun _ => Since tick) (fun _ _ => True) :=
    fun w since => Nat.le_succ_of_le since
  exact Meets.bind header fun _ => Meets.bind (Q := fun _ => Since tick)
    (Meets.ofExcept (fun _ _ _ h => h) fun _ _ _ _ => trivial) fun _ => Meets.bind (adminStamps _) fun _ =>
      Meets.bind stampedClock fun _ => Meets.change fun w stamped => stamped

theorem dueStamps : Meets (Stamped c tick) (testRequestDue c) (fun _ => Stamped c tick) (fun _ _ => True) := by
  refine Meets.bind (Q := fun _ => Stamped c tick) (Meets.state fun _ stamped => stamped) fun w => ?_
  split
  · refine Meets.bind stampedClock fun _ => ?_
    split
    · exact Meets.bind (anywhere _) fun _ => Meets.stop fun _ _ => trivial
    · exact Meets.pure fun _ h => h
  · split
    · refine Meets.bind stampedClock fun _ => ?_
      split
      · exact (testRequestStamps _).weaken (fun _ stamped => stamped.1) (fun _ _ h => h) fun _ _ h => h
      · exact Meets.pure fun _ h => h
    · exact Meets.pure fun _ h => h

theorem establishedStamps (woken : Woken c w) (established : w.phase = .established)
    (done : heartbeatDue c w = (.ok (),v)) : Stamped c w.tick v := by
  have clock : now c w = (.ok (c.env.instant w.tick),{w with tick := w.tick + 1}) := rfl
  unfold heartbeatDue at done
  rw [bindReturns (stateRun w),bindReturns clock,if_neg (Nat.not_lt.mpr woken)] at done
  obtain ⟨_,u,beats,asks⟩ := bindReturned done
  unfold heartbeatIfEstablished at beats
  rw [bindReturns (stateRun _),iteRun,if_pos established] at beats
  exact dueStamps.returned (heartbeatStamps.returned (Nat.le_succ _) beats) asks

theorem idleTimer (woken : Woken c w) (idle : w.phase ≠ .established) (done : heartbeatDue c w = (.ok (),v)) :
    ∃ tick, v = {w with tick := tick} := by
  have clock (u : World) : now c u = (.ok (c.env.instant u.tick),{u with tick := u.tick + 1}) := rfl
  have silent : heartbeatIfEstablished c {w with tick := w.tick + 1} = (.ok (),{w with tick := w.tick + 1}) := by
    unfold heartbeatIfEstablished
    rw [bindReturns (stateRun _),iteRun,if_neg idle]
    rfl
  unfold heartbeatDue at done
  rw [bindReturns (stateRun w),bindReturns (clock w),if_neg (Nat.not_lt.mpr woken),bindReturns silent] at done
  unfold testRequestDue at done
  rw [bindReturns (stateRun _)] at done
  cases request : w.testRequest with
  | some outstanding =>
    simp only [request] at done
    rw [bindReturns (clock _)] at done
    split at done
    · obtain ⟨_,u,-,failed⟩ := bindReturned done
      cases failed
    · cases done
      exact ⟨_,rfl⟩
  | none =>
    simp only [request,if_neg idle] at done
    cases done
    exact ⟨_,rfl⟩

theorem deadlineMoves (forward : Forward c) (woken : Woken c w) (done : heartbeatDue c w = (.ok (),v)) :
    c.env.instant w.tick < v.lastOutbound + heartbeatInterval c ↔ w.phase = .established := by
  constructor
  · intro moved
    by_contra idle
    obtain ⟨tick,rfl⟩ := idleTimer woken idle done
    exact Nat.not_lt.mpr woken moved
  · intro established
    obtain ⟨-,t,behind,stamp⟩ := establishedStamps woken established done
    have ahead : c.env.instant w.tick ≤ v.lastOutbound := stamp ▸ forward _ _ behind
    have interval : 0 < heartbeatInterval c := Nat.mul_pos (Nat.le_max_right _ _) (by decide)
    omega

end

/-- In every state that a connection reaches, a timer that fires and completes moves its own
deadline behind the reading that woke it just when the session is established. -/
theorem timerMovesOn (c : Ctx) (forward : Forward c) (s : Shared) (inputs : List Input)
    (live : (run c (spawn c s) inputs).live = true) (woken : Woken c (run c (spawn c s) inputs).world)
    (done : (run c (spawn c s) (inputs ++ [.timer])).live = true) :
    c.env.instant (run c (spawn c s) inputs).world.tick <
        (run c (spawn c s) (inputs ++ [.timer])).world.lastOutbound + heartbeatInterval c ↔
      (run c (spawn c s) inputs).world.phase = .established := by
  have last : run c (spawn c s) (inputs ++ [.timer]) =
      settle (heartbeatDue c (run c (spawn c s) inputs).world) := by
    rw [run,List.foldl_append]
    exact if_pos live
  rw [last] at done ⊢
  rcases due : heartbeatDue c (run c (spawn c s) inputs).world with ⟨halt | _,v⟩
  · rw [due] at done
    cases halt <;> cases done
  · exact deadlineMoves forward woken due

def slowCtx : Ctx := {venueCtx with env := {venueCtx.env with instant := fun tick => tick * (30 * nanosPerSec)}}

theorem slowForward : Forward slowCtx := fun _ _ le => Nat.mul_le_mul_right _ le

theorem timerMovesOnAtVenue :
    (run slowCtx (spawn slowCtx fresh) [.frame (venueLogon 1)]).world.phase = .established ∧
      (slowCtx.env.instant (run slowCtx (spawn slowCtx fresh) [.frame (venueLogon 1)]).world.tick <
          (run slowCtx (spawn slowCtx fresh) ([.frame (venueLogon 1)] ++ [.timer])).world.lastOutbound +
            heartbeatInterval slowCtx ↔
        (run slowCtx (spawn slowCtx fresh) [.frame (venueLogon 1)]).world.phase = .established) :=
  ⟨by decide +kernel,timerMovesOn slowCtx slowForward fresh [.frame (venueLogon 1)] (by decide +kernel)
    (by unfold Woken; decide +kernel) (by decide +kernel)⟩

theorem logonSpins :
    (spawn slowCtx fresh).live = true ∧ (spawn slowCtx fresh).world.phase = .logonSent ∧
      Woken slowCtx (spawn slowCtx fresh).world ∧ (run slowCtx (spawn slowCtx fresh) [.timer]).live = true ∧
      ¬ slowCtx.env.instant (spawn slowCtx fresh).world.tick <
        (run slowCtx (spawn slowCtx fresh) [.timer]).world.lastOutbound + heartbeatInterval slowCtx := by
  unfold Woken
  decide +kernel

end FixCli.Session
