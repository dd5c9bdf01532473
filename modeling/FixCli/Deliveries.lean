import FixCli.InboundStep

/-! Frames delivered one by one, with a store and a socket that do their work: what is
left to fail is an outbound operation that the store refuses. -/
namespace FixCli.Session
open Lib Codec Store

def Healthy (c : Ctx) (tick : Nat) : Prop :=
  ∀ later, tick ≤ later → c.env.storeFault later = .none ∧ c.env.ioFault later = .none

def refusal : Event → Bool
  | .stored op (.error _) => !inboundOp op
  | _ => false

def Refused (w v : World) : Prop := ∃ new, v.trace = new ++ w.trace ∧ ∃ event ∈ new, refusal event = true

def deliver (c : Ctx) : List Bytes → Act Unit
  | [] => pure ()
  | frame :: rest => do
    handleInbound c frame
    deliver c rest

section

variable {c : Ctx}

open Prog

structure Onward (w v : World) : Prop where
  trace : Grows w v
  later : w.tick ≤ v.tick

theorem Onward.refused {w v u : World} (h : Onward w v) (bad : Refused v u) : Refused w u := by
  obtain ⟨older,before⟩ := h.trace
  obtain ⟨new,trace,event,mem,refuses⟩ := bad
  exact ⟨new ++ older,by rw [trace,← before,List.append_assoc],event,List.mem_append_left _ mem,refuses⟩

theorem unrefused {w v : World} (answered : (v.trace.all fun event => !refusal event) = true) : ¬ Refused w v := by
  rintro ⟨new,trace,event,mem,refuses⟩
  rw [trace,List.all_eq_true] at answered
  exact absurd (answered event (List.mem_append_left _ mem)) (by simp [refuses])

theorem connAlive {conn : Conn} (live : conn.live = true) : conn = ⟨conn.world,true⟩ := by
  cases conn
  cases live
  rfl

theorem Onward.trans {w v u : World} (h : Onward w v) (g : Onward v u) : Onward w u :=
  ⟨IsTrans.trans _ _ _ h.trace g.trace,Nat.le_trans h.later g.later⟩

theorem onwardStore {base : World} (healthy : Healthy c base.tick) {op : StoreOp} (outbound : inboundOp op = false) :
    Meets (Onward base) (storeApply c op) (fun reply v => Onward base v ∧ ∃ j, (apply j op).1 = .ok reply)
      (fun _ v => Refused base v) := by
  intro w h
  have fault := (healthy w.tick h.later).1
  simp only [storeApply,fault]
  have moved : Onward w (applied op w) := ⟨⟨[_],rfl⟩,Nat.le_succ _⟩
  cases answer : (apply w.journal op).1 with
  | ok reply => exact ⟨h.trans moved,w.journal,answer⟩
  | error error => exact h.refused ⟨[_],rfl,_,List.mem_cons_self,by simp [refusal,answer,outbound]⟩

theorem onwardChange {base : World} {f : World → World} (moved : ∀ w, Onward w (f w)) :
    Meets (Onward base) (Prog.change f : Act Unit) (fun _ v => Onward base v) (fun _ v => Refused base v) :=
  Meets.change fun w h => h.trans (moved w)

theorem onwardWrite {base : World} (healthy : Healthy c base.tick) (path : SendPath) (wire : Bytes) :
    Meets (Onward base) (writeWire c path wire) (fun _ v => Onward base v) (fun _ v => Refused base v) := by
  have socket : Meets (Onward base) (socketWrite c path wire) (fun _ v => Onward base v)
      (fun _ v => Refused base v) := by
    intro w h
    simp only [socketWrite,(healthy w.tick h.later).2]
    exact h.trans ⟨⟨[_],rfl⟩,Nat.le_succ _⟩
  have clock : Meets (Onward base) (now c) (fun _ v => Onward base v) (fun _ v => Refused base v) :=
    fun w h => h.trans ⟨List.suffix_rfl,Nat.le_succ _⟩
  exact Meets.bind (onwardChange fun w => ⟨⟨[_],rfl⟩,Nat.le_refl _⟩) fun _ => Meets.bind socket fun _ =>
    Meets.bind clock fun _ => onwardChange fun w => ⟨List.suffix_rfl,Nat.le_refl _⟩

theorem onwardAdmin {base : World} (healthy : Healthy c base.tick) (send : AdminSend) :
    Meets (Onward base) (sendAdmin c send (pure ())) (fun _ v => Onward base v) (fun _ v => Refused base v) := by
  refine Meets.bind (Q := fun _ => Onward base) (Meets.state fun _ h => h) fun w => ?_
  refine Meets.bind (onwardStore healthy rfl) fun reply => ?_
  split
  · refine Meets.bind ((onwardWrite healthy _ _).weaken (fun _ h => h.1) (fun _ _ h => h) fun _ _ h => h) fun _ =>
      Meets.bind (Q := fun _ => Onward base) (Meets.pure fun _ h => h) fun _ =>
        Meets.bind (onwardStore healthy rfl) fun _ => ?_
    exact Meets.change fun v h => h.1.trans ⟨List.suffix_rfl,Nat.le_refl _⟩
  · rename_i other
    rintro v ⟨-,j,answer⟩
    rcases commitOutboundSource answer with ⟨existing,-,-,same,-⟩ | ⟨-,-,same,-⟩ <;> exact absurd same (other _)

theorem headedEncodes (sendable : Sendable c) {header body : List Field}
    (shape : header.map Field.tag = [35, 49, 56, 34, 52]) (tags : ∀ f ∈ body, f.tag ∈ [7, 16, 112]) :
    ∃ wire, encodeOutbound c (header ++ body) = .ok wire := by
  have usable : ∀ f ∈ header ++ body, f.tag ≠ 0 ∧ f.tag ∉ [8, 9, 10] := by
    intro f mem
    have inside : f.tag ∈ [35, 49, 56, 34, 52, 7, 16, 112] := by
      rcases List.mem_append.mp mem with ahead | behind
      · have own : f.tag ∈ header.map Field.tag := List.mem_map_of_mem ahead
        rw [shape] at own
        exact List.mem_append_left [7, 16, 112] own
      · exact List.mem_append_right [35, 49, 56, 34, 52] (tags f behind)
    have allowed : ∀ tag ∈ [(35 : UInt32), 49, 56, 34, 52, 7, 16, 112], tag ≠ 0 ∧ tag ∉ [8, 9, 10] := by simp
    exact allowed f.tag inside
  have first : (header ++ body).head?.map Field.tag = some 35 := by
    rw [← List.head?_map,List.map_append,shape]
    rfl
  have encodes := encodeFrom ⟨sendable,first,(encodeBodyExact _ _).mpr ⟨usable,rfl⟩⟩
  exact ⟨_,by rw [encodeOutbound,encodes]⟩

theorem onwardHeaded {base : World} (healthy : Healthy c base.tick) (sendable : Sendable c) (msgType : Bytes)
    (body : List Field) (tags : ∀ f ∈ body, f.tag ∈ [7, 16, 112]) (send : World → Bytes → AdminSend) :
    Meets (Onward base)
      (do
        let header ← standardHeader c msgType
        let wire ← Prog.ofExcept (inSession (encodeOutbound c (header ++ body)))
        let w ← Prog.state
        sendAdmin c (send w wire) (pure ()))
      (fun _ v => Onward base v) (fun _ v => Refused base v) := by
  have header : Meets (Onward base) (standardHeader c msgType)
      (fun header v => Onward base v ∧ header.map Field.tag = [35, 49, 56, 34, 52]) (fun _ v => Refused base v) :=
    fun w h => ⟨h.trans ⟨List.suffix_rfl,Nat.le_succ _⟩,rfl⟩
  refine Meets.bind header fun header => Meets.bind (Q := fun _ => Onward base) (Meets.ofExcept ?_ ?_) fun wire =>
    Meets.bind (Q := fun _ => Onward base) (Meets.state fun _ h => h) fun w => onwardAdmin healthy _
  · exact fun _ _ _ h => h.1
  · rintro halt failed v ⟨-,shape⟩
    obtain ⟨wire,encodes⟩ := headedEncodes sendable shape tags
    rw [encodes] at failed
    cases failed

theorem onwardResend {base : World} (healthy : Healthy c base.tick) (sendable : Sendable c) (n : Nat) :
    Meets (Onward base) (sendResendRequest c n) (fun _ v => Onward base v) (fun _ v => Refused base v) :=
  onwardHeaded healthy sendable (ascii "2") [⟨7,decimal n⟩,⟨16,ascii "0"⟩] (by simp) fun w wire =>
    ⟨.resendRequest,adminKey (ascii "resend-request") w.nextOut w.nextEvent,
      ascii "admin:2:" ++ decimal w.nextOut ++ ascii ":" ++ decimal n,wire,wire,
      "outbound commit returned an inbound record"⟩

theorem onwardHeartbeat {base : World} (healthy : Healthy c base.tick) (sendable : Sendable c) (id : Option Bytes) :
    Meets (Onward base) (sendHeartbeatResponse c id) (fun _ v => Onward base v) (fun _ v => Refused base v) := by
  refine onwardHeaded healthy sendable (ascii "0") (id.map fun id => (⟨112,id⟩ : Field)).toList ?_
    fun w wire => ⟨.heartbeat,adminKey (ascii "heartbeat") w.nextOut w.nextEvent,
      ascii "admin:0:" ++ decimal w.nextOut,wire,wire,"heartbeat commit returned the wrong record type"⟩
  cases id <;> simp

def welcomed (msgType : Bytes) (w : World) : World :=
  if msgType = ascii "A" ∧ w.phase = .logonSent then
    {w with
      phase := .established
      trace := .phaseChanged .established :: .logged (.info (ascii "Received logon response")) :: w.trace}
  else w

theorem logonReceivedRun (msgType : Bytes) (w : World) :
    (logonReceived msgType : Act Unit) w = (.ok (),welcomed msgType w) := by
  simp only [logonReceived,bindRun,stateRun,iteRun,welcomed]
  split <;> rfl

theorem testRequestAnsweredRun (message : ParsedMessage) (msgType : Bytes) (w : World) :
    ∃ testRequest, (testRequestAnswered message msgType : Act Unit) w = (.ok (),{w with testRequest := testRequest}) := by
  simp only [testRequestAnswered,changeRun]
  split
  · split
    · exact ⟨none,rfl⟩
    · exact ⟨w.testRequest,rfl⟩
  · exact ⟨w.testRequest,rfl⟩

theorem afterCommitRun (message : ParsedMessage) {e : Expected} (resend : e.requestedResend = none)
    (logout : e.msgType ≠ ascii "5") (w : World) : ∃ testRequest, afterCommit c message e w =
      answerTestRequest c e.heartbeatResponse {welcomed e.msgType w with testRequest := testRequest} := by
  obtain ⟨testRequest,answered⟩ := testRequestAnsweredRun message e.msgType (welcomed e.msgType w)
  refine ⟨testRequest,?_⟩
  refine (bindReturns (logonReceivedRun _ w)).trans ((bindReturns answered).trans ?_)
  simp only [logoutReceived,logout,if_false,resend,answerResendRequest,pure_bind]

structure Taken (w : World) (frame : Bytes) (e : Expected) (v : World) : Prop where
  onward : Onward w v
  nextIn : v.nextIn = e.nextInAfter
  gapBuffer : v.gapBuffer = w.gapBuffer
  phase : v.phase = (welcomed e.msgType w).phase
  nextEvent : v.nextEvent = w.nextEvent + 1
  journal : SameInbound (withInbound w.journal (inboundCommit w w.nextIn frame e)) v.journal

theorem Taken.still {w u v : World} {frame : Bytes} {e : Expected} (h : Taken w frame e u) (onward : Onward w v)
    (apart : Apart u v) (phase : v.phase = u.phase) : Taken w frame e v :=
  ⟨onward,apart.nextIn.trans h.nextIn,apart.gapBuffer.trans h.gapBuffer,phase.trans h.phase,
    apart.nextEvent.trans h.nextEvent,h.journal.trans apart.journal⟩

theorem commitTakes (frame : Bytes) {message : ParsedMessage} {e : Expected} {w : World}
    (sequence : requiredU64 message 34 = .ok w.nextIn)
    (checks : inboundChecks c w.nextOut w.nextIn w.nextIn message = .ok e) (later : w.nextIn < e.nextInAfter)
    (resend : e.requestedResend = none) (logout : e.msgType ≠ ascii "5") (healthy : Healthy c w.tick)
    (sendable : Sendable c) (nextIn : w.journal.nextIn = w.nextIn) (nextEvent : w.journal.nextEvent = w.nextEvent) :
    match commitExpected c message frame w with
    | (.ok _, v) => Taken w frame e v
    | (.error _, v) => e.heartbeatResponse ≠ none ∧ Refused w v := by
  have stores : commitInbound w.journal (inboundCommit w w.nextIn frame e) = (.ok (.inbound _),withInbound w.journal _) :=
    commitInboundStores nextIn.symm nextEvent.symm (by rw [nextIn]; exact later)
  have answer : (apply w.journal (.commitInbound (inboundCommit w w.nextIn frame e))).1 = .ok (.inbound _) :=
    congrArg Prod.fst stores
  have journal : (apply w.journal (.commitInbound (inboundCommit w w.nextIn frame e))).2 = _ :=
    congrArg Prod.snd stores
  rw [commitExpectedRun frame sequence rfl,checks]
  simp only [commitCheckedRun,storeReturns (healthy w.tick (Nat.le_refl _)).1 answer]
  set u := counted e (applied (.commitInbound (inboundCommit w w.nextIn frame e)) w) with committed
  obtain ⟨testRequest,run⟩ := afterCommitRun (c := c) message resend logout u
  rw [run]
  set v : World := {welcomed e.msgType u with testRequest := testRequest} with answered
  have taken : Taken w frame e v := by
    have first : Onward w u := ⟨⟨[_,_],rfl⟩,Nat.le_succ _⟩
    have same : SameInbound (withInbound w.journal (inboundCommit w w.nextIn frame e)) u.journal := by
      rw [committed,counted]
      simp only [applied,journal]
      exact .refl _
    by_cases logon : e.msgType = ascii "A" ∧ w.phase = .logonSent
    · have welcome : welcomed e.msgType u = {u with
          phase := .established
          trace := .phaseChanged .established :: .logged (.info (ascii "Received logon response")) :: u.trace} :=
        if_pos logon
      rw [answered,welcome]
      refine ⟨first.trans ⟨⟨[_,_],rfl⟩,Nat.le_refl _⟩,rfl,rfl,?_,rfl,same⟩
      rw [welcomed,if_pos logon]
    · have plain : welcomed e.msgType u = u := if_neg logon
      rw [answered,plain]
      refine ⟨first.trans ⟨List.suffix_rfl,Nat.le_refl _⟩,rfl,rfl,?_,rfl,same⟩
      rw [welcomed,if_neg logon]
      rfl
  cases response : e.heartbeatResponse with
  | none => exact taken
  | some id =>
    have beats := onwardHeartbeat healthy sendable (some id) v taken.onward
    have sent := sendsHeartbeatResponse (c := c) (some id) v
    simp only [answerTestRequest]
    rcases run : sendHeartbeatResponse c (some id) v with ⟨halt | _,x⟩
    · rw [run] at beats
      exact ⟨by simp,beats⟩
    · rw [run] at beats sent
      exact taken.still beats (.sends sent) sent.phase

end
end FixCli.Session
