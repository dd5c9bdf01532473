import FixCli.AdminKeys
import FixCli.CounterBooks
import FixCli.Credentials
import FixCli.JournalWires
import FixCli.Letters
import FixCli.Retries

/-! What an actor sends whose store and socket answer: every message is journaled, written
and counted under the next number, and a submit that is on record sends nothing. -/
namespace FixCli.Session
open Lib Codec Store

structure Reliable (c : Ctx) : Prop extends PlainSender c where
  sendable : Sendable c
  store : ∀ tick, c.env.storeFault tick = .none
  socket : ∀ tick, c.env.ioFault tick = .none

structure Registered (content : Bytes → Bytes) (j : Journal) : Prop where
  ledger : Ledger j
  spent : ∀ (requestId : Bytes) (record : CommandRecord), j.commands[requestId]? = some record → record.msgSeqNum < j.nextOut
  submitted : ∀ (requestId : Bytes) (record : CommandRecord), j.commands[requestId]? = some record →
    ¬ ascii "session:" <+: requestId → record.fingerprint = content requestId
  unsent : ∀ kind o e, j.nextOut ≤ o → j.commands[adminKey kind o e]? = none

structure Solid (content : Bytes → Bytes) (w : World) : Prop extends InStep w where
  registered : Registered content w.journal
  empty : w.gapBuffer = ∅

def calm : Event → Prop
  | .phaseChanged phase => phase ≠ .recovering ∧ phase ≠ .blocked
  | .protocolError _ => False
  | _ => True

structure Speaks (content : Bytes → Bytes) (w : World) (spoken : List Bytes) (v : World) : Prop extends Solid content v where
  trace : ∃ new, v.trace = new ++ w.trace ∧ new.filterMap handedWire = spoken ∧ ∀ event ∈ new, calm event
  counted : v.nextOut = w.nextOut + spoken.length
  heard : v.nextIn = w.nextIn
  phase : v.phase = w.phase
  sent : sentWires v.journal = sentWires w.journal ++ spoken.reverse
  taken : takenWires v.journal = takenWires w.journal

structure Hushed (w v : World) : Prop where
  journal : v.journal = w.journal
  nextOut : v.nextOut = w.nextOut
  nextIn : v.nextIn = w.nextIn
  nextEvent : v.nextEvent = w.nextEvent
  gapBuffer : v.gapBuffer = w.gapBuffer
  trace : ∃ new, v.trace = new ++ w.trace ∧ ∀ event ∈ new, calm event ∧ handedWire event = none

section

variable {content : Bytes → Bytes} {j : Journal} {commit : OutboundCommit}

theorem adminKeyOwn (kind : Bytes) (o e : Nat) : ascii "session:" <+: adminKey kind o e :=
  ⟨kind ++ ascii ":" ++ decimal o ++ ascii ":" ++ decimal e,by simp [adminKey]⟩

def Named (content : Bytes → Bytes) (j : Journal) (requestId fingerprint : Bytes) : Prop :=
  (∃ kind e, requestId = adminKey kind j.nextOut e) ∨
    ¬ ascii "session:" <+: requestId ∧ fingerprint = content requestId

theorem Registered.outbound (h : Registered content j) (expected : commit.msgSeqNum = j.nextOut)
    (named : Named content j commit.requestId commit.fingerprint) : Registered content (withOutbound j commit) where
  ledger := h.ledger.outbound expected
  spent requestId record found := by
    change record.msgSeqNum < j.nextOut + 1
    simp only [withOutbound,Std.ExtTreeMap.getElem?_insert] at found
    split at found
    · cases found
      exact Nat.lt_succ_of_le (Nat.le_of_eq expected)
    · exact Nat.lt_succ_of_lt (h.spent requestId record found)
  submitted requestId record found own := by
    simp only [withOutbound,Std.ExtTreeMap.getElem?_insert] at found
    split at found
    · rename_i same
      cases found
      have id : commit.requestId = requestId := by simpa using same
      subst id
      rcases named with ⟨kind,e,key⟩ | ⟨-,same⟩
      · rw [key] at own
        exact absurd (adminKeyOwn kind j.nextOut e) own
      · exact same
    · exact h.submitted requestId record found own
  unsent kind o e later := by
    have later : j.nextOut + 1 ≤ o := later
    simp only [withOutbound,Std.ExtTreeMap.getElem?_insert]
    rw [if_neg]
    · exact h.unsent kind o e (by omega)
    · intro same
      have id : commit.requestId = adminKey kind o e := by simpa using same
      rcases named with ⟨other,d,key⟩ | ⟨own,-⟩
      · have number := (adminKeyInjective (key.symm.trans id)).2.1
        omega
      · exact own (id ▸ adminKeyOwn kind o e)

theorem Registered.written (h : Registered content j) {command : CommandRecord} {outbound : OutboundRecord}
    (found : j.commands[command.requestId]? = some command) (sent : j.outbound[command.msgSeqNum]? = some outbound) :
    Registered content (withWritten j command outbound) where
  ledger := h.ledger.written sent
  spent requestId record here := by
    change record.msgSeqNum < j.nextOut
    simp only [withWritten,Std.ExtTreeMap.getElem?_insert] at here
    split at here
    · cases here
      exact h.spent _ command found
    · exact h.spent requestId record here
  submitted requestId record here own := by
    simp only [withWritten,Std.ExtTreeMap.getElem?_insert] at here
    split at here
    · rename_i same
      cases here
      have id : command.requestId = requestId := by simpa using same
      exact h.submitted requestId command (id ▸ found) own
    · exact h.submitted requestId record here own
  unsent kind o e later := by
    have free := h.unsent kind o e later
    simp only [withWritten,Std.ExtTreeMap.getElem?_insert]
    rw [if_neg]
    · exact free
    · intro same
      have id : command.requestId = adminKey kind o e := by simpa using same
      rw [← id,found] at free
      cases free

theorem Registered.books (h : Registered content j) {k : Journal} (commands : k.commands = j.commands)
    (outbound : k.outbound = j.outbound) (nextOut : k.nextOut = j.nextOut) : Registered content k :=
  ⟨h.ledger.books commands outbound nextOut,by rw [commands,nextOut]; exact h.spent,by rw [commands]; exact h.submitted,
    by rw [commands,nextOut]; exact h.unsent⟩

end

section

variable {c : Ctx} {content : Bytes → Bytes} {w v : World}

open Prog

namespace Speaks

theorem trans {u : World} {spoken more : List Bytes} (h : Speaks content w spoken v) (g : Speaks content v more u) :
    Speaks content w (more ++ spoken) u := by
  obtain ⟨new,trace,wires,quiet⟩ := h.trace
  obtain ⟨newer,trace',wires',quiet'⟩ := g.trace
  refine ⟨g.toSolid,⟨newer ++ new,by rw [trace',trace,List.append_assoc],?_,?_⟩,?_,g.heard.trans h.heard,
    g.phase.trans h.phase,by rw [g.sent,h.sent,List.append_assoc,List.reverse_append],g.taken.trans h.taken⟩
  · rw [List.filterMap_append,wires,wires']
  · exact fun event mem => (List.mem_append.mp mem).elim (quiet' event) (quiet event)
  · rw [g.counted,h.counted,List.length_append]
    omega

end Speaks

namespace Hushed

theorem trans {u : World} (h : Hushed w v) (g : Hushed v u) : Hushed w u := by
  obtain ⟨new,trace,quiet⟩ := h.trace
  obtain ⟨newer,trace',quiet'⟩ := g.trace
  refine ⟨g.journal.trans h.journal,g.nextOut.trans h.nextOut,g.nextIn.trans h.nextIn,g.nextEvent.trans h.nextEvent,
    g.gapBuffer.trans h.gapBuffer,newer ++ new,by rw [trace',trace,List.append_assoc],?_⟩
  exact fun event mem => (List.mem_append.mp mem).elim (quiet' event) (quiet event)

theorem solid (h : Hushed w v) (solid : Solid content w) : Solid content v := by
  refine ⟨⟨?_,?_,?_⟩,by rw [h.journal]; exact solid.registered,h.gapBuffer.trans solid.empty⟩
  · rw [h.nextOut,h.journal,solid.nextOut]
  · rw [h.nextIn,h.journal,solid.nextIn]
  · rw [h.nextEvent,h.journal,solid.nextEvent]

theorem speaks (h : Hushed w v) (solid : Solid content w) (phase : v.phase = w.phase) : Speaks content w [] v := by
  obtain ⟨new,trace,quiet⟩ := h.trace
  refine ⟨h.solid solid,⟨new,trace,?_,fun event mem => (quiet event mem).1⟩,h.nextOut,h.nextIn,phase,
    by rw [h.journal]; simp,by rw [h.journal]⟩
  exact List.filterMap_eq_nil_iff.mpr fun event mem => (quiet event mem).2

end Hushed

theorem Speaks.ticked (solid : Solid content w) (tick : Nat) : Speaks content w [] {w with tick := tick} :=
  Hushed.speaks ⟨rfl,rfl,rfl,rfl,rfl,[],rfl,by simp⟩ solid rfl

def wrote (c : Ctx) (path : SendPath) (wire : Bytes) (w : World) : World :=
  {w with
    trace := .wrote path wire w.journal :: .logged (.outgoing wire) :: w.trace
    tick := w.tick + 2
    lastOutbound := c.env.instant (w.tick + 1)}

theorem writeWireRun (reliable : Reliable c) (path : SendPath) (wire : Bytes) (w : World) :
    writeWire c path wire w = (.ok (),wrote c path wire w) := by
  simp only [writeWire,emit,bindRun,changeRun,socketWrite,reliable.socket,handed,now]
  rfl

def Remarks (after : Act Unit) : Prop :=
  ∀ w, ∃ new, after w = (.ok (),{w with trace := new ++ w.trace}) ∧ ∀ event ∈ new, calm event ∧ handedWire event = none

theorem remarksNothing : Remarks (pure ()) := fun _ => ⟨[],rfl,by simp⟩

theorem remarksInfo (text : Bytes) : Remarks (info text) := fun _ => ⟨[_],rfl,by simp [calm,handedWire]⟩

def answered (op : StoreOp) (reply : StoreReply) (k : Journal) (w : World) : World :=
  {w with journal := k, trace := .stored op (.ok reply) :: w.trace, tick := w.tick + 1}

theorem storeRun (reliable : Reliable c) (op : StoreOp) {reply : StoreReply} {k : Journal}
    (run : apply w.journal op = (.ok reply,k)) : storeApply c op w = (.ok reply,answered op reply k w) := by
  rw [storeReturns (reliable.store w.tick) (congrArg Prod.fst run)]
  simp only [applied,run,answered]

theorem sentSpeaks (reliable : Reliable c) (solid : Solid content w) (commit : OutboundCommit) (path : SendPath)
    {wire : Bytes} (copied : commit.wire = wire) {after : Act Unit} (remarks : Remarks after)
    (expected : commit.msgSeqNum = w.nextOut)
    (fresh : w.journal.commands[commit.requestId]? = none)
    (named : Named content w.journal commit.requestId commit.fingerprint) : ∃ u v x,
      storeApply c (.commitOutbound commit) w = (.ok (.command (journaledCommand commit)),u) ∧
      after (wrote c path wire u) = (.ok (),v) ∧
      storeApply c (.markOutboundWritten ⟨commit.requestId,commit.msgSeqNum⟩) v =
        (.ok (.command {journaledCommand commit with phase := .written}),x) ∧
      Speaks content w [wire] {x with nextOut := commit.msgSeqNum + 1} := by
  have number : commit.msgSeqNum = w.journal.nextOut := expected.trans solid.nextOut
  have found : (withOutbound w.journal commit).commands[commit.requestId]? = some (journaledCommand commit) := by
    simp [withOutbound]
  have sent : (withOutbound w.journal commit).outbound[commit.msgSeqNum]? =
      some ⟨journaledCommand commit,commit.wire⟩ := by
    simp [withOutbound]
  have books : Registered content (withWritten (withOutbound w.journal commit) (journaledCommand commit)
      ⟨journaledCommand commit,commit.wire⟩) := (solid.registered.outbound number named).written found sent
  have first := storeRun (w := w) reliable (.commitOutbound commit) (commitOutboundFresh fresh number)
  obtain ⟨new,remarked,quiet⟩ := remarks (wrote c path wire (answered (.commitOutbound commit)
    (.command (journaledCommand commit)) (withOutbound w.journal commit) w))
  refine ⟨_,_,_,first,remarked,storeRun reliable _ (markOutboundWrites found rfl sent),?_⟩
  let ahead : List Event := [.wrote path wire (withOutbound w.journal commit),.logged (.outgoing wire),
    .stored (.commitOutbound commit) (.ok (.command (journaledCommand commit)))]
  let marked : Event := .stored (.markOutboundWritten ⟨commit.requestId,commit.msgSeqNum⟩)
    (.ok (.command {journaledCommand commit with phase := .written}))
  have joined : new ++ (ahead ++ w.trace) = new ++ ahead ++ w.trace := (List.append_assoc _ _ _).symm
  refine ⟨⟨⟨congrArg (· + 1) number,solid.nextIn,solid.nextEvent⟩,books,solid.empty⟩,
    ⟨marked :: (new ++ ahead),congrArg (marked :: ·) joined,?_,?_⟩,congrArg (· + 1) expected,rfl,rfl,?_,rfl⟩
  · have none : new.filterMap handedWire = [] := List.filterMap_eq_nil_iff.mpr fun event mem => (quiet event mem).2
    change (new ++ ahead).filterMap handedWire = [wire]
    rw [List.filterMap_append,none]
    rfl
  · intro event mem
    simp only [ahead,List.mem_cons,List.mem_append,List.not_mem_nil,or_false] at mem
    rcases mem with rfl | mem | rfl | rfl | rfl
    · trivial
    · exact (quiet event mem).1
    all_goals trivial
  · change sentWires (withWritten (withOutbound w.journal commit) (journaledCommand commit)
      ⟨journaledCommand commit,commit.wire⟩) = _
    rw [sentWritten sent,sentOutbound solid.registered.ledger number,copied]
    rfl

theorem adminSpeaks (reliable : Reliable c) (solid : Solid content w) (send : AdminSend) {after : Act Unit}
    (remarks : Remarks after) (copied : send.journalWire = send.wire)
    (key : ∃ kind e, send.requestId = adminKey kind w.nextOut e) :
    ∃ v, sendAdmin c send after w = (.ok (),v) ∧ Speaks content w [send.wire] v := by
  obtain ⟨kind,e,key⟩ := key
  have fresh : w.journal.commands[send.requestId]? = none := by
    rw [key]
    exact solid.registered.unsent kind _ e (Nat.le_of_eq solid.nextOut.symm)
  obtain ⟨u,v,x,commits,remarked,marks,speaks⟩ := sentSpeaks reliable solid
    ⟨send.requestId,send.fingerprint,[],w.nextOut,send.journalWire⟩ send.path copied remarks rfl fresh
    (.inl ⟨kind,e,solid.nextOut ▸ key⟩)
  refine ⟨_,?_,speaks⟩
  unfold sendAdmin
  rw [bindReturns (stateRun w),bindReturns commits]
  dsimp only
  rw [bindReturns (writeWireRun reliable _ _ _),bindReturns remarked]
  exact bindReturns marks

theorem letterMade (reliable : Reliable c) (w : World) (msgType : Bytes) (body : List Field) (typed : SOH ∉ msgType)
    (plain : ∀ f ∈ body, sohFree f) (tags : ∀ f ∈ body, f.tag ≠ 0 ∧ f.tag ∉ [8, 9, 10]) : ∃ wire,
      encodeOutbound c (headerFields msgType c.config.senderCompId c.config.targetCompId w.nextOut
        (c.env.sendingTime w.tick) ++ body) = .ok wire ∧
      Letter c.config.beginString c.config.senderCompId c.config.targetCompId w.nextOut msgType body wire := by
  obtain ⟨wire,encodes⟩ := letterEncodes reliable.sendable msgType c.config.senderCompId c.config.targetCompId w.nextOut
    (c.env.sendingTime w.tick) body tags
  exact ⟨wire,by rw [encodeOutbound,encodes],⟨_,reliable.clock _,encodes⟩,typed,plain⟩

theorem encodedRun {α : Type} {fields : List Field} {wire : Bytes} (encodes : encodeOutbound c fields = .ok wire)
    (next : Bytes → Act α) (w : World) :
    (do let wire ← Prog.ofExcept (inSession (encodeOutbound c fields)); next wire : Act α) w = next wire w := by
  rw [encodes]
  rfl

theorem heartbeatSpeaks (reliable : Reliable c) (solid : Solid content w) : ∃ wire v,
    sendHeartbeat c w = (.ok (),v) ∧ Speaks content w [wire] v ∧
      Letter c.config.beginString c.config.senderCompId c.config.targetCompId w.nextOut (ascii "0") [] wire := by
  obtain ⟨wire,encodes,letter⟩ := letterMade reliable w (ascii "0") [] (by decide) (by simp) (by simp)
  have ticked := Speaks.ticked solid (w.tick + 1)
  obtain ⟨v,run,speaks⟩ := adminSpeaks reliable ticked.toSolid
    ⟨.heartbeat,adminKey (ascii "heartbeat") w.nextOut w.nextEvent,ascii "admin:0:" ++ decimal w.nextOut,wire,wire,
      "heartbeat commit returned the wrong record type"⟩ remarksNothing rfl ⟨_,_,rfl⟩
  refine ⟨wire,v,?_,ticked.trans speaks,letter⟩
  exact (bindReturns (headerRun c _ w)).trans ((encodedRun encodes _ _).trans ((bindReturns (stateRun _)).trans run))

theorem testRequestSpeaks (reliable : Reliable c) (solid : Solid content w) (timeout : Nat) : ∃ wire v id,
    sendTestRequest c timeout w = (.ok (),v) ∧ Speaks content w [wire] v ∧
      Letter c.config.beginString c.config.senderCompId c.config.targetCompId w.nextOut (ascii "1") [⟨112,id⟩] wire := by
  have plain : SOH ∉ ascii "TEST-" ++ decimal w.nextOut := fun mem =>
    (List.mem_append.mp mem).elim (by decide) (sohNotIn w.nextOut)
  obtain ⟨wire,encodes,letter⟩ := letterMade reliable w (ascii "1")
    [⟨112,ascii "TEST-" ++ decimal w.nextOut⟩] (by decide) (by simpa [sohFree] using plain) (by simp)
  have ticked := Speaks.ticked solid (w.tick + 1)
  obtain ⟨v,run,speaks⟩ := adminSpeaks reliable ticked.toSolid
    ⟨.testRequest,adminKey (ascii "test-request") w.nextOut w.nextEvent,
      ascii "admin:1:" ++ decimal w.nextOut ++ ascii ":" ++ (ascii "TEST-" ++ decimal w.nextOut),wire,wire,
      "TestRequest commit returned the wrong record type"⟩ remarksNothing rfl ⟨_,_,rfl⟩
  have clock : Speaks content v [] {v with
      testRequest := some ⟨ascii "TEST-" ++ decimal w.nextOut,c.env.instant v.tick + timeout⟩, tick := v.tick + 1} :=
    Hushed.speaks ⟨rfl,rfl,rfl,rfl,rfl,[],rfl,by simp⟩ speaks.toSolid rfl
  refine ⟨wire,_,_,?_,(ticked.trans speaks).trans clock,letter⟩
  exact (bindReturns (stateRun w)).trans ((bindReturns (headerRun c _ w)).trans ((encodedRun encodes _ _).trans
    (bindReturns run)))

theorem logoutSpeaks (reliable : Reliable c) (solid : Solid content w) (may : mayLogout w.phase = true) {text : Option Bytes}
    (plain : ∀ value ∈ text, SOH ∉ value) : ∃ wire v, sendLogout c text w = (.ok (),loggingOut v) ∧
      Speaks content w [wire] v ∧
      encodeOutbound c (headerFields (ascii "5") c.config.senderCompId c.config.targetCompId w.nextOut
        (c.env.sendingTime w.tick) ++ (text.map fun text => (⟨58,text⟩ : Field)).toList) = .ok wire ∧
      Letter c.config.beginString c.config.senderCompId c.config.targetCompId w.nextOut (ascii "5")
        (text.map fun text => (⟨58,text⟩ : Field)).toList wire := by
  obtain ⟨wire,encodes,letter⟩ := letterMade reliable w (ascii "5")
    (text.map fun text => (⟨58,text⟩ : Field)).toList (by decide)
    (by cases text <;> simp [sohFree]; exact plain _ rfl) (by cases text <;> simp)
  have ticked := Speaks.ticked solid (w.tick + 1)
  obtain ⟨v,run,speaks⟩ := adminSpeaks reliable ticked.toSolid
    ⟨.logout,adminKey (ascii "logout") w.nextOut w.nextEvent,ascii "admin:5:" ++ decimal w.nextOut,wire,wire,
      "Logout commit returned the wrong record type"⟩ remarksNothing rfl ⟨_,_,rfl⟩
  refine ⟨wire,v,?_,ticked.trans speaks,encodes,letter⟩
  unfold sendLogout
  rw [bindReturns (stateRun w),iteRun,if_neg (by simp [may])]
  exact (bindReturns (headerRun c _ w)).trans ((encodedRun encodes _ _).trans ((bindReturns (stateRun _)).trans
    (bindReturns run)))

theorem registeredBlank {j : Journal} (ledger : Ledger j) (none : j.commands = ∅) : Registered content j :=
  ⟨ledger,fun _ _ found => by simp [none] at found,fun _ _ found => by simp [none] at found,fun _ _ _ _ => by simp [none]⟩

theorem solidEntering (content : Bytes → Bytes) (c : Ctx) (tick : Nat) : Solid content (entering c ⟨.empty,[],tick⟩) :=
  ⟨⟨rfl,rfl,rfl⟩,registeredBlank ledgerEmpty rfl,rfl⟩

theorem resetSpeaks (content : Bytes → Bytes) (reliable : Reliable c) (tick : Nat) : ∃ v,
    resetIfConfigured c (entering c ⟨.empty,[],tick⟩) = (.ok (),v) ∧ Speaks content (entering c ⟨.empty,[],tick⟩) [] v := by
  have solid := solidEntering content c tick
  unfold resetIfConfigured
  split
  · refine ⟨_,resetRun (reliable.store _),⟨⟨rfl,rfl,rfl⟩,?_,rfl⟩,⟨[_, _, _],rfl,rfl,?_⟩,rfl,rfl,rfl,?_,?_⟩
    · exact registeredBlank (ledgerApply ledgerEmpty .resetSequences) rfl
    · simp [calm]
    · rfl
    · rfl
  · exact ⟨_,rfl,Speaks.ticked solid _⟩

def logonSentAt (v : World) : World := {v with phase := .logonSent, trace := .phaseChanged .logonSent :: v.trace}

theorem redactsNothing (noFields : c.logonFields = []) {fields : List Field} (free : ∀ f ∈ fields, f.tag ∉ [553, 554, 925]) :
    fields.map (redacted c) = fields := by
  have each : ∀ f ∈ fields, redacted c f = f := by
    intro f mem
    have other := free f mem
    simp only [redacted,isSensitiveTag,noFields,List.any_nil,Bool.or_false,decide_eq_true_eq,if_neg other]
  rw [List.map_congr_left each,List.map_id']

theorem logonBodyPlain (noFields : c.logonFields = []) : ∀ f ∈ logonBody c, f.tag ∈ [98, 108, 141] ∧ sohFree f := by
  intro f mem
  simp only [logonBody,noFields,List.append_nil,List.mem_append,List.mem_cons,List.not_mem_nil,or_false] at mem
  rcases mem with (rfl | rfl) | flag
  · exact ⟨by simp,(by decide : SOH ∉ ascii "0")⟩
  · exact ⟨by simp,sohNotIn _⟩
  · split at flag
    · rw [List.mem_singleton.mp flag]
      exact ⟨by simp,(by decide : SOH ∉ ascii "Y")⟩
    · cases flag

theorem logonSpeaks (content : Bytes → Bytes) (reliable : Reliable c) (noFields : c.logonFields = []) (tick : Nat) :
    ∃ wire v body, logon c (entering c ⟨.empty,[],tick⟩) = (.ok (),logonSentAt v) ∧
      Speaks content (entering c ⟨.empty,[],tick⟩) [wire] v ∧
      Letter c.config.beginString c.config.senderCompId c.config.targetCompId 1 (ascii "A") body wire := by
  obtain ⟨u,resets,quiet⟩ := resetSpeaks content reliable tick
  have first : u.nextOut = 1 := quiet.counted
  have body := logonBodyPlain noFields
  have usable : ∀ tag ∈ ([98, 108, 141] : List UInt32), (tag ≠ 0 ∧ tag ∉ [8, 9, 10]) ∧ tag ∉ [553, 554, 925] := by simp
  obtain ⟨wire,encodes,letter⟩ := letterMade reliable u (ascii "A") _ (by decide) (fun f mem => (body f mem).2)
    fun f mem => (usable _ (body f mem).1).1
  have copies : encodeOutbound c ((headerFields (ascii "A") c.config.senderCompId c.config.targetCompId u.nextOut
      (c.env.sendingTime u.tick) ++ logonBody c).map (redacted c)) = .ok wire := by
    rw [redactsNothing noFields]
    · exact encodes
    · intro f mem
      rcases List.mem_append.mp mem with header | behind
      · simp only [headerFields,List.mem_cons,List.not_mem_nil,or_false] at header
        rcases header with rfl | rfl | rfl | rfl | rfl <;> simp
      · exact (usable _ (body f behind).1).2
  have ticked := Speaks.ticked quiet.toSolid (u.tick + 1)
  obtain ⟨v,run,speaks⟩ := adminSpeaks reliable ticked.toSolid
    ⟨.logon,adminKey (ascii "logon") u.nextOut u.nextEvent,ascii "admin:A:" ++ decimal u.nextOut,wire,wire,
      "outbound commit returned an inbound record"⟩ (remarksInfo (ascii "Sent logon request")) rfl ⟨_,_,rfl⟩
  refine ⟨wire,v,_,?_,(quiet.trans ticked).trans speaks,first ▸ letter⟩
  have sends : sendLogon c (entering c ⟨.empty,[],tick⟩) = (.ok (),v) := by
    unfold sendLogon
    rw [noFields]
    refine (bindReturns (pureRun () _)).trans ((bindReturns resets).trans ((bindReturns (headerRun c _ u)).trans ?_))
    exact (encodedRun encodes _ _).trans ((encodedRun copies _ _).trans ((bindReturns (stateRun _)).trans run))
  exact bindReturns sends

structure Ordered (content : Bytes → Bytes) (request : ApplicationRequest) : Prop extends PlainRequest request where
  msgType : request.msgType ∈ [ascii "D", ascii "F", ascii "G"]
  usable : ∀ f ∈ request.fields, f.tag ≠ 0
  own : ¬ ascii "session:" <+: request.requestId
  content : request.fingerprint = content request.requestId

structure Submits (c : Ctx) (content : Bytes → Bytes) (w : World) (outcome : Except Halt CommandRecord × World) : Prop where
  gentle : ∀ halt, outcome.1 = .error halt → ∃ error, halt = .fail error ∧ error.isFatal = false
  spoken : Speaks content w [] outcome.2 ∨ w.phase = .established ∧ ∃ wire msgType body, Speaks content w [wire] outcome.2 ∧
    Letter c.config.beginString c.config.senderCompId c.config.targetCompId w.nextOut msgType body wire ∧
      msgType ∈ [ascii "D", ascii "F", ascii "G"] ∧ ∃ f ∈ body, f.tag = 11

variable {request : ApplicationRequest}

theorem orderSpeaks (reliable : Reliable c) (solid : Solid content w) (ordered : Ordered content request)
    (fresh : w.journal.commands[request.requestId]? = none) (wire : Bytes) :
    ∃ v record, commitSubmit c request w.nextOut wire w = (.ok record,v) ∧ Speaks content w [wire] v := by
  obtain ⟨u,v,x,commits,remarked,marks,speaks⟩ := sentSpeaks reliable solid
    ⟨request.requestId,request.fingerprint,request.clOrdId,w.nextOut,wire⟩ .application rfl remarksNothing rfl fresh
    (.inr ⟨ordered.own,ordered.content⟩)
  cases remarked
  refine ⟨_,⟨request.requestId,request.fingerprint,request.clOrdId,w.nextOut,.written⟩,?_,speaks⟩
  unfold commitSubmit
  rw [bindReturns commits]
  dsimp only [journaledCommand]
  rw [if_neg (Nat.lt_irrefl _),if_neg (by simp),bindReturns (writeWireRun reliable _ _ _)]
  exact bindReturns marks

theorem submitSubmits (reliable : Reliable c) (solid : Solid content w) (ordered : Ordered content request) :
    Submits c content w (submitApplication c request w) := by
  have still (tick : Nat) := Speaks.ticked solid tick
  by_cases established : w.phase = .established
  swap
  · unfold submitApplication
    rw [bindReturns (stateRun w),iteRun,if_pos established]
    exact ⟨fun halt same => ⟨_,by cases same; rfl,rfl⟩,.inl (still w.tick)⟩
  by_cases acceptable : Acceptable request
  swap
  · unfold submitApplication
    rw [bindReturns (stateRun w),iteRun,if_neg (by simp [established])]
    rcases refusesUnacceptable (c := c) acceptable w with ⟨text,invalid⟩ | ⟨valid,text,tick,run⟩
    · rw [invalid]
      exact ⟨fun halt same => ⟨_,by cases same; rfl,rfl⟩,.inl (still w.tick)⟩
    · rw [valid,inSession,ofExceptOk,bindReturns (pureRun _ w),bindStops run]
      exact ⟨fun halt same => ⟨_,by cases same; rfl,rfl⟩,.inl (still tick)⟩
  have wellFormed : WellFormed request := ⟨acceptable,ordered.usable⟩
  obtain ⟨fields,tick,prepared⟩ := acceptable.prepares (c := c) w
  obtain ⟨wire,encodes⟩ := wellFormed.encodes reliable.sendable prepared
  have solid' := (still tick).toSolid
  rw [submitRun established acceptable.valid prepared,encodedRun encodes]
  cases found : w.journal.commands[request.requestId]? with
  | some record =>
    have same : record.fingerprint = request.fingerprint :=
      (solid.registered.submitted _ record found ordered.own).trans ordered.content.symm
    have old : record.msgSeqNum < w.nextOut := solid.nextOut ▸ solid.registered.spent _ record found
    obtain ⟨op,silent,run,kept⟩ := commitRun (w := {w with tick := tick}) (reliable.store tick) found same old wire
    have retried : Speaks content {w with tick := tick} [] (applied op {w with tick := tick}) :=
      Hushed.speaks ⟨kept,rfl,rfl,rfl,rfl,[_],rfl,by simp [calm,silent]⟩ solid' rfl
    rw [run]
    exact ⟨fun halt bad => (by cases bad),.inl ((still tick).trans retried)⟩
  | none =>
    obtain ⟨v,record,run,speaks⟩ := orderSpeaks (w := {w with tick := tick}) reliable solid' ordered found wire
    obtain ⟨⟨rest,rfl,named,-⟩,-⟩ := submitShape prepared
    have plain := (submitApplicationFields reliable.toPlainSender ordered.toPlainRequest acceptable.valid prepared).plain
    have typed : SOH ∉ request.msgType := by
      have known := ordered.msgType
      simp only [List.mem_cons,List.not_mem_nil,or_false] at known
      rcases known with same | same | same <;> rw [same] <;> decide
    change commitSubmit c request w.nextOut wire {w with tick := tick} = _ at run
    rw [run]
    refine ⟨fun halt bad => (by cases bad),.inr ⟨established,wire,request.msgType,rest,(still tick).trans speaks,?_,
      ordered.msgType,_,named,rfl⟩⟩
    exact ⟨⟨_,reliable.clock _,encodedOutbound encodes⟩,typed,fun f mem => plain f (List.mem_append_right _ mem)⟩

end
end FixCli.Session
