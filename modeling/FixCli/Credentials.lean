import FixCli.CodecRoundTrip
import FixCli.TwoRuns

/-! What the values of the custom Logon fields reach: the socket and, through the
helper that writes there, the message log; never the store. -/
namespace FixCli.Session
open Lib Codec Store Prog

def Agree {β : Type} (shown : Event → Option β) (t t' : List Event) : Prop := t.filterMap shown = t'.filterMap shown

def Differ {β : Type} (shown : Event → Option β) (t t' : List Event) : Prop := t.filterMap shown ≠ t'.filterMap shown

def storeOp : Event → Option StoreOp
  | .stored op _ => some op
  | _ => none

def logRecord : Event → Option LogRecord
  | .logged record => some record
  | _ => none

section

variable {β : Type} {shown : Event → Option β}

instance : Follows (Agree shown) where
  cons event t t' h := by
    unfold Agree at h ⊢
    rw [List.filterMap_cons,List.filterMap_cons,h]

instance : Follows (Differ shown) where
  cons event t t' h := by
    unfold Differ at h ⊢
    rw [List.filterMap_cons,List.filterMap_cons]
    cases shown event with
    | none => exact h
    | some b => exact fun same => h (List.cons.inj same).2

end

def logonSend (w : World) (journalWire wire : Bytes) : AdminSend :=
  ⟨.logon,adminKey (ascii "logon") w.nextOut w.nextEvent,ascii "admin:A:" ++ decimal w.nextOut,
    journalWire,wire,"outbound commit returned an inbound record"⟩

def logonCommit (w : World) (journalWire : Bytes) : OutboundCommit :=
  ⟨adminKey (ascii "logon") w.nextOut w.nextEvent,ascii "admin:A:" ++ decimal w.nextOut,[],w.nextOut,journalWire⟩

def logged (record : LogRecord) (w : World) : World := {w with trace := .logged record :: w.trace}

def adminRest (c : Ctx) (send : AdminSend) (after : Act Unit) (msgSeqNum : Nat) : Act Unit := do
  socketWrite c send.path send.wire
  let at' ← now c
  Prog.change fun w => {w with lastOutbound := at'}
  after
  let _ ← storeApply c (.markOutboundWritten ⟨send.requestId,msgSeqNum⟩)
  Prog.change fun w => {w with nextOut := msgSeqNum + 1}

section

variable {c : Ctx} (send : AdminSend) {after : Act Unit} {w v : World}

theorem adminBehind {command : CommandRecord} (stored : storeApply c (.commitOutbound
      ⟨send.requestId,send.fingerprint,[],w.nextOut,send.journalWire⟩) w = (.ok (.command command),v)) :
    sendAdmin c send after w = adminRest c send after command.msgSeqNum (logged (.outgoing send.wire) v) := by
  unfold sendAdmin adminRest writeWire
  rw [bindReturns (stateRun w),bindReturns stored]
  simp only [bind_assoc]
  rfl

theorem adminStops {halt : Halt} (stored : storeApply c (.commitOutbound
      ⟨send.requestId,send.fingerprint,[],w.nextOut,send.journalWire⟩) w = (.error halt,v)) :
    sendAdmin c send after w = (.error halt,v) := by
  unfold sendAdmin
  rw [bindReturns (stateRun w),bindStops stored]

end

section

variable {T : List Event → List Event → Prop} [Follows T] {c : Ctx} {fields : List Field}

theorem adminApart (fields : List Field) {w : World} {journalWire wire wire' : Bytes}
    (apart : ∀ t, T (.logged (.outgoing wire) :: t) (.logged (.outgoing wire') :: t))
    (writes : ∀ j t t', T t t' → T (.wrote .logon wire j :: t) (.wrote .logon wire' j :: t'))
    {after : Act Unit} (alike : Twice (Like T) after after) {r : Except Halt StoreReply} {v : World}
    (stored : storeApply c (.commitOutbound (logonCommit w journalWire)) w = (r,v)) :
    ((∃ halt, r = .error halt) ∧ sendAdmin c (logonSend w journalWire wire) after w =
        sendAdmin (c.withFields fields) (logonSend w journalWire wire') after w) ∨
    ((∃ reply, r = .ok reply) ∧ Both (Like T) (sendAdmin c (logonSend w journalWire wire) after w)
        (sendAdmin (c.withFields fields) (logonSend w journalWire wire') after w)) := by
  cases r with
  | error halt =>
    refine .inl ⟨⟨halt,rfl⟩,?_⟩
    rw [adminStops (logonSend w journalWire wire) stored]
    exact (adminStops (c := c.withFields fields) (logonSend w journalWire wire') stored).symm
  | ok reply =>
    obtain ⟨command,rfl⟩ : ∃ command, reply = .command command := by
      rcases commitOutboundSource (storeReturned stored).2.1 with ⟨command,-,-,is,-⟩ | ⟨-,-,is,-⟩
      · exact ⟨command,is⟩
      · exact ⟨_,is⟩
    refine .inr ⟨⟨_,rfl⟩,?_⟩
    rw [adminBehind (logonSend w journalWire wire) stored,
      adminBehind (c := c.withFields fields) (logonSend w journalWire wire') stored]
    have rest : Twice (Like T) (adminRest c (logonSend w journalWire wire) after command.msgSeqNum)
        (adminRest (c.withFields fields) (logonSend w journalWire wire') after command.msgSeqNum) :=
      Twice.bind (likeSocket writes) fun _ => Twice.bind likeNow fun _ =>
        Twice.bind (likeChange (fun _ _ => rfl) (fun _ => rfl)) fun _ => Twice.bind alike fun _ =>
          Twice.bind (likeStore _) fun _ => likeChange (fun _ _ => rfl) (fun _ => rfl)
    exact rest _ _ ⟨_,rfl,apart v.trace⟩

end

section

variable {c : Ctx} {fields : List Field}

theorem redactedAlike (tags : fields.map Field.tag = c.logonFields.map Field.tag) (header : List Field) :
    (header ++ logonBody (c.withFields fields)).map (redacted (c.withFields fields)) =
      (header ++ logonBody c).map (redacted c) := by
  have same : redacted (c.withFields fields) = redacted c := by
    funext field
    simp only [redacted,sameSensitive tags]
  have hidden : ∀ fs : List Field, (∀ f ∈ fs, isSensitiveTag c f.tag = true) →
      fs.map (redacted c) = (fs.map Field.tag).map fun tag => ⟨tag,ascii "<redacted>"⟩ := by
    intro fs all
    rw [List.map_map]
    exact List.map_congr_left fun f mem => if_pos (all f mem)
  have sensitive : ∀ f ∈ c.logonFields, isSensitiveTag c f.tag = true := by
    intro f mem
    simp only [isSensitiveTag,Bool.or_eq_true,List.any_eq_true]
    exact .inr ⟨f,mem,beq_self_eq_true _⟩
  have sensitive' : ∀ f ∈ fields, isSensitiveTag c f.tag = true := by
    intro f mem
    rw [← sameSensitive tags]
    simp only [isSensitiveTag,Bool.or_eq_true,List.any_eq_true]
    exact .inr ⟨f,mem,beq_self_eq_true _⟩
  simp only [same,logonBody,List.map_append,hidden _ sensitive,hidden _ sensitive',tags]

theorem redactedTags (c : Ctx) (fs : List Field) : (fs.map (redacted c)).map Field.tag = fs.map Field.tag := by
  rw [List.map_map]
  refine List.map_congr_left fun f _ => ?_
  simp only [Function.comp_apply,redacted]
  split <;> rfl

theorem bodyTags (tags : fields.map Field.tag = c.logonFields.map Field.tag) (header : List Field) :
    (header ++ logonBody (c.withFields fields)).map Field.tag = (header ++ logonBody c).map Field.tag := by
  simp only [logonBody,List.map_append,tags]

theorem acceptedPlain {fs : List Field} {seen : List UInt32} (ok : validateCustomLogonFields fs seen = .ok ()) :
    ∀ f ∈ fs, f.tag ∉ reservedLogonTags ∧ sohFree f := by
  induction fs generalizing seen with
  | nil => exact fun f mem => absurd mem List.not_mem_nil
  | cons field rest ih =>
    unfold validateCustomLogonFields at ok
    by_cases refused : field.tag ∈ reservedLogonTags ∨ SOH ∈ field.value ∨ field.tag ∈ seen
    · rw [if_pos refused] at ok
      cases ok
    · rw [if_neg refused] at ok
      simp only [not_or] at refused
      intro f mem
      rcases List.mem_cons.mp mem with rfl | later
      · exact ⟨refused.1,refused.2.1⟩
      · exact ih ok f later

theorem logonEncodes (accepted : validateCustomLogonFields c.logonFields [] = .ok ())
    (plain : ¬ (c.config.beginString = [] ∨ SOH ∈ c.config.beginString ∨ EQ ∈ c.config.beginString))
    (time sequence : Bytes) : ∃ wire, encodeMessage c.config.beginString
      ([⟨35,ascii "A"⟩,⟨49,c.config.senderCompId⟩,⟨56,c.config.targetCompId⟩,⟨34,sequence⟩,⟨52,time⟩] ++
        logonBody c) = .ok wire := by
  refine ⟨_,encodeFrom ⟨by simpa only [not_or] using plain,rfl,(encodeBodyExact _ _).mpr ⟨?_,rfl⟩⟩⟩
  intro f mem
  have custom : ∀ f ∈ c.logonFields, f.tag ≠ 0 ∧ f.tag ∉ [8, 9, 10] := by
    intro f mem
    have free := (acceptedPlain accepted f mem).1
    constructor
    · intro zero
      rw [zero] at free
      exact free (by decide)
    · intro managed
      refine free ?_
      simp only [reservedLogonTags,List.mem_cons,List.not_mem_nil,or_false] at managed ⊢
      tauto
  simp only [logonBody,List.mem_append,List.mem_cons,List.not_mem_nil,or_false] at mem
  rcases mem with (rfl | rfl | rfl | rfl | rfl) | ((rfl | rfl) | reset) | own
  all_goals try simp
  · split at reset
    · rw [List.mem_singleton.mp reset]
      decide
    · cases reset
  · simpa using custom f own

end

structure LogonJournaled (c : Ctx) (s : Shared) : Prop where
  recovered : c.env.storeFault s.tick = .none
  reset : c.config.resetOnLogon = true → c.env.storeFault (s.tick + 3) = .none
  plain : ¬ (c.config.beginString = [] ∨ SOH ∈ c.config.beginString ∨ EQ ∈ c.config.beginString)
  commit : c.env.storeFault (s.tick + if c.config.resetOnLogon then 5 else 4) = .none
  free : ∀ existing, (opened c s.journal).commands[adminKey (ascii "logon") (opened c s.journal).nextOut
      (opened c s.journal).nextEvent]? = some existing →
    existing.fingerprint = ascii "admin:A:" ++ decimal (opened c s.journal).nextOut

section

variable {c : Ctx} {s : Shared}

def prologue (c : Ctx) : Act (List Field) := do
  resetIfConfigured c
  standardHeader c (ascii "A")

structure AtLogon (c : Ctx) (s : Shared) (header : List Field) (v : World) : Prop where
  header : ∃ time sequence, header =
    [⟨35,ascii "A"⟩,⟨49,c.config.senderCompId⟩,⟨56,c.config.targetCompId⟩,⟨34,sequence⟩,⟨52,time⟩]
  nextOut : v.nextOut = v.journal.nextOut
  nextEvent : v.nextEvent = v.journal.nextEvent
  journal : v.journal = opened c s.journal
  tick : v.tick = s.tick + if c.config.resetOnLogon then 5 else 4
  reset : c.config.resetOnLogon = true → c.env.storeFault (s.tick + 3) = .none

def resetDone (w : World) : World :=
  {applied .resetSequences w with
    nextOut := 1
    nextIn := 1
    nextEvent := w.journal.nextEvent + 1
    trace := .logged (.info (ascii "Resetting sequence numbers to 1 (ResetSeqNumFlag=Y)")) :: .expecting 1 ::
      (applied .resetSequences w).trace}

theorem resetRun {w : World} (healthy : c.env.storeFault w.tick = .none) :
    resetOnLogon c w = (.ok (),resetDone w) := by
  have answer : (apply w.journal .resetSequences).1 = .ok (.sequencesReset (w.journal.nextEvent + 1)) := rfl
  unfold resetOnLogon
  rw [bindReturns (storeReturns healthy answer)]
  rfl

theorem storeStops (op : StoreOp) {w : World} (faulty : c.env.storeFault w.tick ≠ .none) :
    ∃ halt v, storeApply c op w = (.error halt,v) := by
  unfold storeApply
  cases fault : c.env.storeFault w.tick with
  | none => exact absurd fault faulty
  | _ => exact ⟨_,_,rfl⟩

theorem prologueRun : (∃ header v, prologue c (entering c s) = (.ok header,v) ∧ AtLogon c s header v) ∨
    (∃ halt v, prologue c (entering c s) = (.error halt,v)) ∧ c.config.resetOnLogon = true ∧
      c.env.storeFault (s.tick + 3) ≠ .none := by
  by_cases reset : c.config.resetOnLogon = true
  · have resets : prologue c = resetOnLogon c >>= fun _ => standardHeader c (ascii "A") := by
      rw [prologue,resetIfConfigured,if_pos reset]
    rw [resets]
    by_cases healthy : c.env.storeFault (s.tick + 3) = .none
    · refine .inl ⟨_,_,(bindReturns (resetRun healthy)).trans (headerRun _ _ _),⟨⟨_,_,rfl⟩,rfl,rfl,?_,?_,fun _ => healthy⟩⟩
      · rw [opened,if_pos reset]
        rfl
      · rw [if_pos reset]
        rfl
    · obtain ⟨halt,v,stops⟩ := storeStops (w := entering c s) .resetSequences healthy
      exact .inr ⟨⟨halt,v,bindStops (bindStops stops)⟩,reset,healthy⟩
  · have sends : prologue c = standardHeader c (ascii "A") := by
      rw [prologue,resetIfConfigured,if_neg reset]
      rfl
    rw [sends]
    refine .inl ⟨_,_,headerRun _ _ _,⟨⟨_,_,rfl⟩,rfl,rfl,?_,?_,fun on => absurd on reset⟩⟩
    · rw [opened,if_neg reset]
      rfl
    · rw [if_neg reset]
      rfl

theorem commitAnswers {header : List Field} {v : World} {wire : Bytes} (here : AtLogon c s header v) :
    (∃ reply u, storeApply c (.commitOutbound (logonCommit v wire)) v = (.ok reply,u)) ↔
      c.env.storeFault v.tick = .none ∧ ∀ existing, v.journal.commands[adminKey (ascii "logon") v.journal.nextOut
        v.journal.nextEvent]? = some existing → existing.fingerprint = ascii "admin:A:" ++ decimal v.journal.nextOut := by
  constructor
  · rintro ⟨reply,u,stored⟩
    obtain ⟨healthy,answer,-⟩ := storeReturned stored
    refine ⟨healthy,fun existing found => ?_⟩
    rw [← here.nextOut,← here.nextEvent] at found
    rcases commitOutboundSource answer with ⟨other,there,same,-⟩ | ⟨none,-⟩
    · rw [show v.journal.commands[(logonCommit v wire).requestId]? = _ from found] at there
      cases there
      exact same.trans (by rw [← here.nextOut]; rfl)
    · rw [show v.journal.commands[(logonCommit v wire).requestId]? = _ from found] at none
      cases none
  · rintro ⟨healthy,free⟩
    rw [← here.nextOut,← here.nextEvent] at free
    have answered : ∃ reply, (apply v.journal (.commitOutbound (logonCommit v wire))).1 = .ok reply := by
      cases found : v.journal.commands[adminKey (ascii "logon") v.nextOut v.nextEvent]? with
      | none =>
        have journals : commitOutbound v.journal (logonCommit v wire) = _ := commitOutboundFresh found here.nextOut
        exact ⟨_,congrArg Prod.fst journals⟩
      | some existing =>
        refine ⟨.command existing,?_⟩
        simp only [apply,commitOutbound,logonCommit,found,free existing found,ne_eq,not_true_eq_false,if_false]
    obtain ⟨reply,ok⟩ := answered
    exact ⟨reply,_,storeReturns healthy ok⟩

def logonFrom (c : Ctx) (header : List Field) : Act Unit := do
  let wire ← Prog.ofExcept (inSession (encodeOutbound c (header ++ logonBody c)))
  let journalWire ← Prog.ofExcept (inSession (encodeOutbound c ((header ++ logonBody c).map (redacted c))))
  let w ← Prog.state
  sendAdmin c (logonSend w journalWire wire) (info (ascii "Sent logon request"))

theorem logonParts (accepted : validateCustomLogonFields c.logonFields [] = .ok ()) :
    sendLogon c = prologue c >>= logonFrom c := by
  simp only [sendLogon,accepted,inSession,ofExceptOk,pure_bind,prologue,bind_assoc]
  rfl

variable {header : List Field} {v : World}

theorem logonFromRun {wire journalWire : Bytes}
    (encodes : encodeMessage c.config.beginString (header ++ logonBody c) = .ok wire)
    (redacts : encodeMessage c.config.beginString ((header ++ logonBody c).map (redacted c)) = .ok journalWire) :
    logonFrom c header v = sendAdmin c (logonSend v journalWire wire) (info (ascii "Sent logon request")) v := by
  unfold logonFrom
  simp only [encodeOutbound,encodes,redacts,inSession,ofExceptOk,pure_bind]
  rfl

theorem logonFromFails {e : CodecError}
    (refuses : encodeMessage c.config.beginString (header ++ logonBody c) = .error e) :
    logonFrom c header v = (.error (.fail (.codec e.text)),v) := by
  unfold logonFrom
  simp only [encodeOutbound,refuses]
  rfl

end

section

variable {T : List Event → List Event → Prop} [Follows T] {c : Ctx} {fields : List Field} {s : Shared}

theorem sendLogonApart (tags : fields.map Field.tag = c.logonFields.map Field.tag)
    (accepted : validateCustomLogonFields c.logonFields [] = .ok ())
    (accepted' : validateCustomLogonFields fields [] = .ok ())
    (apart : ∀ front wire wire' t, encodeMessage c.config.beginString (front ++ c.logonFields) = .ok wire →
      encodeMessage c.config.beginString (front ++ fields) = .ok wire' →
        T (.logged (.outgoing wire) :: t) (.logged (.outgoing wire') :: t))
    (writes : ∀ wire wire' j t t', T t t' → T (.wrote .logon wire j :: t) (.wrote .logon wire' j :: t'))
    (recovered : c.env.storeFault s.tick = .none) :
    (¬ LogonJournaled c s ∧ sendLogon c (entering c s) = sendLogon (c.withFields fields) (entering c s)) ∨
      (LogonJournaled c s ∧
        Both (Like T) (sendLogon c (entering c s)) (sendLogon (c.withFields fields) (entering c s))) := by
  rw [logonParts accepted,logonParts (c := c.withFields fields) accepted']
  rcases prologueRun (c := c) (s := s) with ⟨header,v,run,here⟩ | ⟨⟨halt,v,stops⟩,reset,faulty⟩
  swap
  · refine .inl ⟨fun journaled => faulty (journaled.reset reset),?_⟩
    rw [bindStops stops]
    exact (bindStops (m := prologue (c.withFields fields)) stops).symm
  rw [bindReturns run,bindReturns (m := prologue (c.withFields fields)) run]
  rcases encodesAlike c.config.beginString (bodyTags tags header) with ⟨e,refuses',refuses⟩ | ⟨wire',wire,encodes',encodes⟩
  · refine .inl ⟨fun journaled => ?_,?_⟩
    · obtain ⟨time,sequence,rfl⟩ := here.header
      obtain ⟨wire,encodes⟩ := logonEncodes accepted journaled.plain time sequence
      rw [encodes] at refuses
      cases refuses
    · rw [logonFromFails refuses]
      exact (logonFromFails (c := c.withFields fields) refuses').symm
  obtain ⟨journalWire,redacts⟩ : ∃ journalWire, encodeMessage c.config.beginString
      ((header ++ logonBody c).map (redacted c)) = .ok journalWire := by
    rcases encodesAlike c.config.beginString (redactedTags c (header ++ logonBody c)) with ⟨e,-,refuses⟩ | ⟨_,_,ok,-⟩
    · rw [refuses] at encodes
      cases encodes
    · exact ⟨_,ok⟩
  rw [logonFromRun encodes redacts,logonFromRun (c := c.withFields fields) encodes' (redactedAlike tags header ▸ redacts)]
  have split : ∀ d : Ctx, header ++ logonBody d = (header ++ ([⟨98,ascii "0"⟩,⟨108,decimal d.config.heartbeatIntervalSecs⟩] ++
      if d.config.resetOnLogon then [⟨141,ascii "Y"⟩] else [])) ++ d.logonFields := fun d => by
    simp only [logonBody,List.append_assoc]
  rw [split] at encodes encodes'
  rcases stored : storeApply c (.commitOutbound (logonCommit v journalWire)) v with ⟨r,u⟩
  rcases adminApart fields (fun t => apart _ wire wire' t encodes encodes') (writes wire wire')
    (likeEmit _) stored with ⟨⟨halt,rfl⟩,same⟩ | ⟨⟨reply,rfl⟩,both⟩
  · refine .inl ⟨fun journaled => ?_,same⟩
    have healthy : c.env.storeFault v.tick = .none := here.tick ▸ journaled.commit
    obtain ⟨reply,_,answered⟩ := (commitAnswers here).mpr ⟨healthy,here.journal ▸ journaled.free⟩
    rw [stored] at answered
    cases answered
  · refine .inr ⟨?_,both⟩
    obtain ⟨healthy,free⟩ := (commitAnswers here).mp ⟨_,_,stored⟩
    obtain ⟨_,enc,-⟩ := encoded encodes
    exact ⟨recovered,here.reset,by simpa only [not_or] using enc.beginString,here.tick ▸ healthy,
      here.journal ▸ free⟩

theorem logonApart (tags : fields.map Field.tag = c.logonFields.map Field.tag)
    (accepted : validateCustomLogonFields c.logonFields [] = .ok ())
    (accepted' : validateCustomLogonFields fields [] = .ok ())
    (apart : ∀ front wire wire' t, encodeMessage c.config.beginString (front ++ c.logonFields) = .ok wire →
      encodeMessage c.config.beginString (front ++ fields) = .ok wire' →
        T (.logged (.outgoing wire) :: t) (.logged (.outgoing wire') :: t))
    (writes : ∀ wire wire' j t t', T t t' → T (.wrote .logon wire j :: t) (.wrote .logon wire' j :: t')) :
    (¬ LogonJournaled c s ∧ spawn c s = spawn (c.withFields fields) s) ∨
      (LogonJournaled c s ∧ LikeConn T (spawn c s) (spawn (c.withFields fields) s)) := by
  cases fault : c.env.storeFault s.tick with
  | none =>
    have opens : ∀ fields, spawn (c.withFields fields) s =
        settle ((sendLogon (c.withFields fields) >>= fun _ => setPhase .logonSent) (entering c s)) := fun fields => by
      simp only [spawn,fault]
      rfl
    have opensOwn : spawn c s = settle ((sendLogon c >>= fun _ => setPhase .logonSent) (entering c s)) :=
      opens c.logonFields
    rw [opensOwn,opens]
    rcases sendLogonApart tags accepted accepted' apart writes fault with ⟨not,same⟩ | ⟨journaled,both⟩
    · refine .inl ⟨not,?_⟩
      rw [bindRun,bindRun,same]
    · exact .inr ⟨journaled,likeSettle (both.bind fun _ => likePhase _)⟩
  | refused _ | lost _ | crashBefore | crashAfter =>
    refine .inl ⟨fun journaled => ?_,?_⟩
    · rw [journaled.recovered] at fault
      cases fault
    · simp only [spawn,fault]
      rfl

end

section

variable (c d : Ctx)

structure Twins : Prop where
  config : d.config = c.config
  env : d.env = c.env
  tags : d.logonFields.map Field.tag = c.logonFields.map Field.tag
  accepted : validateCustomLogonFields c.logonFields [] = .ok ()
  accepted' : validateCustomLogonFields d.logonFields [] = .ok ()

variable {c d}

theorem Twins.fields (twins : Twins c d) : d = c.withFields d.logonFields := by
  obtain ⟨config,env,-⟩ := twins
  cases d
  cases config
  cases env
  rfl

theorem credentialsUnstored (twins : Twins c d) (s : Shared) (inputs : List Input) :
    (run c (spawn c s) inputs).world.trace.filterMap storeOp =
      (run d (spawn d s) inputs).world.trace.filterMap storeOp := by
  have opens : LikeConn (Agree storeOp) (spawn c s) (spawn (c.withFields d.logonFields) s) := by
    rcases logonApart (T := Agree storeOp) (s := s) twins.tags twins.accepted twins.accepted'
      (fun _ _ _ _ _ _ => rfl) (fun _ _ _ _ _ same => same) with ⟨-,same⟩ | ⟨-,like⟩
    · rw [← same]
      exact ⟨rfl,_,rfl,rfl⟩
    · exact like
  obtain ⟨-,trace,worlds,related⟩ := likeRun twins.tags opens inputs
  rw [twins.fields,worlds]
  exact related

/-- The message and event logs of two runs agree exactly if the values do or no Logon is
journaled. -/
theorem credentialsLogged (twins : Twins c d) (s : Shared) (inputs : List Input) :
    (run c (spawn c s) inputs).world.trace.filterMap logRecord =
        (run d (spawn d s) inputs).world.trace.filterMap logRecord ↔
      d.logonFields = c.logonFields ∨ ¬ LogonJournaled c s := by
  have plain := fun f mem => (acceptedPlain twins.accepted f mem).2
  have plain' := fun f mem => (acceptedPlain twins.accepted' f mem).2
  constructor
  · intro same
    by_contra! told
    obtain ⟨values,journaled⟩ := told
    have apart : ∀ front wire wire' t, encodeMessage c.config.beginString (front ++ c.logonFields) = .ok wire →
        encodeMessage c.config.beginString (front ++ d.logonFields) = .ok wire' →
          Differ logRecord (.logged (.outgoing wire) :: t) (.logged (.outgoing wire') :: t) := by
      intro front wire wire' t encodes encodes' logs
      have wires : LogRecord.outgoing wire = .outgoing wire' := (List.cons.inj logs).1
      cases wires
      exact values (wiresDiffer twins.tags plain' plain encodes' encodes)
    rcases logonApart (T := Differ logRecord) twins.tags twins.accepted twins.accepted' apart
      (fun _ _ _ _ _ h => h) with ⟨not,-⟩ | ⟨-,like⟩
    · exact not journaled
    · obtain ⟨-,trace,worlds,differ⟩ := likeRun twins.tags like inputs
      rw [twins.fields,worlds] at same
      exact differ same
  · intro blind
    have opens : spawn c s = spawn (c.withFields d.logonFields) s := by
      rcases blind with values | unjournaled
      · rw [values]
      · have : Follows fun _ _ => True := ⟨fun _ _ _ _ => trivial⟩
        rcases logonApart (T := fun _ _ => True) twins.tags twins.accepted twins.accepted'
          (fun _ _ _ _ _ _ => trivial) (fun _ _ _ _ _ _ => trivial) with ⟨-,same⟩ | ⟨journaled,-⟩
        · exact same
        · exact absurd journaled unjournaled
    have start : LikeConn (Agree logRecord) (spawn c s) (spawn (c.withFields d.logonFields) s) := by
      rw [← opens]
      exact ⟨rfl,_,rfl,rfl⟩
    obtain ⟨-,trace,worlds,related⟩ := likeRun twins.tags start inputs
    rw [twins.fields,worlds]
    exact related

end

def passwordCtx (password : String) : Ctx := venueCtx.withFields [⟨554,ascii password⟩]

theorem passwordTwins : Twins (passwordCtx "red") (passwordCtx "blue") :=
  ⟨rfl,rfl,rfl,by decide,by decide⟩

theorem credentialsUnstoredPassword :
    (run (passwordCtx "red") (spawn (passwordCtx "red") fresh)
        [.frame (venueLogon 1),.frame (venueFrame "1" 2 [⟨112,ascii "T"⟩])]).world.trace.filterMap storeOp =
      (run (passwordCtx "blue") (spawn (passwordCtx "blue") fresh)
        [.frame (venueLogon 1),.frame (venueFrame "1" 2 [⟨112,ascii "T"⟩])]).world.trace.filterMap storeOp :=
  credentialsUnstored passwordTwins fresh _

theorem credentialsLoggedPassword :
    (run (passwordCtx "red") (spawn (passwordCtx "red") fresh) []).world.trace.filterMap logRecord =
        (run (passwordCtx "blue") (spawn (passwordCtx "blue") fresh) []).world.trace.filterMap logRecord ↔
      (passwordCtx "blue").logonFields = (passwordCtx "red").logonFields ∨
        ¬ LogonJournaled (passwordCtx "red") fresh :=
  credentialsLogged passwordTwins fresh []

theorem passwordLogged : ¬ ∀ c d : Ctx, Twins c d → ∀ s inputs,
    (run c (spawn c s) inputs).world.trace.filterMap logRecord =
      (run d (spawn d s) inputs).world.trace.filterMap logRecord := by
  intro alike
  exact absurd (alike _ _ passwordTwins fresh []) (by decide +kernel)

end FixCli.Session
