import FixCli.ActorMoves
import FixCli.StoreEffects

/-! How long a reply of the actor can get. Its errors quote the failures of the store and
of the socket, request IDs and numbers; a command on record is quoted with its ClOrdID. -/
namespace FixCli.Session
open Lib Codec Store

def textLimit : Nat := 32 * 1024

structure Terse (c : Ctx) : Prop where
  store : ∀ tick text, c.env.storeFault tick = .refused text ∨ c.env.storeFault tick = .lost text →
    text.length ≤ textLimit
  socket : ∀ tick text, c.env.ioFault tick = .refused text ∨ c.env.ioFault tick = .lost text →
    text.length ≤ textLimit

def briefError (error : SessionError) : Prop := error.text.length ≤ textLimit + 512

def brief (halt : Halt) : Prop := ∀ error, halt = .fail error → briefError error

structure Short (command : CommandRecord) : Prop where
  msgSeqNum : command.msgSeqNum < u64Limit
  clOrdId : command.clOrdId.length ≤ 27

structure Quotable (nextOut nextEvent : Nat) (j : Journal) : Prop where
  nextOut : nextOut < u64Limit
  nextEvent : nextEvent < u64Limit
  stored : j.nextOut < u64Limit
  commands : ∀ (requestId : Bytes) command, j.commands[requestId]? = some command → Short command

def Quotes (w : World) : Prop := Quotable w.nextOut w.nextEvent w.journal

def Shorts (w : World) : Prop :=
  ∀ (requestId : Bytes) command, w.journal.commands[requestId]? = some command → Short command

theorem digitsOf {n : Nat} (small : n < u64Limit) : (decimal n).length ≤ 20 :=
  decimalLength (by decide) (small.trans (by decide))

theorem briefFail {error : SessionError} (short : briefError error) : brief (.fail error) := fun _ same => by
  cases same
  exact short

theorem briefCrash : brief .crash := fun _ same => nomatch same

theorem literalBrief (error : SessionError) (small : error.text.length ≤ 512) : briefError error :=
  small.trans (Nat.le_add_left _ _)

theorem briefSession {α : Type} {r : Except SessionError α} (texts : ∀ e, r = .error e → briefError e) :
    FailsOnly brief (inSession r) := by
  intro halt bad
  cases r with
  | ok a => cases bad
  | error e =>
    cases bad
    exact briefFail (texts e rfl)

theorem tagDigits (tag : UInt32) : (decimal tag.toNat).length ≤ 10 :=
  decimalLength (by decide) (tag.toNat_lt.trans (by decide))

theorem codecText (e : CodecError) : e.text.length ≤ 64 := by
  cases e with
  | managedField tag =>
    have digits := tagDigits tag
    have front : (ascii "field ").length = 6 := by decide
    have back : (ascii " is managed by the FIX encoder").length = 30 := by decide
    simp only [CodecError.text,List.length_append]
    omega
  | msgTypeMustBeFirst | invalidTag | invalidBeginString => decide

theorem encodeText {c : Ctx} {fields : List Field} {e : SessionError} (bad : encodeOutbound c fields = .error e) :
    briefError e := by
  unfold encodeOutbound at bad
  split at bad
  · cases bad
  · rename_i refused _
    cases bad
    have text := codecText refused
    have front : (ascii "FIX codec error: ").length = 17 := by decide
    refine literalBrief _ ?_
    simp only [SessionError.text,List.length_append]
    omega

section

variable {c : Ctx} {P : World → Prop}

open Prog

theorem storeText {text : Bytes} (short : text.length ≤ textLimit + 480) : briefError (.store text) := by
  have front : (ascii "store error: ").length = 13 := by decide
  simp only [briefError,SessionError.text,List.length_append]
  omega

theorem backendText {text : Bytes} (short : text.length ≤ textLimit) : brief (storeError (.backend text)) := by
  have front : (ascii "storage backend error: ").length = 23 := by decide
  refine briefFail (storeText ?_)
  simp only [StoreError.text,List.length_append]
  omega

theorem briefStore (terse : Terse c) {op : StoreOp}
    (answers : ∀ w e, P w → (apply w.journal op).1 = .error e → e.text.length ≤ 480) :
    Meets P (storeApply c op)
      (fun reply v => ∃ w, P w ∧ (apply w.journal op).1 = .ok reply ∧ v = applied op w)
      (fun halt _ => brief halt) := by
  intro w h
  have texts := terse.store w.tick
  unfold storeApply
  cases fault : c.env.storeFault w.tick with
  | none =>
    cases answer : (apply w.journal op).1 with
    | ok reply => exact ⟨w,h,answer,rfl⟩
    | error e => exact briefFail (storeText ((answers w e h answer).trans (Nat.le_add_left _ _)))
  | refused text => exact backendText (texts text (.inl fault))
  | lost text => exact backendText (texts text (.inr fault))
  | crashBefore | crashAfter => exact briefCrash

theorem briefWrite (terse : Terse c) (path : SendPath) (wire : Bytes) :
    Meets Shorts (writeWire c path wire) (fun _ => Shorts) (fun halt _ => brief halt) := by
  have transport {text : Bytes} (short : text.length ≤ textLimit) : brief (.fail (.transport text)) := by
    have front : (ascii "transport error: ").length = 17 := by decide
    refine briefFail ?_
    simp only [briefError,SessionError.text,List.length_append]
    omega
  have socket : Meets Shorts (socketWrite c path wire) (fun _ => Shorts) (fun halt _ => brief halt) := by
    intro w h
    have texts := terse.socket w.tick
    unfold socketWrite
    cases fault : c.env.ioFault w.tick with
    | none => exact h
    | refused text => exact transport (texts text (.inl fault))
    | lost text => exact transport (texts text (.inr fault))
    | crashBefore | crashAfter => exact briefCrash
  exact Meets.bind (Q := fun _ => Shorts) (Meets.change fun _ h => h) fun _ => Meets.bind socket fun _ =>
    Meets.bind (Q := fun _ => Shorts) (fun _ h => h) fun _ => Meets.change fun _ h => h

theorem requestText (front back : String) {requestId : Bytes} (id : requestId.length ≤ 128)
    (literal : (ascii front).length + (ascii back).length ≤ 128) :
    (ascii front ++ requestId ++ ascii back).length ≤ 480 := by
  simp only [List.length_append]
  omega

theorem mismatchText {expected actual : Nat} (one : expected < u64Limit) (other : actual < u64Limit) :
    (StoreError.outboundSequenceMismatch expected actual).text.length ≤ 480 := by
  have first := digitsOf one
  have second := digitsOf other
  have front : (ascii "expected outbound sequence ").length = 27 := by decide
  have middle : (ascii ", got ").length = 6 := by decide
  simp only [StoreError.text,List.length_append]
  omega

theorem briefCommit (terse : Terse c) (commit : OutboundCommit) (id : commit.requestId.length ≤ 128)
    (own : Short (journaledCommand commit)) :
    Meets Quotes (storeApply c (.commitOutbound commit))
      (fun reply v => ∃ command, reply = .command command ∧ Short command ∧ Shorts v) (fun halt _ => brief halt) := by
  refine (briefStore terse (P := Quotes) ?_).weaken (fun _ h => h) ?_ fun _ _ h => h
  · intro w e h answer
    simp only [apply,commitOutbound] at answer
    split at answer
    · split at answer
      · cases answer
        exact requestText _ _ id (by decide)
      · cases answer
    · split at answer
      · cases answer
        exact mismatchText h.stored own.msgSeqNum
      · cases answer
  · rintro reply v ⟨w,h,answer,rfl⟩
    rcases commitOutboundSource answer with ⟨existing,found,-,rfl,after⟩ | ⟨-,-,rfl,after⟩
    · refine ⟨existing,rfl,h.commands _ _ found,?_⟩
      rw [Shorts,show (applied (.commitOutbound commit) w).journal = w.journal from after]
      exact h.commands
    · refine ⟨_,rfl,own,fun requestId command found => ?_⟩
      rw [show (applied (.commitOutbound commit) w).journal = withOutbound w.journal commit from after] at found
      simp only [withOutbound,Std.ExtTreeMap.getElem?_insert] at found
      split at found
      · cases found
        exact own
      · exact h.commands _ _ found

theorem briefMark (terse : Terse c) {requestId : Bytes} {n : Nat} (id : requestId.length ≤ 128)
    (number : n < u64Limit) :
    Meets Shorts (storeApply c (.markOutboundWritten ⟨requestId,n⟩))
      (fun reply _ => ∃ command, reply = .command command ∧ Short command) (fun halt _ => brief halt) := by
  refine (briefStore terse (P := Shorts) ?_).weaken (fun _ h => h) ?_ fun _ _ h => h
  · intro w e h answer
    simp only [apply,markOutboundWritten] at answer
    split at answer
    · cases answer
      exact requestText _ _ id (by decide)
    · rename_i command found
      split at answer
      · cases answer
        exact mismatchText (h _ _ found).msgSeqNum number
      · split at answer
        · cases answer
          exact requestText _ _ id (by decide)
        · cases answer
  · rintro reply v ⟨w,h,answer,rfl⟩
    obtain ⟨command,_,found,-,-,rfl,-⟩ := markOutboundWrittenSource answer
    exact ⟨_,rfl,(h _ _ found).msgSeqNum,(h _ _ found).clOrdId⟩

theorem briefAdmin (terse : Terse c) (send : AdminSend) (id : send.requestId.length ≤ 128) :
    Meets Quotes (sendAdmin c send (pure ())) (fun _ _ => True) (fun halt _ => brief halt) := by
  refine Meets.bind (Q := fun w v => Quotes v ∧ w.nextOut = v.nextOut) (Meets.state fun _ h => ⟨h,rfl⟩) fun w => ?_
  by_cases small : w.nextOut < u64Limit
  · refine Meets.bind (Meets.weaken (briefCommit terse
        ⟨send.requestId,send.fingerprint,[],w.nextOut,send.journalWire⟩ id ⟨small,Nat.zero_le _⟩)
      (fun _ h => h.1) (fun _ _ h => h) fun _ _ h => h) fun reply => ?_
    split
    · rename_i command
      refine Meets.each fun v ⟨committed,same,short,shorts⟩ => ?_
      cases same
      refine Meets.weaken (Meets.bind (briefWrite terse send.path send.wire) fun _ =>
        Meets.bind (Q := fun _ => Shorts) (Meets.pure fun _ h => h) fun _ =>
          Meets.bind (briefMark terse id short.msgSeqNum) fun _ => Meets.change fun _ _ => trivial)
        (fun _ pinned => pinned ▸ shorts) (fun _ _ h => h) fun _ _ h => h
    · rename_i other
      exact Meets.stop fun v ⟨command,same,_⟩ => absurd same (other command)
  · exact fun v h => absurd (h.2 ▸ h.1.nextOut) small

theorem briefHeader (msgType : Bytes) :
    Meets Quotes (standardHeader c msgType) (fun _ => Quotes) (fun halt _ => brief halt) := fun _ h => h

theorem briefEncode (fields : List Field) :
    Meets P (Prog.ofExcept (inSession (encodeOutbound c fields))) (fun _ => P) (fun halt _ => brief halt) :=
  Meets.ofExcept (fun _ _ _ h => h) fun halt bad _ _ => briefSession (fun _ => encodeText) halt bad

theorem adminKeyLength (kind : String) {nextOut nextEvent : Nat} (short : (ascii kind).length ≤ 32)
    (out : nextOut < u64Limit) (event : nextEvent < u64Limit) :
    (adminKey (ascii kind) nextOut nextEvent).length ≤ 128 := by
  have first := digitsOf out
  have second := digitsOf event
  have front : (ascii "session:").length = 8 := by decide
  have colon : (ascii ":").length = 1 := by decide
  simp only [adminKey,List.length_append]
  omega

theorem briefLogout (terse : Terse c) (text : Option Bytes) :
    Meets Quotes (sendLogout c text) (fun _ _ => True) (fun halt _ => brief halt) := by
  refine Meets.bind (Q := fun _ => Quotes) (Meets.state fun _ h => h) fun w => ?_
  split
  · exact Meets.stop fun _ _ => briefFail (literalBrief _ (by decide))
  · refine Meets.bind (briefHeader _) fun _ => Meets.bind (briefEncode _) fun _ =>
      Meets.bind (Q := fun w v => Quotes v ∧ Quotes w) (Meets.state fun _ h => ⟨h,h⟩) fun w => ?_
    intro v ⟨now,quotes⟩
    exact Meets.bind (briefAdmin terse _ (adminKeyLength "logout" (by decide) quotes.nextOut quotes.nextEvent))
      (fun _ => Meets.change fun _ _ => trivial) v now

theorem briefFields (request : ApplicationRequest) :
    Meets Quotes (submitFields c request) (fun _ => Quotes) (fun halt _ => brief halt) := by
  have body (required : Bool) (fields : List Field) :
      Meets Quotes (appendBody c required fields) (fun _ => Quotes) (fun halt _ => brief halt) := by
    induction fields with
    | nil => exact Meets.pure fun _ h => h
    | cons field rest ih =>
      rw [appendBody]
      split
      · exact Meets.bind (Q := fun _ => Quotes) (fun _ h => h) fun _ => Meets.bind ih fun _ => Meets.pure fun _ h => h
      · exact Meets.bind ih fun _ => Meets.pure fun _ h => h
  have split (halt : Halt) (bad : inSession (splitOrigClOrdId request) = .error halt) : brief halt := by
    refine briefSession (fun e refused => ?_) halt bad
    unfold splitOrigClOrdId at refused
    repeat' split at refused
    all_goals cases refused
    all_goals exact literalBrief _ (by decide)
  refine Meets.bind (briefHeader _) fun _ => Meets.bind (Q := fun _ => Quotes)
    (Meets.ofExcept (fun _ _ _ h => h) fun halt bad _ _ => split halt bad) fun _ => Meets.bind (body _ _) fun _ => ?_
  dsimp only
  split
  · exact Meets.stop fun _ _ => briefFail (literalBrief _ (by decide))
  · exact Meets.pure fun _ h => h

theorem briefSubmit (terse : Terse c) {request : ApplicationRequest} (id : request.requestId.length ≤ 128)
    (clOrdId : request.clOrdId.length ≤ 27) :
    Meets Quotes (submitApplication c request) (fun command _ => Short command) (fun halt _ => brief halt) := by
  have valid (halt : Halt) (bad : inSession (validateSubmit request) = .error halt) : brief halt := by
    refine briefSession (fun e refused => ?_) halt bad
    unfold validateSubmit at refused
    repeat' split at refused
    all_goals cases refused
    all_goals exact literalBrief _ (by decide)
  refine Meets.bind (Q := fun w v => Quotes v ∧ Quotes w) (Meets.state fun _ h => ⟨h,h⟩) fun w => ?_
  intro v ⟨now,quotes⟩
  revert v now
  change Meets Quotes _ _ _
  split
  · exact Meets.stop fun _ _ => briefFail (literalBrief _ (by decide))
  refine Meets.bind (Q := fun _ => Quotes) (Meets.ofExcept (fun _ _ _ h => h) fun halt bad _ _ => valid halt bad)
    fun _ => Meets.bind (briefFields request) fun _ => Meets.bind (briefEncode _) fun wire =>
      Meets.bind (briefCommit terse _ id ⟨quotes.nextOut,clOrdId⟩) fun reply => ?_
  split
  · rename_i command
    refine Meets.each fun v ⟨committed,same,short,shorts⟩ => ?_
    cases same
    split
    · exact Meets.pure fun _ _ => short
    split
    · have digits := digitsOf short.msgSeqNum
      have front : (ascii "store returned future outbound sequence ").length = 40 := by decide
      refine Meets.stop fun _ _ => briefFail (storeText ?_)
      simp only [List.length_append]
      omega
    · refine Meets.weaken (Meets.bind (briefWrite terse .application wire) fun _ =>
        Meets.bind (briefMark terse id short.msgSeqNum) fun reply => ?_)
        (fun _ pinned => pinned ▸ shorts) (fun _ _ h => h) fun _ _ h => h
      split
      · refine Meets.bind (Q := fun _ v => Short _) (Meets.change fun _ ⟨command,same,marked⟩ => ?_) fun _ =>
          Meets.pure fun _ h => h
        cases same
        exact marked
      · rename_i other
        exact Meets.stop fun _ ⟨command,same,_⟩ => absurd same (other command)
  · rename_i other
    exact Meets.stop fun _ ⟨command,same,_⟩ => absurd same (other command)

theorem briefLoad (terse : Terse c) (requestId : Bytes) :
    Meets Shorts (loadCommand c requestId) (fun found _ => ∀ command, found = some command → Short command)
      (fun halt _ => brief halt) := by
  refine Meets.bind (briefStore terse (P := Shorts) fun _ _ _ answer => by cases answer) fun reply => ?_
  split
  · rename_i found
    refine Meets.pure fun _ ⟨w,h,answer,_⟩ command same => h requestId command ?_
    rw [same] at answer
    exact (StoreReply.storedCommand.inj (Except.ok.inj answer))
  · rename_i other
    refine Meets.stop fun _ ⟨w,_,answer,_⟩ => ?_
    cases answer
    exact absurd rfl (other _)

structure Reportable (w : World) : Prop where
  quotes : Quotes w
  nextIn : w.nextIn < u64Limit
  testRequest : ∀ outstanding, w.testRequest = some outstanding → outstanding.id.length ≤ 25

def briefReply : ActorReply → Prop
  | .status status => status.nextOut < u64Limit ∧ status.nextIn < u64Limit ∧
      ∀ id, status.testRequestOutstanding = some id → id.length ≤ 25
  | .storedCommand found => ∀ command, found = some command → Short command
  | .command command => Short command
  | .ack => True

theorem briefResult (terse : Terse c) (command : ActorCommand) (submits : ∀ request, command = .submit request →
    request.requestId.length ≤ 128 ∧ request.clOrdId.length ≤ 27) :
    Meets Reportable (commandResult c command) (fun reply _ => briefReply reply) (fun halt _ => brief halt) := by
  cases command with
  | status =>
    refine Meets.bind (Q := fun w _ => Reportable w) (Meets.state fun _ h => h) fun w => Meets.pure fun _ h => ?_
    refine ⟨h.quotes.nextOut,h.nextIn,fun id outstanding => ?_⟩
    obtain ⟨own,found,rfl⟩ := Option.map_eq_some_iff.mp outstanding
    exact h.testRequest own found
  | lookupCommand requestId =>
    exact Meets.weaken (Meets.bind (briefLoad terse requestId) fun _ => Meets.pure fun _ h => h)
      (fun _ h => h.quotes.commands) (fun _ _ h => h) fun _ _ h => h
  | submit request =>
    obtain ⟨id,clOrdId⟩ := submits request rfl
    exact Meets.weaken (Meets.bind (briefSubmit terse id clOrdId) fun _ => Meets.pure fun _ h => h)
      (fun _ h => h.quotes) (fun _ _ h => h) fun _ _ h => h
  | logout text =>
    exact Meets.weaken (Meets.bind (briefLogout terse text) fun _ => Meets.pure fun _ _ => trivial)
      (fun _ h => h.quotes) (fun _ _ h => h) fun _ _ h => h

structure Shaped (w : World) : Prop where
  commands : ∀ (requestId : Bytes) command, w.journal.commands[requestId]? = some command →
    command.clOrdId.length ≤ 27
  testRequest : ∀ outstanding, w.testRequest = some outstanding → ∃ n, outstanding.id = ascii "TEST-" ++ decimal n

structure Typed (w : World) : Prop where
  nextOut : w.nextOut < u64Limit
  nextIn : w.nextIn < u64Limit
  nextEvent : w.nextEvent < u64Limit
  stored : w.journal.nextOut < u64Limit
  commands : ∀ (requestId : Bytes) command, w.journal.commands[requestId]? = some command →
    command.msgSeqNum < u64Limit
  testRequest : ∀ outstanding n, w.testRequest = some outstanding → outstanding.id = ascii "TEST-" ++ decimal n →
    n < u64Limit

theorem Shaped.reportable {w : World} (shaped : Shaped w) (typed : Typed w) : Reportable w := by
  refine ⟨⟨typed.nextOut,typed.nextEvent,typed.stored,fun requestId command found =>
    ⟨typed.commands _ _ found,shaped.commands _ _ found⟩⟩,typed.nextIn,fun outstanding found => ?_⟩
  obtain ⟨n,own⟩ := shaped.testRequest outstanding found
  have digits := digitsOf (typed.testRequest outstanding n found own)
  have front : (ascii "TEST-").length = 5 := by decide
  rw [own,List.length_append]
  omega

def briefOp (op : StoreOp) : Prop := ∀ commit, op = .commitOutbound commit → commit.clOrdId.length ≤ 27

theorem loopBrief (op : StoreOp) (loop : loopOp op) : briefOp op := by
  rintro commit rfl
  rw [loop.2]
  exact Nat.zero_le _

theorem plainBrief (op : StoreOp) (plain : plainOp op) : briefOp op := loopBrief op (plainLoop op plain)

theorem briefApplied {j : Journal} {op : StoreOp} (own : briefOp op)
    (h : ∀ (requestId : Bytes) command, j.commands[requestId]? = some command → command.clOrdId.length ≤ 27)
    (requestId : Bytes) (command : CommandRecord) (found : (apply j op).2.commands[requestId]? = some command) :
    command.clOrdId.length ≤ 27 := by
  have effect := effectOf j op
  generalize (apply j op).2 = k at effect found
  cases effect with
  | outbound _ _ =>
    simp only [withOutbound,Std.ExtTreeMap.getElem?_insert] at found
    split at found
    · cases found
      exact own _ rfl
    · exact h _ _ found
  | written stored _ _ =>
    simp only [withWritten,Std.ExtTreeMap.getElem?_insert] at found
    split at found
    · have before := h _ _ stored
      cases found
      exact before
    · exact h _ _ found
  | none | transmission _ | transmissionWritten _ | inbound _ _ _ | resync _ _ | reset => exact h _ _ found

theorem shapedPermits : Permits (fun _ => True) briefOp (fun w v => Shaped w → Shaped v) where
  refl := fun _ h => h
  trans := fun _ _ _ first second h => second (first h)
  ticks := fun _ _ h => ⟨h.commands,h.testRequest⟩
  notes := fun _ _ _ h => ⟨h.commands,h.testRequest⟩
  moves := fun w actor same h => by
    refine ⟨h.commands,fun outstanding found => ?_⟩
    change actor.testRequest = some outstanding at found
    rcases same with same | none
    · exact h.testRequest outstanding (same ▸ found)
    · cases none.symm.trans found
  asks := fun _ n _ h => ⟨h.commands,fun _ found => ⟨n,by cases found; rfl⟩⟩
  stores := fun _ _ own h => ⟨briefApplied own h.commands,h.testRequest⟩
  refuses := fun _ _ _ _ h => ⟨h.commands,h.testRequest⟩
  writes := fun _ _ _ _ h => ⟨h.commands,h.testRequest⟩

end
end FixCli.Session
