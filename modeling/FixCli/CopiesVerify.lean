import FixCli.ApplicationWire
import FixCli.OrderWire
import FixCli.PossDup

/-! Two copies of one application message at a receiver. A copy is the frame itself or a
replay of it; the later one is checked against the SendingTime of the one on record. -/
namespace FixCli.Session
open Lib Codec Store Control

def ReplayOf (c : Ctx) (frame copy time : Bytes) : Prop :=
  ∃ (d : Ctx) (u : World) (new : List Event), d.config = c.config ∧ PlainSender d ∧
    (writeApplicationReplay d frame u).2.trace = new ++ u.trace ∧ copy ∈ new.filterMap handedWire ∧
    time = d.env.sendingTime u.tick

def CopyOf (c : Ctx) (frame origSendingTime copy time : Bytes) : Prop :=
  copy = frame ∧ time = origSendingTime ∨ ReplayOf c frame copy time

def Silent (w v : World) : Prop := ∃ new, v.trace = new ++ w.trace ∧ new.filterMap carried = []

def OnlyWrites (wire : Bytes) (w v : World) : Prop :=
  ∃ new, v.trace = new ++ w.trace ∧ ∀ other ∈ new.filterMap handedWire, other = wire

instance : Std.Refl Silent := ⟨fun _ => ⟨[],rfl,rfl⟩⟩

instance : IsTrans World Silent where
  trans := by
    rintro a b d ⟨first,hfirst,silent⟩ ⟨second,hsecond,still⟩
    exact ⟨second ++ first,by rw [hsecond,hfirst,List.append_assoc],by rw [List.filterMap_append,silent,still]; rfl⟩

instance (wire : Bytes) : Std.Refl (OnlyWrites wire) := ⟨fun _ => ⟨[],rfl,by simp⟩⟩

instance (wire : Bytes) : IsTrans World (OnlyWrites wire) where
  trans := by
    rintro a b d ⟨first,hfirst,onlyFirst⟩ ⟨second,hsecond,onlySecond⟩
    refine ⟨second ++ first,by rw [hsecond,hfirst,List.append_assoc],fun other mem => ?_⟩
    rw [List.filterMap_append] at mem
    exact (List.mem_append.mp mem).elim (onlySecond other) (onlyFirst other)

section

variable {c : Ctx} {request : ApplicationRequest} {w u v : World} {frame time : Bytes} {n : Nat} {new : List Event}

open Prog

theorem silentFields (request : ApplicationRequest) : Moves Silent (submitFields c request) :=
  have quiet : Does c Silent (fun _ => False) (fun _ => False) :=
    ⟨fun record => Moves.change fun _ => ⟨[.logged record],rfl,rfl⟩,fun _ _ => ⟨[],rfl,rfl⟩,
      fun _ _ bad => bad.elim,fun _ _ => ⟨[],rfl,rfl⟩,fun _ bad => bad.elim⟩
  quiet.submitFields request

theorem submitPrepared (trace : (submitApplication c request w).2.trace = new ++ w.trace)
    (mem : frame ∈ new.filterMap carried) :
    validateSubmit request = .ok () ∧ ∃ fields u, submitFields c request w = (.ok fields,u) := by
  have silent (quiet : Silent w (submitApplication c request w).2) : False := by
    obtain ⟨other,same,nothing⟩ := quiet
    rw [List.append_cancel_right (trace.symm.trans same),nothing] at mem
    cases mem
  unfold submitApplication at silent
  rw [bindReturns (stateRun w),iteRun] at silent
  split at silent
  · exact (silent ⟨[],rfl,rfl⟩).elim
  cases valid : validateSubmit request with
  | error e =>
    rw [valid] at silent
    exact (silent ⟨[],rfl,rfl⟩).elim
  | ok _ =>
    rw [valid,inSession,ofExceptOk,bindReturns (pureRun _ w)] at silent
    refine ⟨rfl,?_⟩
    have fields := silentFields (c := c) request w
    rcases prepared : submitFields c request w with ⟨halt | fields,u⟩
    · rw [bindStops prepared] at silent
      rw [prepared] at fields
      exact (silent fields).elim
    · exact ⟨fields,u,rfl⟩

theorem submittedWire (sender : PlainSender c) (plain : PlainRequest request)
    (trace : (submitApplication c request w).2.trace = new ++ w.trace) (mem : frame ∈ new.filterMap carried)
    (fits : frame.length < usizeLimit) :
    ∃ fields, ApplicationWire c.config.beginString w.nextOut (c.env.sendingTime w.tick) fields frame := by
  obtain ⟨valid,fields,u,prepared⟩ := submitPrepared trace mem
  obtain ⟨other,same,wires⟩ := submitWires prepared (submitShape prepared).2
  rw [List.append_cancel_right (trace.symm.trans same)] at mem
  exact ⟨fields,submitApplicationFields sender plain valid prepared,wires frame mem,fits⟩

theorem onlyWritesStore {wire : Bytes} (op : StoreOp) : Moves (OnlyWrites wire) (storeApply c op) := by
  intro w
  rcases (storeTrace c op w).2 with same | ⟨answer,trace⟩
  · exact ⟨[],same,by simp⟩
  · exact ⟨[_],trace,by simp [handedWire]⟩

theorem onlyWritesReplay (wire : Bytes) (path : SendPath) (n : Nat) (kind : String) :
    Moves (OnlyWrites wire) (writeReplayTransmission c path n kind wire) := by
  have socket : Moves (OnlyWrites wire) (socketWrite c path wire) := by
    intro w
    have written : OnlyWrites wire w (handed path wire w) := ⟨[_],rfl,by simp [handedWire]⟩
    have untouched : OnlyWrites wire w {w with tick := w.tick + 1} := ⟨[],rfl,by simp⟩
    unfold socketWrite
    cases c.env.ioFault w.tick <;> assumption
  have logs : Moves (OnlyWrites wire) (emit (.logged (.outgoing wire))) :=
    Moves.change fun w => ⟨[_],rfl,by simp [handedWire]⟩
  have dates : Moves (OnlyWrites wire) (do let at' ← now c; Prog.change fun w => {w with lastOutbound := at'} : Act Unit) :=
    fun w => ⟨[],rfl,by simp⟩
  refine Moves.bind (onlyWritesStore _) fun reply => ?_
  split
  · exact Moves.bind (Moves.bind logs fun _ => Moves.bind socket fun _ => dates) fun _ =>
      Moves.bind (onlyWritesStore _) fun _ => Moves.pure _
  · exact Moves.stop _

theorem replayWrites {b : Bytes} {fields : List Field} {copy : Bytes}
    (app : ApplicationWire b n time fields frame) (small : n < u64Limit)
    (trace : (writeApplicationReplay c frame w).2.trace = new ++ w.trace) (written : copy ∈ new.filterMap handedWire) :
    encodeMessage c.config.beginString (copyFields (c.env.sendingTime w.tick) time fields) = .ok copy := by
  rw [applicationReplayRun app small] at trace
  cases encodes : encodeOutbound c (copyFields (c.env.sendingTime w.tick) time fields) with
  | error e =>
    rw [encodes] at trace
    have nothing : new = [] := List.self_eq_append_left.mp trace
    rw [nothing] at written
    cases written
  | ok wire =>
    rw [encodes] at trace
    obtain ⟨other,same,only⟩ := onlyWritesReplay (c := c) wire .applicationReplay n "application_replay"
      {w with tick := w.tick + 1}
    rw [List.append_cancel_right (trace.symm.trans same)] at written
    rw [only copy written]
    exact encodedOutbound encodes

variable {b origSendingTime first second earlier later : Bytes} {fields : List Field}

theorem ReplayOf.parsed (app : ApplicationWire c.config.beginString n origSendingTime fields frame)
    (small : n < u64Limit) (replay : ReplayOf c frame second later) (fits : second.length < usizeLimit) :
    ∃ checksum, parseFrame second = .ok ⟨c.config.beginString,copyFields later origSendingTime fields,checksum⟩ := by
  obtain ⟨d,u,new,config,plain,trace,written,rfl⟩ := replay
  have encodes := replayWrites app small trace written
  rw [config] at encodes
  exact encodedParses encodes (copyPlain app.toApplicationFields (plain.clock u.tick)) fits

theorem CopyOf.parsed (app : ApplicationWire c.config.beginString n origSendingTime fields frame)
    (small : n < u64Limit) (copy : CopyOf c frame origSendingTime first earlier) (fits : first.length < usizeLimit) :
    ∃ message, parseFrame first = .ok message ∧ message.beginString = c.config.beginString ∧
      replayPayload message = fields.filter (fun field => decide (field.tag ∉ [43, 52, 122])) ∧
      message.values 52 = [earlier] := by
  rcases copy with ⟨rfl,rfl⟩ | replay
  · obtain ⟨checksum,parsed⟩ := app.parsed
    exact ⟨_,parsed,rfl,rfl,(originalValues app.toApplicationFields).2⟩
  · obtain ⟨checksum,parsed⟩ := replay.parsed app small fits
    exact ⟨_,parsed,rfl,copyPayload app.toApplicationFields,(copyValues _ app.toApplicationFields).2.2.1⟩

/-- A later replay of a submitted frame verifies against an earlier copy on record
exactly if that copy still carried the original SendingTime. -/
theorem copiesVerify {r : Ctx} {record : InboundRecord} (sender : PlainSender c) (plain : PlainRequest request)
    (trace : (submitApplication c request w).2.trace = new ++ w.trace) (mem : frame ∈ new.filterMap carried)
    (copy : CopyOf c frame (c.env.sendingTime w.tick) first earlier) (replay : ReplayOf c frame second later)
    (clock : ¬ later < earlier) (small : w.nextOut < u64Limit)
    (fits : frame.length < usizeLimit ∧ first.length < usizeLimit ∧ second.length < usizeLimit)
    (received : v.journal.inbound[w.nextOut]? = some record) (stored : record.wire = first)
    (healthy : r.env.storeFault v.tick = .none) :
    ∃ message, parseFrame second = .ok message ∧
      ((verifyPossdup r message w.nextOut v).1 = .ok () ↔ earlier = c.env.sendingTime w.tick) := by
  obtain ⟨fields,app⟩ := submittedWire sender plain trace mem fits.1
  obtain ⟨original,parsed,begins,payload,sent⟩ := copy.parsed app small fits.2.1
  obtain ⟨checksum,again⟩ := replay.parsed app small fits.2.2
  obtain ⟨-,flagged,dated,orig⟩ := copyValues later app.toApplicationFields
  refine ⟨_,again,possdupVerified.trans ?_⟩
  constructor
  · rintro ⟨-,other,found,repeats⟩
    rw [received] at found
    cases found
    obtain ⟨message,same,-,-,time,first,claimed⟩ := repeats.original
    rw [stored,parsed] at same
    cases same
    rw [sent] at first
    cases first
    exact (List.singleton_inj.mp (orig.symm.trans claimed)).symm
  · intro same
    refine ⟨healthy,record,received,⟨original,by rw [stored]; exact parsed,begins,?_,earlier,by rw [sent]; rfl,?_⟩,
      ⟨_,flagged⟩,later,earlier,dated,?_,clock⟩
    · exact payload.trans (copyPayload app.toApplicationFields).symm
    · exact orig.trans (by rw [same])
    · exact orig.trans (by rw [same])

end

def clockedCtx : Ctx :=
  {venueCtx with env := {venueCtx.env with
    sendingTime := fun tick => ascii "20240102-03:04:05." ++ decimal (100 + tick)}}

def mirrorCtx : Ctx := {venueCtx with config := ⟨ascii "FIX.4.4",ascii "VENUE",ascii "CLIENT",30,false⟩}

def barred (text : String) : Bytes := (ascii text).map fun b => if b = 0x7C then SOH else b

def clockedOrder : Bytes :=
  barred ("8=FIX.4.4|9=168|35=D|49=CLIENT|56=VENUE|34=2|52=20240102-03:04:05.110|11=FC-a1bdc16dbc3e84d98d044fb7|" ++
    "1=ACC|21=1|207=X|1151=G|55=IC2609|54=1|60=20240102-03:04:05.111|38=100|40=1|59=DAY|10=117|")

def replayAt (time checksum : String) : Bytes :=
  barred ("8=FIX.4.4|9=199|35=D|49=CLIENT|56=VENUE|34=2|43=Y|52=20240102-03:04:05." ++ time ++
    "|122=20240102-03:04:05.110|11=FC-a1bdc16dbc3e84d98d044fb7|1=ACC|21=1|207=X|1151=G|55=IC2609|54=1|" ++
    "60=20240102-03:04:05.111|38=100|40=1|59=DAY|10=" ++ checksum ++ "|")

def venueReceived (frame : Bytes) : World := (handleInbound mirrorCtx frame atVenue).2

theorem clockedPlain : PlainSender clockedCtx where
  sender := by decide
  target := by decide
  clock := fun tick => by
    rw [show clockedCtx.env.sendingTime tick = ascii "20240102-03:04:05." ++ decimal (100 + tick) from rfl]
    exact fun mem => (List.mem_append.mp mem).elim (by decide) (sohNotIn _)

theorem replayOfWhole {c : Ctx} {frame copy : Bytes} {u : World} (plain : PlainSender c)
    (whole : (writeApplicationReplay c frame u).2.trace.filterMap handedWire = [copy] ++ u.trace.filterMap handedWire) :
    ReplayOf c frame copy (c.env.sendingTime u.tick) := by
  obtain ⟨new,grown⟩ := growsSends (sendsDoes.applicationReplay (c := c)
    (fun o h => replayOutbound o (transmissionReplays h))
    (List.mem_singleton_self SendPath.applicationReplay) frame) u
  refine ⟨c,u,new,rfl,plain,grown.symm,?_,rfl⟩
  rw [framesSince _ grown.symm whole]
  exact List.mem_singleton_self _

theorem clockedReplayOf :
    ReplayOf clockedCtx clockedOrder (replayAt "150" "102") (ascii "20240102-03:04:05.150") ∧
      ReplayOf clockedCtx clockedOrder (replayAt "160" "103") (ascii "20240102-03:04:05.160") := by
  have early : clockedCtx.env.sendingTime 50 = ascii "20240102-03:04:05.150" := by decide
  have late : clockedCtx.env.sendingTime 60 = ascii "20240102-03:04:05.160" := by decide
  rw [← early,← late]
  exact ⟨replayOfWhole (u := {entering clockedCtx fresh with tick := 50}) clockedPlain (by decide +kernel),
    replayOfWhole (u := {entering clockedCtx fresh with tick := 60}) clockedPlain (by decide +kernel)⟩

theorem secondReplayRefused :
    ((submitApplication clockedCtx (applicationOf (venueOrder "order-1")) atVenue).2.trace.filterMap carried).head? =
        some clockedOrder ∧
      ReplayOf clockedCtx clockedOrder (replayAt "150" "102") (ascii "20240102-03:04:05.150") ∧
      ReplayOf clockedCtx clockedOrder (replayAt "160" "103") (ascii "20240102-03:04:05.160") ∧
      (handleInbound mirrorCtx (replayAt "150" "102") atVenue).1 = .ok () ∧
      (venueReceived (replayAt "150" "102")).nextIn = 3 ∧
      (verifyPossdup mirrorCtx (parsedOf (replayAt "160" "103")) 2 (venueReceived (replayAt "150" "102"))).1 =
        .error (.fail (.protocol (ascii "PossDup payload mismatch for sequence 2"))) :=
  ⟨by decide +kernel,clockedReplayOf.1,clockedReplayOf.2,by decide +kernel⟩

theorem copiesVerifyAtVenue : 2 < u64Limit ∧ ∃ message, parseFrame (replayAt "160" "103") = .ok message ∧
    ((verifyPossdup mirrorCtx message 2 (venueReceived clockedOrder)).1 = .ok () ↔
      ascii "20240102-03:04:05.110" = clockedCtx.env.sendingTime atVenue.tick) := by
  have plain : PlainRequest (applicationOf (venueOrder "order-1")) := ⟨by decide +kernel,by decide +kernel⟩
  obtain ⟨new,grown⟩ := growsSends (sendsSubmit (c := clockedCtx) (applicationOf (venueOrder "order-1"))) atVenue
  have mem : clockedOrder ∈ new.filterMap carried := by
    rw [framesSince [clockedOrder,clockedOrder] grown.symm (by decide +kernel)]
    exact List.mem_cons_self
  have here : atVenue.nextOut = 2 := by decide +kernel
  have first : clockedCtx.env.sendingTime atVenue.tick = ascii "20240102-03:04:05.110" := by decide +kernel
  have found : (venueReceived clockedOrder).journal.inbound[atVenue.nextOut]?.map InboundRecord.wire =
      some clockedOrder := by decide +kernel
  obtain ⟨record,received,stored⟩ := Option.map_eq_some_iff.mp found
  have copies := copiesVerify (r := mirrorCtx) clockedPlain plain grown.symm mem (.inl ⟨rfl,first.symm⟩)
    clockedReplayOf.2 (by decide) (by rw [here]; decide) (by decide +kernel) received stored rfl
  rw [here] at copies
  exact ⟨by decide,copies⟩

end FixCli.Session
