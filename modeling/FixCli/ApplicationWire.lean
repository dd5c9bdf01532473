import FixCli.InboundStep

/-! The wire of an application message: what parses out of it, and the copies that a
replay makes of it. -/
namespace FixCli.Session
open Lib Codec Store

def headerTags : List UInt32 := [34, 35, 43, 49, 52, 56, 122]

def headerFields (msgType sender target : Bytes) (n : Nat) (time : Bytes) : List Field :=
  [⟨35,msgType⟩,⟨49,sender⟩,⟨56,target⟩,⟨34,decimal n⟩,⟨52,time⟩]

structure ApplicationFields (n : Nat) (time : Bytes) (fields : List Field) : Prop where
  shape : ∃ msgType sender target rest, fields = headerFields msgType sender target n time ++ rest ∧
    ∀ f ∈ rest, f.tag ∉ headerTags
  plain : ∀ f ∈ fields, sohFree f

structure ApplicationWire (beginString : Bytes) (n : Nat) (time : Bytes) (fields : List Field) (wire : Bytes) :
    Prop extends ApplicationFields n time fields where
  encodes : encodeMessage beginString fields = .ok wire
  fits : wire.length < usizeLimit

def copyField (sendingTime origSendingTime : Bytes) (field : Field) : List Field :=
  if field.tag = 43 ∨ field.tag = 122 then []
  else if field.tag = 34 then [field,⟨43,ascii "Y"⟩]
  else if field.tag = 52 then [⟨52,sendingTime⟩,⟨122,origSendingTime⟩]
  else [field]

def copyFields (sendingTime origSendingTime : Bytes) (fields : List Field) : List Field :=
  fields.flatMap (copyField sendingTime origSendingTime)

def valuesOf (fields : List Field) (tag : UInt32) : List Bytes :=
  (fields.filter fun field => field.tag == tag).map Field.value

section

variable {c : Ctx} {w : World} {b time sent wire : Bytes} {n : Nat} {fields rest : List Field}

open Prog

theorem parseU64Decimal (fits : n < u64Limit) : parseU64 (decimal n) = some n := by
  have digits := decimalDigits n
  have accepted : ¬ (decimal n = [] ∨ (decimal n).any (fun b => !isDigit b) = true) := by
    rintro (empty | other)
    · exact decimalNonempty n empty
    · obtain ⟨b,mem,bad⟩ := List.any_eq_true.mp other
      rw [digits b mem] at bad
      cases bad
  unfold parseU64
  dsimp only
  split
  · rename_i rest same
    have plus := digits 0x2B (by rw [same]; exact List.mem_cons_self)
    cases plus
  · rw [if_neg accepted,readDecimal fits]

theorem requiredDecimal {message : ParsedMessage} {tag : UInt32} (fits : n < u64Limit)
    (given : (message.values tag).head? = some (decimal n)) : requiredU64 message tag = .ok n := by
  simp only [requiredU64,requiredHead.mpr given,bind,Except.bind,utf8OfDecimal,parseU64Decimal fits]
  rfl

theorem copiesPlain (free : ∀ f ∈ rest, f.tag ∉ headerTags) : copyFields sent time rest = rest := by
  induction rest with
  | nil => rfl
  | cons f rest ih =>
    have other := free f List.mem_cons_self
    simp only [headerTags,List.mem_cons,List.not_mem_nil,or_false,not_or] at other
    have same : copyField sent time f = [f] := by simp [copyField,other]
    rw [copyFields,List.flatMap_cons,same,← copyFields,ih fun g mem => free g (List.mem_cons_of_mem _ mem)]
    rfl

theorem copyHeaded (msgType sender target : Bytes) (free : ∀ f ∈ rest, f.tag ∉ headerTags) :
    copyFields sent time (headerFields msgType sender target n time ++ rest) =
      [⟨35,msgType⟩,⟨49,sender⟩,⟨56,target⟩,⟨34,decimal n⟩,⟨43,ascii "Y"⟩,⟨52,sent⟩,⟨122,time⟩] ++ rest := by
  rw [copyFields,List.flatMap_append,← copyFields,← copyFields,copiesPlain free]
  rfl

theorem untouchedRun (orig : Bytes) (free : ∀ f ∈ rest, f.tag ∉ headerTags) (w : World) :
    replayFields c orig rest w = (.ok rest,w) := by
  induction rest with
  | nil => rfl
  | cons f rest ih =>
    have other := free f List.mem_cons_self
    simp only [headerTags,List.mem_cons,List.not_mem_nil,or_false,not_or] at other
    have tail := ih fun g mem => free g (List.mem_cons_of_mem _ mem)
    simp only [replayFields,other,or_false,if_false,bindRun,tail,pureRun]

theorem replayFieldsRun (app : ApplicationFields n time fields) (w : World) : replayFields c time fields w =
    (.ok (copyFields (c.env.sendingTime w.tick) time fields),{w with tick := w.tick + 1}) := by
  obtain ⟨msgType,sender,target,rest,rfl,free⟩ := app.shape
  rw [copyHeaded msgType sender target free]
  have tail := untouchedRun (c := c) time free {w with tick := w.tick + 1}
  have clock : sendingTime c w = (.ok (c.env.sendingTime w.tick),{w with tick := w.tick + 1}) := rfl
  simp +decide only [headerFields,List.cons_append,List.nil_append,replayFields,if_false,if_true,bindRun,clock,tail,
    pureRun]

theorem valuesFree (tag : UInt32) (inside : tag ∈ headerTags) (free : ∀ f ∈ rest, f.tag ∉ headerTags) :
    valuesOf rest tag = [] := by
  have none : rest.filter (fun field => field.tag == tag) = [] := by
    refine List.filter_eq_nil_iff.mpr fun f mem same => free f mem ?_
    rwa [beq_iff_eq.mp same]
  rw [valuesOf,none]
  rfl

theorem valuesAppend (front back : List Field) (tag : UInt32) :
    valuesOf (front ++ back) tag = valuesOf front tag ++ valuesOf back tag := by
  simp [valuesOf]

theorem originalValues (app : ApplicationFields n time fields) :
    valuesOf fields 34 = [decimal n] ∧ valuesOf fields 52 = [time] := by
  obtain ⟨msgType,sender,target,rest,rfl,free⟩ := app.shape
  rw [valuesAppend,valuesAppend,valuesFree 34 (by decide) free,valuesFree 52 (by decide) free]
  exact ⟨rfl,rfl⟩

theorem copyValues (sent : Bytes) (app : ApplicationFields n time fields) :
    valuesOf (copyFields sent time fields) 34 = [decimal n] ∧ valuesOf (copyFields sent time fields) 43 = [ascii "Y"] ∧
      valuesOf (copyFields sent time fields) 52 = [sent] ∧ valuesOf (copyFields sent time fields) 122 = [time] := by
  obtain ⟨msgType,sender,target,rest,rfl,free⟩ := app.shape
  rw [copyHeaded msgType sender target free]
  simp only [valuesAppend]
  rw [valuesFree 34 (by decide) free,valuesFree 43 (by decide) free,
    valuesFree 52 (by decide) free,valuesFree 122 (by decide) free]
  exact ⟨rfl,rfl,rfl,rfl⟩

theorem copyPayload (app : ApplicationFields n time fields) :
    (copyFields sent time fields).filter (fun field => decide (field.tag ∉ [43, 52, 122])) =
      fields.filter (fun field => decide (field.tag ∉ [43, 52, 122])) := by
  obtain ⟨msgType,sender,target,rest,rfl,free⟩ := app.shape
  rw [copyHeaded msgType sender target free,List.filter_append,List.filter_append]
  rfl

theorem encodedParses {sum : List Field} (encodes : encodeMessage b sum = .ok wire) (plain : ∀ f ∈ sum, sohFree f)
    (fits : wire.length < usizeLimit) : ∃ checksum, parseFrame wire = .ok ⟨b,sum,checksum⟩ := by
  obtain ⟨body,enc,rfl⟩ := encoded encodes
  exact ⟨_,parseFrameEncoded enc plain fits⟩

theorem ApplicationWire.parsed (h : ApplicationWire b n time fields wire) :
    ∃ checksum, parseFrame wire = .ok ⟨b,fields,checksum⟩ := encodedParses h.encodes h.plain h.fits

theorem copyPlain (app : ApplicationFields n time fields) (clock : SOH ∉ sent) :
    ∀ f ∈ copyFields sent time fields, sohFree f := by
  have orig : SOH ∉ time := by
    obtain ⟨msgType,sender,target,rest,rfl,-⟩ := app.shape
    exact app.plain ⟨52,time⟩ (by simp [headerFields])
  intro f mem
  obtain ⟨g,inside,copied⟩ := List.mem_flatMap.mp mem
  have own := app.plain g inside
  unfold copyField at copied
  split at copied
  · cases copied
  split at copied
  · rcases List.mem_pair.mp copied with rfl | rfl
    · exact own
    · exact (by decide : SOH ∉ ascii "Y")
  split at copied
  · rcases List.mem_pair.mp copied with rfl | rfl
    · exact clock
    · exact orig
  · rw [List.mem_singleton.mp copied]
    exact own

theorem copyEncodes (sendable : Sendable c) (h : ApplicationWire b n time fields wire) (sent : Bytes) :
    ∃ copy, encodeOutbound c (copyFields sent time fields) = .ok copy := by
  obtain ⟨body,enc,-⟩ := encoded h.encodes
  have usable := ((encodeBodyExact fields body).mp enc.body).1
  have tags : ∀ f ∈ copyFields sent time fields, f.tag ≠ 0 ∧ f.tag ∉ [8, 9, 10] := by
    intro f mem
    obtain ⟨g,inside,copied⟩ := List.mem_flatMap.mp mem
    unfold copyField at copied
    split at copied
    · cases copied
    split at copied
    · rcases List.mem_pair.mp copied with rfl | rfl
      · exact usable _ inside
      · simp
    split at copied
    · rcases List.mem_pair.mp copied with rfl | rfl <;> simp
    · rw [List.mem_singleton.mp copied]
      exact usable _ inside
  have first : (copyFields sent time fields).head?.map Field.tag = some 35 := by
    obtain ⟨msgType,sender,target,rest,rfl,free⟩ := h.shape
    rw [copyHeaded msgType sender target free]
    rfl
  have encodes := encodeFrom ⟨sendable,first,(encodeBodyExact _ _).mpr ⟨tags,rfl⟩⟩
  exact ⟨_,by rw [encodeOutbound,encodes]⟩

theorem encodedOutbound {sum : List Field} {copy : Bytes} (ok : encodeOutbound c sum = .ok copy) :
    encodeMessage c.config.beginString sum = .ok copy := by
  unfold encodeOutbound at ok
  split at ok
  · cases ok
    assumption
  · cases ok

theorem applicationReplayRun (h : ApplicationWire b n time fields wire) (fits : n < u64Limit) (w : World) :
    writeApplicationReplay c wire w = (do
      let replay ← Prog.ofExcept (inSession (encodeOutbound c (copyFields (c.env.sendingTime w.tick) time fields)))
      writeReplayTransmission c .applicationReplay n "application_replay" replay : Act Unit)
        {w with tick := w.tick + 1} := by
  obtain ⟨checksum,parsed⟩ := h.parsed
  obtain ⟨numbered,dated⟩ := originalValues h.toApplicationFields
  have number : requiredU64 ⟨b,fields,checksum⟩ 34 = .ok n := by
    refine requiredDecimal fits ?_
    change (valuesOf fields 34).head? = _
    rw [numbered]
    rfl
  have date : requiredValue ⟨b,fields,checksum⟩ 52 = .ok time := by
    refine requiredHead.mpr ?_
    change (valuesOf fields 52).head? = _
    rw [dated]
    rfl
  have run := replayFieldsRun (c := c) h.toApplicationFields w
  unfold writeApplicationReplay
  simp only [parsed,codecResult,number,date,inSession,ofExceptOk,pure_bind]
  rw [bindReturns run]

structure PlainSender (c : Ctx) : Prop where
  sender : SOH ∉ c.config.senderCompId
  target : SOH ∉ c.config.targetCompId
  clock : ∀ tick, SOH ∉ c.env.sendingTime tick

structure PlainRequest (request : ApplicationRequest) : Prop where
  clOrdId : SOH ∉ request.clOrdId
  fields : ∀ f ∈ request.fields, sohFree f

variable {request : ApplicationRequest} {u v : World}

theorem appendedFrom {flag : Bool} {fields tail : List Field} {added : Bool}
    (run : appendBody c flag fields w = (.ok (tail,added),v)) :
    (∀ f ∈ tail, f ∈ fields ∨ ∃ tick, f = ⟨60,c.env.sendingTime tick⟩) ∧ v.trace = w.trace := by
  induction fields generalizing w tail added with
  | nil =>
    cases run
    exact ⟨fun _ mem => .inl mem,rfl⟩
  | cons field rest ih =>
    have keeps {t : List Field} {u : World} {a : Bool} (inner : appendBody c flag rest u = (.ok (t,a),v)) :
        ∀ f ∈ t, f ∈ field :: rest ∨ ∃ tick, f = ⟨60,c.env.sendingTime tick⟩ := fun f mem =>
      ((ih inner).1 f mem).imp_left (List.mem_cons_of_mem _)
    unfold appendBody at run
    split at run
    · rw [bindReturns (rfl : sendingTime c w = (.ok _,_))] at run
      obtain ⟨⟨t,a⟩,u,inner,done⟩ := bindReturned run
      cases done
      refine ⟨fun f mem => ?_,(ih inner).2⟩
      rcases List.mem_cons.mp mem with rfl | mem
      · exact .inl List.mem_cons_self
      rcases List.mem_cons.mp mem with rfl | mem
      · exact .inr ⟨_,rfl⟩
      · exact keeps inner f mem
    · obtain ⟨⟨t,a⟩,u,inner,done⟩ := bindReturned run
      cases done
      refine ⟨fun f mem => ?_,(ih inner).2⟩
      rcases List.mem_cons.mp mem with rfl | mem
      · exact .inl List.mem_cons_self
      · exact keeps inner f mem

theorem splitFrom {orig body : List Field} (parts : splitOrigClOrdId request = .ok (orig,body)) :
    orig ++ body = request.fields := by
  unfold splitOrigClOrdId at parts
  split at parts
  · split at parts
    · split at parts
      · cases parts
        simp_all
      · cases parts
    · cases parts
  · cases parts
    rfl

theorem validSubmit (valid : validateSubmit request = .ok ()) :
    (request.msgType ≠ [] ∧ EQ ∉ request.msgType ∧ SOH ∉ request.msgType) ∧
      ∀ f ∈ request.fields, f.tag ∉ managedSubmitTags := by
  unfold validateSubmit at valid
  split at valid
  · cases valid
  · rename_i plain
    split at valid
    · cases valid
    · rename_i free
      exact ⟨by simpa [not_or] using plain,by simpa using free⟩

theorem submitShape {fields : List Field} (prepared : submitFields c request w = (.ok fields,v)) :
    (∃ rest, fields = headerFields request.msgType c.config.senderCompId c.config.targetCompId w.nextOut
        (c.env.sendingTime w.tick) ++ rest ∧ (⟨11,request.clOrdId⟩ : Field) ∈ rest ∧
      ∀ f ∈ rest, f ∈ request.fields ∨ f = ⟨11,request.clOrdId⟩ ∨ ∃ tick, f = ⟨60,c.env.sendingTime tick⟩) ∧
    v.trace = w.trace := by
  unfold submitFields at prepared
  rw [bindReturns (headerRun c request.msgType w)] at prepared
  cases given : splitOrigClOrdId request with
  | error e =>
    rw [given] at prepared
    cases prepared
  | ok parts =>
    obtain ⟨orig,body⟩ := parts
    have whole := splitFrom given
    rw [given,inSession,ofExceptOk,bindReturns (pureRun _ _)] at prepared
    obtain ⟨⟨tail,added⟩,u,appended,done⟩ := bindReturned prepared
    obtain ⟨from',trace⟩ := appendedFrom appended
    dsimp only at done
    rw [iteRun] at done
    split at done
    · cases done
    cases done
    refine ⟨⟨orig ++ [⟨11,request.clOrdId⟩] ++ tail,by simp [headerFields],by simp,fun f mem => ?_⟩,trace⟩
    rw [← whole]
    simp only [List.mem_append,List.mem_singleton] at mem ⊢
    rcases mem with (front | own) | back
    · exact .inl (.inl front)
    · exact .inr (.inl own)
    · exact (from' f back).imp .inr .inr

theorem submitApplicationFields (sender : PlainSender c) (plain : PlainRequest request)
    (valid : validateSubmit request = .ok ()) {fields : List Field}
    (prepared : submitFields c request w = (.ok fields,v)) :
    ApplicationFields w.nextOut (c.env.sendingTime w.tick) fields := by
  obtain ⟨⟨-,-,type⟩,free⟩ := validSubmit valid
  obtain ⟨⟨rest,rfl,-,own⟩,-⟩ := submitShape prepared
  refine ⟨⟨_,_,_,rest,rfl,fun f mem => ?_⟩,fun f mem => ?_⟩
  · rcases own f mem with planned | rfl | ⟨tick,rfl⟩
    · have other := free f planned
      simp only [managedSubmitTags,headerTags,List.mem_cons,List.not_mem_nil,or_false,not_or] at other ⊢
      tauto
    · exact (by decide : (11 : UInt32) ∉ headerTags)
    · exact (by decide : (60 : UInt32) ∉ headerTags)
  · rcases List.mem_append.mp mem with header | behind
    · simp only [headerFields,List.mem_cons,List.not_mem_nil,or_false] at header
      rcases header with rfl | rfl | rfl | rfl | rfl
      · exact type
      · exact sender.sender
      · exact sender.target
      · exact sohNotIn _
      · exact sender.clock _
    · rcases own f behind with planned | rfl | ⟨tick,rfl⟩
      · exact plain.fields f planned
      · exact plain.clOrdId
      · exact sender.clock tick

end
end FixCli.Session
