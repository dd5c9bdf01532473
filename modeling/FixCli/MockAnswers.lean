import FixCli.Lib.Stream
import FixCli.Letters
import FixCli.MockSession

/-! The frames that the two parties exchange, and what the mock makes of one that is
next in order: an answer at most, or the end of the session. -/
namespace FixCli.Mock
open Lib Codec Session

section

variable {msgType time : Bytes} {n : Nat} {body : List Field} {checksum : UInt8}

theorem requiredGiven {message : ParsedMessage} {tag : UInt32} {value : Bytes}
    (given : (message.values tag).head? = some value) : required message tag = .ok value := by
  simp only [required,given]

theorem envelopeInOrder {k : MockConfig} (below : n < u64Limit) :
    validateEnvelope k (lettered k.beginString msgType k.targetCompId k.senderCompId n time body checksum) n = .ok () := by
  have number : parseNumber (decimal n) 34 = .ok n := by
    simp only [parseNumber,utf8OfDecimal,parseU64Decimal below]
    rfl
  unfold validateEnvelope
  rw [if_neg (by simp [lettered]),requiredGiven letteredSender,requiredGiven letteredTarget,requiredGiven letteredNumber]
  simp only [bind,Except.bind,number,ne_eq,not_true_eq_false,if_false]

end

def messageId (types : List Bytes) (wire : Bytes) : Option Bytes :=
  match parseFrame wire with
  | .ok message => match (message.values 35).head? with
    | some msgType => if types.contains msgType then (message.values 11).head? else none
    | none => none
  | .error _ => none

def orderTypes : List Bytes := [ascii "D", ascii "F", ascii "G"]

def reportTypes : List Bytes := [ascii "8"]

theorem letterId {b sender target msgType wire : Bytes} {n : Nat} {body : List Field}
    (letter : Letter b sender target n msgType body wire) (names : PlainNames sender target)
    (fits : wire.length < usizeLimit) (types : List Bytes) :
    messageId types wire = if msgType ∈ types then (valuesOf body 11).head? else none := by
  obtain ⟨time,checksum,parsed,-⟩ := letter.parsed names fits
  simp only [messageId,parsed,letteredType,List.contains_iff_mem,
    letteredBody (by simp : (11 : UInt32) ∉ [35, 49, 56, 34, 52])]

structure Sound (k : MockConfig) (env : MockEnv) : Prop where
  beginString : k.beginString ≠ [] ∧ SOH ∉ k.beginString ∧ EQ ∉ k.beginString
  names : PlainNames k.senderCompId k.targetCompId
  clock : ∀ tick, SOH ∉ env.sendingTime tick
  reliable : ∀ tick, env.ioFault tick = none

def Answering (k : MockConfig) (n : Nat) (wire : Bytes) : Prop :=
  ∃ msgType body, Letter k.beginString k.senderCompId k.targetCompId n msgType body wire ∧
    (msgType = ascii "A" ∧ (valuesOf body 108).head? = some (decimal k.heartbeatIntervalSecs) ∨
      msgType = ascii "0" ∨ msgType = ascii "8") ∧ ∀ f ∈ body, f.tag ∉ [553, 554, 925]

def Parting (k : MockConfig) (n : Nat) (wire : Bytes) : Prop :=
  Letter k.beginString k.senderCompId k.targetCompId n (ascii "5") [] wire

def Known (msgType : Bytes) (body : List Field) : Prop :=
  msgType = ascii "A" ∨ msgType = ascii "0" ∨ msgType = ascii "1" ∨
    (msgType = ascii "D" ∨ msgType = ascii "F" ∨ msgType = ascii "G") ∧ ∃ f ∈ body, f.tag = 11

def Asking (k : MockConfig) (closing : Prop) (n : Nat) (wire : Bytes) : Prop :=
  ∃ msgType body, Letter k.beginString k.targetCompId k.senderCompId n msgType body wire ∧
    (Known msgType body ∨ msgType = ascii "5" ∧ closing)

structure Counted (k : MockConfig) (s : MockState) : Prop where
  written : s.written.length + 1 = s.nextOut
  answers : Consecutive (Answering k) 1 s.written.reverse
  executions : s.nextExecutionId ≤ s.nextIn

structure Proceeds (k : MockConfig) (s : MockState) (taken : Nat) (t : MockState) : Prop extends Counted k t where
  nextIn : t.nextIn = s.nextIn + taken
  decoder : t.decoder = s.decoder

def Said (k : MockConfig) (s : MockState) (msgType : Bytes) (body : List Field) (t : MockState) : Prop :=
  ∃ wire n, t.written = wire :: s.written ∧ Letter k.beginString k.senderCompId k.targetCompId n msgType body wire

def Confirms (s : MockState) (frames : List Bytes) (t : MockState) : Prop :=
  (∀ wire ∈ t.written, wire.length < usizeLimit) → ∃ new, t.written = new ++ s.written ∧
    new.reverse.filterMap (messageId reportTypes) = frames.filterMap (messageId orderTypes)

def Parted (k : MockConfig) (t : MockState) : Prop :=
  ∃ wire rest, t.written = wire :: rest ∧ Consecutive (Answering k) 1 rest.reverse ∧ Parting k (rest.length + 1) wire

def Overfull (t : MockState) : Prop := u64Limit ≤ t.written.length + 1

section

variable {k : MockConfig} {env : MockEnv} {s t : MockState} {closing : Prop}

open Prog

theorem writeRuns (sound : Sound k env) {fields : List Field} {wire : Bytes}
    (encodes : encodeMessage k.beginString fields = .ok wire) (s : MockState) : writeMessage k env fields s =
      (.ok (),{s with log := .outgoing wire :: s.log, written := wire :: s.written, tick := s.tick + 1}) := by
  simp only [writeMessage,encodes,mockResult,ofExceptOk,note,bindRun,pureRun,changeRun,stateRun,sound.reliable]

structure Reply (k : MockConfig) (n : Nat) (fields : List Field) (msgType time : Bytes) (body : List Field) : Prop where
  shape : fields = headerFields msgType k.senderCompId k.targetCompId n time ++ body
  clock : SOH ∉ time
  plain : SOH ∉ msgType ∧ ∀ f ∈ body, sohFree f
  tags : ∀ f ∈ body, f.tag ∉ [0, 8, 9, 10, 553, 554, 925]
  kind : msgType = ascii "A" ∧ (valuesOf body 108).head? = some (decimal k.heartbeatIntervalSecs) ∨
    msgType = ascii "0" ∨ msgType = ascii "8"

theorem Reply.answers (sound : Sound k env) {n : Nat} {fields : List Field} {msgType time : Bytes} {body : List Field}
    (h : Reply k n fields msgType time body) :
    ∃ wire, encodeMessage k.beginString fields = .ok wire ∧ Answering k n wire ∧
      Letter k.beginString k.senderCompId k.targetCompId n msgType body wire := by
  have tags := h.tags
  simp only [List.mem_cons,List.not_mem_nil,or_false,not_or] at tags
  obtain ⟨wire,encodes⟩ := letterEncodes sound.beginString msgType k.senderCompId k.targetCompId n time body
    fun f mem => by
      have other := tags f mem
      simp only [List.mem_cons,List.not_mem_nil,or_false,not_or]
      tauto
  have letter : Letter k.beginString k.senderCompId k.targetCompId n msgType body wire :=
    ⟨⟨time,h.clock,encodes⟩,h.plain⟩
  refine ⟨wire,h.shape ▸ encodes,⟨msgType,body,letter,h.kind,fun f mem => ?_⟩,letter⟩
  have other := tags f mem
  simp only [List.mem_cons,List.not_mem_nil,or_false,not_or]
  tauto

theorem saysNext (sound : Sound k env) (counted : Counted k s) {fields : List Field} {msgType time : Bytes}
    {body : List Field} (reply : Reply k s.nextOut fields msgType time body) :
    match (do writeMessage k env fields; countOutbound env : MockAct Unit) s with
    | (.ok _, t) => Proceeds k s 0 t ∧ Said k s msgType body t
    | (.error _, t) => Overfull t ∧ Said k s msgType body t := by
  obtain ⟨wire,encodes,answering,letter⟩ := reply.answers sound
  rw [bindReturns (writeRuns sound encodes s)]
  simp only [countOutbound,addOne,bindRun,stateRun]
  by_cases below : s.nextOut + 1 < u64Limit
  · simp only [if_pos below,mockResult,ofExceptOk,pureRun,mockNow,changeRun]
    refine ⟨⟨⟨?_,?_,counted.executions⟩,rfl,rfl⟩,wire,_,rfl,letter⟩
    · simp only [List.length_cons]
      have := counted.written
      omega
    · simp only [List.reverse_cons]
      refine counted.answers.append (.cons ?_ .nil)
      rw [List.length_reverse,Nat.add_comm 1,counted.written]
      exact answering
  · simp only [if_neg below,mockResult,ofExceptError,stopRun,Overfull,List.length_cons]
    have := counted.written
    exact ⟨by omega,wire,_,rfl,letter⟩

theorem logonReply (sound : Sound k env) (tick n : Nat) {reset : List Field} (flag : reset = [⟨141,ascii "Y"⟩] ∨ reset = []) :
    Reply k n (logonFields k (env.sendingTime tick) n ++ reset) (ascii "A") (env.sendingTime tick)
      ([⟨98,ascii "0"⟩,⟨108,decimal k.heartbeatIntervalSecs⟩] ++ reset) where
  shape := by simp [logonFields,mockHeader,headerFields]
  clock := sound.clock tick
  plain := by
    refine ⟨by decide,?_⟩
    rcases flag with rfl | rfl <;> simp [sohFree,sohNotIn,(by decide : SOH ∉ ascii "0"),(by decide : SOH ∉ ascii "Y")]
  tags := by rcases flag with rfl | rfl <;> simp
  kind := .inl ⟨rfl,rfl⟩

theorem heartbeatReply (sound : Sound k env) (tick n : Nat) (id : Option Bytes) (plain : ∀ text ∈ id, SOH ∉ text) :
    Reply k n (heartbeatFields k (env.sendingTime tick) n id) (ascii "0") (env.sendingTime tick)
      (id.map fun id => (⟨112,id⟩ : Field)).toList where
  shape := rfl
  clock := sound.clock tick
  plain := by
    refine ⟨by decide,?_⟩
    cases id with
    | none => simp
    | some id => simpa [sohFree] using plain id rfl
  tags := by cases id <;> simp
  kind := .inr (.inl rfl)

section

variable {message : ParsedMessage} (plain : ∀ f ∈ message.fields, sohFree f)
include plain

theorem valuePlain {tag : UInt32} {value : Bytes} (given : (message.values tag).head? = some value) : SOH ∉ value := by
  obtain ⟨f,mem,rfl⟩ := List.mem_map.mp (List.mem_of_mem_head? given)
  exact plain f (List.mem_of_mem_filter mem)

theorem copiedPlain (tag : UInt32) : ∀ f ∈ copied message tag, f.tag = tag ∧ sohFree f := by
  intro f mem
  obtain ⟨value,given,rfl⟩ := List.mem_map.mp mem
  exact ⟨rfl,valuePlain plain (Option.mem_toList.mp given)⟩

theorem reportReply (sound : Sound k env) (n executionId : Nat) {requestType clOrdId : Bytes}
    (typed : (message.values 35).head? = some requestType)
    (order : requestType = ascii "D" ∨ requestType = ascii "F" ∨ requestType = ascii "G")
    (given : (message.values 11).head? = some clOrdId) (s : MockState) :
    ∃ fields body, executionReportFields k env n executionId message s = (.ok fields,{s with tick := s.tick + 1}) ∧
      Reply k n fields (ascii "8") (env.sendingTime s.tick) body ∧ (valuesOf body 11).head? = some clOrdId := by
  have quantity : SOH ∉ (message.values 38).head?.getD (ascii "0") := by
    cases first : (message.values 38).head? with
    | none => exact (by decide : SOH ∉ ascii "0")
    | some value => exact valuePlain plain first
  obtain ⟨execType,orderStatus,leavesQty,outcome,free⟩ : ∃ execType orderStatus leavesQty,
      orderOutcome requestType ((message.values 38).head?.getD (ascii "0")) = .ok (execType,orderStatus,leavesQty) ∧
        SOH ∉ execType ∧ SOH ∉ orderStatus ∧ SOH ∉ leavesQty := by
    rcases order with rfl | rfl | rfl
    · exact ⟨_,_,_,rfl,by decide,by decide,quantity⟩
    · exact ⟨_,_,_,rfl,by decide,by decide,by decide⟩
    · exact ⟨_,_,_,rfl,by decide,by decide,quantity⟩
  let body : List Field := [⟨37,ascii "MOCK-ORDER-" ++ decimal executionId⟩,⟨11,clOrdId⟩] ++ copied message 41 ++
    [⟨17,ascii "MOCK-EXEC-" ++ decimal executionId⟩,⟨39,orderStatus⟩,⟨150,execType⟩] ++ copied message 55 ++
    copied message 54 ++ [⟨151,leavesQty⟩,⟨14,ascii "0"⟩]
  have named (text : String) (apart : SOH ∉ ascii text) : SOH ∉ ascii text ++ decimal executionId := fun mem =>
    (List.mem_append.mp mem).elim apart (sohNotIn executionId)
  have each : ∀ f ∈ body, f.tag ∈ [37, 11, 41, 17, 39, 150, 55, 54, 151, 14] ∧ sohFree f := by
    intro f mem
    simp only [body,List.mem_append,List.mem_cons,List.not_mem_nil,or_false] at mem
    rcases mem with ((((((rfl | rfl) | copy) | (rfl | rfl | rfl)) | copy) | copy) | (rfl | rfl))
    · exact ⟨by simp,named "MOCK-ORDER-" (by decide)⟩
    · exact ⟨by simp,valuePlain plain given⟩
    · obtain ⟨tag,free⟩ := copiedPlain plain 41 f copy
      exact ⟨by simp [tag],free⟩
    · exact ⟨by simp,named "MOCK-EXEC-" (by decide)⟩
    · exact ⟨by simp,free.2.1⟩
    · exact ⟨by simp,free.1⟩
    · obtain ⟨tag,free⟩ := copiedPlain plain 55 f copy
      exact ⟨by simp [tag],free⟩
    · obtain ⟨tag,free⟩ := copiedPlain plain 54 f copy
      exact ⟨by simp [tag],free⟩
    · exact ⟨by simp,free.2.2⟩
    · exact ⟨by simp,by decide⟩
  refine ⟨mockHeader k (env.sendingTime s.tick) n "8" ++ body,body,?_,⟨rfl,sound.clock s.tick,
    ⟨by decide,fun f mem => (each f mem).2⟩,fun f mem => ?_,.inr (.inr rfl)⟩,rfl⟩
  · simp only [executionReportFields,required,typed,given,outcome,mockResult,ofExceptOk,bindRun,pureRun,mockSendingTime,
      body,List.append_assoc]
  · have own : ∀ tag ∈ ([37, 11, 41, 17, 39, 150, 55, 54, 151, 14] : List UInt32), tag ∉ [0, 8, 9, 10, 553, 554, 925] := by
      simp
    exact own _ (each f mem).1

end

def Goes (k : MockConfig) (closing : Prop) (s : MockState) (taken : Nat) : Except Ending Unit × MockState → Prop
  | (.ok _, t) => Proceeds k s taken t
  | (.error ending, t) => Overfull t ∨ ending = .returned ∧ closing ∧ Parted k t

theorem Counted.same (h : Counted k s) (nextOut : t.nextOut = s.nextOut) (written : t.written = s.written)
    (executions : t.nextExecutionId ≤ t.nextIn) : Counted k t :=
  ⟨by rw [written,nextOut]; exact h.written,by rw [written]; exact h.answers,executions⟩

theorem answersWell (sound : Sound k env) (counted : Counted k s) (room : s.nextExecutionId + 1 < u64Limit)
    (taken : s.nextExecutionId < s.nextIn) {message : ParsedMessage} {msgType : Bytes} {body : List Field}
    (plain : ∀ f ∈ message.fields, sohFree f) (typed : (message.values 35).head? = some msgType)
    (bodied : ∀ f ∈ body, f ∈ message.fields) (known : Known msgType body) :
    match answerOf k env message msgType s with
    | (.ok none, t) => Proceeds k s 0 t ∧ t.written = s.written ∧ msgType ∉ orderTypes
    | (.ok (some fields), t) => Proceeds k s 0 t ∧ t.written = s.written ∧ ∃ kind time body,
        Reply k t.nextOut fields kind time body ∧ (if kind ∈ reportTypes then (valuesOf body 11).head? else none) =
          if msgType ∈ orderTypes then (message.values 11).head? else none
    | (.error _, _) => False := by
  unfold answerOf
  rw [bindReturns (stateRun s)]
  rcases known with rfl | rfl | rfl | ⟨order,f,mem,tag⟩
  · simp only [if_true,note,bindRun,changeRun,mockSendingTime,pureRun]
    refine ⟨⟨counted.same rfl rfl counted.executions,rfl,rfl⟩,trivial,_,_,_,logonReply sound s.tick s.nextOut ?_,?_⟩
    · split
      · exact .inl rfl
      · exact .inr rfl
    · rw [if_neg (by decide),if_neg (by decide)]
  · simp only [(by decide : ascii "0" ≠ ascii "A"),if_false,if_true,pureRun]
    exact ⟨⟨counted,rfl,rfl⟩,trivial,by decide⟩
  · simp only [(by decide : ascii "1" ≠ ascii "A"),(by decide : ascii "1" ≠ ascii "0"),if_false,if_true,bindRun,
      mockSendingTime,pureRun]
    refine ⟨⟨counted.same rfl rfl counted.executions,rfl,rfl⟩,trivial,_,_,_,
      heartbeatReply sound s.tick s.nextOut _ fun text given => valuePlain plain (Option.mem_def.mp given),?_⟩
    rw [if_neg (by decide),if_neg (by decide)]
  · have other : msgType ≠ ascii "A" ∧ msgType ≠ ascii "0" ∧ msgType ≠ ascii "1" := by
      rcases order with rfl | rfl | rfl <;> decide
    obtain ⟨clOrdId,given⟩ : ∃ clOrdId, (message.values 11).head? = some clOrdId := by
      have inside : f.value ∈ message.values 11 :=
        List.mem_map.mpr ⟨f,List.mem_filter.mpr ⟨bodied f mem,by simp [tag]⟩,rfl⟩
      exact ⟨_,List.head?_eq_some_head (List.ne_nil_of_mem inside)⟩
    obtain ⟨fields,reported,run,reply,named⟩ := reportReply plain sound s.nextOut s.nextExecutionId typed order given s
    simp only [if_neg other.1,if_neg other.2.1,if_neg other.2.2,if_pos order]
    rw [bindReturns run]
    simp only [addOne,if_pos room,mockResult,ofExceptOk,bindRun,pureRun,changeRun]
    have ordered : msgType ∈ orderTypes := by
      rcases order with rfl | rfl | rfl <;> decide
    refine ⟨⟨counted.same rfl rfl taken,rfl,rfl⟩,trivial,_,_,_,reply,?_⟩
    rw [if_pos (by decide),if_pos ordered,named,given]

theorem parts (sound : Sound k env) (counted : Counted k s) (message : ParsedMessage) :
    ∃ t, answerOf k env message (ascii "5") s = (.error .returned,t) ∧ Parted k t ∧ Said k s (ascii "5") [] t := by
  obtain ⟨wire,encodes⟩ := letterEncodes sound.beginString (ascii "5") k.senderCompId k.targetCompId s.nextOut
    (env.sendingTime s.tick) [] (by simp)
  have fields : logoutFields k (env.sendingTime s.tick) s.nextOut =
      headerFields (ascii "5") k.senderCompId k.targetCompId s.nextOut (env.sendingTime s.tick) ++ [] := rfl
  have run : ∃ t, answerOf k env message (ascii "5") s = (.error .returned,t) ∧ t.written = wire :: s.written := by
    unfold answerOf
    rw [bindReturns (stateRun s)]
    simp only [(by decide : ascii "5" ≠ ascii "A"),(by decide : ascii "5" ≠ ascii "0"),(by decide : ascii "5" ≠ ascii "1"),
      (by decide : ¬ (ascii "5" = ascii "D" ∨ ascii "5" = ascii "F" ∨ ascii "5" = ascii "G")),if_false,if_true]
    simp only [note,bindRun,changeRun,mockSendingTime,fields,writeRuns sound encodes,stopRun]
    exact ⟨_,rfl,rfl⟩
  obtain ⟨t,run,written⟩ := run
  have letter : Letter k.beginString k.senderCompId k.targetCompId s.nextOut (ascii "5") [] wire :=
    ⟨⟨_,sound.clock s.tick,encodes⟩,by decide,by simp⟩
  refine ⟨t,run,⟨wire,s.written,written,counted.answers,?_⟩,wire,_,written,letter⟩
  rw [Parting,counted.written]
  exact letter

theorem entersHandle {frame : Bytes} {message : ParsedMessage} {msgType : Bytes}
    (heard : parsedResult (parseFrame frame) = .ok message) (envelope : validateEnvelope k message s.nextIn = .ok ())
    (typed : (message.values 35).head? = some msgType) (below : s.nextIn + 1 < u64Limit) :
    mockHandle k env frame s = (do
      match ← answerOf k env message msgType with
      | some fields => do writeMessage k env fields; countOutbound env
      | none => pure () : MockAct Unit) {s with log := .incoming frame :: s.log, nextIn := s.nextIn + 1} := by
  have counted : mockResult (addOne s.nextIn "inbound sequence overflow") = .ok (s.nextIn + 1) := by
    simp only [addOne,if_pos below,mockResult]
  have found : mockResult (required message 35) = .ok msgType := by
    rw [requiredGiven typed,mockResult]
  have logged : note (.incoming frame) s = (.ok (),{s with log := .incoming frame :: s.log}) := changeRun _ s
  unfold mockHandle
  refine (bindReturns logged).trans ?_
  rw [heard]
  refine (bindReturns (pureRun ..)).trans ((bindReturns (stateRun _)).trans ?_)
  dsimp only
  rw [envelope,counted,found]
  exact (bindReturns (pureRun ..)).trans ((bindReturns (changeRun ..)).trans (bindReturns (pureRun ..)))

theorem Said.confirms (sound : Sound k env) {u : MockState} {msgType frame : Bytes} {body : List Field}
    (said : Said k t msgType body u) (written : t.written = s.written)
    (same : (if msgType ∈ reportTypes then (valuesOf body 11).head? else none) = messageId orderTypes frame) :
    Confirms s [frame] u := by
  obtain ⟨wire,n,after,letter⟩ := said
  intro fits
  refine ⟨[wire],by rw [after,written]; rfl,?_⟩
  have id := letterId letter sound.names (fits wire (by rw [after]; exact List.mem_cons_self)) reportTypes
  simp only [List.reverse_singleton,List.filterMap_cons,List.filterMap_nil,id,same]

theorem handles (sound : Sound k env) (counted : Counted k s) {frame : Bytes} (asking : Asking k closing s.nextIn frame)
    (fits : frame.length < usizeLimit) (below : s.nextIn + 1 < u64Limit) :
    Goes k closing s 1 (mockHandle k env frame s) ∧ Confirms s [frame] (mockHandle k env frame s).2 := by
  obtain ⟨msgType,body,letter,known⟩ := asking
  have names : PlainNames k.targetCompId k.senderCompId := ⟨sound.names.target,sound.names.sender⟩
  obtain ⟨time,checksum,parsed,plain⟩ := letter.parsed names fits
  set message := lettered k.beginString msgType k.targetCompId k.senderCompId s.nextIn time body checksum with same
  have envelope : validateEnvelope k message s.nextIn = .ok () := envelopeInOrder (by omega)
  have typed : (message.values 35).head? = some msgType := letteredType
  have bodied : ∀ f ∈ body, f ∈ message.fields := fun f mem => List.mem_append_right _ mem
  have heard : parsedResult (parseFrame frame) = .ok message := by rw [parsed]; rfl
  set taken : MockState := {s with log := .incoming frame :: s.log, nextIn := s.nextIn + 1} with next
  have first : Counted k taken := counted.same rfl rfl (Nat.le_succ_of_le counted.executions)
  have id : messageId orderTypes frame = if msgType ∈ orderTypes then (message.values 11).head? else none := by
    simp only [messageId,parsed,typed,List.contains_iff_mem]
  rw [entersHandle heard envelope typed below,← next]
  rcases known with known | ⟨rfl,closes⟩
  · have well := answersWell sound first (by have := counted.executions; change s.nextExecutionId + 1 < _; omega)
      (Nat.lt_succ_of_le counted.executions) plain typed bodied known
    rcases run : answerOf k env message msgType taken with ⟨ending | fields,t⟩
    · rw [run] at well
      exact well.elim
    · rw [run] at well
      rw [bindReturns run]
      cases fields with
      | none =>
        obtain ⟨kept,written,other⟩ := well
        refine ⟨⟨kept.toCounted,kept.nextIn,kept.decoder⟩,fun _ => ⟨[],written,?_⟩⟩
        simp [id,other]
      | some fields =>
        obtain ⟨kept,written,kind,time,body,reply,confirmed⟩ := well
        have spoke := saysNext sound kept.toCounted reply
        change Goes k closing s 1 ((do writeMessage k env fields; countOutbound env : MockAct Unit) t) ∧
          Confirms s [frame] ((do writeMessage k env fields; countOutbound env : MockAct Unit) t).2
        rcases ran : (do writeMessage k env fields; countOutbound env : MockAct Unit) t with ⟨ending | _,u⟩
        · rw [ran] at spoke
          exact ⟨.inl spoke.1,spoke.2.confirms sound written (confirmed.trans id.symm)⟩
        · rw [ran] at spoke
          obtain ⟨spoke,said⟩ := spoke
          exact ⟨⟨spoke.toCounted,spoke.nextIn.trans kept.nextIn,spoke.decoder.trans kept.decoder⟩,
            said.confirms sound written (confirmed.trans id.symm)⟩
  · obtain ⟨t,run,parted,said⟩ := parts sound first message
    rw [bindStops run]
    refine ⟨.inr ⟨rfl,closes,parted⟩,said.confirms sound rfl ?_⟩
    rw [id,if_neg (by decide),if_neg (by decide)]

end
end FixCli.Mock
