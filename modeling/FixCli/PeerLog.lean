import FixCli.ArrivalOrder
import FixCli.Credentials
import FixCli.GapRefill
import FixCli.ReplayPieces

/-! The other side of the session and what it sent, its Logon answer first. The actor
reads the frames of this log, and those that a replay of it writes, as they were meant,
unless a field is one that it does not take. -/
namespace FixCli.Session
open Lib Codec Store

structure LogMessage where
  msgType : Bytes
  time : Bytes
  body : List Field
  wire : Bytes

namespace LogMessage

def application (m : LogMessage) : Bool :=
  decide (m.msgType ∉ [ascii "0", ascii "1", ascii "2", ascii "3", ascii "4", ascii "5", ascii "A"])

def fields (p : Ctx) (n : Nat) (m : LogMessage) : List Field :=
  headerFields m.msgType p.config.senderCompId p.config.targetCompId n m.time ++ m.body

end LogMessage

structure Logged (p : Ctx) (n : Nat) (m : LogMessage) : Prop where
  encodes : encodeMessage p.config.beginString (m.fields p n) = .ok m.wire
  fits : m.wire.length < usizeLimit
  utf8 : isUtf8 m.msgType = true
  plain : ∀ f ∈ m.fields p n, sohFree f
  free : ∀ f ∈ m.body, f.tag ∉ headerTags

structure PeerLog (c p : Ctx) (u : World) (last : Nat) (log : Nat → LogMessage) : Prop where
  beginString : p.config.beginString = c.config.beginString
  sender : p.config.senderCompId = c.config.targetCompId
  target : p.config.targetCompId = c.config.senderCompId
  plain : PlainSender p
  nextOut : u.nextOut = last + 1
  logged : ∀ n, 1 ≤ n → n ≤ last → Logged p n (log n)
  logon : (log 1).msgType = ascii "A" ∧ ∃ heartBtInt, (valuesOf (log 1).body 108).head? = some heartBtInt ∧
    isUtf8 heartBtInt = true ∧ parseU64 heartBtInt = some c.config.heartbeatIntervalSecs
  mixed : ∀ n, 1 < n → n ≤ last → (log n).application = true ∨ (log n).msgType = ascii "0" ∨
    (log n).msgType = ascii "1" ∧ ∃ testReqId, (valuesOf (log n).body 112).head? = some testReqId
  sent : ∀ n : Nat, n ∈ u.journal.outbound ↔ 1 ≤ n ∧ n ≤ last
  recorded : ∀ (n : Nat) (record : OutboundRecord), u.journal.outbound[n]? = some record →
    record.command.msgSeqNum = n ∧ (record.command.clOrdId ≠ [] ↔ (log n).application = true) ∧
      ((log n).application = true → record.wire = (log n).wire)

def Clear (c : Ctx) (fields : List Field) : Prop := ∀ f ∈ fields, isSensitiveTag c f.tag = false

structure Addressed (c : Ctx) (n : Nat) (fields : List Field) (frame : Bytes) : Prop where
  encodes : encodeMessage c.config.beginString fields = .ok frame
  plain : ∀ f ∈ fields, sohFree f
  fits : frame.length < usizeLimit
  sender : (valuesOf fields 49).head? = some c.config.targetCompId
  target : (valuesOf fields 56).head? = some c.config.senderCompId
  sequence : (valuesOf fields 34).head? = some (decimal n)
  small : n < u64Limit

section

variable {c p : Ctx} {u w : World} {last n : Nat} {log : Nat → LogMessage} {m : LogMessage} {fields : List Field}
  {frame wire : Bytes}

theorem Addressed.sequenced (h : Addressed c n fields frame) (clear : Clear c fields) :
    ∃ checksum, Sequenced c frame ⟨c.config.beginString,fields,checksum⟩ n := by
  obtain ⟨checksum,parsed⟩ := encodedParses h.encodes h.plain h.fits
  refine ⟨checksum,parseInboundEnvelope ⟨parsed,rfl,requiredHead.mpr h.sender,requiredHead.mpr h.target,?_⟩,
    requiredDecimal h.small h.sequence⟩
  exact List.find?_eq_none.mpr fun f mem => by simp [clear f mem]

theorem Addressed.clear (h : Addressed c n fields frame) {message : ParsedMessage}
    (read : parseInbound c frame = .ok message) : Clear c fields := by
  obtain ⟨checksum,parsed⟩ := encodedParses h.encodes h.plain h.fits
  have envelope := parseInboundSource read
  cases envelope.parsed.symm.trans parsed
  intro f mem
  simpa using List.find?_eq_none.mp envelope.plain f mem

theorem headerClear (accepted : validateCustomLogonFields c.logonFields [] = .ok ()) {tag : UInt32}
    (header : tag ∈ headerTags) : isSensitiveTag c tag = false := by
  have reserved : ∀ tag ∈ headerTags, tag ∈ reservedLogonTags ∧ tag ∉ [(553 : UInt32), 554, 925] := by
    simp [headerTags,reservedLogonTags]
  obtain ⟨own,other⟩ := reserved tag header
  have custom : c.logonFields.any (fun field => field.tag == tag) = false := by
    refine List.any_eq_false.mpr fun field mem same => ?_
    exact (acceptedPlain accepted field mem).1 (by rwa [beq_iff_eq.mp same])
  simp only [isSensitiveTag,custom,Bool.or_false,decide_eq_false_iff_not]
  exact other

theorem clearBehind (accepted : validateCustomLogonFields c.logonFields [] = .ok ()) {header body : List Field}
    (own : ∀ f ∈ header, f.tag ∈ headerTags) : Clear c (header ++ body) ↔ Clear c body := by
  constructor
  · exact fun clear f mem => clear f (List.mem_append_right _ mem)
  · intro clear f mem
    rcases List.mem_append.mp mem with ahead | behind
    · exact headerClear accepted (own f ahead)
    · exact clear f behind

theorem Logged.wired (h : Logged p n m) : ApplicationWire p.config.beginString n m.time (m.fields p n) m.wire :=
  ⟨⟨⟨_,_,_,_,rfl,h.free⟩,h.plain⟩,h.encodes,h.fits⟩

theorem LogMessage.clear (accepted : validateCustomLogonFields c.logonFields [] = .ok ()) :
    Clear c (m.fields p n) ↔ Clear c m.body := clearBehind accepted (by simp [headerFields,headerTags])

theorem copyClear (accepted : validateCustomLogonFields c.logonFields [] = .ok ()) {sent : Bytes}
    (free : ∀ f ∈ m.body, f.tag ∉ headerTags) :
    Clear c (copyFields sent m.time (m.fields p n)) ↔ Clear c m.body := by
  rw [LogMessage.fields,copyHeaded _ _ _ free]
  exact clearBehind accepted (by simp [headerTags])

theorem gapFillClear (accepted : validateCustomLogonFields c.logonFields [] = .ok ()) {time : Bytes}
    {start newSeqNo : Nat} :
    Clear c (gapFillFields p time start newSeqNo) ↔ isSensitiveTag c 123 = false ∧ isSensitiveTag c 36 = false := by
  have parts : gapFillFields p time start newSeqNo = [⟨35,ascii "4"⟩,⟨49,p.config.senderCompId⟩,
      ⟨56,p.config.targetCompId⟩,⟨34,decimal start⟩,⟨43,ascii "Y"⟩,⟨52,time⟩,⟨122,time⟩] ++
        [⟨123,ascii "Y"⟩,⟨36,decimal newSeqNo⟩] := rfl
  rw [parts,clearBehind accepted (by simp [headerTags])]
  simp [Clear]

theorem LogMessage.ordinary (application : m.application = true) :
    m.msgType ∉ [ascii "A", ascii "1", ascii "2", ascii "4", ascii "5"] := by
  simp only [LogMessage.application,decide_eq_true_eq] at application
  intro inside
  refine application ?_
  simp only [List.mem_cons,List.not_mem_nil,or_false] at inside ⊢
  tauto

theorem msgTypeFirst {beginString msgType : Bytes} {rest : List Field} {checksum : UInt8}
    (utf8 : isUtf8 msgType = true) : inboundMsgType ⟨beginString,⟨35,msgType⟩ :: rest,checksum⟩ = .ok msgType := by
  change (if isUtf8 msgType = true then _ else _) = _
  rw [if_pos utf8]

section

variable (peer : PeerLog c p u last log) (small : last + 1 < u64Limit)
include peer small

theorem PeerLog.addressed {msgType : Bytes} {rest : List Field} (within : n ≤ last)
    (encodes : encodeMessage p.config.beginString (⟨35,msgType⟩ :: ⟨49,p.config.senderCompId⟩ ::
      ⟨56,p.config.targetCompId⟩ :: ⟨34,decimal n⟩ :: rest) = .ok frame)
    (plain : ∀ f ∈ ⟨35,msgType⟩ :: ⟨49,p.config.senderCompId⟩ :: ⟨56,p.config.targetCompId⟩ :: ⟨34,decimal n⟩ :: rest,
      sohFree f) (fits : frame.length < usizeLimit) :
    Addressed c n (⟨35,msgType⟩ :: ⟨49,p.config.senderCompId⟩ :: ⟨56,p.config.targetCompId⟩ :: ⟨34,decimal n⟩ :: rest)
      frame := by
  rw [peer.beginString] at encodes
  refine ⟨encodes,plain,fits,?_,?_,rfl,by omega⟩
  · rw [← peer.sender]
    rfl
  · rw [← peer.target]
    rfl

theorem PeerLog.original (positive : 1 ≤ n) (within : n ≤ last) :
    Addressed c n ((log n).fields p n) (log n).wire :=
  have logged := peer.logged n positive within
  peer.addressed small within logged.encodes logged.plain logged.fits

section

variable (accepted : validateCustomLogonFields c.logonFields [] = .ok ())
include accepted

theorem PeerLog.read (positive : 1 ≤ n) (within : n ≤ last) (clear : Clear c (log n).body) :
    ∃ checksum, Sequenced c (log n).wire ⟨c.config.beginString,(log n).fields p n,checksum⟩ n :=
  (peer.original small positive within).sequenced ((LogMessage.clear accepted).mpr clear)

theorem PeerLog.logonRead (positive : 1 ≤ last) (clear : Clear c (log 1).body) :
    ∃ message, Sequenced c (log 1).wire message 1 ∧ possDup message = false ∧
      ∀ nextOut, inboundChecks c nextOut 1 1 message = .ok ⟨ascii "A",none,none,2⟩ := by
  obtain ⟨checksum,sequenced⟩ := peer.read small accepted (Nat.le_refl 1) positive clear
  obtain ⟨typed,value,given,utf8,agreed⟩ := peer.logon
  have free := (peer.logged 1 (Nat.le_refl 1) positive).free
  refine ⟨_,sequenced,?_,fun nextOut => ?_⟩
  · have unflagged : valuesOf ((log 1).fields p 1) 43 = [] := by
      rw [LogMessage.fields,valuesAppend,valuesFree 43 (by decide) free]
      rfl
    change decide ((valuesOf ((log 1).fields p 1) 43).head? = some (ascii "Y")) = false
    rw [unflagged]
    rfl
  · have msgType : inboundMsgType ⟨c.config.beginString,(log 1).fields p 1,checksum⟩ = .ok (ascii "A") :=
      typed ▸ msgTypeFirst (peer.logged 1 (Nat.le_refl 1) positive).utf8
    have heartBtInt : requiredU64 ⟨c.config.beginString,(log 1).fields p 1,checksum⟩ 108 =
        .ok c.config.heartbeatIntervalSecs := by
      have first : requiredValue ⟨c.config.beginString,(log 1).fields p 1,checksum⟩ 108 = .ok value :=
        requiredHead.mpr given
      simp only [requiredU64,first,bind,Except.bind,utf8,agreed]
      rfl
    have next : 1 + 1 < u64Limit := by omega
    have other : ascii "A" ≠ ascii "1" ∧ ascii "A" ≠ ascii "2" ∧ ascii "A" ≠ ascii "4" := by decide
    simp only [inboundChecks,msgType,inSession,requestedResend,heartbeatResponse,checkHeartBtInt,heartBtInt,
      nextInAfter,plusOne,next,other,ne_eq,not_true_eq_false,if_true,if_false,bind,Except.bind]

theorem PeerLog.simple (behind : 1 < n) (within : n ≤ last) (clear : Clear c (log n).body) :
    ∃ message response, Simple c (log n).wire message n response := by
  obtain ⟨checksum,sequenced⟩ := peer.read small accepted (Nat.le_of_lt behind) within clear
  have msgType : inboundMsgType ⟨c.config.beginString,(log n).fields p n,checksum⟩ = .ok (log n).msgType :=
    msgTypeFirst (peer.logged n (Nat.le_of_lt behind) within).utf8
  have ordinary (plain : (log n).msgType ∉ [ascii "A", ascii "1", ascii "2", ascii "4", ascii "5"]) :
      ∃ message response, Simple c (log n).wire message n response :=
    ⟨_,none,ordinarySimple ⟨sequenced,msgType,plain⟩ (by omega)⟩
  rcases peer.mixed n behind within with application | heartbeat | ⟨test,id,asked⟩
  · exact ordinary (LogMessage.ordinary application)
  · exact ordinary (by rw [heartbeat]; decide)
  · have typed : msgTypeOf c (log n).wire = ascii "1" := by
      simp only [msgTypeOf,sequenced.parsed,(inboundMsgTypeSource msgType).1,Option.getD_some,test]
    have given : requiredValue ⟨c.config.beginString,(log n).fields p n,checksum⟩ 112 = .ok id :=
      requiredHead.mpr asked
    have other : ascii "1" ≠ ascii "2" ∧ ascii "1" ≠ ascii "A" ∧ ascii "1" ≠ ascii "4" ∧ ascii "1" ≠ ascii "5" := by
      decide
    refine ⟨_,some id,sequenced,fun nextOut => ?_,by rw [typed]; exact ⟨other.2.1,other.2.2.2⟩⟩
    have next : n + 1 < u64Limit := by omega
    simp only [inboundChecks,msgType,test,inSession,requestedResend,heartbeatResponse,given,checkHeartBtInt,
      nextInAfter,plusOne,next,other,if_true,if_false,bind,Except.bind,typed]

end

theorem PeerLog.copied (application : (log n).application = true)
    (drawn : Drawn p u.journal u.tick wire (.application n)) (fits : wire.length < usizeLimit) :
    ∃ tick, u.tick ≤ tick ∧ ApplicationFields n (log n).time ((log n).fields p n) ∧
      Addressed c n (copyFields (p.env.sendingTime tick) (log n).time ((log n).fields p n)) wire := by
  obtain ⟨record,beginString,time,fields,tick,found,app,later,encodes⟩ := drawn
  obtain ⟨positive,within⟩ := (peer.sent n).mp (Table.memOfGet found)
  have wired := (peer.logged n positive within).wired
  obtain ⟨-,-,same⟩ := peer.recorded n record found
  obtain ⟨checksum,parsed⟩ := app.parsed
  obtain ⟨checksum',parsed'⟩ := wired.parsed
  rw [same application,parsed'] at parsed
  cases parsed
  have dated : time = (log n).time := by
    have own := (originalValues app.toApplicationFields).2
    exact (List.singleton_inj.mp (own.symm.trans (originalValues wired.toApplicationFields).2))
  subst dated
  have plain := copyPlain wired.toApplicationFields (peer.plain.clock tick)
  rw [LogMessage.fields,copyHeaded _ _ _ (peer.logged n positive within).free] at encodes plain
  refine ⟨tick,later,wired.toApplicationFields,?_⟩
  rw [LogMessage.fields,copyHeaded _ _ _ (peer.logged n positive within).free]
  exact peer.addressed small within encodes plain fits

theorem PeerLog.filled {start newSeqNo : Nat} (within : start ≤ last)
    (drawn : Drawn p u.journal u.tick wire (.gapFill start newSeqNo)) (fits : wire.length < usizeLimit) :
    ∃ time, Addressed c start (gapFillFields p time start newSeqNo) wire := by
  obtain ⟨tick,-,encodes⟩ := drawn
  have flag : SOH ∉ ascii "Y" ∧ SOH ∉ ascii "4" := by decide
  refine ⟨_,peer.addressed small within encodes (fun f mem => ?_) fits⟩
  simp only [List.mem_cons,List.not_mem_nil,or_false] at mem
  rcases mem with rfl | rfl | rfl | rfl | rfl | rfl | rfl | rfl | rfl
  · exact flag.2
  · exact peer.plain.sender
  · exact peer.plain.target
  · exact sohNotIn _
  · exact flag.1
  · exact peer.plain.clock _
  · exact peer.plain.clock _
  · exact flag.1
  · exact sohNotIn _

section

variable (accepted : validateCustomLogonFields c.logonFields [] = .ok ())
include accepted

theorem PeerLog.readsCopy (application : (log n).application = true)
    (drawn : Drawn p u.journal u.tick wire (.application n)) (fits : wire.length < usizeLimit)
    (clear : Clear c (log n).body) (clock : ∀ tick, u.tick ≤ tick → ¬ p.env.sendingTime tick < (log n).time) :
    Reads c (fun n => (log n).wire) wire (.application n) := by
  obtain ⟨tick,later,app,addressed⟩ := peer.copied small application drawn fits
  obtain ⟨record,-,-,-,-,found,-⟩ := drawn
  obtain ⟨positive,within⟩ := (peer.sent n).mp (Table.memOfGet found)
  have logged := peer.logged n positive within
  obtain ⟨checksum,sequenced⟩ := addressed.sequenced ((copyClear accepted logged.free).mpr clear)
  obtain ⟨-,flagged,dated,claimed⟩ := copyValues (p.env.sendingTime tick) app
  have msgType : inboundMsgType ⟨c.config.beginString,copyFields (p.env.sendingTime tick) (log n).time
      ((log n).fields p n),checksum⟩ = .ok (log n).msgType := by
    rw [LogMessage.fields,copyHeaded _ _ _ logged.free]
    exact msgTypeFirst logged.utf8
  have simple := ordinarySimple ⟨sequenced,msgType,LogMessage.ordinary application⟩ (by omega)
  refine ⟨_,simple,?_,fun record stored => ?_⟩
  · change decide ((valuesOf _ 43).head? = some (ascii "Y")) = true
    rw [flagged]
    rfl
  · obtain ⟨checksum',parsed⟩ := logged.wired.parsed
    have sent : (valuesOf ((log n).fields p n) 52).head? = some (log n).time := by
      rw [(originalValues app).2]
      rfl
    refine ⟨⟨⟨p.config.beginString,(log n).fields p n,checksum'⟩,by rw [stored]; exact parsed,peer.beginString,
      (copyPayload app).symm,_,sent,claimed⟩,⟨_,flagged⟩,_,_,dated,claimed,clock tick later⟩

theorem PeerLog.readsGapFill {start newSeqNo : Nat} (behind : 1 < start) (within : start ≤ last)
    (later : start < newSeqNo) (bounded : newSeqNo ≤ last + 1)
    (drawn : Drawn p u.journal u.tick wire (.gapFill start newSeqNo)) (fits : wire.length < usizeLimit)
    (clear : isSensitiveTag c 123 = false ∧ isSensitiveTag c 36 = false) :
    Reads c (fun n => (log n).wire) wire (.gapFill start newSeqNo) := by
  obtain ⟨time,addressed⟩ := peer.filled small within drawn fits
  obtain ⟨checksum,sequenced⟩ := addressed.sequenced ((gapFillClear accepted).mpr clear)
  refine ⟨_,sequenced,rfl,fun nextOut => ?_,fun record stored repeats => ?_⟩
  · have msgType : inboundMsgType ⟨c.config.beginString,gapFillFields p time start newSeqNo,checksum⟩ =
        .ok (ascii "4") := rfl
    have flag : requiredValue ⟨c.config.beginString,gapFillFields p time start newSeqNo,checksum⟩ 123 =
        .ok (ascii "Y") := rfl
    have next : requiredU64 ⟨c.config.beginString,gapFillFields p time start newSeqNo,checksum⟩ 36 = .ok newSeqNo :=
      requiredDecimal (by omega) rfl
    have other : ascii "4" ≠ ascii "1" ∧ ascii "4" ≠ ascii "2" ∧ ascii "4" ≠ ascii "A" := by decide
    simp only [inboundChecks,msgType,inSession,requestedResend,heartbeatResponse,checkHeartBtInt,nextInAfter,flag,
      next,other,ne_eq,not_true_eq_false,Nat.not_le.mpr later,if_true,if_false,bind,Except.bind]
  · obtain ⟨original,same,-,payload,-⟩ := repeats.original
    obtain ⟨checksum',parsed⟩ := (peer.logged start (Nat.le_of_lt behind) within).wired.parsed
    rw [stored,parsed] at same
    cases same
    have heads : some (⟨35,(log start).msgType⟩ : Field) = some ⟨35,ascii "4"⟩ := congrArg List.head? payload
    have own : (log start).msgType = ascii "4" := congrArg Field.value (Option.some.inj heads)
    rcases peer.mixed start behind within with application | heartbeat | ⟨test,-⟩
    · simp [LogMessage.application,own] at application
    · exact absurd (heartbeat.symm.trans own) (by decide)
    · exact absurd (test.symm.trans own) (by decide)

end

end

end
end FixCli.Session
