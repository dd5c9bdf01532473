import FixCli.InitiatorTurns

/-! The frames of the mock, next in order, as the actor takes them in. -/
namespace FixCli.Session
open Lib Codec Store Mock

def Replying (c : Ctx) (closing : Prop) (msgType : Bytes) (body : List Field) : Prop :=
  msgType = ascii "A" ∧ (valuesOf body 108).head? = some (decimal c.config.heartbeatIntervalSecs) ∨
    msgType = ascii "0" ∨ msgType = ascii "8" ∨ msgType = ascii "5" ∧ closing

section

variable {c : Ctx} {content : Bytes → Bytes} {w v : World} {frame msgType time : Bytes} {body : List Field} {n : Nat}
  {checksum : UInt8} {closing : Prop}

open Prog

abbrev peerMessage (c : Ctx) (n : Nat) (msgType : Bytes) (body : List Field) (time : Bytes) (checksum : UInt8) :
    ParsedMessage := lettered c.config.beginString msgType c.config.targetCompId c.config.senderCompId n time body checksum

theorem peerParsed (reliable : Reliable c) (noFields : c.logonFields = [])
    (letter : Letter c.config.beginString c.config.targetCompId c.config.senderCompId n msgType body frame)
    (fits : frame.length < usizeLimit) (free : ∀ f ∈ body, f.tag ∉ [553, 554, 925]) : ∃ time checksum,
      parseInbound c frame = .ok (peerMessage c n msgType body time checksum) := by
  obtain ⟨time,checksum,parsed,-⟩ := letter.parsed ⟨reliable.target,reliable.sender⟩ fits
  refine ⟨time,checksum,parseInboundEnvelope ⟨parsed,rfl,requiredHead.mpr letteredSender,
    requiredHead.mpr letteredTarget,?_⟩⟩
  refine List.find?_eq_none.mpr fun f mem => ?_
  have other : f.tag ∉ [553, 554, 925] := by
    rcases List.mem_append.mp mem with header | behind
    · simp only [headerFields,List.mem_cons,List.not_mem_nil,or_false] at header
      rcases header with rfl | rfl | rfl | rfl | rfl <;> simp
    · exact free f behind
  simp only [isSensitiveTag,noFields,List.any_nil,Bool.or_false,decide_eq_true_eq]
  exact other

theorem peerChecked (interval : c.config.heartbeatIntervalSecs < u64Limit) (below : n + 1 < u64Limit)
    (replying : Replying c closing msgType body) (nextOut : Nat) :
    inboundChecks c nextOut n n (peerMessage c n msgType body time checksum) = .ok ⟨msgType,none,none,n + 1⟩ := by
  have typed : inboundMsgType (peerMessage c n msgType body time checksum) = .ok msgType := by
    have utf8 : isUtf8 msgType = true := by
      rcases replying with ⟨rfl,-⟩ | rfl | rfl | ⟨rfl,-⟩ <;> decide
    have found : (peerMessage c n msgType body time checksum).msgType = some msgType := rfl
    simp only [inboundMsgType,found,utf8,if_true]
  have beats : checkHeartBtInt c (peerMessage c n msgType body time checksum) msgType = .ok () := by
    unfold checkHeartBtInt
    split
    · rename_i logon
      subst logon
      have given : (valuesOf body 108).head? = some (decimal c.config.heartbeatIntervalSecs) := by
        rcases replying with ⟨-,given⟩ | bad | bad | ⟨bad,-⟩
        · exact given
        all_goals cases bad
      have value : requiredU64 (peerMessage c n (ascii "A") body time checksum) 108 =
          .ok c.config.heartbeatIntervalSecs :=
        requiredDecimal interval (by rw [letteredBody (by simp)]; exact given)
      simp only [value,bind,Except.bind,ne_eq,not_true_eq_false,if_false]
    · rfl
  have others : msgType ≠ ascii "2" ∧ msgType ≠ ascii "1" ∧ msgType ≠ ascii "4" := by
    rcases replying with ⟨rfl,-⟩ | rfl | rfl | ⟨rfl,-⟩ <;> decide
  simp only [inboundChecks,typed,requestedResend,heartbeatResponse,beats,nextInAfter,if_neg others.1,if_neg others.2.1,
    if_neg others.2.2,plusOne,if_pos below,inSession,bind,Except.bind]

theorem logonHushed (msgType : Bytes) (w : World) : ∃ v, logonReceived msgType w = (.ok (),v) ∧ Hushed w v ∧
    (v.phase = w.phase ∨ msgType = ascii "A" ∧ w.phase = .logonSent ∧ v.phase = .established) := by
  unfold logonReceived
  rw [bindReturns (stateRun w)]
  split
  · rename_i first
    exact ⟨_,rfl,⟨rfl,rfl,rfl,rfl,rfl,[_, _],rfl,by simp [calm,handedWire]⟩,.inr ⟨first.1,first.2,rfl⟩⟩
  · exact ⟨w,rfl,⟨rfl,rfl,rfl,rfl,rfl,[],rfl,by simp⟩,.inl rfl⟩

theorem testRequestHushed (message : ParsedMessage) (msgType : Bytes) (w : World) : ∃ v,
    testRequestAnswered message msgType w = (.ok (),v) ∧ Hushed w v ∧ v.phase = w.phase := by
  refine ⟨_,rfl,?_⟩
  dsimp only
  split
  · split
    · exact ⟨⟨rfl,rfl,rfl,rfl,rfl,[],rfl,by simp⟩,rfl⟩
    · exact ⟨⟨rfl,rfl,rfl,rfl,rfl,[],rfl,by simp⟩,rfl⟩
  · exact ⟨⟨rfl,rfl,rfl,rfl,rfl,[],rfl,by simp⟩,rfl⟩

theorem logoutHushed {msgType : Bytes} (answers : msgType = ascii "5" → w.phase = .logoutSent) : ∃ v,
    logoutReceived c msgType w = (.ok (),v) ∧ Hushed w v ∧
      v.phase = if msgType = ascii "5" then .disconnected else w.phase := by
  unfold logoutReceived
  split
  · rename_i logout
    have silent (u : World) (phase : u.phase = .logoutSent) : answerLogout c u = (.ok (),u) := by
      unfold answerLogout
      rw [bindReturns (stateRun u),if_neg (by simp [phase])]
      rfl
    refine ⟨_,(bindReturns (rfl : info _ w = (.ok (),_))).trans (bindReturns (silent _ (answers logout))),
      ⟨rfl,rfl,rfl,rfl,rfl,[_, _],rfl,by simp [calm,handedWire]⟩,rfl⟩
  · exact ⟨w,rfl,⟨rfl,rfl,rfl,rfl,rfl,[],rfl,by simp⟩,rfl⟩

def phaseBehind (msgType : Bytes) (phase next : SessionPhase) : Prop :=
  if msgType = ascii "5" then next = .disconnected
  else next = phase ∨ phase = .logonSent ∧ next = .established

theorem afterHushed (message : ParsedMessage) (replying : Replying c (w.phase = .logoutSent) msgType body) (m : Nat) : ∃ v,
    afterCommit c message ⟨msgType,none,none,m⟩ w = (.ok (),v) ∧ Hushed w v ∧ phaseBehind msgType w.phase v.phase := by
  obtain ⟨x,logs,first,phased⟩ := logonHushed msgType w
  obtain ⟨y,answers,second,same⟩ := testRequestHushed message msgType x
  have leaving : msgType = ascii "5" → y.phase = .logoutSent := by
    intro logout
    subst logout
    rcases replying with ⟨bad,-⟩ | bad | bad | ⟨-,sent⟩
    · cases bad
    · cases bad
    · cases bad
    · rcases phased with phased | ⟨bad,-⟩
      · exact same.trans (phased.trans sent)
      · cases bad
  obtain ⟨v,leaves,third,last⟩ := logoutHushed (c := c) leaving
  refine ⟨v,?_,(first.trans second).trans third,?_⟩
  · exact (bindReturns logs).trans ((bindReturns answers).trans ((bindReturns leaves).trans rfl))
  · unfold phaseBehind
    split at last
    · rename_i logout
      rw [if_pos logout]
      exact last
    · rename_i other
      rw [if_neg other,last,same]
      exact phased.imp_right fun h => h.2

theorem drainNothing (empty : w.gapBuffer = ∅) : drainBuffer c w = (.ok (),w) := by
  have kept : {w with gapBuffer := w.gapBuffer.keepKeys fun sequence => decide (w.nextIn ≤ sequence)} = w := by
    rw [Table.keepKeysAll (by simp [empty])]
  unfold drainBuffer
  rw [bindReturns (stateRun w)]
  unfold drain
  rw [bindReturns (changeRun _ w),kept,bindReturns (stateRun w)]
  simp only [empty,Std.ExtTreeMap.getElem?_empty,pureRun]

theorem recoveryOver (phase : w.phase ≠ .recovering) : endRecovery w = (.ok (),w) := by
  unfold endRecovery
  rw [bindReturns (stateRun w),if_neg fun bad => phase bad.1]
  rfl

theorem phaseFarewell {phase next : SessionPhase} (behind : phaseBehind msgType phase next)
    (replying : Replying c (phase = .logoutSent) msgType body) (gone : Farewell next) : Farewell phase := by
  unfold phaseBehind at behind
  split at behind
  · rename_i logout
    rcases replying with ⟨same,-⟩ | same | same | ⟨-,sent⟩
    · rw [same] at logout; cases logout
    · rw [same] at logout; cases logout
    · rw [same] at logout; cases logout
    · exact .inl sent
  · rcases behind with same | ⟨-,established⟩
    · exact same ▸ gone
    · rw [established] at gone
      simp [Farewell] at gone

theorem takenTurn {u : World} (solid : Solid content u) (new : List Event) (trace : u.trace = new ++ w.trace)
    (quiet : ∀ event ∈ new, calm event ∧ handedWire event = none) (nextOut : u.nextOut = w.nextOut)
    (nextIn : u.nextIn = w.nextIn + 1) (sent : sentWires u.journal = sentWires w.journal)
    (taken : 0 < w.journal.nextIn → takenWires u.journal = takenWires w.journal ++ [frame])
    (farewell : Farewell v.phase → Farewell w.phase) (hushed : Hushed u v) : Turn c content w [frame] v := by
  obtain ⟨newer,later,quiet'⟩ := hushed.trace
  have silent : ∀ event ∈ newer ++ new, calm event ∧ handedWire event = none := fun event mem =>
    (List.mem_append.mp mem).elim (quiet' event) (quiet event)
  have none : (newer ++ new).filterMap handedWire = [] :=
    List.filterMap_eq_nil_iff.mpr fun event mem => (silent event mem).2
  refine ⟨hushed.solid solid,⟨newer ++ new,by rw [later,trace,List.append_assoc],fun event mem => (silent event mem).1,
    ?_,?_,?_,?_⟩,hushed.nextIn.trans nextIn,?_⟩
  · rw [none,hushed.nextOut,nextOut]
    rfl
  · rw [none]
    exact .nil
  · rw [none,hushed.journal,sent]
    simp
  · rw [none]
    exact ⟨fun _ => rfl,fun gone => .inl (farewell gone)⟩
  · rw [hushed.journal]
    exact taken

variable (time checksum) in
theorem commitsNext (reliable : Reliable c) (interval : c.config.heartbeatIntervalSecs < u64Limit)
    (solid : Solid content w) (frame : Bytes) (below : w.nextIn + 1 < u64Limit)
    (replying : Replying c (w.phase = .logoutSent) msgType body) : ∃ v,
      commitExpected c (peerMessage c w.nextIn msgType body time checksum) frame w = (.ok (),v) ∧
        phaseBehind msgType w.phase v.phase ∧ Turn c content w [frame] v := by
  have sequence : requiredU64 (peerMessage c w.nextIn msgType body time checksum) 34 = .ok w.nextIn :=
    requiredDecimal (by omega) letteredNumber
  let expected : Expected := ⟨msgType,none,none,w.nextIn + 1⟩
  let commit : InboundCommit := inboundCommit w w.nextIn frame expected
  have stores := storeRun (w := w) reliable (.commitInbound commit) (commitInboundStores solid.nextIn solid.nextEvent
    (solid.nextIn ▸ Nat.lt_succ_self _))
  let stored : World := answered (.commitInbound commit) (.inbound (inboundRecord commit)) (withInbound w.journal commit) w
  have solid' : Solid content (counted expected stored) :=
    ⟨⟨solid.nextOut,rfl,congrArg (· + 1) solid.nextEvent⟩,solid.registered.books rfl rfl rfl,solid.empty⟩
  obtain ⟨v,after,hushed,behind⟩ := afterHushed (w := counted expected stored)
    (peerMessage c w.nextIn msgType body time checksum) replying (w.nextIn + 1)
  refine ⟨v,?_,behind,takenTurn solid' [.expecting (w.nextIn + 1),.stored (.commitInbound commit)
    (.ok (.inbound (inboundRecord commit)))] rfl (by simp [calm,handedWire]) rfl rfl rfl
    (fun positive => takenInbound positive solid.nextIn (by rw [← solid.nextIn]; rfl)) (phaseFarewell behind replying)
    hushed⟩
  rw [commitExpectedRun frame sequence rfl,peerChecked interval below replying]
  dsimp only
  rw [commitCheckedRun,stores]
  exact after

variable (time checksum) in
theorem acceptsNext (reliable : Reliable c) (interval : c.config.heartbeatIntervalSecs < u64Limit)
    (solid : Solid content w) (frame : Bytes) (below : w.nextIn + 1 < u64Limit)
    (replying : Replying c (w.phase = .logoutSent) msgType body) (phase : w.phase ≠ .recovering) : ∃ v,
      acceptFrame c (peerMessage c w.nextIn msgType body time checksum) w.nextIn frame w = (.ok (),v) ∧
        phaseBehind msgType w.phase v.phase ∧ Turn c content w [frame] v := by
  obtain ⟨v,commits,behind,turn⟩ := commitsNext time checksum reliable interval solid frame below replying
  have calmly : v.phase ≠ .recovering := by
    intro bad
    unfold phaseBehind at behind
    rw [bad] at behind
    split at behind
    · cases behind
    · rcases behind with same | ⟨-,other⟩
      · exact phase same.symm
      · cases other
  have level : realignIfLow c w.nextIn w = (.ok (),w) := by
    unfold realignIfLow
    rw [bindReturns (stateRun w),if_neg (Nat.lt_irrefl _)]
    rfl
  refine ⟨v,?_,behind,turn⟩
  unfold acceptFrame
  rw [bindReturns level,bindReturns commits,bindReturns (drainNothing turn.empty)]
  exact recoveryOver calmly

theorem sequencedNext (w : World) (message : ParsedMessage) (frame : Bytes) :
    sequenced c message w.nextIn frame w = acceptFrame c message w.nextIn frame w := by
  unfold sequenced
  rw [if_neg (Nat.lt_irrefl _),if_neg fun bad => Nat.lt_irrefl _ bad.1]

theorem frameTurns (reliable : Reliable c) (noFields : c.logonFields = [])
    (interval : c.config.heartbeatIntervalSecs < u64Limit) (solid : Solid content w)
    (letter : Letter c.config.beginString c.config.targetCompId c.config.senderCompId w.nextIn msgType body frame)
    (fits : frame.length < usizeLimit) (free : ∀ f ∈ body, f.tag ∉ [553, 554, 925]) (below : w.nextIn + 1 < u64Limit)
    (replying : Replying c (w.phase = .logoutSent) msgType body) (phase : w.phase ≠ .recovering) : ∃ v,
      handleFrame c frame w = (.ok (),v) ∧ phaseBehind msgType w.phase v.phase ∧ Turn c content w [frame] v := by
  obtain ⟨time,checksum,parsed⟩ := peerParsed reliable noFields letter fits free
  have sequence : requiredU64 (peerMessage c w.nextIn msgType body time checksum) 34 = .ok w.nextIn :=
    requiredDecimal (by omega) letteredNumber
  let heard : World := arrivedAt c {w with trace := .logged (.incoming frame) :: w.trace}
  have hushed : Hushed w heard := ⟨rfl,rfl,rfl,rfl,rfl,[_],rfl,by simp [calm,handedWire]⟩
  obtain ⟨v,accepts,behind,turn⟩ := acceptsNext (w := heard) time checksum reliable interval
    (hushed.solid solid) frame below replying phase
  refine ⟨v,?_,behind,turn.behind hushed rfl⟩
  have enters : handleFrame c frame w = handleInbound c frame {w with trace := .logged (.incoming frame) :: w.trace} := rfl
  rw [enters,handleSequenced parsed sequence]
  exact (sequencedNext heard _ frame).trans accepts

end
end FixCli.Session
