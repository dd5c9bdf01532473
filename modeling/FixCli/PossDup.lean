import FixCli.SessionRules

/-! A frame below the expectation that says it is a duplicate: it is accepted exactly
if the original on record says the same, and nothing comes of it either way. -/
namespace FixCli.Session
open Lib Codec Store

structure Repeats (message : ParsedMessage) (record : InboundRecord) : Prop where
  original : ∃ original, parseFrame record.wire = .ok original ∧ original.beginString = message.beginString ∧
    replayPayload original = replayPayload message ∧
    ∃ origSendingTime, (original.values 52).head? = some origSendingTime ∧ message.values 122 = [origSendingTime]
  flag : ∃ flag, message.values 43 = [flag]
  times : ∃ sendingTime origSendingTime, message.values 52 = [sendingTime] ∧
    message.values 122 = [origSendingTime] ∧ ¬ sendingTime < origSendingTime

structure Unmoved (w v : World) : Prop where
  journal : v.journal = w.journal
  nextIn : v.nextIn = w.nextIn
  nextOut : v.nextOut = w.nextOut
  nextEvent : v.nextEvent = w.nextEvent
  phase : v.phase = w.phase
  gapBuffer : v.gapBuffer = w.gapBuffer
  unwritten : ∃ new, v.trace = new ++ w.trace ∧ ∀ path wire j, Event.wrote path wire j ∉ new

theorem Quiet.unmoved {w v : World} (h : Quiet w v) : Unmoved w v := by
  obtain ⟨new,trace,quiet⟩ := h.trace
  exact ⟨h.journal,h.nextIn,h.nextOut,h.nextEvent,h.phase,h.gapBuffer,new,trace,fun path wire j mem =>
    quiet (.wrote path wire j) mem⟩

section

variable {c : Ctx} {w : World} {message : ParsedMessage} {n : Nat}

open Prog

theorem onlyValue {values : List Bytes} (one : values.length = 1) : ∃ value, values = [value] :=
  List.length_eq_one_iff.mp one

theorem timesVerified {origSendingTime : Bytes} : verifyTimes message = .ok origSendingTime ↔
    (∃ flag, message.values 43 = [flag]) ∧ message.values 122 = [origSendingTime] ∧
      ∃ sendingTime, message.values 52 = [sendingTime] ∧ ¬ sendingTime < origSendingTime := by
  unfold verifyTimes
  by_cases single : (message.values 43).length ≠ 1 ∨ (message.values 52).length ≠ 1 ∨ (message.values 122).length ≠ 1
  · rw [if_pos single]
    constructor
    · intro bad
      cases bad
    · rintro ⟨⟨flag,one⟩,orig,time,sent,-⟩
      simp [one,orig,sent] at single
  · rw [if_neg single]
    simp only [not_or,ne_eq,Decidable.not_not] at single
    obtain ⟨flag,flagged⟩ := onlyValue single.1
    obtain ⟨time,sent⟩ := onlyValue single.2.1
    obtain ⟨orig,first⟩ := onlyValue single.2.2
    have origThere : requiredValue message 122 = .ok orig := requiredHead.mpr (by rw [first]; rfl)
    have timeThere : requiredValue message 52 = .ok time := requiredHead.mpr (by rw [sent]; rfl)
    simp only [origThere,timeThere,bind,Except.bind,flagged,sent,first]
    by_cases late : time < orig
    · simp only [late,if_true]
      constructor
      · intro bad
        cases bad
      · rintro ⟨-,same,time',same',kept⟩
        cases same
        cases same'
        exact absurd late kept
    · simp only [late,if_false]
      constructor
      · intro same
        cases same
        exact ⟨⟨flag,rfl⟩,rfl,time,rfl,late⟩
      · rintro ⟨-,same,-⟩
        cases same
        rfl

theorem originalVerified {origSendingTime : Bytes} {record : InboundRecord} :
    verifyOriginal message n origSendingTime record = .ok () ↔
      ∃ original, parseFrame record.wire = .ok original ∧ original.beginString = message.beginString ∧
        replayPayload original = replayPayload message ∧ (original.values 52).head? = some origSendingTime := by
  unfold verifyOriginal
  constructor
  · intro ok
    obtain ⟨original,parsed,ok⟩ := boundOk ok
    obtain ⟨time,sent,ok⟩ := boundOk ok
    split at ok
    · cases ok
    · rename_i same
      simp only [not_or,ne_eq,Decidable.not_not,Bool.not_eq_true',Bool.not_eq_false,sameReplayPayload,
        decide_eq_true_eq] at same
      exact ⟨original,codecOk parsed,same.2.1,same.2.2,same.1 ▸ requiredHead.mp (inSessionOk sent)⟩
  · rintro ⟨original,parsed,begins,payload,sent⟩
    simp only [parsed,codecResult,bind,Except.bind,requiredHead.mpr sent,inSession,begins,sameReplayPayload,payload]
    simp

theorem possdupVerified : (verifyPossdup c message n w).1 = .ok () ↔
    c.env.storeFault w.tick = .none ∧ ∃ record, w.journal.inbound[n]? = some record ∧ Repeats message record := by
  unfold verifyPossdup
  cases times : verifyTimes message with
  | error e =>
    simp only [inSession,ofExceptError,bindRun,stopRun]
    constructor
    · intro bad
      cases bad
    · rintro ⟨-,record,-,repeats⟩
      obtain ⟨time,orig,sent,first,late⟩ := repeats.times
      rw [timesVerified.mpr ⟨repeats.flag,first,time,sent,late⟩] at times
      cases times
  | ok orig =>
    obtain ⟨flag,first,time,sent,late⟩ := timesVerified.mp times
    simp only [inSession,ofExceptOk,bindRun,pureRun]
    by_cases fault : c.env.storeFault w.tick = .none
    · have load : storeApply c (.loadInbound n) w =
          (.ok (.storedInbound w.journal.inbound[n]?),applied (.loadInbound n) w) := storeReturns fault rfl
      simp only [load,fault,true_and]
      cases found : w.journal.inbound[n]? with
      | none => simp [failProtocol,fail]
      | some record =>
        have checks : (Prog.ofExcept (verifyOriginal message n orig record) : Act Unit)
            (applied (.loadInbound n) w) = (verifyOriginal message n orig record,applied (.loadInbound n) w) := by
          cases verifyOriginal message n orig record <;> rfl
        change ((Prog.ofExcept (verifyOriginal message n orig record) : Act Unit) (applied (.loadInbound n) w)).1 =
          .ok () ↔ _
        rw [checks,originalVerified]
        constructor
        · rintro ⟨original,parsed,begins,payload,dated⟩
          exact ⟨record,rfl,⟨original,parsed,begins,payload,orig,dated,first⟩,flag,time,orig,sent,first,late⟩
        · rintro ⟨_,same,⟨original,parsed,begins,payload,orig',dated,first'⟩,-,-⟩
          cases same
          rw [first] at first'
          cases first'
          exact ⟨original,parsed,begins,payload,dated⟩
    · rcases run : storeApply c (.loadInbound n) w with ⟨halt | reply,v⟩
      · simp only [fault,false_and,iff_false]
        intro bad
        cases bad
      · exact absurd (storeReturned run).1 fault

theorem possdupAcceptance {frame : Bytes} (sequenced : Sequenced c frame message n) (low : n < w.nextIn)
    (flagged : possDup message = true) :
    ((handleInbound c frame w).1 = .ok () ↔
      c.env.storeFault (arrivedAt c w).tick = .none ∧
        ∃ record, w.journal.inbound[n]? = some record ∧ Repeats message record) ∧
    Unmoved w (handleInbound c frame w).2 := by
  have here : (arrivedAt c w).nextIn = w.nextIn := rfl
  have notAhead : ¬ w.nextIn < n := Nat.not_lt.mpr (Nat.le_of_lt low)
  rw [handleSequenced sequenced.parsed sequenced.sequence,Session.sequenced,here,if_neg notAhead,
    if_pos ⟨low,flagged⟩]
  exact ⟨possdupVerified,Quiet.unmoved (IsTrans.trans _ _ _ (Quiet.arrived c w) (quietPossdup message n _))⟩

end

def logonRepeated (heartBtInt : String) : Bytes :=
  venueFrame "A" 1 [⟨98,ascii "0"⟩,⟨108,ascii heartBtInt⟩,⟨43,ascii "Y"⟩,⟨122,venueTime⟩]

theorem possdupAcceptanceAtVenue : possDup (parsedOf (logonRepeated "30")) = true ∧
    ((handleInbound venueCtx (logonRepeated "30") atVenue).1 = .ok () ↔
      venueCtx.env.storeFault (arrivedAt venueCtx atVenue).tick = .none ∧
        ∃ record, atVenue.journal.inbound[1]? = some record ∧ Repeats (parsedOf (logonRepeated "30")) record) ∧
    Unmoved atVenue (handleInbound venueCtx (logonRepeated "30") atVenue).2 := by
  have flagged : possDup (parsedOf (logonRepeated "30")) = true := by decide +kernel
  exact ⟨flagged,possdupAcceptance ⟨by decide +kernel,by decide +kernel⟩ (by decide +kernel) flagged⟩

end FixCli.Session
