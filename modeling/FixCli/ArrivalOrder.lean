import FixCli.GapArrivals

/-! Frames that arrive out of order inside a gap: whatever the order, the frames are
committed in the order of their numbers. -/
namespace FixCli.Session
open Lib Codec Store

structure Ordinary (c : Ctx) (frame : Bytes) (message : ParsedMessage) (msgSeqNum : Nat) (msgType : Bytes) : Prop
    extends Sequenced c frame message msgSeqNum where
  typed : inboundMsgType message = .ok msgType
  plain : msgType ∉ [ascii "A", ascii "1", ascii "2", ascii "4", ascii "5"]

def Numbered (c : Ctx) (first : Nat) (frames : List Bytes) : Prop :=
  ∀ i frame, frames[i]? = some frame → ∃ message msgType, Ordinary c frame message (first + i) msgType

def frameAt (first : Nat) (frames : List Bytes) (n : Nat) : Bytes := frames.getD (n - first) []

def numberOf (c : Ctx) (frame : Bytes) : Nat :=
  match parseInbound c frame with
  | .ok message => match requiredU64 message 34 with
    | .ok n => n
    | .error _ => 0
  | .error _ => 0

section

variable {c : Ctx} {w : World} {frames : List Bytes} {n first : Nat}

open Prog

theorem msgTypeOrdinary {frame : Bytes} {message : ParsedMessage} {msgType : Bytes}
    (ordinary : Ordinary c frame message n msgType) : msgTypeOf c frame = msgType := by
  simp only [msgTypeOf,ordinary.parsed,(inboundMsgTypeSource ordinary.typed).1,Option.getD_some]

theorem ordinarySimple {frame : Bytes} {message : ParsedMessage} {msgType : Bytes}
    (ordinary : Ordinary c frame message n msgType) (below : n + 1 < u64Limit) : Simple c frame message n none := by
  have plain := ordinary.plain
  simp only [List.mem_cons,List.not_mem_nil,or_false,not_or] at plain
  obtain ⟨logon,test,resend,reset,logout⟩ := plain
  have typed := msgTypeOrdinary ordinary
  refine ⟨ordinary.toSequenced,fun nextOut => ?_,by rw [typed]; exact ⟨logon,logout⟩⟩
  simp only [inboundChecks,ordinary.typed,inSession,requestedResend,heartbeatResponse,checkHeartBtInt,nextInAfter,
    logon,test,resend,reset,if_false,plusOne,below,if_true,bind,Except.bind,typed]

theorem ordinaryAt (numbered : Numbered c first frames) (above : first ≤ n) (below : n < first + frames.length) :
    ∃ message msgType, Ordinary c (frameAt first frames n) message n msgType := by
  have there : frames[n - first]? = some (frameAt first frames n) := by
    rw [frameAt,List.getD_eq_getElem?_getD,List.getElem?_eq_getElem (by omega)]
    rfl
  obtain ⟨message,msgType,ordinary⟩ := numbered _ _ there
  rw [Nat.add_sub_cancel' above] at ordinary
  exact ⟨message,msgType,ordinary⟩

theorem numberedSpoken (numbered : Numbered c first frames) (range : first + frames.length < u64Limit) :
    Spoken c False (frameAt first frames) (List.range' first frames.length) := by
  intro n mem
  have bound := List.mem_range'_1.mp mem
  obtain ⟨message,msgType,ordinary⟩ := ordinaryAt numbered bound.1 bound.2
  exact ⟨message,none,ordinarySimple ordinary (by omega),fun asks => asks rfl⟩

theorem numberOrdinary {frame : Bytes} {message : ParsedMessage} {msgType : Bytes}
    (ordinary : Ordinary c frame message n msgType) : numberOf c frame = n := by
  simp only [numberOf,ordinary.parsed,ordinary.sequence]

theorem numbersInOrder (numbered : Numbered c first frames) :
    frames.map (numberOf c) = List.range' first frames.length := by
  refine List.ext_getElem? fun i => ?_
  rw [List.getElem?_map]
  by_cases inside : i < frames.length
  · obtain ⟨_,_,ordinary⟩ := numbered i frames[i] (List.getElem?_eq_getElem inside)
    rw [List.getElem?_eq_getElem inside,Option.map_some,numberOrdinary ordinary,List.getElem?_range' inside,Nat.one_mul]
  · rw [List.getElem?_eq_none (by omega),List.getElem?_eq_none (by rw [List.length_range']; omega)]
    rfl

theorem frameOfNumber (numbered : Numbered c first frames) {frame : Bytes} (mem : frame ∈ frames) :
    frameAt first frames (numberOf c frame) = frame := by
  obtain ⟨i,there⟩ := List.mem_iff_getElem?.mp mem
  obtain ⟨_,_,ordinary⟩ := numbered i frame there
  rw [numberOrdinary ordinary,frameAt,Nat.add_sub_cancel_left,List.getD_eq_getElem?_getD,there]
  rfl

theorem framesOfNumbers (numbered : Numbered c first frames) {order : List Bytes}
    (inside : ∀ frame ∈ order, frame ∈ frames) : (order.map (numberOf c)).map (frameAt first frames) = order := by
  rw [List.map_map]
  exact (List.map_congr_left fun frame mem => frameOfNumber numbered (inside frame mem)).trans (List.map_id order)

theorem fewAhead (first count : Nat) :
    ((List.range' first count).filter fun k => decide (first < k)).length ≤ count - 1 := by
  cases count with
  | zero => simp
  | succ count =>
    rw [List.range'_succ,List.filter_cons_of_neg (by simp),Nat.add_sub_cancel]
    exact (List.length_filter_le _ _).trans (Nat.le_of_eq List.length_range')

theorem arrivalOrder {s : Shared} {inputs : List Input} {order : List Bytes}
    (alive : run c (spawn c s) inputs = ⟨w,true⟩) (established : w.phase = .established)
    (empty : w.gapBuffer = ∅) (healthy : Healthy c w.tick)
    (numbered : Numbered c w.nextIn frames) (few : frames.length ≤ 1025)
    (range : w.nextIn + frames.length < u64Limit) (any : order.Perm frames)
    (answered : ¬ Refused w (deliver c order w).2) :
    ∃ v u, deliver c order w = (.ok (),v) ∧ deliver c frames w = (.ok (),u) ∧
      v.phase = .established ∧ u.phase = .established ∧ v.gapBuffer = ∅ ∧ u.gapBuffer = ∅ ∧
      v.nextIn = w.nextIn + frames.length ∧ u.nextIn = w.nextIn + frames.length ∧
      v.journal.inbound = u.journal.inbound ∧ v.journal.events = u.journal.events := by
  have attached : Attached c w := by
    have reached := attachedRun (c := c) s inputs (by rw [alive])
    rwa [alive] at reached
  have start := Awaiting.start (c := c) (frameAt w.nextIn frames) attached.nextIn attached.nextEvent established empty
  have spoken := numberedSpoken numbered range
  have numbers : (order.map (numberOf c)).Perm (List.range' w.nextIn frames.length) := by
    rw [← numbersInOrder numbered]
    exact any.map _
  -- both orders gather the same numbers; in their own order the frames ask for nothing else
  have gathers := deliverGathers spoken healthy attached.sendable
    (Nat.le_trans (fewAhead _ _) (by rw [gapBufferLimit]; omega)) (order.map (numberOf c))
    (fun k mem => (List.mem_range'_1.mp (numbers.mem_iff.mp mem)).1)
    (fun k mem => numbers.mem_iff.mp (by rwa [List.append_nil] at mem))
    (by rw [List.append_nil]; exact numbers.nodup_iff.mpr List.nodup_range') start
  rw [framesOfNumbers numbered fun frame mem => any.mem_iff.mp mem] at gathers
  have inOrder := deliverInOrder 0 spoken healthy attached.sendable start (fun k => by simp) (Nat.zero_le _)
  rw [Nat.add_zero,Nat.sub_zero,← numbersInOrder numbered,framesOfNumbers numbered fun frame mem => mem] at inOrder
  rcases run : deliver c order w with ⟨halt | _,v⟩
  · rw [run] at gathers answered
    exact absurd gathers answered
  rw [run] at gathers
  rcases straight : deliver c frames w with ⟨halt | _,u⟩
  · rw [straight] at inOrder
    exact inOrder.1.elim
  rw [straight] at inOrder
  obtain ⟨after,last,whole⟩ := inOrder
  obtain ⟨phase,drained,nextIn,same⟩ := gathers.complete fun k => by
    rw [List.append_nil,List.mem_reverse,numbers.mem_iff,List.mem_range'_1]
  obtain ⟨phase',drained',nextIn',same'⟩ := last.complete whole
  exact ⟨v,u,rfl,rfl,phase,phase',drained,drained',nextIn,nextIn',same.inbound.trans same'.inbound.symm,
    same.events.trans same'.events.symm⟩

end

def reports : List Bytes :=
  [venueFrame "8" 2 [⟨37,ascii "O1"⟩],venueFrame "0" 3 [],venueFrame "8" 4 [⟨37,ascii "O2"⟩],
    venueFrame "AE" 5 []]

def reportsShuffled : List Bytes :=
  [venueFrame "AE" 5 [],venueFrame "0" 3 [],venueFrame "8" 4 [⟨37,ascii "O2"⟩],venueFrame "8" 2 [⟨37,ascii "O1"⟩]]

theorem reportsNumbered : Numbered venueCtx atVenue.nextIn reports := by
  have first : atVenue.nextIn = 2 := by decide +kernel
  rw [first]
  intro i frame found
  refine ⟨parsedOf frame,msgTypeOf venueCtx frame,?_⟩
  rcases i with _ | _ | _ | _ | i
  · cases found
    exact ⟨⟨by decide +kernel,by decide +kernel⟩,by decide +kernel,by decide +kernel⟩
  · cases found
    exact ⟨⟨by decide +kernel,by decide +kernel⟩,by decide +kernel,by decide +kernel⟩
  · cases found
    exact ⟨⟨by decide +kernel,by decide +kernel⟩,by decide +kernel,by decide +kernel⟩
  · cases found
    exact ⟨⟨by decide +kernel,by decide +kernel⟩,by decide +kernel,by decide +kernel⟩
  · simp [reports] at found

theorem arrivalOrderAtVenue :
    reportsShuffled ≠ reports ∧
    ∃ v u, deliver venueCtx reportsShuffled atVenue = (.ok (),v) ∧ deliver venueCtx reports atVenue = (.ok (),u) ∧
      v.phase = .established ∧ u.phase = .established ∧ v.gapBuffer = ∅ ∧ u.gapBuffer = ∅ ∧
      v.nextIn = atVenue.nextIn + reports.length ∧ u.nextIn = atVenue.nextIn + reports.length ∧
      v.journal.inbound = u.journal.inbound ∧ v.journal.events = u.journal.events := by
  have live : (venueConn fresh [.frame (venueLogon 1)]).live = true := by decide +kernel
  have whole (conn : Conn) (live : conn.live = true) : conn = ⟨conn.world,true⟩ := by
    cases conn
    cases live
    rfl
  have alive : run venueCtx (spawn venueCtx fresh) [.frame (venueLogon 1)] = ⟨atVenue,true⟩ := whole _ live
  have empty : atVenue.gapBuffer.isEmpty = true := by decide +kernel
  have answered : ((deliver venueCtx reportsShuffled atVenue).2.trace.all fun event => !refusal event) = true := by
    decide +kernel
  refine ⟨by decide +kernel,arrivalOrder alive (by decide +kernel) (Std.ExtTreeMap.isEmpty_iff.mp empty)
    (fun _ _ => ⟨rfl,rfl⟩) reportsNumbered (by decide) (by decide +kernel) (by decide +kernel) ?_⟩
  rintro ⟨new,trace,event,mem,refuses⟩
  rw [trace,List.all_eq_true] at answered
  exact absurd (answered event (List.mem_append_left _ mem)) (by simp [refuses])

end FixCli.Session
