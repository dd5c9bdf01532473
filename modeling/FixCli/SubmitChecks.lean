import FixCli.ApplicationWire
import FixCli.Planner

/-! Which requests `submit_application` refuses for their content, whatever the session's
state, and that every other one becomes a frame. -/
namespace FixCli.Session
open Lib Codec Store Control

structure Acceptable (request : ApplicationRequest) : Prop where
  valid : validateSubmit request = .ok ()
  original : request.msgType = ascii "F" ∨ request.msgType = ascii "G" →
    (request.fields.head?).map Field.tag = some 41
  side : request.msgType = ascii "D" ∨ request.msgType = ascii "G" → ∃ f ∈ request.fields, f.tag = 54

structure WellFormed (request : ApplicationRequest) : Prop extends Acceptable request where
  usable : ∀ f ∈ request.fields, f.tag ≠ 0

def Declined (outcome : Except Halt CommandRecord) : Prop :=
  ∃ text, outcome = .error (.fail (.invalidApplication text))

section

variable {c : Ctx} {request : ApplicationRequest} {w v : World}

open Prog

theorem appendAdds (flag : Bool) (fields : List Field) (w : World) :
    ∃ tail tick, appendBody c flag fields w =
      (.ok (tail,flag && fields.any fun f => f.tag == 54),{w with tick := tick}) := by
  induction fields generalizing w with
  | nil => exact ⟨[],w.tick,by simp [appendBody]⟩
  | cons field rest ih =>
    unfold appendBody
    by_cases own : (flag && field.tag == 54) = true
    · rw [if_pos own,bindReturns (rfl : sendingTime c w = (.ok _,_))]
      obtain ⟨tail,tick,run⟩ := ih {w with tick := w.tick + 1}
      rw [bindReturns run]
      simp only [Bool.and_eq_true] at own
      rw [own.1,List.any_cons,own.2]
      exact ⟨_,tick,rfl⟩
    · rw [if_neg own]
      obtain ⟨tail,tick,run⟩ := ih w
      rw [bindReturns run]
      refine ⟨field :: tail,tick,?_⟩
      cases flag <;> simp_all

theorem splitGiven (first : request.msgType = ascii "F" ∨ request.msgType = ascii "G" →
    (request.fields.head?).map Field.tag = some 41) : ∃ orig body, splitOrigClOrdId request = .ok (orig,body) ∧
      ∀ f ∈ orig, f.tag = 41 := by
  unfold splitOrigClOrdId
  by_cases cancels : request.msgType = ascii "F" ∨ request.msgType = ascii "G"
  · rw [if_pos cancels]
    cases fields : request.fields with
    | nil => simp [fields] at first; exact absurd cancels (by simpa [not_or] using first)
    | cons field rest =>
      have tag : field.tag = 41 := by simpa [fields] using first cancels
      simp only [tag,if_true]
      exact ⟨[field],rest,rfl,by simp [tag]⟩
  · rw [if_neg cancels]
    exact ⟨[],request.fields,rfl,by simp⟩

theorem splitMissing (missing : ¬ (request.msgType = ascii "F" ∨ request.msgType = ascii "G" →
    (request.fields.head?).map Field.tag = some 41)) :
    ∃ text, splitOrigClOrdId request = .error (.invalidApplication text) := by
  simp only [not_forall,exists_prop] at missing
  obtain ⟨cancels,other⟩ := missing
  unfold splitOrigClOrdId
  rw [if_pos cancels]
  split
  · rename_i field rest fields
    have tag : field.tag ≠ 41 := by simpa [fields] using other
    rw [if_neg tag]
    exact ⟨_,rfl⟩
  · exact ⟨_,rfl⟩

theorem submitFieldsGiven {orig body : List Field} (given : splitOrigClOrdId request = .ok (orig,body)) (w : World) :
    ∃ fields tick, submitFields c request w =
      (if decide (request.msgType = ascii "D" ∨ request.msgType = ascii "G") && !body.any (fun f => f.tag == 54) then
        .error (.fail (.invalidApplication (ascii "order message is missing Side(54)"))) else .ok fields,
        {w with tick := tick}) := by
  obtain ⟨tail,tick,run⟩ := appendAdds (c := c)
    (decide (request.msgType = ascii "D" ∨ request.msgType = ascii "G")) body {w with tick := w.tick + 1}
  have header := headerRun c request.msgType w
  refine ⟨headerFields request.msgType c.config.senderCompId c.config.targetCompId w.nextOut
    (c.env.sendingTime w.tick) ++ orig ++ [⟨11,request.clOrdId⟩] ++ tail,tick,?_⟩
  unfold submitFields
  rw [bindReturns header]
  simp only [given,inSession,ofExceptOk]
  rw [bindReturns (pureRun _ _)]
  dsimp only
  rw [bindReturns run,iteRun]
  cases decide (request.msgType = ascii "D" ∨ request.msgType = ascii "G") <;>
    cases body.any (fun f => f.tag == 54) <;> rfl

theorem Acceptable.prepares (h : Acceptable request) (w : World) :
    ∃ fields tick, submitFields c request w = (.ok fields,{w with tick := tick}) := by
  obtain ⟨orig,body,given,own⟩ := splitGiven h.original
  obtain ⟨fields,tick,run⟩ := submitFieldsGiven (c := c) given w
  refine ⟨fields,tick,?_⟩
  rw [run,if_neg]
  simp only [Bool.and_eq_true,decide_eq_true_eq,Bool.not_eq_true',List.any_eq_false,beq_iff_eq,not_and,not_forall,
    Decidable.not_not]
  intro timed
  obtain ⟨f,mem,tag⟩ := h.side timed
  rw [← splitFrom given] at mem
  rcases List.mem_append.mp mem with front | back
  · rw [own f front] at tag
    cases tag
  · exact ⟨f,back,tag⟩

theorem refusesUnacceptable (bad : ¬ Acceptable request) (w : World) :
    (∃ text, validateSubmit request = .error (.invalidApplication text)) ∨ validateSubmit request = .ok () ∧
      ∃ text tick, submitFields c request w = (.error (.fail (.invalidApplication text)),{w with tick := tick}) := by
  cases valid : validateSubmit request with
  | error e =>
    left
    unfold validateSubmit at valid
    repeat' split at valid
    all_goals cases valid
    all_goals exact ⟨_,rfl⟩
  | ok _ =>
    refine .inr ⟨rfl,?_⟩
    by_cases first : request.msgType = ascii "F" ∨ request.msgType = ascii "G" →
        (request.fields.head?).map Field.tag = some 41
    · obtain ⟨orig,body,given,-⟩ := splitGiven first
      obtain ⟨fields,tick,run⟩ := submitFieldsGiven (c := c) given w
      refine ⟨ascii "order message is missing Side(54)",tick,?_⟩
      rw [run,if_pos]
      simp only [Bool.and_eq_true,decide_eq_true_eq,Bool.not_eq_true',List.any_eq_false,beq_iff_eq]
      by_contra other
      refine bad ⟨valid,first,fun timed => ?_⟩
      by_contra none
      refine other ⟨timed,fun f mem tag => none ⟨f,?_,tag⟩⟩
      rw [← splitFrom given]
      exact List.mem_append_right _ mem
    · obtain ⟨text,missing⟩ := splitMissing first
      refine ⟨text,w.tick + 1,?_⟩
      unfold submitFields
      rw [bindReturns (headerRun c request.msgType w),missing]
      rfl

theorem WellFormed.encodes (h : WellFormed request) (sendable : Sendable c) {fields : List Field}
    (prepared : submitFields c request w = (.ok fields,v)) : ∃ wire, encodeOutbound c fields = .ok wire := by
  obtain ⟨⟨rest,rfl,-,own⟩,-⟩ := submitShape prepared
  have free := (validSubmit h.valid).2
  have usable : ∀ f ∈ headerFields request.msgType c.config.senderCompId c.config.targetCompId w.nextOut
      (c.env.sendingTime w.tick) ++ rest, f.tag ≠ 0 ∧ f.tag ∉ [8, 9, 10] := by
    intro f mem
    rcases List.mem_append.mp mem with header | behind
    · simp only [headerFields,List.mem_cons,List.not_mem_nil,or_false] at header
      rcases header with rfl | rfl | rfl | rfl | rfl <;> simp
    · rcases own f behind with planned | rfl | ⟨tick,rfl⟩
      · have other := free f planned
        simp only [managedSubmitTags,List.mem_cons,List.not_mem_nil,or_false,not_or] at other ⊢
        exact ⟨h.usable f planned,by tauto⟩
      · simp
      · simp
  have encodes := encodeFrom ⟨sendable,rfl,(encodeBodyExact _ _).mpr ⟨usable,rfl⟩⟩
  exact ⟨_,by rw [encodeOutbound,encodes]⟩

theorem commitNeverRefuses (nextOut : Nat) (wire : Bytes) (w : World) :
    ¬ Declined (commitSubmit c request nextOut wire w).1 := by
  rintro ⟨text,bad⟩
  rcases run : commitSubmit c request nextOut wire w with ⟨halt | reply,v⟩
  · rw [run] at bad
    cases bad
    rcases Meets.stopped (quitsCommit request nextOut wire) trivial run with died | ⟨_,same,ends⟩
    · cases died
    · cases same
      cases ends
  · rw [run] at bad
    cases bad

theorem submitRefuses (established : w.phase = .established) :
    Declined (submitApplication c request w).1 ↔ ¬ Acceptable request := by
  constructor
  · rintro refused ok
    obtain ⟨fields,tick,prepared⟩ := ok.prepares (c := c) w
    rw [submitRun established ok.valid prepared] at refused
    cases encodes : encodeOutbound c fields with
    | error e =>
      unfold encodeOutbound at encodes
      split at encodes
      · cases encodes
      · rename_i failed
        cases encodes
        obtain ⟨text,bad⟩ := refused
        rw [encodeOutbound,failed] at bad
        cases bad
    | ok wire =>
      rw [encodes] at refused
      exact commitNeverRefuses _ _ _ refused
  · intro bad
    unfold submitApplication
    rw [bindReturns (stateRun w),iteRun,if_neg (by simp [established])]
    rcases refusesUnacceptable (c := c) bad w with ⟨text,invalid⟩ | ⟨valid,text,tick,run⟩
    · rw [invalid]
      exact ⟨text,rfl⟩
    · rw [valid,inSession,ofExceptOk,bindReturns (pureRun _ w),bindStops run]
      exact ⟨text,rfl⟩

end
end FixCli.Session
