import FixCli.PlannedFields
import FixCli.SessionLoop
import FixCli.Credentials
import FixCli.SessionRun

/-! An agent's order on the wire. The frame says what was planned exactly as long as no
string that the planner passes on holds the delimiter. -/
namespace FixCli.Session
open Lib Codec Store Control

structure Placed (c : Ctx) (request : ApplicationRequest) (w : World) (fields : List Field) : Prop where
  header : fields.take 5 = [⟨35,request.msgType⟩,⟨49,c.config.senderCompId⟩,⟨56,c.config.targetCompId⟩,
    ⟨34,decimal w.nextOut⟩,⟨52,c.env.sendingTime w.tick⟩]
  planned : (fields.drop 5).filter (fun f => decide (f.tag ∉ [11, 60])) = request.fields
  clOrdId : (fields.drop 5).filter (fun f => decide (f.tag = 11)) = [⟨11,request.clOrdId⟩]
  transactTime : (fields.drop 5).filter (fun f => decide (f.tag = 60)) =
    if request.msgType = ascii "F" then [] else [⟨60,c.env.sendingTime (w.tick + 1)⟩]

structure Intact (c : Ctx) (request : ApplicationRequest) (w : World) (message : ParsedMessage) : Prop where
  beginString : message.beginString = c.config.beginString
  placed : Placed c request w message.fields

def carried : Event → Option Bytes
  | .stored (.commitOutbound commit) _ => some commit.wire
  | .wrote .application wire _ => some wire
  | _ => none

def OnlyWire (wire : Bytes) (w v : World) : Prop :=
  ∃ new, v.trace = new ++ w.trace ∧ ∀ other ∈ new.filterMap carried, other = wire

instance (wire : Bytes) : Std.Refl (OnlyWire wire) := ⟨fun _ => ⟨[],rfl,by simp⟩⟩

instance (wire : Bytes) : IsTrans World (OnlyWire wire) where
  trans := by
    rintro a b d ⟨first,hfirst,onlyFirst⟩ ⟨second,hsecond,onlySecond⟩
    refine ⟨second ++ first,by rw [hsecond,hfirst,List.append_assoc],fun other mem => ?_⟩
    rw [List.filterMap_append] at mem
    rcases List.mem_append.mp mem with newer | older
    · exact onlySecond other newer
    · exact onlyFirst other older

section

variable {c : Ctx} {request : ApplicationRequest} {w : World}

open Prog

theorem onlyStore {wire : Bytes} {op : StoreOp} (only : ∀ commit, op = .commitOutbound commit → commit.wire = wire) :
    Moves (OnlyWire wire) (storeApply c op) := by
  intro w
  rcases (storeTrace c op w).2 with same | ⟨answer,trace⟩
  · exact ⟨[],same,by simp⟩
  · refine ⟨[_],trace,?_⟩
    cases op with
    | commitOutbound commit => simpa [carried] using only commit rfl
    | _ => simp [carried]

theorem onlyWrite (wire : Bytes) : Moves (OnlyWire wire) (writeWire c .application wire) := by
  have socket : Moves (OnlyWire wire) (socketWrite c .application wire) := by
    intro w
    have written : OnlyWire wire w (handed .application wire w) := ⟨[_],rfl,by simp [carried]⟩
    have untouched : OnlyWire wire w {w with tick := w.tick + 1} := ⟨[],rfl,by simp⟩
    unfold socketWrite
    cases c.env.ioFault w.tick <;> assumption
  exact Moves.bind (Moves.change fun w => ⟨[_],rfl,by simp [carried]⟩) fun _ => Moves.bind socket fun _ =>
    Moves.bind (fun w => ⟨[],rfl,by simp⟩) fun _ => Moves.change fun w => ⟨[],rfl,by simp⟩

theorem submitWires {fields : List Field} {u : World} (prepared : submitFields c request w = (.ok fields,u))
    (trace : u.trace = w.trace) : ∃ new, (submitApplication c request w).2.trace = new ++ w.trace ∧
      ∀ wire ∈ new.filterMap carried, encodeMessage c.config.beginString fields = .ok wire := by
  have nothing : ∃ new, w.trace = new ++ w.trace ∧ ∀ wire ∈ new.filterMap carried,
      encodeMessage c.config.beginString fields = .ok wire := ⟨[],rfl,by simp⟩
  unfold submitApplication
  rw [bindReturns (stateRun w),iteRun]
  split
  · exact nothing
  rcases inSession (validateSubmit request) with halt | _
  · exact nothing
  rw [ofExceptOk,bindReturns (pureRun _ w),bindReturns prepared]
  cases encodes : encodeMessage c.config.beginString fields with
  | error e =>
    simp only [encodeOutbound,encodes,inSession,ofExceptError,bindRun,stopRun,trace]
    exact ⟨[],rfl,by simp⟩
  | ok wire =>
    simp only [encodeOutbound,encodes,inSession,ofExceptOk]
    rw [bindReturns (pureRun _ u)]
    have rest : Moves (OnlyWire wire) (commitSubmit c request w.nextOut wire) := by
      refine Moves.bind (onlyStore fun commit same => by cases same; rfl) fun reply => ?_
      split
      · split
        · exact Moves.pure _
        split
        · exact Moves.stop _
        refine Moves.bind (onlyWrite wire) fun _ => Moves.bind (onlyStore fun _ same => by cases same) fun reply => ?_
        split
        · exact Moves.bind (Moves.change fun w => ⟨[],rfl,by simp⟩) fun _ => Moves.pure _
        · exact Moves.stop _
      · exact Moves.stop _
    obtain ⟨new,after,only⟩ := rest u
    refine ⟨new,by rw [← trace]; exact after,fun other mem => ?_⟩
    rw [only other mem]

theorem appendPlain (flag : Bool) {fields : List Field} (free : ∀ f ∈ fields, f.tag ≠ 54) (w : World) :
    appendBody c flag fields w = (.ok (fields,false),w) := by
  induction fields with
  | nil => rfl
  | cons f rest ih =>
    have other : (flag && f.tag == 54) = false := by simp [free f List.mem_cons_self]
    have tail := ih fun g mem => free g (List.mem_cons_of_mem _ mem)
    simp only [appendBody,other,Bool.false_eq_true,if_false,bindRun,tail,pureRun]

theorem appendUntimed (fields : List Field) (w : World) : appendBody c false fields w = (.ok (fields,false),w) := by
  induction fields with
  | nil => rfl
  | cons f rest ih =>
    simp only [appendBody,Bool.false_and,Bool.false_eq_true,if_false,bindRun,ih,pureRun]

theorem appendTimed {front back : List Field} (side : Bytes) (once : ∀ f ∈ front ++ back, f.tag ≠ 54) (w : World) :
    appendBody c true (front ++ ⟨54,side⟩ :: back) w =
      (.ok (front ++ ⟨54,side⟩ :: ⟨60,c.env.sendingTime w.tick⟩ :: back,true),{w with tick := w.tick + 1}) := by
  induction front with
  | nil =>
    have tail := appendPlain (c := c) true once {w with tick := w.tick + 1}
    have own : (true && (54 : UInt32) == 54) = true := by decide
    simp only [List.nil_append] at tail ⊢
    simp only [appendBody,own,if_true]
    rw [bindReturns (rfl : sendingTime c w = (.ok _,_)),bindReturns tail]
    rfl
  | cons f rest ih =>
    have other : (true && f.tag == 54) = false := by simp [once f (by simp)]
    have tail := ih fun g mem => once g (List.mem_cons_of_mem _ mem)
    simp only [List.cons_append,appendBody,other,Bool.false_eq_true,if_false,bindRun,tail,pureRun]

theorem tailPlaced {orig tail : List Field} (ahead times behind : List Field)
    (shape : orig ++ tail = ahead ++ times ++ behind) (fields : ahead ++ behind = request.fields)
    (tags : ∀ f ∈ request.fields, f.tag ≠ 11 ∧ f.tag ≠ 60)
    (own : times = if request.msgType = ascii "F" then [] else [⟨60,c.env.sendingTime (w.tick + 1)⟩]) :
    Placed c request w ([⟨35,request.msgType⟩,⟨49,c.config.senderCompId⟩,⟨56,c.config.targetCompId⟩,
      ⟨34,decimal w.nextOut⟩,⟨52,c.env.sendingTime w.tick⟩] ++ orig ++ [⟨11,request.clOrdId⟩] ++ tail) := by
  have stamp : ∀ f ∈ times, f.tag = 60 := by
    rw [own]
    split <;> simp
  have parts (p : Field → Bool) : orig.filter p ++ tail.filter p =
      ahead.filter p ++ times.filter p ++ behind.filter p := by
    rw [← List.filter_append,shape,List.filter_append,List.filter_append]
  have planned (p : Field → Bool) : ahead.filter p ++ behind.filter p = request.fields.filter p := by
    rw [← List.filter_append,fields]
  have free (p : Field → Bool) (none : ∀ f ∈ request.fields, p f = false) :
      ahead.filter p = [] ∧ behind.filter p = [] := by
    rw [← List.append_eq_nil_iff,planned,List.filter_eq_nil_iff]
    exact fun f mem => by simp [none f mem]
  refine ⟨rfl,?_,?_,?_⟩
  · have untimed : times.filter (fun f => decide (f.tag ∉ [11, 60])) = [] :=
      List.filter_eq_nil_iff.mpr fun f mem => by simp [stamp f mem]
    have whole : request.fields.filter (fun f => decide (f.tag ∉ [11, 60])) = request.fields :=
      List.filter_eq_self.mpr fun f mem => by simpa using tags f mem
    have joined := parts fun f => decide (f.tag ∉ [11, 60])
    rw [untimed,List.append_nil,planned,whole] at joined
    change (orig ++ [_] ++ tail).filter _ = _
    rw [List.filter_append,List.filter_append,← joined]
    simp
  · have untimed : times.filter (fun f => decide (f.tag = 11)) = [] :=
      List.filter_eq_nil_iff.mpr fun f mem => by simp [stamp f mem]
    obtain ⟨before,after⟩ := free (fun f => decide (f.tag = 11)) fun f mem => by simp [(tags f mem).1]
    have joined := parts fun f => decide (f.tag = 11)
    rw [untimed,before,after] at joined
    obtain ⟨noOrig,noTail⟩ := List.append_eq_nil_iff.mp joined
    change (orig ++ [_] ++ tail).filter _ = _
    rw [List.filter_append,List.filter_append,noOrig,noTail]
    rfl
  · have whole : times.filter (fun f => decide (f.tag = 60)) = times :=
      List.filter_eq_self.mpr fun f mem => by simpa using stamp f mem
    obtain ⟨before,after⟩ := free (fun f => decide (f.tag = 60)) fun f mem => by simp [(tags f mem).2]
    have joined := parts fun f => decide (f.tag = 60)
    rw [whole,before,after,List.nil_append,List.append_nil] at joined
    change (orig ++ [_] ++ tail).filter _ = _
    rw [← own,← joined,List.filter_append,List.filter_append]
    simp

theorem submitWith (timed : Bool) {orig body tail : List Field} {v : World}
    (parts : splitOrigClOrdId request = .ok (orig,body))
    (requires : decide (request.msgType = ascii "D" ∨ request.msgType = ascii "G") = timed)
    (run : appendBody c timed body {w with tick := w.tick + 1} = (.ok (tail,timed),v)) :
    submitFields c request w = (.ok ([⟨35,request.msgType⟩,⟨49,c.config.senderCompId⟩,⟨56,c.config.targetCompId⟩,
      ⟨34,decimal w.nextOut⟩,⟨52,c.env.sendingTime w.tick⟩] ++ orig ++ [⟨11,request.clOrdId⟩] ++ tail),v) := by
  unfold submitFields
  simp only [requires,parts,inSession,ofExceptOk]
  rw [bindReturns (headerRun c request.msgType w),bindReturns (pureRun _ _),bindReturns run]
  cases timed <;> rfl

theorem submitLaid (layout : Layout request.msgType request.fields)
    (tags : ∀ f ∈ request.fields, f.tag ≠ 11 ∧ f.tag ≠ 60) (w : World) :
    ∃ fields u, submitFields c request w = (.ok fields,u) ∧ u.trace = w.trace ∧ Placed c request w fields := by
  obtain ⟨requestId,fingerprint,clOrdId,msgType,planned⟩ := request
  cases layout with
  | new front side back once =>
    refine ⟨_,_,submitWith true rfl rfl (appendTimed side once _),rfl,?_⟩
    exact tailPlaced (front ++ [⟨54,side⟩]) [⟨60,_⟩] back (by simp) (by simp) tags rfl
  | cancel original rest =>
    refine ⟨_,_,submitWith false rfl rfl (appendUntimed rest _),rfl,?_⟩
    exact tailPlaced (⟨41,original⟩ :: rest) [] [] (by simp) (by simp) tags rfl
  | replace original front side back once =>
    refine ⟨_,_,submitWith true rfl rfl (appendTimed side once _),rfl,?_⟩
    exact tailPlaced (⟨41,original⟩ :: front ++ [⟨54,side⟩]) [⟨60,_⟩] back (by simp) (by simp) tags rfl

theorem Placed.plain {fields : List Field} (placed : Placed c request w fields)
    (header : ∀ f ∈ fields.take 5, sohFree f) (clOrdId : SOH ∉ request.clOrdId)
    (clock : ∀ tick, SOH ∉ c.env.sendingTime tick) (planned : ∀ f ∈ request.fields, sohFree f) :
    ∀ f ∈ fields, sohFree f := by
  intro f mem
  rw [← List.take_append_drop 5 fields] at mem
  rcases List.mem_append.mp mem with front | back
  · exact header f front
  by_cases own : f.tag = 11
  · have inside : f ∈ (fields.drop 5).filter (fun f => decide (f.tag = 11)) := List.mem_filter.mpr ⟨back,by simp [own]⟩
    rw [placed.clOrdId,List.mem_singleton] at inside
    rw [inside]
    exact clOrdId
  by_cases time : f.tag = 60
  · have inside : f ∈ (fields.drop 5).filter (fun f => decide (f.tag = 60)) := List.mem_filter.mpr ⟨back,by simp [time]⟩
    rw [placed.transactTime] at inside
    split at inside
    · cases inside
    · rw [List.mem_singleton.mp inside]
      exact clock _
  · have inside : f ∈ (fields.drop 5).filter (fun f => decide (f.tag ∉ [11, 60])) :=
      List.mem_filter.mpr ⟨back,by simp [own,time]⟩
    rw [placed.planned] at inside
    exact planned f inside

theorem layoutPlain {msgType : Bytes} {fields : List Field} (layout : Layout msgType fields) : SOH ∉ msgType := by
  cases layout <;> decide

theorem ordersIntact {δ : Type} {k : Crates δ} {planner : CommandPlanner δ} {control : ControlRequest}
    (decimals : ∀ d, SOH ∉ k.normalized d) (planned : plan k planner control = .ok (.application request))
    (sender : SOH ∉ c.config.senderCompId) (target : SOH ∉ c.config.targetCompId)
    (clock : ∀ tick, SOH ∉ c.env.sendingTime tick) :
    ∃ new, (submitApplication c request w).2.trace = new ++ w.trace ∧
      ∀ wire ∈ new.filterMap carried, wire.length < usizeLimit → ((∃ message, parseFrame wire = .ok message ∧ Intact c request w message) ↔
        ∀ s ∈ unguarded control.command, SOH ∉ s) := by
  have laid := plannedLaid decimals planned
  obtain ⟨fields,u,prepared,trace,placed⟩ := submitLaid laid.layout laid.tags w
  obtain ⟨new,after,wires⟩ := submitWires prepared trace
  refine ⟨new,after,fun wire mem fits => ?_⟩
  obtain ⟨body,encodes,rfl⟩ := encoded (wires wire mem)
  rw [← laid.plain]
  constructor
  · rintro ⟨message,parsed,intact⟩ f mem
    rw [← intact.placed.planned] at mem
    exact parsedPlain parsed f (List.mem_of_mem_drop (List.mem_of_mem_filter mem))
  · intro plain
    have header : ∀ f ∈ fields.take 5, sohFree f := by
      rw [placed.header]
      have number : SOH ∉ decimal w.nextOut := sohNotIn _
      simp only [List.forall_mem_cons,List.not_mem_nil,false_implies,implies_true,and_true]
      exact ⟨layoutPlain laid.layout,sender,target,number,clock _⟩
    have whole := placed.plain header laid.clOrdId clock plain
    exact ⟨_,parseFrameEncoded encodes whole fits,rfl,placed⟩

end

def smuggledOrder : ControlRequest :=
  ⟨1,ascii "order-1",ascii "venue",.certification,.newOrderSingle
    ⟨ascii "IC2609",ascii "ACC" ++ [SOH] ++ ascii "38=999999",ascii "X",ascii "G",.buy,ascii "100",.market,none,.day,
      none,[]⟩⟩

def smuggledDigest : Bytes :=
  [178, 83, 213, 51, 4, 231, 150, 151, 27, 70, 32, 104, 236, 85, 127, 147, 187, 142, 195, 67, 151, 111, 166, 196, 179,
    227, 123, 155, 78, 166, 51, 31]

def smuggledCrates : Crates Nat :=
  {venueCrates with
    sha256 := fun input => if ascii "fix-cli-command-v1" <+: input then smuggledDigest else venueCrates.sha256 input}

def smuggledRequest : ApplicationRequest :=
  match plan smuggledCrates venuePlanner smuggledOrder with
  | .ok (.application request) => request
  | _ => ⟨[],[],[],[],[]⟩

def smuggledWire : Bytes :=
  ((submitApplication venueCtx smuggledRequest atVenue).2.trace.filterMap carried).headD []

theorem quantitySmuggled :
    plan smuggledCrates venuePlanner smuggledOrder = .ok (.application smuggledRequest) ∧
      atVenue.phase = .established ∧
      ¬ ∃ new, (submitApplication venueCtx smuggledRequest atVenue).2.trace = new ++ atVenue.trace ∧
        ∀ wire ∈ new.filterMap carried, wire.length < usizeLimit →
          ∃ message, parseFrame wire = .ok message ∧ Intact venueCtx smuggledRequest atVenue message := by
  refine ⟨by decide +kernel,by decide +kernel,?_⟩
  rintro ⟨new,trace,intact⟩
  have wires : new.filterMap carried = [smuggledWire,smuggledWire] := by
    have whole : (new ++ atVenue.trace).filterMap carried =
        [smuggledWire,smuggledWire] ++ atVenue.trace.filterMap carried := by
      rw [← trace]
      decide +kernel
    rw [List.filterMap_append] at whole
    exact List.append_cancel_right whole
  have mem : smuggledWire ∈ new.filterMap carried := by
    rw [wires]
    exact List.mem_cons_self
  have fits : smuggledWire.length < usizeLimit := by decide +kernel
  obtain ⟨message,parsed,whole⟩ := intact smuggledWire mem fits
  have same : parsedOf smuggledWire = message := by simp only [parsedOf,parsed]
  have planned := whole.placed.planned
  rw [← same] at planned
  have twice : (((parsedOf smuggledWire).fields.drop 5).filter (fun f => decide (f.tag ∉ [11, 60]))).filter
      (fun f => decide (f.tag = 38)) = [⟨38,ascii "999999"⟩,⟨38,ascii "100"⟩] := by decide +kernel
  have once : smuggledRequest.fields.filter (fun f => decide (f.tag = 38)) = [⟨38,ascii "100"⟩] := by decide +kernel
  rw [planned,once] at twice
  exact absurd twice (by decide)

theorem ordersIntactAtVenue :
    (∃ new, (submitApplication venueCtx (applicationOf (venueOrder "order-1")) atVenue).2.trace = new ++ atVenue.trace ∧
      ∀ wire ∈ new.filterMap carried, wire.length < usizeLimit →
        ((∃ message, parseFrame wire = .ok message ∧
          Intact venueCtx (applicationOf (venueOrder "order-1")) atVenue message) ↔
        ∀ s ∈ unguarded (venueOrder "order-1").command, SOH ∉ s)) ∧
      ((submitApplication venueCtx (applicationOf (venueOrder "order-1")) atVenue).2.trace.filterMap carried).length = 3 := by
  have planned : plan venueCrates venuePlanner (venueOrder "order-1") =
      .ok (.application (applicationOf (venueOrder "order-1"))) := by decide +kernel
  have clock : ∀ tick, SOH ∉ venueCtx.env.sendingTime tick := fun _ => by
    change SOH ∉ venueTime
    decide
  exact ⟨ordersIntact sohNotIn planned (by decide) (by decide) clock,by decide +kernel⟩

end FixCli.Session
