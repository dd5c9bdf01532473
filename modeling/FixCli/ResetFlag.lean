import FixCli.Credentials
import FixCli.ApplicationWire

/-! The reset flag of the Logon against the reset in the journal. The deny-list of custom
Logon fields misses ResetSeqNumFlag(141), which the Logon may carry by itself. -/
namespace FixCli.Session
open Lib Codec Store

def logonOf (c : Ctx) (sequence : Nat) (time : Bytes) : List Field :=
  [⟨35,ascii "A"⟩,⟨49,c.config.senderCompId⟩,⟨56,c.config.targetCompId⟩,⟨34,decimal sequence⟩,⟨52,time⟩] ++ logonBody c

def ResetIn (trace : List Event) : Prop := ∃ reply, Event.stored .resetSequences (.ok reply) ∈ trace

def LeavesReset (c : Ctx) : Prop :=
  ∀ f ∈ c.logonFields, f.tag = 141 → c.config.resetOnLogon = false ∧ f.value ≠ ascii "Y"

def Added (p : Event → Prop) (w v : World) : Prop := ∃ new, v.trace = new ++ w.trace ∧ ∀ event ∈ new, p event

instance {p : Event → Prop} : Std.Refl (Added p) := ⟨fun _ => ⟨[],rfl,by simp⟩⟩

instance {p : Event → Prop} : IsTrans World (Added p) where
  trans := by
    rintro a b d ⟨first,old,early⟩ ⟨second,trace,late⟩
    refine ⟨second ++ first,by rw [trace,old,List.append_assoc],fun event mem => ?_⟩
    exact (List.mem_append.mp mem).elim (late event) (early event)

section

variable {p : Event → Prop} {c : Ctx}

open Prog

theorem Added.event {w : World} {event : Event} (own : p event) (tick : Nat) :
    Added p w {w with trace := event :: w.trace, tick := tick} :=
  ⟨[event],rfl,fun _ mem => by rwa [List.mem_singleton.mp mem]⟩

theorem addsEmit {event : Event} (own : p event) : Moves (Added p) (emit event) :=
  Moves.change fun w => Added.event own w.tick

theorem addsStore {op : StoreOp} (own : ∀ answer, p (.stored op answer)) : Moves (Added p) (storeApply c op) := by
  intro w
  have done : Added p w (applied op w) := ⟨[_],rfl,fun _ mem => by rw [List.mem_singleton.mp mem]; exact own _⟩
  unfold storeApply
  cases c.env.storeFault w.tick with
  | none => cases (apply w.journal op).1 <;> exact done
  | refused text => exact Added.event (own _) _
  | lost text => exact done
  | crashBefore => exact ⟨[],rfl,by simp⟩
  | crashAfter => exact done

theorem addsTick (tick : World → Nat) (w : World) : Added p w {w with tick := tick w} := ⟨[],rfl,by simp⟩

def sendingEvent (wire : Bytes) : Event → Prop
  | .stored op _ => inboundOp op = false
  | .wrote _ own _ => own = wire
  | .logged _ => True
  | _ => False

theorem addsAdmin (send : AdminSend) (text : Bytes) :
    Moves (Added (sendingEvent send.wire)) (sendAdmin c send (info text)) := by
  have socket : Moves (Added (sendingEvent send.wire)) (socketWrite c send.path send.wire) := by
    intro w
    have written : Added (sendingEvent send.wire) w (handed send.path send.wire w) :=
      ⟨[.wrote send.path send.wire w.journal],rfl,fun _ mem => by rw [List.mem_singleton.mp mem]; rfl⟩
    have untouched := addsTick (p := sendingEvent send.wire) (fun w => w.tick + 1) w
    unfold socketWrite
    cases c.env.ioFault w.tick <;> assumption
  have writes : Moves (Added (sendingEvent send.wire)) (writeWire c send.path send.wire) :=
    Moves.bind (addsEmit trivial) fun _ => Moves.bind socket fun _ =>
      Moves.bind (fun w => addsTick (fun w => w.tick + 1) w) fun _ => Moves.change fun w => ⟨[],rfl,by simp⟩
  refine Moves.bind Moves.state fun w => Moves.bind (addsStore fun _ => rfl) fun reply => ?_
  split
  · exact Moves.bind writes fun _ => Moves.bind (addsEmit trivial) fun _ =>
      Moves.bind (addsStore fun _ => rfl) fun _ => Moves.change fun w => ⟨[],rfl,by simp⟩
  · exact Moves.stop _

def nothingHanded : Event → Prop
  | .wrote .. => False
  | _ => True

theorem prologueSilent : Moves (Added nothingHanded) (prologue c) := by
  have resets : Moves (Added nothingHanded) (resetOnLogon c) := by
    refine Moves.bind (addsStore fun _ => trivial) fun reply => ?_
    split
    · exact Moves.bind (Moves.change fun w => ⟨[],rfl,by simp⟩) fun _ => Moves.bind
        (Moves.change fun w => ⟨[.expecting 1],rfl,by simp [nothingHanded]⟩) fun _ => addsEmit trivial
    · exact Moves.stop _
  refine Moves.bind ?_ fun _ => fun w => ⟨[],rfl,by simp⟩
  unfold resetIfConfigured
  split
  · exact resets
  · exact Moves.pure _

theorem prologueResets {w u : World} {header : List Field} (ran : prologue c w = (.ok header,u)) :
    ∃ opening, u.trace = opening ++ w.trace ∧ (∀ event ∈ opening, nothingHanded event) ∧
      (ResetIn opening ↔ c.config.resetOnLogon = true) ∧ (c.config.resetOnLogon = true → u.nextOut = 1) ∧
      ∃ time, header ++ logonBody c = logonOf c u.nextOut time := by
  unfold prologue resetIfConfigured at ran
  by_cases reset : c.config.resetOnLogon = true
  · rw [if_pos reset] at ran
    obtain ⟨_,x,resets,headed⟩ := bindReturned ran
    have healthy : c.env.storeFault w.tick = .none := by
      by_contra faulty
      obtain ⟨halt,y,stops⟩ := storeStops .resetSequences faulty
      unfold resetOnLogon at resets
      rw [bindStops stops] at resets
      cases resets
    rw [resetRun healthy] at resets
    cases resets
    cases headed
    refine ⟨[.logged _,.expecting 1,.stored .resetSequences _],rfl,by simp [nothingHanded],?_,fun _ => rfl,_,rfl⟩
    exact iff_of_true ⟨.sequencesReset (w.journal.nextEvent + 1),by simp [apply,resetSequences]⟩ reset
  · rw [if_neg reset] at ran
    cases ran
    exact ⟨[],rfl,by simp,iff_of_false (by simp [ResetIn]) reset,fun on => absurd on reset,_,rfl⟩

theorem logonFromAdds {header : List Field} {u v : World} {r : Except Halt Unit}
    (ran : logonFrom c header u = (r,v)) : v.trace = u.trace ∨ ∃ wire,
      encodeMessage c.config.beginString (header ++ logonBody c) = .ok wire ∧ Added (sendingEvent wire) u v := by
  unfold logonFrom encodeOutbound at ran
  cases encodes : encodeMessage c.config.beginString (header ++ logonBody c) with
  | error e =>
    simp only [encodes,inSession] at ran
    cases ran
    exact .inl rfl
  | ok wire =>
    cases redacts : encodeMessage c.config.beginString ((header ++ logonBody c).map (redacted c)) with
    | error e =>
      simp only [encodes,redacts,inSession] at ran
      cases ran
      exact .inl rfl
    | ok journalWire =>
      have sends := logonFromRun (v := u) encodes redacts
      unfold logonFrom encodeOutbound at sends
      rw [sends] at ran
      have adds := addsAdmin (c := c) (logonSend u journalWire wire) (ascii "Sent logon request") u
      rw [ran] at adds
      exact .inr ⟨wire,rfl,adds⟩

theorem sendLogonUnaccepted {w : World} {e : SessionError} (refused : validateCustomLogonFields c.logonFields [] = .error e) :
    sendLogon c w = (.error (.fail e),w) := by
  unfold sendLogon
  rw [refused]
  rfl

end

section

variable {c : Ctx}

theorem acceptedDistinct {fs : List Field} {seen : List UInt32} (ok : validateCustomLogonFields fs seen = .ok ()) :
    (fs.map Field.tag).Nodup ∧ ∀ f ∈ fs, f.tag ∉ seen := by
  induction fs generalizing seen with
  | nil => exact ⟨.nil,by simp⟩
  | cons field rest ih =>
    unfold validateCustomLogonFields at ok
    by_cases refused : field.tag ∈ reservedLogonTags ∨ SOH ∈ field.value ∨ field.tag ∈ seen
    · rw [if_pos refused] at ok
      cases ok
    · rw [if_neg refused] at ok
      simp only [not_or] at refused
      obtain ⟨distinct,unseen⟩ := ih ok
      refine ⟨List.nodup_cons.mpr ⟨fun mem => ?_,distinct⟩,fun f mem => ?_⟩
      · obtain ⟨f,later,same⟩ := List.mem_map.mp mem
        exact unseen f later (same ▸ List.mem_cons_self)
      · rcases List.mem_cons.mp mem with rfl | later
        · exact refused.2.2
        · exact fun before => unseen f later (List.mem_cons_of_mem _ before)

def ownTags (c : Ctx) : List UInt32 := [35, 49, 56, 34, 52, 98, 108] ++ if c.config.resetOnLogon then [141] else []

theorem logonTags (n : Nat) (time : Bytes) : (logonOf c n time).map Field.tag = ownTags c ++ c.logonFields.map Field.tag := by
  simp only [logonOf,logonBody,ownTags,List.map_append,List.map_cons,List.map_nil]
  split <;> rfl

theorem logonDistinct (accepted : validateCustomLogonFields c.logonFields [] = .ok ()) (n : Nat) (time : Bytes) :
    ((logonOf c n time).map Field.tag).Nodup ↔ (c.config.resetOnLogon = true → ∀ f ∈ c.logonFields, f.tag ≠ 141) := by
  have own : (ownTags c).Nodup := by
    unfold ownTags
    split <;> simp
  have distinct := (acceptedDistinct accepted).1
  rw [logonTags,List.nodup_append]
  constructor
  · rintro ⟨-,-,apart⟩ reset f mem same
    exact apart 141 (by simp [ownTags,reset]) f.tag (List.mem_map_of_mem mem) same.symm
  · intro free
    refine ⟨own,distinct,fun tag mine other mem same => ?_⟩
    obtain ⟨f,here,rfl⟩ := List.mem_map.mp mem
    have allowed := (acceptedPlain accepted f here).1
    rcases List.mem_append.mp mine with fixed | flagged
    · have reserved : ∀ tag ∈ [(35 : UInt32), 49, 56, 34, 52, 98, 108], tag ∈ reservedLogonTags := by
        simp [reservedLogonTags]
      exact allowed (same ▸ reserved tag fixed)
    · split at flagged
      · rename_i reset
        exact free reset f here (same ▸ List.mem_singleton.mp flagged)
      · cases flagged

theorem logonFlag (n : Nat) (time : Bytes) : ⟨141,ascii "Y"⟩ ∈ logonOf c n time ↔
    c.config.resetOnLogon = true ∨ ⟨141,ascii "Y"⟩ ∈ c.logonFields := by
  simp only [logonOf,logonBody,List.mem_append,List.mem_cons,Field.mk.injEq,List.not_mem_nil,or_false]
  split <;> simp_all

theorem resetMatches (accepted : validateCustomLogonFields c.logonFields [] = .ok ()) (n : Nat) (time : Bytes) :
    (((logonOf c n time).map Field.tag).Nodup ∧
      (⟨141,ascii "Y"⟩ ∈ logonOf c n time ↔ c.config.resetOnLogon = true)) ↔ LeavesReset c := by
  rw [logonDistinct accepted,logonFlag]
  constructor
  · rintro ⟨free,flag⟩ f mem same
    have off : c.config.resetOnLogon ≠ true := fun reset => free reset f mem same
    refine ⟨by simpa using off,fun yes => off (flag.mp (.inr ?_))⟩
    rwa [← same,← yes]
  · intro leaves
    refine ⟨fun reset f mem same => ?_,fun flag => ?_,.inl⟩
    · rw [(leaves f mem same).1] at reset
      cases reset
    · exact flag.elim id fun mem => absurd rfl (leaves _ mem rfl).2

theorem logonPlain (accepted : validateCustomLogonFields c.logonFields [] = .ok ()) (n : Nat) {time : Bytes}
    (sender : SOH ∉ c.config.senderCompId) (target : SOH ∉ c.config.targetCompId) (clock : SOH ∉ time) :
    ∀ f ∈ logonOf c n time, sohFree f := by
  intro f mem
  simp only [logonOf,logonBody,List.mem_append,List.mem_cons,List.not_mem_nil,or_false] at mem
  rcases mem with (rfl | rfl | rfl | rfl | rfl) | ((rfl | rfl) | flag) | own
  · exact by decide
  · exact sender
  · exact target
  · exact sohNotIn n
  · exact clock
  · exact by decide
  · exact sohNotIn _
  · split at flag
    · rw [List.mem_singleton.mp flag]
      exact by decide
    · cases flag
  · exact (acceptedPlain accepted f own).2

end

theorem selfGrown (later earlier trace : List Event) (event : Event) : trace ≠ later ++ event :: (earlier ++ trace) := by
  intro same
  have lengths := congrArg List.length same
  simp only [List.length_append,List.length_cons] at lengths
  omega

theorem sentBehind {w u v : World} {opening earlier later : List Event} {path : SendPath} {wire : Bytes} {j : Journal}
    {encodes : Bytes → Prop} (quiet : ∀ event ∈ opening, nothingHanded event) (before : u.trace = opening ++ w.trace)
    (adds : v.trace = u.trace ∨ ∃ wire, encodes wire ∧ Added (sendingEvent wire) u v)
    (written : v.trace = later ++ .wrote path wire j :: (earlier ++ w.trace)) :
    encodes wire ∧ (ResetIn earlier ↔ ResetIn opening) := by
  have foreign : .wrote path wire j ∉ opening := fun mem => quiet _ mem
  have cut (new : List Event) (trace : v.trace = new ++ u.trace) :
      later ++ .wrote path wire j :: earlier = new ++ opening := by
    have whole : later ++ .wrote path wire j :: earlier ++ w.trace = new ++ opening ++ w.trace := by
      rw [List.append_assoc,List.append_assoc,List.cons_append,← written,trace,before]
    exact List.append_cancel_right whole
  rcases adds with still | ⟨own,encoded,new,trace,sends⟩
  · have whole : later ++ .wrote path wire j :: earlier = opening := cut [] still
    exact absurd (whole ▸ List.mem_append_right _ List.mem_cons_self) foreign
  · rcases List.append_eq_append_iff.mp (cut new trace) with ⟨middle,rfl,rest⟩ | ⟨middle,rfl,rest⟩
    · cases middle with
      | nil =>
        have whole : .wrote path wire j :: earlier = opening := rest
        exact absurd (whole ▸ List.mem_cons_self) foreign
      | cons event middle =>
        obtain ⟨rfl,rfl⟩ := List.cons.inj rest
        have same : wire = own := sends (.wrote path wire j) (by simp)
        refine ⟨same ▸ encoded,⟨fun ⟨reply,mem⟩ => ?_,fun ⟨reply,mem⟩ => ⟨reply,List.mem_append_right _ mem⟩⟩⟩
        rcases List.mem_append.mp mem with behind | there
        · have outbound : inboundOp .resetSequences = false :=
            sends (.stored .resetSequences (.ok reply)) (by simp [behind])
          cases outbound
        · exact ⟨reply,there⟩
    · exact absurd (rest ▸ List.mem_append_right _ List.mem_cons_self) foreign

/-- Every Logon that is written: each of its tags is there once, and its reset flag says what
was done to the journal ahead of it, just when no custom field sets the flag. -/
theorem resetFlagged (c : Ctx) (w v : World) (r : Except Halt Unit) (path : SendPath) (wire : Bytes) (j : Journal)
    (earlier later : List Event) (ran : sendLogon c w = (r,v))
    (written : v.trace = later ++ .wrote path wire j :: (earlier ++ w.trace)) :
    ∃ n time, encodeMessage c.config.beginString (logonOf c n time) = .ok wire ∧
      (SOH ∉ c.config.senderCompId → SOH ∉ c.config.targetCompId → SOH ∉ time → wire.length < usizeLimit →
        ∃ checksum, parseFrame wire = .ok ⟨c.config.beginString,logonOf c n time,checksum⟩) ∧
      (ResetIn earlier → n = 1) ∧
      ((((logonOf c n time).map Field.tag).Nodup ∧ (⟨141,ascii "Y"⟩ ∈ logonOf c n time ↔ ResetIn earlier)) ↔
        LeavesReset c) := by
  cases accepted : validateCustomLogonFields c.logonFields [] with
  | error e =>
    rw [sendLogonUnaccepted accepted] at ran
    cases ran
    exact absurd written (selfGrown _ _ _ _)
  | ok =>
    rw [logonParts accepted] at ran
    rcases opens : prologue c w with ⟨halt | header,u⟩
    · rw [Prog.bindStops opens] at ran
      cases ran
      obtain ⟨new,trace,quiet⟩ := prologueSilent (c := c) w
      rw [opens,written] at trace
      have whole : later ++ .wrote path wire j :: earlier = new :=
        List.append_cancel_right (by rw [← trace,List.append_assoc,List.cons_append])
      exact (quiet (.wrote path wire j) (by rw [← whole]; simp)).elim
    · rw [Prog.bindReturns opens] at ran
      obtain ⟨opening,before,quiet,resets,first,time,fields⟩ := prologueResets opens
      obtain ⟨encodes,ahead⟩ := sentBehind quiet before (logonFromAdds ran) written
      rw [fields] at encodes
      have same : ResetIn earlier ↔ c.config.resetOnLogon = true := ahead.trans resets
      refine ⟨u.nextOut,time,encodes,fun sender target clock fits => encodedParses encodes ?_ fits,
        fun reset => first (same.mp reset),?_⟩
      · exact logonPlain accepted _ sender target clock
      · rw [same]
        exact resetMatches accepted _ _

theorem handedSplit {trace : List Event} {wire : Bytes} (mem : wire ∈ trace.filterMap handedWire) :
    ∃ path j later earlier, trace = later ++ .wrote path wire j :: earlier := by
  obtain ⟨event,there,handed⟩ := List.mem_filterMap.mp mem
  obtain ⟨later,earlier,split⟩ := List.append_of_mem there
  unfold handedWire at handed
  split at handed
  · rename_i path own j
    cases handed
    exact ⟨path,j,later,earlier,split⟩
  · cases handed

def resettingCtx : Ctx := {venueCtx with config := {venueCtx.config with resetOnLogon := true}}

def resettingWire : Bytes := ((sendLogon resettingCtx (entering resettingCtx fresh)).2.trace.filterMap handedWire).flatten

theorem resetFlaggedAtVenue :
    LeavesReset resettingCtx ∧ ∃ n time,
      encodeMessage resettingCtx.config.beginString (logonOf resettingCtx n time) = .ok resettingWire ∧
        (⟨141,ascii "Y"⟩ ∈ logonOf resettingCtx n time → n = 1) := by
  have leaves : LeavesReset resettingCtx := by simp [LeavesReset,resettingCtx,venueCtx]
  have mem : resettingWire ∈ (sendLogon resettingCtx (entering resettingCtx fresh)).2.trace.filterMap handedWire := by
    decide +kernel
  obtain ⟨path,j,later,earlier,split⟩ := handedSplit mem
  have written := split.trans (congrArg (later ++ .wrote path resettingWire j :: ·) (List.append_nil earlier).symm)
  obtain ⟨n,time,encodes,-,first,exactly⟩ := resetFlagged resettingCtx (entering resettingCtx fresh) _ _ path resettingWire j
    earlier later Prod.mk.eta.symm written
  exact ⟨leaves,n,time,encodes,fun flag => first ((exactly.mpr leaves).2.mp flag)⟩

def flaggedCtx : Ctx := {venueCtx with logonFields := [⟨141,ascii "Y"⟩]}

def resetAsked : Event → Bool
  | .stored .resetSequences _ => true
  | _ => false

theorem flagSmuggled :
    validateCustomLogonFields flaggedCtx.logonFields [] = .ok () ∧
      ((sendLogon flaggedCtx (entering flaggedCtx fresh)).2.trace.filterMap handedWire).map
        (fun wire => (parsedOf wire).fields.filter fun f => f.tag = 141) = [[⟨141,ascii "Y"⟩]] ∧
      ¬ ResetIn (sendLogon flaggedCtx (entering flaggedCtx fresh)).2.trace := by
  refine ⟨by decide,by decide +kernel,?_⟩
  rintro ⟨reply,mem⟩
  have none : (sendLogon flaggedCtx (entering flaggedCtx fresh)).2.trace.any resetAsked = false := by decide +kernel
  have absent := List.any_eq_false.mp none _ mem
  exact absent rfl

end FixCli.Session
