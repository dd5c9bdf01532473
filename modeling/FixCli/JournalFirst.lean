import FixCli.Admissions
import FixCli.WriteAhead

/-! Journal before socket over runs of the daemon: processes one after the other over
one store, each with the actors it spawns, the orders that come through its control
service, and faults and crashes at any wait. -/
namespace FixCli.Control
open Lib Codec Store Session

def wired (c ctx : Ctx) : Ctx :=
  {ctx with
    config := {c.config with resetOnLogon := ctx.config.resetOnLogon}
    logonFields := c.logonFields}

def wiredMove (c : Ctx) : Move → Move
  | .spawn ctx => .spawn (wired c ctx)
  | move => move

structure Process (δ : Type) where
  service : ControlService δ
  ctx : Ctx
  moves : List Move

def processed {δ : Type} (c : Ctx) (s : Shared) (process : Process δ) : Shared :=
  (served process.service (Desk.start (wired c process.ctx) s) (process.moves.map (wiredMove c))).shared

def daemonRun {δ : Type} (c : Ctx) (processes : List (Process δ)) : Shared := processes.foldl (processed c) fresh

inductive Outside (d : Desk) : Move → Ctx → Conn → Prop
  | stays (move : Move) : Outside d move d.ctx d.conn
  | steps (move : Move) {input : Input} (other : submits input = false) :
      Outside d move d.ctx (Session.step d.ctx d.conn input)
  | loads (move : Move) (requestId : Bytes) :
      Outside d move d.ctx {d.conn with world := (loadCommand d.ctx requestId d.conn.world).2}
  | spawns (ctx : Ctx) : Outside d (.spawn ctx) ctx (Session.spawn ctx d.shared)

section

variable {δ : Type} {service : ControlService δ} {d : Desk} {move : Move}

theorem askOutside (session : Nat) {command : ActorCommand} (other : submits (.command command) = false) :
    Outside d move d.ctx (ask d session command).2 := by
  unfold ask
  split
  · exact .steps move other
  · exact .stays move

variable (service) in
theorem lookupOutside (session : Option Nat) (requestId : Bytes) :
    Outside d move d.ctx (lookupPersistedCommand service d session requestId).2 := by
  unfold lookupPersistedCommand
  split
  · exact .loads move requestId
  · cases session with
    | none => exact .stays move
    | some session => exact askOutside session rfl

variable (service) in
theorem lookedUpConn (d : Desk) (now : Nat) (request : ControlRequest) (application : ApplicationRequest) (session : Option Nat)
    (result : Except SessionError (Option CommandRecord)) :
    (lookedUp service d now request application session result).ctx = d.ctx ∧
      (lookedUp service d now request application session result).conn = d.conn := by
  unfold lookedUp reserve
  repeat' split
  all_goals exact ⟨rfl,rfl⟩

variable (service) in
theorem reserveGate (d : Desk) (now : Nat) (request : ControlRequest) (application : ApplicationRequest)
    (session : Nat) :
    (reserve service d now request application session).gate = .submitted request application session ∨
      (reserve service d now request application session).gate = .free := by
  unfold reserve
  split
  · exact .inl rfl
  · exact .inr rfl

theorem executeOutside (request : ControlRequest) (session : Option Nat) :
    Outside d move (execute service d request session).ctx (execute service d request session).conn := by
  unfold execute
  split
  · exact .stays move
  · rename_i planned _
    cases planned with
    | sessionStatus =>
      cases session with
      | none => exact .stays move
      | some session =>
        have kept : Outside d move d.ctx (ask d session .status).2 := askOutside session rfl
        simp only [dispatch]
        rcases asked : ask d session .status with ⟨_ | reply,conn⟩ <;>
        · rw [asked] at kept
          exact kept
    | sessionLogout =>
      cases session with
      | none => exact .stays move
      | some session =>
        have kept (text : Option Bytes) : Outside d move d.ctx (ask d session (.logout text)).2 := askOutside session rfl
        simp only [dispatch]
        rcases asked : ask d session (.logout (some (ascii "control request " ++ request.requestId))) with
          ⟨_ | reply,conn⟩ <;>
        · have after := kept (some (ascii "control request " ++ request.requestId))
          rw [asked] at after
          exact after
    | application application =>
      simp only [dispatch]
      cases request.executionMode with
      | dryRun | inspect => exact .stays move
      | certification | live => cases d.gate <;> exact .stays move

theorem lookupMoveOutside (elapsed : Nat) :
    Outside d move (lookup service d elapsed).ctx (lookup service d elapsed).conn := by
  unfold lookup
  split
  · rename_i request application session gate
    have kept : Outside d move d.ctx _ := lookupOutside service session application.requestId
    rcases run : lookupPersistedCommand service d session application.requestId with ⟨_ | result,conn⟩
    · rw [run] at kept
      exact kept
    · rw [run] at kept
      obtain ⟨ctx,same⟩ := lookedUpConn service {d with conn := conn} (d.clock + elapsed) request application
        session result
      dsimp only
      rw [ctx,same]
      exact kept
  · exact .stays move

variable (service) in
theorem serveOutside (move : Move)
    (idle : move = .submit → ∀ request application session, d.gate ≠ .submitted request application session) :
    Outside d move (serve service d move).ctx (serve service d move).conn := by
  cases move with
  | execute request session => exact executeOutside request session
  | lookup elapsed => exact lookupMoveOutside elapsed
  | submit =>
    have same : submit d = d := by
      unfold submit
      split
      · rename_i request application session gate
        exact absurd gate (idle rfl request application session)
      · rfl
    change Outside d .submit (submit d).ctx (submit d).conn
    rw [same]
    exact .stays _
  | input input outside => exact .steps _ outside
  | spawn ctx =>
    simp only [serve]
    split
    · exact .stays _
    · exact .spawns ctx
  | replace | clear => exact .stays _

theorem submitConn {request : ControlRequest} {application : ApplicationRequest} {session : Nat}
    (submitted : d.gate = .submitted request application session) :
    (submit d).ctx = d.ctx ∧ (submit d).conn = (ask d session (.submit application)).2 := by
  simp only [submit,submitted]
  rcases ask d session (.submit application) with ⟨_ | reply,conn⟩ <;> exact ⟨rfl,rfl⟩

end

def hashed (fingerprint : Bytes) : Prop := ∃ digest, fingerprint = hex digest

def Submittable (application : ApplicationRequest) : Prop :=
  application.clOrdId ≠ [] ∧ hashed application.fingerprint

theorem hashedApart (requestId fingerprint : Bytes) (o e : Nat) (pair : AdminPair requestId fingerprint o e) :
    ¬ hashed fingerprint := by
  rintro ⟨digest,rfl⟩
  exact absurd (hexOnly digest _ (adminFingerprint pair)) (by decide)

def Vacates (w v : World) : Prop :=
  Ledger w.journal → Ledger v.journal ∧ ∀ requestId, Vacant requestId w.journal → Vacant requestId v.journal

theorem vacatesStore {op : StoreOp} {j k : Journal} (loop : loopOp op) (ledger : Ledger j) (effect : Effect j op k)
    (requestId : Bytes) (vacant : Vacant requestId j) : Vacant requestId k := by
  intro record found
  cases effect with
  | none | transmission _ | transmissionWritten _ | inbound _ _ _ | resync _ _ | reset => exact vacant record found
  | @outbound commit _ _ =>
    simp only [withOutbound,Std.ExtTreeMap.getElem?_insert] at found
    split at found
    · cases found
      exact loop.2
    · exact vacant record found
  | @written mark command outbound here _ _ =>
    simp only [withWritten,Std.ExtTreeMap.getElem?_insert] at found
    split at found
    · rename_i same
      cases found
      refine vacant command ?_
      rw [← Std.compare_eq_iff_eq.mp same,ledger.keyed _ _ here]
      exact here
    · exact vacant record found

theorem permitsVacates : Permits (fun _ => True) loopOp Vacates where
  refl := fun _ ledger => ⟨ledger,fun _ vacant => vacant⟩
  trans := fun _ _ _ first second ledger => ⟨(second (first ledger).1).1,fun requestId vacant =>
    (second (first ledger).1).2 requestId ((first ledger).2 requestId vacant)⟩
  ticks := fun _ _ ledger => ⟨ledger,fun _ vacant => vacant⟩
  notes := fun _ _ _ ledger => ⟨ledger,fun _ vacant => vacant⟩
  moves := fun _ _ _ ledger => ⟨ledger,fun _ vacant => vacant⟩
  asks := fun _ _ _ ledger => ⟨ledger,fun _ vacant => vacant⟩
  stores := fun w op loop ledger => ⟨ledgerApply ledger op,vacatesStore loop ledger (effectOf w.journal op)⟩
  refuses := fun _ _ _ _ ledger => ⟨ledger,fun _ vacant => vacant⟩
  writes := fun _ _ _ _ ledger => ⟨ledger,fun _ vacant => vacant⟩

structure Orders (c : Ctx) (d : Desk) : Prop where
  own : ∃ ctx, d.ctx = wired c ctx
  holds : Holds (Writing hashed d.ctx) (fun w => Journaled hashed d.ctx w.toShared) d.conn
  looking : ∀ request application session, d.gate = .looking request application session → Submittable application
  submitted : ∀ request application session, d.gate = .submitted request application session →
    Submittable application ∧ Vacant application.requestId d.shared.journal

section

variable {δ : Type} {service : ControlService δ} {base : List Bytes} {c : Ctx} {d : Desk}

theorem journaledWired {taken : Bytes → Prop} {s : Shared} (ctx other : Ctx) (h : Journaled taken (wired c ctx) s) :
    Journaled taken (wired c other) s := ⟨h.settled,h.prerecorded.ahead,h.prerecorded.below,h.prerecorded.told⟩

theorem muteLoads (requestId : Bytes) : Prog.Moves Mute (loadCommand c requestId) := by
  refine Prog.Moves.bind (muteDoes.stores _ rfl) fun reply => ?_
  split
  · exact Prog.Moves.pure _
  · exact Prog.Moves.stop _

theorem Orders.outside (h : Orders c d) {move : Move} {x : Ctx} {conn : Conn}
    (out : Outside d (wiredMove c move) x conn) : (∃ ctx, x = wired c ctx) ∧
      Holds (Writing hashed x) (fun w => Journaled hashed x w.toShared) conn ∧
      ∀ requestId, Vacant requestId d.shared.journal → Vacant requestId conn.world.journal := by
  have ledger := h.holds.1.settled.ledger
  generalize made : wiredMove c move = m at out
  cases out with
  | stays => exact ⟨h.own,h.holds,fun _ vacant => vacant⟩
  | @steps _ input other =>
    have unsent (request : ApplicationRequest) (same : input = .command (.submit request)) : False := by
      subst same
      cases other
    refine ⟨h.own,writingStep hashedApart (fun request same => (unsent request same).elim) h.holds,?_⟩
    exact (permitsVacates.steps (fun _ _ => trivial) (fun _ loop => loop) d.conn input
      (fun request same => (unsent request same).elim) ledger).2
  | loads _ requestId =>
    have moved := muteLoads (c := d.ctx) requestId d.conn.world
    have conveys := writingConveys (c := d.ctx) hashedApart
    refine ⟨h.own,⟨conveys.ends _ _ moved h.holds.1,fun live => conveys.mute _ _ moved (h.holds.2 live)⟩,?_⟩
    intro other vacant record found
    exact vacant record (by rw [← moved.outbound.2.1]; exact found)
  | spawns ctx =>
    obtain ⟨before,same⟩ := h.own
    cases move with
    | spawn given =>
      cases made
      refine ⟨⟨given,rfl⟩,writingSpawn hashedApart (journaledWired before given (same ▸ h.holds.1)),?_⟩
      exact (permitsVacates.spawns (fun _ _ => trivial) plainLoop d.shared ledger).2
    | execute _ _ | lookup _ | submit | input _ _ | replace | clear => cases made

theorem Orders.submits (h : Orders c d) {request : ControlRequest} {application : ApplicationRequest} {session : Nat}
    (submitted : d.gate = .submitted request application session) :
    Holds (Writing hashed d.ctx) (fun w => Journaled hashed d.ctx w.toShared)
      (ask d session (.submit application)).2 := by
  obtain ⟨⟨order,own⟩,vacant⟩ := h.submitted _ _ _ submitted
  unfold ask
  split
  · refine writingStep hashedApart (fun other same _ => ?_) h.holds
    cases same
    exact ⟨order,own,vacant⟩
  · exact h.holds

theorem ordersServe (account : Accounted base d) (h : Orders c d) (move : Move) :
    Orders c (serve service d (wiredMove c move)) := by
  by_cases busy : wiredMove c move = .submit ∧
      ∃ request application session, d.gate = .submitted request application session
  · obtain ⟨same,request,application,session,submitted⟩ := busy
    rw [same]
    obtain ⟨ctx,conn⟩ := submitConn submitted
    obtain ⟨_,_,_,_,-,shape,closed,-,-⟩ := submitCases (account.named.2 _ _ _ submitted) submitted
    have shut {g : Gate} (other : g ≠ .gone ∧ g ≠ .free) (at' : (submit d).gate = g) : False := by
      rw [shape] at at'
      rcases closed with free | gone
      · exact other.2 (at'.symm.trans free)
      · exact other.1 (at'.symm.trans gone)
    refine ⟨?_,?_,fun _ _ _ at' => (shut (by simp) at').elim,fun _ _ _ at' => (shut (by simp) at').elim⟩
    · change ∃ x, (submit d).ctx = _
      rw [ctx]
      exact h.own
    · change Holds (Writing hashed (submit d).ctx) (fun w => Journaled hashed (submit d).ctx w.toShared)
        (submit d).conn
      rw [ctx,conn]
      exact h.submits submitted
  · obtain ⟨own,holds,vacates⟩ := h.outside (serveOutside service (wiredMove c move)
      fun same request application session submitted => busy ⟨same,_,_,_,submitted⟩)
    have served := serveCases service account.named (wiredMove c move)
    generalize serve service d (wiredMove c move) = v at own holds vacates served ⊢
    generalize wiredMove c move = m at busy served
    refine ⟨own,holds,fun request application session at' => ?_,fun request application session at' => ?_⟩
    · cases served with
      | aside rest gate =>
        rcases gate with same | gone | ⟨free,-⟩
        · exact h.looking _ _ _ (same.symm.trans at')
        · cases gone.symm.trans at'
        · cases free.symm.trans at'
      | takes planned free =>
        cases at'
        exact ⟨plannedClOrdId ⟨_,planned⟩,plannedFingerprint ⟨_,planned⟩⟩
      | @admits elapsed handle asked taken conn =>
        rcases reserveGate service {d with conn := conn} (d.clock + elapsed) asked taken handle with submitted | free
        · cases submitted.symm.trans at'
        · cases free.symm.trans at'
      | submits submitted => exact absurd ⟨rfl,_,_,_,submitted⟩ busy
    · cases served with
      | aside rest gate =>
        rcases gate with same | gone | ⟨free,-⟩
        · obtain ⟨fit,vacant⟩ := h.submitted _ _ _ (same.symm.trans at')
          exact ⟨fit,vacates _ vacant⟩
        · cases gone.symm.trans at'
        · cases free.symm.trans at'
      | takes => cases at'
      | @admits elapsed handle asked taken conn looking _ _ unrecorded =>
        have vacant : Vacant _ d.shared.journal := fun record found => by cases unrecorded.symm.trans found
        rcases reserveGate service {d with conn := conn} (d.clock + elapsed) asked taken handle with submitted | free
        · cases submitted.symm.trans at'
          exact ⟨h.looking _ _ _ looking,vacates _ vacant⟩
        · cases free.symm.trans at'
      | submits submitted => exact absurd ⟨rfl,_,_,_,submitted⟩ busy

theorem ordersStart {s : Shared} (ctx : Ctx) (journaled : Journaled hashed c s) :
    Orders c (Desk.start (wired c ctx) s) where
  own := ⟨ctx,rfl⟩
  holds := ⟨⟨journaled.settled,journaled.prerecorded.ahead,journaled.prerecorded.below,journaled.prerecorded.told⟩,
    fun live => by cases live⟩
  looking := fun _ _ _ at' => by cases at'
  submitted := fun _ _ _ at' => by cases at'

theorem processJournaled (process : Process δ) {s : Shared} (journaled : Journaled hashed c s) :
    Journaled hashed c (processed c s process) := by
  have all : ∀ (moves : List Move) (d : Desk), Accounted (applicationFrames s.trace) d → Orders c d →
      Orders c (served process.service d (moves.map (wiredMove c))) := by
    intro moves
    induction moves with
    | nil => exact fun _ _ h => h
    | cons move rest ih =>
      exact fun d account h => ih _ (accountedServe account (wiredMove c move)) (ordersServe account h move)
  have ended := all process.moves _ (accountedStart _ s) (ordersStart process.ctx journaled)
  obtain ⟨ctx,same⟩ := ended.own
  have last := ended.holds.1
  rw [same] at last
  exact ⟨last.settled,last.prerecorded.ahead,last.prerecorded.below,last.prerecorded.told⟩

/-- In every run of the daemon: whatever goes out on the socket is on record before, and
between two resets no number goes out twice on an original frame. -/
theorem journalFirst (c : Ctx) (processes : List (Process δ)) :
    Always (writtenAhead c) (daemonRun c processes).trace := by
  have all : ∀ (processes : List (Process δ)) (s : Shared), Journaled hashed c s →
      Journaled hashed c (processes.foldl (processed c) s) := by
    intro processes
    induction processes with
    | nil => exact fun _ h => h
    | cons process rest ih => exact fun s h => ih _ (processJournaled process h)
  refine (all processes fresh ⟨settledFresh hashed,trivial,?_,?_⟩).prerecorded.ahead
  · intro _ event mem
    cases mem
  · intro requestId record found
    simp [fresh,Journal.empty] at found

end

def orderProcess : Process Nat := ⟨venueService,venueCtx,
  [.spawn venueCtx,.replace,.input (.frame (venueLogon 1)) logonOutside,.execute (venueOrder "order-1") none,.lookup 0,
    .submit]⟩

example : (applicationFrames (daemonRun venueCtx [orderProcess,orderProcess]).trace).length = 1 := by decide +kernel

end FixCli.Control
