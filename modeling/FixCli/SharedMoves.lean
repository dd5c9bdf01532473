import FixCli.ActorMoves

/-! What an actor does to the state it shares: it applies operations to the journal,
writes on some paths, and the trace and the clock go on. A relation that allows these
holds between the shared states before and after whatever the actor does. -/
namespace FixCli.Session
open Lib Codec Store

def applicationFrames (trace : List Event) : List Bytes :=
  trace.filterMap fun event => match event with
    | .wrote .application wire _ => some wire
    | _ => none

structure Allows (path : SendPath → Prop) (S : Shared → Shared → Prop) : Prop where
  refl : ∀ s, S s s
  trans : ∀ r s t, S r s → S s t → S r t
  ticks : ∀ (s : Shared) tick, S s {s with tick := tick}
  notes : ∀ (s : Shared) event, unwritten event → S s {s with trace := event :: s.trace}
  stores : ∀ (s : Shared) op, S s {s with journal := (apply s.journal op).2}
  writes : ∀ (s : Shared) own wire, path own → S s {s with trace := .wrote own wire s.journal :: s.trace}

def Sharing (S : Shared → Shared → Prop) (w v : World) : Prop := S w.toShared v.toShared

namespace Allows

variable {c : Ctx} {path : SendPath → Prop} {S : Shared → Shared → Prop}

open Prog

section

variable (allows : Allows path S)
include allows

theorem permits : Permits path (fun _ => True) (Sharing S) where
  refl := fun w => allows.refl w.toShared
  trans := fun _ _ _ => allows.trans _ _ _
  ticks := fun w => allows.ticks w.toShared
  notes := fun w event other => allows.notes w.toShared event (remarkUnwritten other)
  moves := fun w _ _ => allows.refl w.toShared
  asks := fun w _ _ => allows.refl w.toShared
  stores := fun w op _ => allows.trans _ _ _ (allows.stores w.toShared op)
    (allows.trans _ _ _ (allows.notes _ (.stored op (apply w.journal op).1) trivial) (allows.ticks _ _))
  refuses := fun w o error _ => allows.notes w.toShared (.stored o (.error error)) trivial
  writes := fun w => allows.writes w.toShared

theorem isRefl : Std.Refl (Sharing S) := allows.permits.isRefl

theorem isTrans : IsTrans World (Sharing S) := allows.permits.isTrans

theorem store (op : StoreOp) : Moves (Sharing S) (storeApply c op) := allows.permits.store trivial

theorem advances : Advances c (Sharing S) path (fun _ => True) := allows.permits.advances

end

section

variable (allows : Allows path S) (all : ∀ own, own ≠ .application → path own)
include allows all

theorem steps (conn : Conn) (input : Input)
    (submits : ∀ request, input = .command (.submit request) → path .application) :
    S conn.world.toShared (step c conn input).world.toShared :=
  allows.permits.steps all (fun _ _ => trivial) conn input fun request same =>
    ⟨submits request same,fun _ _ => trivial⟩

theorem spawns (s : Shared) : S s (spawn c s).world.toShared :=
  allows.trans _ _ _ (allows.ticks s _) (allows.permits.spawns all (fun _ _ => trivial) s)

end

end Allows
end FixCli.Session
