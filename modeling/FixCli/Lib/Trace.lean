import Mathlib.Data.List.Basic

/-! Traces kept newest first, and the histories in which every event was allowed
by what lay behind it; and runs of a step function over a list of inputs. -/
namespace FixCli.Lib

variable {σ ι ε : Type}

def Always (allowed : ε → List ε → Prop) : List ε → Prop
  | [] => True
  | event :: past => allowed event past ∧ Always allowed past

instance alwaysDecidable {allowed : ε → List ε → Prop} [∀ event past, Decidable (allowed event past)] :
    (trace : List ε) → Decidable (Always allowed trace)
  | [] => isTrue trivial
  | event :: past =>
    have : Decidable (Always allowed past) := alwaysDecidable past
    inferInstanceAs (Decidable (allowed event past ∧ Always allowed past))

theorem alwaysAppend {allowed : ε → List ε → Prop} {past new : List ε} (ok : Always allowed past)
    (each : ∀ newer event older, new = newer ++ event :: older → allowed event (older ++ past)) :
    Always allowed (new ++ past) := by
  induction new with
  | nil => exact ok
  | cons event new ih =>
    exact ⟨each [] event new rfl,ih fun newer e older split =>
      each (event :: newer) e older (by rw [split]; rfl)⟩

def Along (step : σ → ι → σ) (cond : σ → ι → Prop) : σ → List ι → Prop
  | _, [] => True
  | s, input :: rest => cond s input ∧ Along step cond (step s input) rest

theorem foldInvariant {step : σ → ι → σ} {cond : σ → ι → Prop} {I : σ → Prop}
    (each : ∀ s input, cond s input → I s → I (step s input)) {s : σ} {inputs : List ι}
    (start : I s) (along : Along step cond s inputs) : I (inputs.foldl step s) := by
  induction inputs generalizing s with
  | nil => exact start
  | cons input rest ih => exact ih (each s input along.1 start) along.2

theorem alongConclude {step : σ → ι → σ} {cond concl : σ → ι → Prop} {I : σ → Prop}
    (each : ∀ s input, cond s input → I s → I (step s input))
    (here : ∀ s input, cond s input → I s → concl s input) {s : σ} {inputs : List ι} (start : I s)
    (along : Along step cond s inputs) : Along step concl s inputs := by
  induction inputs generalizing s with
  | nil => trivial
  | cons input rest ih => exact ⟨here s input along.1 start,ih (each s input along.1 start) along.2⟩

theorem alongIff {step : σ → ι → σ} {cond : σ → ι → Prop} {I P : σ → Prop}
    (each : ∀ s input, I s → I (step s input))
    (exactly : ∀ s input, I s → P s → (P (step s input) ↔ cond s input)) {s : σ} (start : I s) (holds : P s)
    (inputs : List ι) :
    (∀ before, before <+: inputs → P (before.foldl step s)) ↔ Along step cond s inputs := by
  induction inputs generalizing s with
  | nil =>
    refine iff_of_true (fun before pre => ?_) trivial
    rw [List.prefix_nil.mp pre]
    exact holds
  | cons input rest ih =>
    constructor
    · intro all
      have one : P (step s input) := all [input] ⟨rest,rfl⟩
      refine ⟨(exactly s input start holds).mp one,(ih (each s input start) one).mp fun before pre => ?_⟩
      exact all (input :: before) (List.cons_prefix_cons.mpr ⟨rfl,pre⟩)
    · intro along before pre
      have one : P (step s input) := (exactly s input start holds).mpr along.1
      cases before with
      | nil => exact holds
      | cons first before =>
        obtain ⟨rfl,inside⟩ := List.cons_prefix_cons.mp pre
        exact (ih (each s first start) one).mpr along.2 before inside

theorem alongEach {step : σ → ι → σ} {cond : σ → ι → Prop} {inputs : List ι}
    (each : ∀ input ∈ inputs, ∀ s, cond s input) (s : σ) : Along step cond s inputs := by
  induction inputs generalizing s with
  | nil => trivial
  | cons input rest ih =>
    exact ⟨each input (List.mem_cons_self ..) s,ih (fun other mem => each other (List.mem_cons_of_mem _ mem)) _⟩

theorem alongAlways {step : σ → ι → σ} {cond : σ → ι → Prop} (all : ∀ s input, cond s input) (s : σ)
    (inputs : List ι) : Along step cond s inputs := alongEach (fun input _ s => all s input) s

theorem alongWith {step : σ → ι → σ} {cond both : σ → ι → Prop} (other : σ → ι → Prop) {inputs : List ι}
    (each : ∀ input ∈ inputs, ∀ s, other s input)
    (join : ∀ s input, cond s input → other s input → both s input) {s : σ} (along : Along step cond s inputs) :
    Along step both s inputs := by
  induction inputs generalizing s with
  | nil => trivial
  | cons input rest ih =>
    exact ⟨join s input along.1 (each input (List.mem_cons_self ..) s),
      ih (fun later mem => each later (List.mem_cons_of_mem _ mem)) along.2⟩

end FixCli.Lib
