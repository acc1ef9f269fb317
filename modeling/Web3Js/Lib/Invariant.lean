/-!
# Invariants of runs

A system is a start state and a step function over labels.  What holds at the
start and is kept by every step holds after every run; what is kept by the
steps that meet a condition holds after every run of such steps.
-/

namespace Web3Js

universe u v

variable {σ : Type u} {ℓ : Type v}

/-- The state after a run. -/
def run (step : σ → ℓ → σ) (start : σ) (labels : List ℓ) : σ :=
  labels.foldl step start

namespace Run

/-- The step keeps the property. -/
def Preserves (step : σ → ℓ → σ) (property : σ → Prop) : Prop :=
  ∀ state label, property state → property (step state label)

theorem invariant {step : σ → ℓ → σ} {property : σ → Prop}
    (preserved : Preserves step property) {start : σ}
    (initial : property start) (labels : List ℓ) :
    property (run step start labels) := by
  unfold run
  induction labels generalizing start with
  | nil => exact initial
  | cons label labels induction =>
      exact induction (preserved start label initial)

/-- Every step of a run is taken in a state that meets the condition for its
label. -/
def Meets (step : σ → ℓ → σ) (condition : σ → ℓ → Prop) :
    (start : σ) → List ℓ → Prop
  | _, [] => True
  | state, label :: labels =>
      condition state label ∧ Meets step condition (step state label) labels

theorem meets_append {step : σ → ℓ → σ} {condition : σ → ℓ → Prop}
    {start : σ} {labels others : List ℓ} :
    Meets step condition start (labels ++ others) ↔
      Meets step condition start labels ∧
        Meets step condition (run step start labels) others := by
  induction labels generalizing start with
  | nil => exact ⟨fun meets => ⟨trivial, meets⟩, And.right⟩
  | cons label labels induction =>
      rw [List.cons_append, Meets, Meets, induction, and_assoc]
      rfl

theorem meets_congr {step : σ → ℓ → σ} {condition other : σ → ℓ → Prop}
    (same : ∀ state label, condition state label ↔ other state label)
    {start : σ} {labels : List ℓ} :
    Meets step condition start labels ↔ Meets step other start labels := by
  induction labels generalizing start with
  | nil => exact Iff.rfl
  | cons label labels induction =>
      rw [Meets, Meets, same, induction]

theorem meets_and {step : σ → ℓ → σ} {condition other : σ → ℓ → Prop}
    {start : σ} {labels : List ℓ}
    (first : Meets step condition start labels)
    (second : Meets step other start labels) :
    Meets step (fun state label => condition state label ∧ other state label)
      start labels := by
  induction labels generalizing start with
  | nil => trivial
  | cons label labels induction =>
      exact ⟨⟨first.1, second.1⟩, induction first.2 second.2⟩

theorem meets_of_forall {step : σ → ℓ → σ} {condition : ℓ → Prop}
    {start : σ} {labels : List ℓ}
    (every : ∀ label ∈ labels, condition label) :
    Meets step (fun _ label => condition label) start labels := by
  induction labels generalizing start with
  | nil => trivial
  | cons label labels induction =>
      obtain ⟨first, rest⟩ := List.forall_mem_cons.mp every
      exact ⟨first, induction rest⟩

theorem invariant_of_meets {step : σ → ℓ → σ} {condition : σ → ℓ → Prop}
    {property : σ → Prop}
    (preserved : ∀ state label, property state → condition state label →
      property (step state label))
    {start : σ} (initial : property start) {labels : List ℓ}
    (meets : Meets step condition start labels) :
    property (run step start labels) := by
  induction labels generalizing start with
  | nil => exact initial
  | cons label labels induction =>
      exact induction (preserved start label initial meets.1) meets.2

/-- When a step keeps the invariant exactly if it meets the condition, a
property that tells the two apart holds along a run exactly if all of the
run's steps meet the condition. -/
theorem along_iff_meets {step : σ → ℓ → σ} {condition : σ → ℓ → Prop}
    {property target : σ → Prop}
    (preserved : ∀ state label, property state → condition state label →
      property (step state label))
    (forced : ∀ state label, property state → target (step state label) →
      condition state label)
    (implied : ∀ state, property state → target state)
    {start : σ} (initial : property start) (labels : List ℓ) :
    (∀ before, before <+: labels → target (run step start before)) ↔
      Meets step condition start labels := by
  induction labels generalizing start with
  | nil =>
      refine ⟨fun _ => trivial, fun _ before isPrefix => ?_⟩
      rw [List.prefix_nil.mp isPrefix]
      exact implied start initial
  | cons label labels induction =>
      constructor
      · intro along
        have first : condition start label :=
          forced start label initial (along [label] ⟨labels, rfl⟩)
        have next := preserved start label initial first
        refine ⟨first, (induction next).mp ?_⟩
        intro before isPrefix
        exact along (label :: before)
          ((List.prefix_cons_inj label).mpr isPrefix)
      · rintro ⟨first, rest⟩ before isPrefix
        cases before with
        | nil => exact implied start initial
        | cons head before =>
            obtain ⟨rfl, shorter⟩ := List.cons_prefix_cons.mp isPrefix
            have next := preserved start head initial first
            exact (induction next).mpr rest before shorter

end Run

end Web3Js
