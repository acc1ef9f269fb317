import Mathlib.Logic.Relation
import Mathlib.Order.WellFoundedSet

/-!
# Finite graphs without cycles

In a graph where only finitely many nodes have successors, every walk ends
unless some node leads back to itself.
-/

namespace Web3Js.Acyclic

open Relation (TransGen)

variable {α : Type*} {next : α → α → Prop}

theorem acc_of_acyclic (sources : List α)
    (finite : ∀ node other, next node other → node ∈ sources)
    (acyclic : ∀ node, ¬ TransGen next node node) (node : α) :
    Acc (flip next) node := by
  have strict : IsStrictOrder α (TransGen (flip next)) := {
    irrefl := fun node cycle => acyclic node (Relation.transGen_swap.mp cycle)
    trans := fun _ _ _ => TransGen.trans }
  have founded : {node | node ∈ sources}.WellFoundedOn
      (TransGen (flip next)) :=
    sources.finite_toSet.wellFoundedOn
  have inside : ∀ source ∈ sources, Acc (flip next) source := by
    intro source member
    refine founded.induction member fun source _ inductionHypothesis =>
      ⟨_, fun other step => ?_⟩
    by_cases member : other ∈ sources
    · exact inductionHypothesis other member (.single step)
    · exact ⟨_, fun last further => absurd (finite other last further) member⟩
  refine ⟨_, fun other step => ?_⟩
  by_cases member : other ∈ sources
  · exact inside other member
  · exact ⟨_, fun last further => absurd (finite other last further) member⟩

theorem acyclic_of_acc (ends : ∀ node, Acc (flip next) node) (node : α) :
    ¬ TransGen next node node := by
  intro cycle
  have founded : WellFounded (TransGen (flip next)) :=
    WellFounded.transGen ⟨ends⟩
  exact founded.irrefl.irrefl node (Relation.transGen_swap.mpr cycle)

end Web3Js.Acyclic
