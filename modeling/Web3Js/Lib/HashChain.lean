import Mathlib.Data.List.Induction

/-!
# Hash chains

A chain starts at a root and absorbs labels one after the other: the next
node is the hash of the node so far followed by the hash of the label.  A
hash of fixed width has collisions, so chains are compared under the
assumption that the messages hashed for them do not collide.
-/

namespace Web3Js.HashChain

universe u

variable {α : Type u} (hash : List α → List α)

def chain : (node : List α) → (labels : List (List α)) → List α
  | node, [] => node
  | node, label :: labels => chain (hash (node ++ hash label)) labels

/-- The messages that are hashed for a chain. -/
def messages : (node : List α) → (labels : List (List α)) → List (List α)
  | _, [] => []
  | node, label :: labels =>
      label :: (node ++ hash label) ::
        messages (hash (node ++ hash label)) labels

/-- No two of the messages share their hash, and none hashes to the root. -/
structure CollisionFree (root : List α) (hashed : List (List α)) : Prop where
  distinct : ∀ left ∈ hashed, ∀ right ∈ hashed,
    hash left = hash right → left = right
  notRoot : ∀ message ∈ hashed, hash message ≠ root

variable {hash} {root : List α}

theorem CollisionFree.mono {hashed others : List (List α)}
    (free : CollisionFree hash root hashed) (included : others ⊆ hashed) :
    CollisionFree hash root others where
  distinct left leftMember right rightMember :=
    free.distinct left (included leftMember) right (included rightMember)
  notRoot message member := free.notRoot message (included member)

theorem chain_concat (node : List α) (labels : List (List α))
    (label : List α) :
    chain hash node (labels ++ [label]) =
      hash (chain hash node labels ++ hash label) := by
  induction labels generalizing node with
  | nil => rfl
  | cons first labels induction => exact induction _

theorem messages_concat (node : List α) (labels : List (List α))
    (label : List α) :
    messages hash node (labels ++ [label]) =
      messages hash node labels ++
        [label, chain hash node labels ++ hash label] := by
  induction labels generalizing node with
  | nil => rfl
  | cons first labels induction =>
      rw [List.cons_append, messages, induction, messages]
      rfl

section FixedWidth

variable {width : Nat} (hashWidth : ∀ message, (hash message).length = width)
  (rootWidth : root.length = width)

include hashWidth rootWidth

theorem length_chain (labels : List (List α)) :
    (chain hash root labels).length = width := by
  induction labels using List.reverseRecOn with
  | nil => exact rootWidth
  | append_singleton labels label induction =>
      rw [chain_concat]
      exact hashWidth _

/-- Chains without collisions from one root have different ends. -/
theorem chain_injective {left right : List (List α)}
    (free : CollisionFree hash root
      (messages hash root left ++ messages hash root right))
    (same : chain hash root left = chain hash root right) :
    left = right := by
  induction left using List.reverseRecOn generalizing right with
  | nil =>
      cases right using List.reverseRecOn with
      | nil => rfl
      | append_singleton labels label =>
          rw [chain_concat] at same
          rw [messages_concat] at free
          exact absurd same.symm (free.notRoot _ (by simp))
  | append_singleton leftLabels leftLabel induction =>
      cases right using List.reverseRecOn with
      | nil =>
          rw [chain_concat] at same
          rw [messages_concat] at free
          exact absurd same (free.notRoot _ (by simp))
      | append_singleton rightLabels rightLabel =>
          rw [chain_concat, chain_concat] at same
          rw [messages_concat, messages_concat] at free
          have joined := free.distinct _ (by simp) _ (by simp) same
          have widths : (chain hash root leftLabels).length =
              (chain hash root rightLabels).length := by
            rw [length_chain hashWidth rootWidth,
              length_chain hashWidth rootWidth]
          obtain ⟨nodes, hashes⟩ := List.append_inj joined widths
          have lasts : leftLabel = rightLabel :=
            free.distinct _ (by simp) _ (by simp) hashes
          have fronts : leftLabels = rightLabels := by
            apply induction _ nodes
            apply free.mono
            intro message member
            rcases List.mem_append.mp member with inLeft | inRight
            · simp [inLeft]
            · simp [inRight]
          rw [fronts, lasts]

end FixedWidth

end Web3Js.HashChain
