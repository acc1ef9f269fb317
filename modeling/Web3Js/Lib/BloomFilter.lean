import Mathlib.Data.Nat.Bitwise
import Web3Js.Lib.Hex

/-!
# Bloom filters

A filter is a number.  Every value selects some positions, and a value is a
member when the bits at its positions are set.  Inserting only sets bits, so
what was inserted stays a member.  The bits of a hexadecimal numeral are those
of its digits, counted from the end.
-/

namespace Web3Js

namespace BloomFilter

section Membership

variable {α : Type*} {positions : α → List Nat}

/-- The number with the bits at the positions set. -/
def mask (bits : List Nat) : Nat :=
  bits.foldr (fun bit number => 2 ^ bit ||| number) 0

theorem testBit_mask (bits : List Nat) (index : Nat) :
    (mask bits).testBit index = true ↔ index ∈ bits := by
  induction bits with
  | nil => simp [mask]
  | cons bit bits induction =>
      have unfolded : mask (bit :: bits) = 2 ^ bit ||| mask bits := rfl
      rw [unfolded, Nat.testBit_or, Bool.or_eq_true, induction,
        Nat.testBit_two_pow, decide_eq_true_iff, List.mem_cons,
        eq_comm (a := bit)]

def Member (positions : α → List Nat) (filter : Nat) (value : α) : Prop :=
  ∀ bit ∈ positions value, filter.testBit bit = true

instance (positions : α → List Nat) (filter : Nat) (value : α) :
    Decidable (Member positions filter value) :=
  inferInstanceAs (Decidable (∀ bit ∈ positions value, _))

def insert (positions : α → List Nat) (filter : Nat) (value : α) : Nat :=
  filter ||| mask (positions value)

def build (positions : α → List Nat) (values : List α) : Nat :=
  values.foldl (insert positions) 0

theorem member_insert_self (filter : Nat) (value : α) :
    Member positions (insert positions filter value) value := by
  intro bit selected
  rw [insert, Nat.testBit_or, (testBit_mask _ _).mpr selected, Bool.or_true]

theorem member_insert_of_member {filter : Nat} {value : α} (other : α)
    (member : Member positions filter value) :
    Member positions (insert positions filter other) value := by
  intro bit selected
  rw [insert, Nat.testBit_or, member bit selected, Bool.true_or]

theorem member_foldl_insert {filter : Nat} {value : α} (others : List α)
    (member : Member positions filter value) :
    Member positions (others.foldl (insert positions) filter) value := by
  induction others generalizing filter with
  | nil => exact member
  | cons other others induction =>
      exact induction (member_insert_of_member other member)

/-- A filter has no false negatives. -/
theorem member_build {values : List α} {value : α} (listed : value ∈ values) :
    Member positions (build positions values) value := by
  obtain ⟨before, after, rfl⟩ := List.append_of_mem listed
  rw [build, List.foldl_append, List.foldl_cons]
  exact member_foldl_insert after (member_insert_self _ value)

theorem mask_lt {bits : List Nat} {width : Nat}
    (bounded : ∀ bit ∈ bits, bit < width) : mask bits < 2 ^ width := by
  induction bits with
  | nil => exact Nat.two_pow_pos width
  | cons bit bits induction =>
      apply Nat.or_lt_two_pow
      · exact Nat.pow_lt_pow_right (by decide)
          (bounded bit List.mem_cons_self)
      · exact induction fun other member =>
          bounded other (List.mem_cons_of_mem bit member)

theorem foldl_insert_lt {filter width : Nat} (values : List α)
    (small : filter < 2 ^ width)
    (bounded : ∀ value, ∀ bit ∈ positions value, bit < width) :
    values.foldl (insert positions) filter < 2 ^ width := by
  induction values generalizing filter with
  | nil => exact small
  | cons value values induction =>
      exact induction (Nat.or_lt_two_pow small (mask_lt (bounded value)))

/-- A filter is as wide as the positions. -/
theorem build_lt {width : Nat} (values : List α)
    (bounded : ∀ value, ∀ bit ∈ positions value, bit < width) :
    build positions values < 2 ^ width :=
  foldl_insert_lt values (Nat.two_pow_pos width) bounded

end Membership

section Digits

/-- A bit of a numeral is a bit of the digit that covers it. -/
theorem testBit_numeral (text : List Char) (index : Nat) :
    (Hex.numeral text).testBit index =
      ((text.reverse[index / 4]?.bind Hex.digitValue).getD 0).testBit
        (index % 4) := by
  induction text using List.reverseRecOn generalizing index with
  | nil => simp [Hex.numeral]
  | append_singleton front digit induction =>
      have small : (Hex.digitValue digit).getD 0 < 2 ^ 4 := by
        cases read : Hex.digitValue digit with
        | none => exact Nat.two_pow_pos 4
        | some value => exact (Hex.digitValue_eq_some read).1
      have shifted := Nat.testBit_two_pow_mul_add (Hex.numeral front)
        small index
      rw [Hex.numeral_append_singleton, List.reverse_append,
        List.reverse_singleton, List.singleton_append]
      rw [show (16 : Nat) = 2 ^ 4 from rfl, shifted]
      split
      · rename_i low
        rw [Nat.div_eq_of_lt low, Nat.mod_eq_of_lt low]
        rfl
      · rename_i high
        have quotient : index / 4 = (index - 4) / 4 + 1 := by omega
        have remainder : index % 4 = (index - 4) % 4 := by omega
        rw [induction, quotient, remainder, List.getElem?_cons_succ]

end Digits

end BloomFilter

end Web3Js
