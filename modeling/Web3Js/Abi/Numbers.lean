import Mathlib.Tactic.Linarith
import Mathlib.Tactic.Push
import Web3Js.Abi.Spec

/-!
# Two's complement

The number coder checks its bounds with masks of the largest word and turns a
number into two's complement and back before it writes one word.  Within the
bounds of the type this writes the residue of the number, and the decoder's
mask recovers the number from it.
-/

namespace Web3Js.Abi

namespace BigNumber

theorem mask_of_nonneg {value : Int} (nonneg : 0 ≤ value) (bits : Nat) :
    mask value bits = .ok (value % 2 ^ bits) := by
  rw [mask, if_neg (by omega)]

private theorem pow_dvd {low high : Nat} (order : low ≤ high) :
    (2 ^ low : Int) ∣ 2 ^ high :=
  pow_dvd_pow 2 order

/-- Masking a full word of ones leaves ones. -/
theorem mask_ones {low high : Nat} (order : low ≤ high) :
    mask (2 ^ high - 1) low = .ok (2 ^ low - 1) := by
  have lowPositive : (0 : Int) < 2 ^ low := by positivity
  have highPositive : (0 : Int) < 2 ^ high := by positivity
  rw [mask_of_nonneg (by omega)]
  obtain ⟨factor, equality⟩ := pow_dvd order
  have split : (2 ^ high - 1 : Int) = (2 ^ low - 1) + 2 ^ low * (factor - 1) := by
    rw [equality]
    ring
  rw [split, Int.add_mul_emod_self_left,
    Int.emod_eq_of_lt (by omega) (by omega)]

private theorem pow_split {width : Nat} (positive : 0 < width) :
    (2 ^ width : Int) = 2 * 2 ^ (width - 1) := by
  conv_lhs => rw [← Nat.sub_add_cancel positive]
  rw [pow_succ, mul_comm]

/-- Numbers of a signed range are recovered from their residues. -/
theorem fromTwos_emod {value : Int} {width : Nat} (positive : 0 < width)
    (low : -2 ^ (width - 1) ≤ value) (high : value < 2 ^ (width - 1)) :
    fromTwos (value % 2 ^ width) width = value := by
  have half := pow_split positive
  have halfPositive : (0 : Int) < 2 ^ (width - 1) := by positivity
  by_cases negative : value < 0
  · have residue : value % 2 ^ width = value + 2 ^ width := by
      rw [← Int.add_emod_right, Int.emod_eq_of_lt (by omega) (by omega)]
    have top : (value + 2 ^ width) / 2 ^ (width - 1) = 1 := by
      have shift : value + 2 ^ width =
          (value + 2 ^ (width - 1)) + 1 * 2 ^ (width - 1) := by omega
      rw [shift, Int.add_mul_ediv_right _ _ (by omega),
        Int.ediv_eq_zero_of_lt (by omega) (by omega)]
      rfl
    rw [residue, fromTwos, top]
    simp
  · have residue : value % 2 ^ width = value :=
      Int.emod_eq_of_lt (by omega) (by omega)
    rw [residue, fromTwos, Int.ediv_eq_zero_of_lt (by omega) high]
    simp

theorem toTwos_eq_emod {value : Int} {width : Nat}
    (low : -2 ^ width ≤ value) (high : value < 2 ^ width) :
    toTwos value width = value % 2 ^ width := by
  unfold toTwos
  split
  · rw [← Int.add_emod_right, Int.emod_eq_of_lt (by omega) (by omega),
      add_comm]
  · rw [Int.emod_eq_of_lt (by omega) (by omega)]

end BigNumber

theorem numberInBounds_eq (size : ByteSize) (signed : Bool) (value : Int) :
    numberInBounds size.bytes signed value =
      .ok (decide (lowerBound signed (size.bytes * 8) ≤ value ∧
        value < upperBound signed (size.bytes * 8))) := by
  have within : size.bytes * 8 ≤ 512 := by
    have := size.withinWord
    unfold wordSize at this
    omega
  cases signed with
  | true =>
      simp only [numberInBounds, wordSize, BigNumber.mask_ones (le_refl 512),
        BigNumber.mask_ones (show size.bytes * 8 - 1 ≤ 512 by omega),
        Outcome.ok_bind, if_true, Outcome.pure_eq_ok, Except.ok.injEq,
        lowerBound, upperBound, decide_eq_decide]
      omega
  | false =>
      simp only [numberInBounds, wordSize, BigNumber.mask_ones (le_refl 512),
        BigNumber.mask_ones within, Outcome.ok_bind, Bool.false_eq_true,
        if_false, Outcome.pure_eq_ok, Except.ok.injEq, lowerBound, upperBound,
        decide_eq_decide]
      omega

end Web3Js.Abi
