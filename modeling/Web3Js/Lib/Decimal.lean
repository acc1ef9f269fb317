import Mathlib.Data.List.Induction
import Mathlib.Data.Nat.Basic
import Mathlib.Tactic.Ring

/-!
# Decimal numerals

The number that decimal digits denote, and the digits of a number, as numbers
are multiplied with powers of ten and texts are cut at a place.
-/

namespace Web3Js.Decimal

/-- The number that digits denote. -/
def value (digits : List Char) : Nat := Nat.ofDigitChars 10 digits 0

theorem value_append (left right : List Char) :
    value (left ++ right) = value left * 10 ^ right.length + value right := by
  have shifted : ∀ (digits : List Char) (start : Nat),
      Nat.ofDigitChars 10 digits start =
        start * 10 ^ digits.length + Nat.ofDigitChars 10 digits 0 := by
    intro digits
    induction digits with
    | nil => intro start; simp
    | cons digit digits induction =>
        intro start
        rw [Nat.ofDigitChars_cons, Nat.ofDigitChars_cons, induction,
          induction (10 * 0 + _), List.length_cons, pow_succ]
        ring
  rw [value, Nat.ofDigitChars_append, shifted]
  rfl

@[simp] theorem value_toDigits (number : Nat) :
    value (Nat.toDigits 10 number) = number :=
  Nat.ofDigitChars_ten_toDigits

@[simp] theorem value_replicate_zero (count : Nat) :
    value (List.replicate count '0') = 0 := by
  rw [value, Nat.ofDigitChars_replicate_zero, Nat.mul_zero]

theorem value_zeros_append (count : Nat) (digits : List Char) :
    value (List.replicate count '0' ++ digits) = value digits := by
  rw [value_append, value_replicate_zero, Nat.zero_mul, Nat.zero_add]

theorem value_append_zeros (digits : List Char) (count : Nat) :
    value (digits ++ List.replicate count '0') =
      value digits * 10 ^ count := by
  rw [value_append, value_replicate_zero, List.length_replicate, Nat.add_zero]

theorem toDigits_injective {left right : Nat}
    (same : Nat.toDigits 10 left = Nat.toDigits 10 right) : left = right := by
  rw [← value_toDigits left, same, value_toDigits]

theorem toString_injective {left right : Nat}
    (same : toString left = toString right) : left = right := by
  have digits := congrArg String.toList same
  rw [Nat.toString_eq_ofList_toDigits, Nat.toString_eq_ofList_toDigits,
    String.toList_ofList, String.toList_ofList] at digits
  exact toDigits_injective digits

/-- A power of ten appends zeros. -/
theorem toDigits_mul_pow {number : Nat} (positive : 0 < number)
    (count : Nat) :
    Nat.toDigits 10 (number * 10 ^ count) =
      Nat.toDigits 10 number ++ List.replicate count '0' := by
  induction count with
  | zero => simp
  | succ count induction =>
      have nonzero : 0 < number * 10 ^ count :=
        Nat.mul_pos positive (Nat.pow_pos (by decide))
      have shifted := Nat.toDigits_append_toDigits
        (show 1 < 10 by decide) nonzero (show 0 < 10 by decide)
      rw [Nat.add_zero, Nat.toDigits_zero] at shifted
      rw [pow_succ, ← Nat.mul_assoc, Nat.mul_comm _ 10, ← shifted, induction,
        List.append_assoc, List.replicate_succ']

theorem isDigit_toDigits (number : Nat) {digit : Char}
    (member : digit ∈ Nat.toDigits 10 number) : digit.isDigit = true :=
  Nat.isDigit_of_mem_toDigits (by decide) (by decide) member

/-! ## Numerals without leading zeros -/

theorem digitChar_value {digit : Char} (isDigit : digit.isDigit = true) :
    value [digit] < 10 ∧ Nat.digitChar (value [digit]) = digit := by
  have range : 48 ≤ digit.toNat ∧ digit.toNat ≤ 57 := by
    rw [Char.isDigit, Bool.and_eq_true] at isDigit
    exact ⟨of_decide_eq_true isDigit.1, of_decide_eq_true isDigit.2⟩
  have number : value [digit] = digit.toNat - 48 :=
    Nat.ofDigitChars_cons.trans (Nat.zero_add _)
  have small : value [digit] < 10 := by omega
  refine ⟨small, Char.toNat_inj.mp ?_⟩
  rw [Nat.toNat_digitChar_of_lt_ten small]
  omega

theorem value_pos {digits : List Char} (nonempty : digits ≠ [])
    (canonical : digits.head? ≠ some '0')
    (isDigit : ∀ digit ∈ digits, digit.isDigit = true) :
    0 < value digits := by
  cases digits with
  | nil => exact absurd rfl nonempty
  | cons digit digits =>
      have first := digitChar_value (isDigit digit List.mem_cons_self)
      have positive : 0 < value [digit] := by
        apply Nat.pos_of_ne_zero
        intro zero
        rw [zero] at first
        exact canonical (congrArg some first.2.symm)
      have split := value_append [digit] digits
      rw [List.singleton_append] at split
      rw [split]
      exact Nat.add_pos_left (Nat.mul_pos positive (Nat.pow_pos (by decide))) _

/-- Digits without leading zeros are those of their number. -/
theorem toDigits_value {digits : List Char} (nonempty : digits ≠ [])
    (canonical : digits.head? ≠ some '0' ∨ digits.length = 1)
    (isDigit : ∀ digit ∈ digits, digit.isDigit = true) :
    Nat.toDigits 10 (value digits) = digits := by
  induction digits using List.reverseRecOn with
  | nil => exact absurd rfl nonempty
  | append_singleton front digit induction =>
      obtain ⟨small, same⟩ :=
        digitChar_value (isDigit digit (by simp))
      have last : Nat.toDigits 10 (value [digit]) = [digit] := by
        rw [Nat.toDigits_of_lt_base small, same]
      cases front with
      | nil => exact last
      | cons first front =>
          have canonical : (first :: front).head? ≠ some '0' := by
            refine canonical.resolve_right ?_
            simp
          have isDigit : ∀ digit ∈ first :: front, digit.isDigit = true :=
            fun digit member => isDigit digit (List.mem_append_left _ member)
          have nonempty := List.cons_ne_nil first front
          have whole := Nat.toDigits_append_toDigits (show 1 < 10 by decide)
            (value_pos nonempty canonical isDigit) small
          rw [induction nonempty (.inl canonical) isDigit, last] at whole
          rw [value_append, List.length_singleton, pow_one, Nat.mul_comm]
          exact whole.symm

/-! ## Signed numerals -/

/-- The numeral of an integer. -/
def text (number : Int) : List Char :=
  if number < 0 then '-' :: Nat.toDigits 10 number.natAbs
  else Nat.toDigits 10 number.natAbs

theorem text_natCast (number : Nat) :
    text number = Nat.toDigits 10 number :=
  if_neg (Int.not_lt.mpr (Int.natCast_nonneg number))

theorem text_of_neg {number : Int} (negative : number < 0) :
    text number = '-' :: Nat.toDigits 10 number.natAbs :=
  if_pos negative

theorem text_ne_nil (number : Int) : text number ≠ [] := by
  rw [text]
  split
  · exact List.cons_ne_nil _ _
  · exact Nat.toDigits_ne_nil

theorem not_mem_toDigits {char : Char} (other : char.isDigit = false)
    (number : Nat) : char ∉ Nat.toDigits 10 number := by
  intro member
  rw [isDigit_toDigits number member] at other
  cases other

theorem text_injective {left right : Int} (same : text left = text right) :
    left = right := by
  unfold text at same
  split at same
  next negative =>
    split at same
    next negative' =>
      have sizes := toDigits_injective (List.cons.inj same).2
      omega
    next sign =>
      exact absurd (same ▸ List.mem_cons_self)
        (not_mem_toDigits (by decide) right.natAbs)
  next sign =>
    split at same
    next negative =>
      exact absurd (same ▸ List.mem_cons_self)
        (not_mem_toDigits (by decide) left.natAbs)
    next sign' =>
      have sizes := toDigits_injective same
      omega

end Web3Js.Decimal
