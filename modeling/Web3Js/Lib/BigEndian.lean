import Mathlib.Data.List.Induction
import Mathlib.Data.Nat.Log
import Mathlib.Tactic.Ring

/-!
# Big-endian byte strings

Numbers and byte strings are related in the most-significant-first order that
wire formats use.  `ofNat` has a fixed width, `minimal` the fewest bytes that
hold the number (one byte for zero), and padding the latter gives the former.
A number has one byte string without leading zeros.
-/

namespace Web3Js

/-- A byte string. -/
abbrev Bytes := List UInt8

namespace BigEndian

/-- The number that a byte string denotes. -/
def toNat (bytes : Bytes) : Nat :=
  bytes.foldl (fun number byte => number * 256 + byte.toNat) 0

/-- The lowest `width` bytes of a number. -/
def ofNat : (width : Nat) → (number : Nat) → Bytes
  | 0, _ => []
  | width + 1, number => ofNat width (number / 256) ++ [UInt8.ofNat number]

/-- The shortest nonempty byte string of a number. -/
def minimal (number : Nat) : Bytes :=
  ofNat (number.log2 / 8 + 1) number

@[simp] theorem toNat_nil : toNat [] = 0 := rfl

@[simp] theorem toNat_append_singleton (bytes : Bytes) (byte : UInt8) :
    toNat (bytes ++ [byte]) = toNat bytes * 256 + byte.toNat := by
  simp [toNat]

@[simp] theorem length_ofNat (width number : Nat) :
    (ofNat width number).length = width := by
  induction width generalizing number with
  | zero => rfl
  | succ width induction => simp [ofNat, induction]

theorem toNat_ofNat (width number : Nat) :
    toNat (ofNat width number) = number % 256 ^ width := by
  induction width generalizing number with
  | zero => simp [ofNat, Nat.mod_one]
  | succ width induction =>
      have lowest : (UInt8.ofNat number).toNat = number % 256 := by simp
      rw [ofNat, toNat_append_singleton, induction, lowest, pow_succ',
        Nat.mod_mul, Nat.mul_comm, Nat.add_comm]

theorem toNat_ofNat_of_lt {width number : Nat}
    (bounded : number < 256 ^ width) :
    toNat (ofNat width number) = number := by
  rw [toNat_ofNat, Nat.mod_eq_of_lt bounded]

theorem toNat_lt (bytes : Bytes) : toNat bytes < 256 ^ bytes.length := by
  induction bytes using List.reverseRecOn with
  | nil => simp
  | append_singleton bytes byte induction =>
      have small : byte.toNat < 256 := byte.toNat_lt
      rw [toNat_append_singleton, List.length_append, List.length_singleton,
        pow_succ]
      omega

theorem ofNat_toNat (bytes : Bytes) :
    ofNat bytes.length (toNat bytes) = bytes := by
  induction bytes using List.reverseRecOn with
  | nil => rfl
  | append_singleton bytes byte induction =>
      have small : byte.toNat < 256 := byte.toNat_lt
      have quotient : (toNat bytes * 256 + byte.toNat) / 256 = toNat bytes := by
        omega
      have lowest : UInt8.ofNat (toNat bytes * 256 + byte.toNat) = byte := by
        apply UInt8.toNat_inj.mp
        simp
      rw [List.length_append, List.length_singleton, ofNat,
        toNat_append_singleton, quotient, induction, lowest]

theorem ofNat_zero (width : Nat) :
    ofNat width 0 = List.replicate width 0 := by
  induction width with
  | zero => rfl
  | succ width induction =>
      simp [ofNat, induction, List.replicate_succ']

theorem ofNat_injective {width left right : Nat}
    (leftBounded : left < 256 ^ width) (rightBounded : right < 256 ^ width)
    (equal : ofNat width left = ofNat width right) : left = right := by
  rw [← toNat_ofNat_of_lt leftBounded, equal, toNat_ofNat_of_lt rightBounded]

/-- Bytes above the number's own are zeros. -/
theorem replicate_append_ofNat (padding width number : Nat)
    (bounded : number < 256 ^ width) :
    List.replicate padding 0 ++ ofNat width number =
      ofNat (padding + width) number := by
  induction width generalizing number with
  | zero =>
      have zero : number = 0 := by simpa using bounded
      simp [zero, ofNat, ofNat_zero]
  | succ width induction =>
      have smaller : number / 256 < 256 ^ width := by
        rw [pow_succ] at bounded
        omega
      rw [← Nat.add_assoc, ofNat, ofNat, ← List.append_assoc,
        induction _ smaller]

theorem lt_minimal_width (number : Nat) :
    number < 256 ^ (number.log2 / 8 + 1) := by
  have own : number < 2 ^ (number.log2 + 1) := Nat.lt_log2_self
  have wider : number.log2 + 1 ≤ 8 * (number.log2 / 8 + 1) := by omega
  calc
    number < 2 ^ (number.log2 + 1) := own
    _ ≤ 2 ^ (8 * (number.log2 / 8 + 1)) :=
      Nat.pow_le_pow_right (by decide) wider
    _ = 256 ^ (number.log2 / 8 + 1) := by
      rw [pow_mul]
      norm_num

@[simp] theorem toNat_minimal (number : Nat) :
    toNat (minimal number) = number :=
  toNat_ofNat_of_lt (lt_minimal_width number)

theorem length_minimal_le {width number : Nat}
    (positive : 0 < width) (bounded : number < 256 ^ width) :
    (minimal number).length ≤ width := by
  rw [minimal, length_ofNat]
  by_cases zero : number = 0
  · simp [zero]
    omega
  · have bits : number.log2 < 8 * width := by
      rw [Nat.log2_lt zero, pow_mul]
      simpa using bounded
    omega

theorem minimal_ne_nil (number : Nat) : minimal number ≠ [] := by
  intro empty
  have length : (minimal number).length = number.log2 / 8 + 1 := by
    simp [minimal]
  simp [empty] at length

/-- Left padding turns the shortest form into the fixed-width one. -/
theorem replicate_append_minimal {width number : Nat}
    (positive : 0 < width) (bounded : number < 256 ^ width) :
    List.replicate (width - (minimal number).length) 0 ++ minimal number =
      ofNat width number := by
  have fits := length_minimal_le positive bounded
  rw [minimal] at fits ⊢
  rw [length_ofNat] at fits ⊢
  rw [replicate_append_ofNat _ _ _ (lt_minimal_width number),
    Nat.sub_add_cancel fits]

section LeadingZeros

/-- The byte string without its leading zeros. -/
def stripZeros (bytes : Bytes) : Bytes :=
  bytes.dropWhile (· == 0)

/-- No leading zero: the shortest string of its number. -/
def Canonical (bytes : Bytes) : Prop :=
  bytes.head? ≠ some 0

instance (bytes : Bytes) : Decidable (Canonical bytes) :=
  inferInstanceAs (Decidable (bytes.head? ≠ some 0))

theorem toNat_append (high low : Bytes) :
    toNat (high ++ low) = toNat high * 256 ^ low.length + toNat low := by
  induction low using List.reverseRecOn with
  | nil => simp
  | append_singleton low byte induction =>
      rw [← List.append_assoc, toNat_append_singleton, induction,
        toNat_append_singleton, List.length_append, List.length_singleton]
      ring

theorem toNat_cons (byte : UInt8) (bytes : Bytes) :
    toNat (byte :: bytes) = byte.toNat * 256 ^ bytes.length + toNat bytes := by
  have single : toNat [byte] = byte.toNat := by simp [toNat]
  rw [← single, ← toNat_append, List.singleton_append]

@[simp] theorem toNat_stripZeros (bytes : Bytes) :
    toNat (stripZeros bytes) = toNat bytes := by
  induction bytes with
  | nil => rfl
  | cons byte bytes induction =>
      by_cases zero : byte = 0
      · subst zero
        rw [toNat_cons, ← induction]
        simp [stripZeros]
      · simp [stripZeros, zero]

theorem canonical_stripZeros (bytes : Bytes) :
    Canonical (stripZeros bytes) := by
  intro zero
  have leading := List.head?_dropWhile_not (· == (0 : UInt8)) bytes
  unfold stripZeros at zero
  rw [zero] at leading
  simp at leading

/-- A leading byte that is not zero bounds the number from below. -/
theorem Canonical.pow_le {byte : UInt8} {bytes : Bytes}
    (canonical : Canonical (byte :: bytes)) :
    256 ^ bytes.length ≤ toNat (byte :: bytes) := by
  have positive : 0 < byte.toNat := by
    apply Nat.pos_of_ne_zero
    intro zero
    have isZero : byte = 0 := UInt8.toNat_inj.mp zero
    apply canonical
    rw [isZero, List.head?_cons]
  rw [toNat_cons]
  calc
    256 ^ bytes.length = 1 * 256 ^ bytes.length := (Nat.one_mul _).symm
    _ ≤ byte.toNat * 256 ^ bytes.length := Nat.mul_le_mul_right _ positive
    _ ≤ _ := Nat.le_add_right _ _

theorem Canonical.length_le {left right : Bytes} (canonical : Canonical left)
    (smaller : toNat left ≤ toNat right) : left.length ≤ right.length := by
  cases left with
  | nil => simp
  | cons byte bytes =>
      have chain : 256 ^ bytes.length < 256 ^ right.length :=
        Nat.lt_of_le_of_lt (canonical.pow_le.trans smaller) (toNat_lt right)
      have shorter := (Nat.pow_lt_pow_iff_right (by decide)).mp chain
      rw [List.length_cons]
      omega

/-- A number has one byte string without leading zeros. -/
theorem Canonical.eq_of_toNat_eq {left right : Bytes}
    (leftCanonical : Canonical left) (rightCanonical : Canonical right)
    (same : toNat left = toNat right) : left = right := by
  have length : left.length = right.length :=
    Nat.le_antisymm (leftCanonical.length_le same.le)
      (rightCanonical.length_le same.ge)
  rw [← ofNat_toNat left, ← ofNat_toNat right, length, same]

theorem canonical_minimal {number : Nat} (positive : 0 < number) :
    Canonical (minimal number) := by
  intro zero
  obtain ⟨rest, whole⟩ : ∃ rest, minimal number = 0 :: rest := by
    cases own : minimal number with
    | nil => simp [own] at zero
    | cons byte rest =>
        rw [own, List.head?_cons] at zero
        exact ⟨rest, by rw [Option.some.inj zero]⟩
  have small : number < 256 ^ rest.length := by
    have value := toNat_minimal number
    rw [whole, toNat_cons] at value
    have below := toNat_lt rest
    simp at value
    omega
  have width : (minimal number).length = number.log2 / 8 + 1 := by
    rw [minimal, length_ofNat]
  rw [whole, List.length_cons] at width
  have bits : number.log2 < 8 * rest.length := by
    rw [Nat.log2_lt positive.ne', pow_mul]
    simpa using small
  omega

end LeadingZeros

end BigEndian

end Web3Js
