import Mathlib.Data.List.Forall2
import Web3Js.Lib.BigEndian

/-!
# Hexadecimal text

Byte strings are written with two lower-case digits a byte.  Reading accepts
both letter cases, so it inverts writing, and writing inverts reading up to
the letter case.  The digits of a number, padded to even length, denote bytes
of that number.
-/

namespace Web3Js

namespace Hex

/-- The value of a hexadecimal digit of either letter case. -/
def digitValue (digit : Char) : Option Nat :=
  if '0' ≤ digit ∧ digit ≤ '9' then some (digit.toNat - 48)
  else if 'a' ≤ digit ∧ digit ≤ 'f' then some (digit.toNat - 87)
  else if 'A' ≤ digit ∧ digit ≤ 'F' then some (digit.toNat - 55)
  else none

def isDigit (digit : Char) : Bool := (digitValue digit).isSome

theorem isDigit_of_decimal {digit : Char} (decimal : digit.isDigit = true) :
    isDigit digit = true := by
  rw [Char.isDigit, Bool.and_eq_true, decide_eq_true_iff,
    decide_eq_true_iff] at decimal
  have within : '0' ≤ digit ∧ digit ≤ '9' := decimal
  rw [isDigit, digitValue, if_pos within]
  rfl

/-- The two digits of a byte. -/
def encodeByte (byte : UInt8) : List Char :=
  [Nat.digitChar (byte.toNat / 16), Nat.digitChar (byte.toNat % 16)]

def encode (bytes : Bytes) : List Char := bytes.flatMap encodeByte

/-- Text of odd length and text with other characters denote no bytes. -/
def decode : List Char → Option Bytes
  | [] => some []
  | [_] => none
  | high :: low :: rest => do
      let highValue ← digitValue high
      let lowValue ← digitValue low
      let bytes ← decode rest
      pure (UInt8.ofNat (16 * highValue + lowValue) :: bytes)

@[simp] theorem encode_nil : encode [] = [] := rfl

@[simp] theorem encode_cons (byte : UInt8) (bytes : Bytes) :
    encode (byte :: bytes) = encodeByte byte ++ encode bytes := rfl

@[simp] theorem encode_append (left right : Bytes) :
    encode (left ++ right) = encode left ++ encode right := by
  simp [encode]

@[simp] theorem length_encode (bytes : Bytes) :
    (encode bytes).length = 2 * bytes.length := by
  induction bytes with
  | nil => rfl
  | cons byte bytes induction => simp [encodeByte, induction]; omega

private theorem digitValue_digitChar :
    ∀ value : Fin 16, digitValue (Nat.digitChar value) = some value := by
  decide

theorem digitValue_digitChar_of_lt {value : Nat} (small : value < 16) :
    digitValue (Nat.digitChar value) = some value :=
  digitValue_digitChar ⟨value, small⟩

private theorem toLower_digitChar :
    ∀ value : Fin 16, (Nat.digitChar value).toLower = Nat.digitChar value := by
  decide

theorem decode_encodeByte_append (byte : UInt8) (rest : List Char) :
    decode (encodeByte byte ++ rest) = (decode rest).map (byte :: ·) := by
  have small : byte.toNat < 256 := byte.toNat_lt
  have high := digitValue_digitChar_of_lt
    (show byte.toNat / 16 < 16 by omega)
  have low := digitValue_digitChar_of_lt
    (show byte.toNat % 16 < 16 by omega)
  have whole :
      UInt8.ofNat (16 * (byte.toNat / 16) + byte.toNat % 16) = byte := by
    rw [Nat.div_add_mod]
    simp
  simp only [encodeByte, List.cons_append, List.nil_append, decode, high, low,
    Option.bind_eq_bind, Option.bind_some, whole]
  cases decode rest <;> rfl

@[simp] theorem decode_encode_bytes (bytes : Bytes) :
    decode (encode bytes) = some bytes := by
  induction bytes with
  | nil => rfl
  | cons byte bytes induction =>
      rw [encode_cons, decode_encodeByte_append, induction]
      rfl

theorem encode_injective {left right : Bytes}
    (equal : encode left = encode right) : left = right := by
  have decoded := congrArg decode equal
  simpa using decoded

private theorem toLower_encodeByte (byte : UInt8) :
    (encodeByte byte).map Char.toLower = encodeByte byte := by
  have small : byte.toNat < 256 := byte.toNat_lt
  have high := toLower_digitChar ⟨byte.toNat / 16, by omega⟩
  have low := toLower_digitChar ⟨byte.toNat % 16, by omega⟩
  simp only at high low
  simp [encodeByte, high, low]

@[simp] theorem toLower_encode (bytes : Bytes) :
    (encode bytes).map Char.toLower = encode bytes := by
  induction bytes with
  | nil => rfl
  | cons byte bytes induction =>
      rw [encode_cons, List.map_append, toLower_encodeByte, induction]

theorem isDigit_encode (bytes : Bytes) :
    (encode bytes).all isDigit = true := by
  induction bytes with
  | nil => rfl
  | cons byte bytes induction =>
      have small : byte.toNat < 256 := byte.toNat_lt
      have high := digitValue_digitChar_of_lt
        (show byte.toNat / 16 < 16 by omega)
      have low := digitValue_digitChar_of_lt
        (show byte.toNat % 16 < 16 by omega)
      simp [encodeByte, isDigit, high, low, ← induction]

private theorem digitValue_ascii :
    ∀ code : Fin 128, ∀ value ∈ digitValue (Char.ofNat code),
      value < 16 ∧
        Nat.digitChar value = (Char.ofNat code).toLower := by
  decide +kernel

theorem toNat_lt_of_digitValue {digit : Char} {value : Nat}
    (read : digitValue digit = some value) : digit.toNat < 128 := by
  by_contra large
  have above : ∀ bound : Char, bound.toNat < 128 → ¬ digit ≤ bound := by
    intro bound small below
    have order : digit.toNat ≤ bound.toNat := below
    omega
  simp [digitValue, above '9' (by decide), above 'f' (by decide),
    above 'F' (by decide)] at read

theorem digitValue_eq_some {digit : Char} {value : Nat}
    (read : digitValue digit = some value) :
    value < 16 ∧ Nat.digitChar value = digit.toLower := by
  have restored : Char.ofNat digit.toNat = digit := Char.ofNat_toNat digit
  have general :=
    digitValue_ascii ⟨digit.toNat, toNat_lt_of_digitValue read⟩ value
  simp only [restored] at general
  exact general read

/-- Writing what was read gives the text back in lower case. -/
theorem encode_of_decode {text : List Char} {bytes : Bytes}
    (read : decode text = some bytes) :
    encode bytes = text.map Char.toLower := by
  induction text using decode.induct generalizing bytes with
  | case1 =>
      cases read
      rfl
  | case2 => simp [decode] at read
  | case3 high low rest induction =>
      simp only [decode, Option.bind_eq_bind, Option.bind_eq_some_iff] at read
      obtain ⟨highValue, highRead, lowValue, lowRead, bytes', restRead, whole⟩ :=
        read
      cases whole
      obtain ⟨highSmall, highText⟩ := digitValue_eq_some highRead
      obtain ⟨lowSmall, lowText⟩ := digitValue_eq_some lowRead
      have byte : (UInt8.ofNat (16 * highValue + lowValue)).toNat =
          16 * highValue + lowValue :=
        Nat.mod_eq_of_lt (by omega)
      have highPart : (16 * highValue + lowValue) / 16 = highValue := by omega
      have lowPart : (16 * highValue + lowValue) % 16 = lowValue := by omega
      rw [encode_cons, encodeByte, byte, highPart, lowPart, highText, lowText,
        induction restRead]
      rfl

/-- Digits of even number denote bytes. -/
theorem exists_decode {text : List Char} (length : Nat)
    (even : text.length = 2 * length) (digits : text.all isDigit = true) :
    ∃ bytes : Bytes, decode text = some bytes ∧ bytes.length = length := by
  induction text using decode.induct generalizing length with
  | case1 => exact ⟨[], rfl, by simpa [eq_comm] using even⟩
  | case2 =>
      simp at even
      omega
  | case3 high low rest induction =>
      simp only [List.all_cons, Bool.and_eq_true, isDigit,
        Option.isSome_iff_exists] at digits
      obtain ⟨⟨highValue, highRead⟩, ⟨lowValue, lowRead⟩, restDigits⟩ := digits
      obtain ⟨bytes, restRead, restLength⟩ :=
        induction (length - 1)
          (by simp only [List.length_cons] at even; omega) restDigits
      refine ⟨UInt8.ofNat (16 * highValue + lowValue) :: bytes, ?_, ?_⟩
      · simp [decode, highRead, lowRead, restRead]
      · simp only [List.length_cons] at even ⊢
        omega

/-- Zero digits in front, of even number, are zero bytes in front. -/
theorem decode_replicate_append {text : List Char} {bytes : Bytes}
    (read : decode text = some bytes) (count : Nat) :
    decode (List.replicate (2 * count) '0' ++ text) =
      some (List.replicate count 0 ++ bytes) := by
  induction count with
  | zero => exact read
  | succ count induction =>
      have front : List.replicate (2 * (count + 1)) '0' ++ text =
          '0' :: '0' :: (List.replicate (2 * count) '0' ++ text) := rfl
      rw [front, decode, induction]
      rfl

/-- Zero bytes in front of a byte string are zero digits in front. -/
theorem encode_replicate_zero (count : Nat) :
    encode (List.replicate count 0) = List.replicate (2 * count) '0' := by
  induction count with
  | zero => rfl
  | succ count induction =>
      rw [List.replicate_succ, encode_cons, induction, Nat.mul_succ]
      rfl

section Numerals

/-- The number that a text of digits denotes. -/
def numeral (text : List Char) : Nat :=
  text.foldl (fun number digit => 16 * number + (digitValue digit).getD 0) 0

/-- The digits of a number, one for zero. -/
def digits (number : Nat) : List Char := Nat.toDigits 16 number

def padToEven (text : List Char) : List Char :=
  if text.length % 2 = 1 then '0' :: text else text

@[simp] theorem numeral_append_singleton (text : List Char) (digit : Char) :
    numeral (text ++ [digit]) =
      16 * numeral text + (digitValue digit).getD 0 := by
  simp [numeral]

theorem numeral_append (high low : List Char) :
    numeral (high ++ low) = numeral high * 16 ^ low.length + numeral low := by
  induction low using List.reverseRecOn with
  | nil => simp [numeral]
  | append_singleton low digit induction =>
      rw [← List.append_assoc, numeral_append_singleton, induction,
        numeral_append_singleton, List.length_append, List.length_singleton]
      ring

theorem numeral_zeros_append (count : Nat) (text : List Char) :
    numeral (List.replicate count '0' ++ text) = numeral text := by
  induction count with
  | zero => rfl
  | succ count induction =>
      rw [List.replicate_succ, List.cons_append, ← induction]
      rfl

theorem numeral_digits (number : Nat) : numeral (digits number) = number := by
  induction number using Nat.strongRecOn with
  | ind number induction =>
      by_cases small : number < 16
      · rw [digits, Nat.toDigits_of_lt_base small]
        simp [numeral, digitValue_digitChar_of_lt small]
      · have smaller := induction (number / 16) (by omega)
        rw [digits] at smaller
        rw [digits, Nat.toDigits_of_base_le (by decide) (by omega),
          numeral_append_singleton, smaller,
          digitValue_digitChar_of_lt (Nat.mod_lt _ (by decide))]
        exact Nat.div_add_mod number 16

theorem isDigit_digits (number : Nat) :
    (digits number).all isDigit = true := by
  induction number using Nat.strongRecOn with
  | ind number induction =>
      by_cases small : number < 16
      · rw [digits, Nat.toDigits_of_lt_base small]
        simp [isDigit, digitValue_digitChar_of_lt small]
      · have smaller := induction (number / 16) (by omega)
        rw [digits] at smaller
        rw [digits, Nat.toDigits_of_base_le (by decide) (by omega),
          List.all_append, smaller]
        simp [isDigit,
          digitValue_digitChar_of_lt (Nat.mod_lt number (by decide))]

theorem char_of_zero {digit : Char} (read : digitValue digit = some 0) :
    digit = '0' := by
  have lower := (digitValue_eq_some read).2
  have bound := toNat_lt_of_digitValue read
  unfold digitValue at read
  split_ifs at read with decimal lowerCase upperCase
  · have low : 48 ≤ digit.toNat := decimal.1
    have same := Option.some.inj read
    exact Char.toNat_inj.mp (show digit.toNat = 48 by omega)
  · have low : 97 ≤ digit.toNat := lowerCase.1
    have same := Option.some.inj read
    omega
  · have low : 65 ≤ digit.toNat := upperCase.1
    have same := Option.some.inj read
    omega

/-- Leading zeros make no difference; without them the digits are those of the
number. -/
theorem dropZeros_spec {text : List Char}
    (allDigits : text.all isDigit = true) :
    (numeral text = 0 → text.dropWhile (· == '0') = []) ∧
      (0 < numeral text → (text.dropWhile (· == '0')).map Char.toLower =
        digits (numeral text)) := by
  induction text using List.reverseRecOn with
  | nil => exact ⟨fun _ => rfl, nofun⟩
  | append_singleton front digit induction =>
      rw [List.all_append, Bool.and_eq_true, List.all_cons, List.all_nil,
        Bool.and_true] at allDigits
      obtain ⟨whenZero, whenPositive⟩ := induction allDigits.1
      obtain ⟨number, read⟩ := Option.isSome_iff_exists.mp allDigits.2
      obtain ⟨small, char⟩ := digitValue_eq_some read
      have whole : numeral (front ++ [digit]) =
          16 * numeral front + number := by
        rw [numeral_append_singleton, read]
        rfl
      rw [whole]
      by_cases positive : 0 < numeral front
      · have kept := whenPositive positive
        have nonempty : (front.dropWhile (· == '0')).isEmpty = false := by
          cases dropped : front.dropWhile (· == '0') with
          | nil =>
              rw [dropped, digits] at kept
              exact absurd kept.symm Nat.toDigits_ne_nil
          | cons first rest => rfl
        refine ⟨fun zero => by omega, fun _ => ?_⟩
        rw [List.dropWhile_append, nonempty, if_neg Bool.false_ne_true,
          List.map_append, kept, digits, digits,
          Nat.toDigits_append_toDigits (by decide) positive small |>.symm,
          Nat.toDigits_of_lt_base small, char]
        rfl
      · have zero : numeral front = 0 := Nat.eq_zero_of_not_pos positive
        have dropped : (front ++ [digit]).dropWhile (· == '0') =
            [digit].dropWhile (· == '0') := by
          rw [List.dropWhile_append, whenZero zero]
          rfl
        rw [dropped, zero, Nat.mul_zero, Nat.zero_add]
        by_cases isZero : digit = '0'
        · subst isZero
          cases read
          exact ⟨fun _ => rfl, nofun⟩
        · have kept : [digit].dropWhile (· == '0') = [digit] :=
            List.dropWhile_cons_of_neg (by simpa using isZero)
          refine ⟨fun none => ?_, fun _ => ?_⟩
          · subst none
            exact absurd (char_of_zero read) isZero
          · rw [kept, digits, Nat.toDigits_of_lt_base small, char]
            rfl

theorem isDigit_of_decode {text : List Char} {bytes : Bytes}
    (read : decode text = some bytes) : text.all isDigit = true := by
  induction text using decode.induct generalizing bytes with
  | case1 => rfl
  | case2 => simp [decode] at read
  | case3 high low rest induction =>
      simp only [decode, Option.bind_eq_bind, Option.bind_eq_some_iff] at read
      obtain ⟨highValue, highRead, lowValue, lowRead, others, restRead, -⟩ :=
        read
      simp [isDigit, highRead, lowRead, induction restRead]

theorem length_of_decode {text : List Char} {bytes : Bytes}
    (read : decode text = some bytes) : text.length = 2 * bytes.length := by
  have written := congrArg List.length (encode_of_decode read)
  simpa [eq_comm] using written

/-- Bytes denote the number of their digits. -/
theorem toNat_of_decode {text : List Char} {bytes : Bytes}
    (read : decode text = some bytes) :
    BigEndian.toNat bytes = numeral text := by
  induction text using decode.induct generalizing bytes with
  | case1 =>
      cases read
      rfl
  | case2 => simp [decode] at read
  | case3 high low rest induction =>
      simp only [decode, Option.bind_eq_bind, Option.bind_eq_some_iff] at read
      obtain ⟨highValue, highRead, lowValue, lowRead, others, restRead, whole⟩ :=
        read
      cases whole
      obtain ⟨highSmall, -⟩ := digitValue_eq_some highRead
      obtain ⟨lowSmall, -⟩ := digitValue_eq_some lowRead
      have byte : (UInt8.ofNat (16 * highValue + lowValue)).toNat =
          16 * highValue + lowValue :=
        Nat.mod_eq_of_lt (by omega)
      have front : numeral [high, low] = 16 * highValue + lowValue := by
        simp [numeral, highRead, lowRead]
      have split : high :: low :: rest = [high, low] ++ rest := rfl
      rw [split, numeral_append, front, BigEndian.toNat_cons, byte,
        induction restRead, length_of_decode restRead, pow_mul]
      norm_num

/-- Digits denote bytes of their number. -/
theorem decode_padToEven {text : List Char}
    (allDigits : text.all isDigit = true) :
    ∃ bytes, decode (padToEven text) = some bytes ∧
      BigEndian.toNat bytes = numeral text ∧
      bytes.length = (text.length + 1) / 2 := by
  unfold padToEven
  split
  · rename_i odd
    have even : ('0' :: text).length = 2 * ((text.length + 1) / 2) := by
      rw [List.length_cons]
      omega
    have paddedDigits : ('0' :: text).all isDigit = true := by
      rw [List.all_cons, allDigits]
      rfl
    obtain ⟨bytes, read, length⟩ := exists_decode _ even paddedDigits
    have padding : numeral ('0' :: text) = numeral text := by
      have split : '0' :: text = ['0'] ++ text := rfl
      rw [split, numeral_append]
      simp [numeral, digitValue]
    exact ⟨bytes, read, by rw [toNat_of_decode read, padding], length⟩
  · rename_i even
    obtain ⟨bytes, read, length⟩ := exists_decode (text.length / 2)
      (by omega) allDigits
    exact ⟨bytes, read, toNat_of_decode read, by rw [length]; omega⟩

end Numerals

end Hex

end Web3Js
