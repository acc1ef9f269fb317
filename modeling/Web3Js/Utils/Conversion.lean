import Web3Js.Lib.Decimal
import Web3Js.Lib.Double
import Web3Js.Prepare.Formatter

/-!
# Numbers and their texts

A number is given as a number, a big integer or text in one of several
notations.  It is read as an integer, checked against the largest integer type,
and written as hexadecimal text.
-/

namespace Web3Js.Utils

/-- The number of a text, as `toNumber` and `isInt` read it; `none` where they
throw. -/
def readNumber (content : String) : Option Int :=
  if Validator.isHexStrict content then Validator.hexToNumber content
  else bigIntOfString content

/-- The integer that is given, if one is. -/
def integer? : Numbers → Option Int
  | .number value | .bigint value => some value
  | .fraction _ => none
  | .text content => readNumber content

/-- `isInt` of the type `int`. -/
def isInt : Numbers → Bool
  | .number value =>
      decide (value ≤ Validator.maxSafeInteger) &&
        decide (-2 ^ 511 ≤ value ∧ value ≤ 2 ^ 511 - 1)
  | .fraction _ => false
  | .bigint value => decide (-2 ^ 511 ≤ value ∧ value ≤ 2 ^ 511 - 1)
  | .text content => Validator.isIntString content

/-- `String` of a number that is an integer. -/
def numberText (number : Int) : List Char :=
  if number < 0 then '-' :: Double.text (some number.natAbs)
  else Double.text (some number.natAbs)

/-- `String` of a value. -/
def shown : Numbers → String
  | .number value => String.ofList (numberText value)
  | .fraction shown => shown
  | .bigint value => String.ofList (Decimal.text value)
  | .text content => content

/-- The message of `BigInt` where it throws. -/
def notBigInt (content : String) : String :=
  "Cannot convert " ++ content ++ " to a BigInt"

/-- The message of an `InvalidValueError`. -/
def invalidValue (value problem : String) : String :=
  "Invalid value given \"" ++ value ++ "\". Error: " ++ problem ++ "."

/-- `toNumber` of text. -/
def toNumber (content : String) : Except String Int :=
  match readNumber content with
  | some number => .ok number
  | none =>
      .error (if Validator.isHexStrict content then notBigInt content
        else invalidValue content "can not parse as number data")

/-- `String` of what `toNumber` gives: a number only where it is a safe one, or
was one before. -/
def shownNumber : Numbers → Except String String
  | .text content => do
      let number ← toNumber content
      .ok (String.ofList (Decimal.text number))
  | value => .ok (shown value)

/-- `numberToHex` of strict hexadecimal text, without leading zeros. -/
def strippedHex (content : String) : String :=
  let stripped (digits : List Char) : List Char :=
    (digits.dropWhile (· == '0')).map Char.toLower
  match content.toList with
  | '-' :: _ :: _ :: digits =>
      String.ofList ('-' :: '0' :: 'x' :: stripped digits)
  | _ :: _ :: digits => String.ofList ('0' :: 'x' :: stripped digits)
  | _ => content

/-- `numberToHex` of any number; a big integer is not validated. -/
def numbersToHex (value : Numbers) : Except String String :=
  match value with
  | .bigint number => .ok (numberToHex number)
  | value =>
      if isInt value then
        match value with
        | .text content =>
            if Validator.isHexStrict content then .ok (strippedHex content)
            else
              match bigIntOfString content with
              | some number => .ok (numberToHex number)
              | none => .error (notBigInt content)
        | .number number => .ok (numberToHex number)
        | value => .error (validationMessage "int" (shown value))
      else .error (validationMessage "int" (shown value))

/-- `hexToNumber`; `none` where it throws. -/
def hexToNumber (value : String) : Option Int :=
  if Validator.isHex value && Validator.isHexStrict value then
    Validator.hexToNumber value
  else none

/-! ## Texts of numbers -/

theorem numberToHex_natCast (number : Nat) :
    numberToHex number = String.ofList ('0' :: 'x' :: Hex.digits number) := by
  rw [numberToHex, if_neg (Int.not_lt.mpr (Int.natCast_nonneg number))]
  rfl

theorem numberToHex_of_neg {number : Int} (negative : number < 0) :
    numberToHex number =
      String.ofList ('-' :: '0' :: 'x' :: Hex.digits number.natAbs) :=
  if_pos negative

theorem digits_ne_nil (number : Nat) : Hex.digits number ≠ [] :=
  Nat.toDigits_ne_nil

/-- Hexadecimal text of a number is strict and read as the number. -/
theorem hexToNumber_numberToHex (number : Int) :
    Validator.isHexStrict (numberToHex number) = true ∧
      Validator.isHex (numberToHex number) = true ∧
        Validator.hexToNumber (numberToHex number) = some number := by
  have nonempty := digits_ne_nil number.natAbs
  have allDigits := Hex.isDigit_digits number.natAbs
  have read := parseDigits_hex nonempty allDigits
  rw [Hex.numeral_digits] at read
  have some : (Hex.digits number.natAbs).isEmpty = false := by
    rw [List.isEmpty_eq_false_iff]
    exact nonempty
  by_cases negative : number < 0
  · rw [numberToHex_of_neg negative]
    refine ⟨?_, ?_, ?_⟩
    · simp [Validator.isHexStrict, some, allDigits]
    · simp [Validator.isHex, some, allDigits]
    · simp only [Validator.hexToNumber, String.toList_ofList, read]
      have back : -(number.natAbs : Int) = number := by omega
      exact congrArg Option.some back
  · obtain ⟨natural, rfl⟩ := Int.eq_ofNat_of_zero_le (Int.not_lt.mp negative)
    rw [numberToHex_natCast]
    refine ⟨?_, ?_, ?_⟩
    · simp [Validator.isHexStrict, Hex.isDigit_digits]
    · simp [Validator.isHex, Hex.isDigit_digits]
    · rw [Int.natAbs_natCast] at read
      rw [Validator.hexToNumber, String.toList_ofList]
      change (parseDigits 16 (Hex.digits natural)).map Int.ofNat = _
      rw [read]
      rfl

/-- What is read of strict hexadecimal text, and what is left of it without
its leading zeros. -/
theorem strippedHex_of_read {content : String} {number : Int}
    (strict : Validator.isHexStrict content = true)
    (read : Validator.hexToNumber content = some number) :
    strippedHex content = numberToHex number ↔ number ≠ 0 := by
  unfold Validator.isHexStrict at strict
  unfold Validator.hexToNumber at read
  unfold strippedHex
  split at strict
  next x digits chars =>
    simp only [Bool.and_eq_true] at strict
    have nonempty : digits ≠ [] := by
      intro empty
      rw [empty] at strict
      cases strict.1.2
    obtain ⟨whenZero, whenPositive⟩ := Hex.dropZeros_spec strict.2
    simp only [chars, parseDigits_hex nonempty strict.2] at read ⊢
    obtain rfl : -(Hex.numeral digits : Int) = number := Option.some.inj read
    by_cases zero : Hex.numeral digits = 0
    · rw [whenZero zero, zero]
      exact iff_of_false (by decide) (by decide)
    · have positive := Nat.pos_of_ne_zero zero
      rw [whenPositive positive, numberToHex_of_neg (by omega),
        Int.natAbs_neg, Int.natAbs_natCast]
      exact iff_of_true rfl (by omega)
  next _ x digits chars =>
    simp only [Bool.and_eq_true] at strict
    rw [chars] at read ⊢
    change (parseDigits 16 digits).map Int.ofNat = some number at read
    change String.ofList ('0' :: 'x' ::
      (digits.dropWhile (· == '0')).map Char.toLower) = _ ↔ _
    have nonempty : digits ≠ [] := by
      intro empty
      rw [empty] at read
      cases read
    obtain ⟨whenZero, whenPositive⟩ := Hex.dropZeros_spec strict.2
    rw [parseDigits_hex nonempty strict.2] at read
    obtain rfl : (Hex.numeral digits : Int) = number := Option.some.inj read
    by_cases zero : Hex.numeral digits = 0
    · rw [whenZero zero, zero]
      exact iff_of_false (by decide) (by decide)
    · rw [whenPositive (Nat.pos_of_ne_zero zero), numberToHex_natCast]
      exact iff_of_true rfl (by omega)
  next => cases strict

/-! ## Representations of an integer -/

/-- The number is a big integer, or is validated as one. -/
def Accepted (given : Numbers) : Prop :=
  (∃ number, given = .bigint number) ∨ isInt given = true

/-- The number is given as hexadecimal text. -/
def IsHexText (given : Numbers) : Prop :=
  ∃ content, given = .text content ∧ Validator.isHexStrict content = true

/-- A number has one hexadecimal text in whatever way it is given, and is read
of that text again, unless it is zero and given as hexadecimal text. -/
theorem numbersToHex_iff {given : Numbers} {number : Int}
    (denotes : integer? given = some number) (accepted : Accepted given) :
    numbersToHex given = .ok (numberToHex number) ∧
        hexToNumber (numberToHex number) = some number ↔
      ¬(number = 0 ∧ IsHexText given) := by
  obtain ⟨strict, hex, read⟩ := hexToNumber_numberToHex number
  have back : hexToNumber (numberToHex number) = some number := by
    rw [hexToNumber, hex, strict]
    exact read
  rw [and_iff_left back]
  cases given with
  | bigint value =>
      obtain rfl : value = number := Option.some.inj denotes
      exact iff_of_true rfl fun ⟨_, _, same, _⟩ => nomatch same
  | number value =>
      obtain rfl : value = number := Option.some.inj denotes
      have valid := accepted.resolve_left fun ⟨_, same⟩ => nomatch same
      refine iff_of_true ?_ fun ⟨_, _, same, _⟩ => nomatch same
      simp only [numbersToHex, valid, if_true]
  | fraction shown => nomatch denotes
  | text content =>
      have valid := accepted.resolve_left fun ⟨_, same⟩ => nomatch same
      change readNumber content = some number at denotes
      rw [readNumber] at denotes
      simp only [numbersToHex, valid, if_true]
      split at denotes
      next strictHex =>
        rw [if_pos strictHex]
        have stripped := strippedHex_of_read strictHex denotes
        constructor
        · rintro same ⟨zero, -⟩
          exact stripped.mp (Except.ok.inj same) zero
        · intro other
          refine congrArg Except.ok (stripped.mpr fun zero => ?_)
          exact other ⟨zero, content, rfl, strictHex⟩
      next plain =>
        rw [if_neg plain, denotes]
        refine iff_of_true rfl ?_
        rintro ⟨_, other, same, strictHex⟩
        cases same
        exact plain strictHex

/-- Negative hexadecimal text with leading zeros and a capital letter. -/
theorem numbersToHex_minusTen :
    numbersToHex (.text "-0x00A") = .ok (numberToHex (-10)) ∧
      hexToNumber (numberToHex (-10)) = some (-10) :=
  (numbersToHex_iff (by decide +kernel) (.inr (by decide +kernel))).mpr
    fun ⟨zero, _⟩ => nomatch zero

/-- The only digit of `0x0` is taken for a leading zero. -/
theorem not_numbersToHex :
    integer? (.text "0x0") = some 0 ∧ Accepted (.text "0x0") ∧
      numbersToHex (.text "0x0") = .ok "0x" ∧
        numbersToHex (.bigint 0) = .ok "0x0" ∧ hexToNumber "0x" = none :=
  ⟨by decide +kernel, .inr (by decide +kernel), by decide +kernel,
    by decide +kernel, by decide +kernel⟩

end Web3Js.Utils
