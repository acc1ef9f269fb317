import Web3Js.Lib.Double
import Web3Js.Numbers

/-!
# Keys of arrays and objects

A text that is an index sets an element of an array, and may make the array
longer; any other text sets a property beside the elements.  A key counts as
an integer where the language reads it as one, which it does with more texts
than indices.
-/

namespace Web3Js.Abi

/-- The index that a property name denotes in an array. -/
def arrayIndex (name : String) : Option Nat :=
  let digits := name.toList
  let index := Decimal.value digits
  if digits ≠ [] ∧ digits.all Char.isDigit ∧
      (digits.head? ≠ some '0' ∨ digits.length = 1) ∧ index < 2 ^ 32 - 1 then
    some index
  else
    none

/-- An index is written without leading zeros. -/
theorem toString_of_arrayIndex {name : String} {index : Nat}
    (isIndex : arrayIndex name = some index) : toString index = name := by
  rw [arrayIndex] at isIndex
  split at isIndex
  · rename_i numeral
    obtain rfl := Option.some.inj isIndex
    rw [Nat.toString_eq_ofList_toDigits, Decimal.toDigits_value numeral.1
      numeral.2.2.1 (List.all_eq_true.mp numeral.2.1), String.ofList_toList]
  · cases isIndex

/-- The exponent of a decimal numeral, after its digits. -/
def exponentOf : List Char → Option Int
  | [] => some 0
  | e :: text =>
      if e ≠ 'e' ∧ e ≠ 'E' then none
      else
        match text with
        | '-' :: digits =>
            (parseDigits 10 digits).map fun number => -(number : Int)
        | '+' :: digits => (parseDigits 10 digits).map Int.ofNat
        | digits => (parseDigits 10 digits).map Int.ofNat

/-- Whether a decimal numeral without a sign is read as a finite integer. -/
def isIntegerNumeral (text : List Char) : Bool :=
  let whole := text.takeWhile Char.isDigit
  let rest := text.dropWhile Char.isDigit
  let fraction :=
    if rest.head? = some '.' then rest.tail.takeWhile Char.isDigit else []
  let rest :=
    if rest.head? = some '.' then rest.tail.dropWhile Char.isDigit else rest
  let number := Decimal.value (whole ++ fraction)
  match exponentOf rest with
  | none => false
  | some exponent =>
      let scale := exponent - fraction.length
      (whole ≠ [] || fraction ≠ []) &&
        Double.isIntegral (number * 10 ^ scale.toNat) (10 ^ (-scale).toNat)

/-- Whether digits of a base are read as a finite integer. -/
def isIntegerDigits (base : Nat) (digits : List Char) : Bool :=
  ((parseDigits base digits).bind Double.nearest).isSome

/-- `Number.isInteger(+key)` -/
def isIntegerKey (key : String) : Bool :=
  match trim key.toList with
  | [] => true
  | '0' :: 'x' :: digits | '0' :: 'X' :: digits => isIntegerDigits 16 digits
  | '0' :: 'o' :: digits | '0' :: 'O' :: digits => isIntegerDigits 8 digits
  | '0' :: 'b' :: digits | '0' :: 'B' :: digits => isIntegerDigits 2 digits
  | '-' :: text | '+' :: text => isIntegerNumeral text
  | text => isIntegerNumeral text

example : ["1e3", "0x1", "-1", "1.0", " 5 ", "5.", ".50e1"].all isIntegerKey =
    true := by
  decide +kernel

example : ["", "1.5", "1e", "0x", "+0x1", "Infinity", "x1", "."].map
    isIntegerKey =
      [true, false, false, false, false, false, false, false] := by
  decide +kernel

end Web3Js.Abi
