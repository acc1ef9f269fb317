import Web3Js.Format.Conversion
import Web3Js.Utils.Units

/-!
# The formats of integers

An integer is written as hexadecimal text, as decimal text or as a big integer,
and read again from each of them.  Hexadecimal text with a minus sign is written
but not read.
-/

namespace Web3Js.Format

/-- The integer types, of all sizes and with all dimensions. -/
def IsIntegerType (type : String) : Prop :=
  (Validator.parseBaseType type).baseType = some .int ∨
    (Validator.parseBaseType type).baseType = some .uint

/-- How a big integer is converted to the format. -/
def rendering (type : String) (format : DataFormat) (number : Int) : Data :=
  convertScalarValue (.scalar (.bigint number)) (some type) format

/-- The integer that a big integer or a text denotes: digits, hexadecimal ones
behind a prefix, and a minus sign in front or not. -/
def denoted : Data → Option Int
  | .scalar (.bigint number) => some number
  | .scalar (.text content) =>
      match content.toList with
      | '-' :: '0' :: 'x' :: digits =>
          (parseDigits 16 digits).map fun number => -(number : Int)
      | '0' :: 'x' :: digits => (parseDigits 16 digits).map Int.ofNat
      | '-' :: digits =>
          (parseDigits 10 digits).map fun number => -(number : Int)
      | digits => (parseDigits 10 digits).map Int.ofNat
  | _ => none

/-- The renderings denote the number, and each is what it was after it has been
converted to another format and back. -/
def Lossless (type : String) (number : Int) : Prop :=
  ∀ first second : DataFormat, first.number ≠ .NUMBER →
    second.number ≠ .NUMBER →
      denoted (rendering type first number) = some number ∧
        convertScalarValue (convertScalarValue (rendering type first number)
          (some type) second) (some type) first = rendering type first number

section Integers

variable {type : String} (isInteger : IsIntegerType type)

include isInteger

theorem convertScalarValue_integer (value : Data) (format : DataFormat) :
    convertScalarValue value (some type) format =
      (convertNumber value format.number).getD value := by
  rcases isInteger with signed | unsigned
  · simp only [convertScalarValue, Option.map_some, signed]
  · simp only [convertScalarValue, Option.map_some, unsigned]

theorem rendering_integer (format : DataFormat) (number : Int) :
    some (rendering type format number) =
      convertNumber (.scalar (.bigint number)) format.number := by
  rw [rendering, convertScalarValue_integer isInteger]
  cases format.number <;> rfl

end Integers

/-! ## Reading what is written -/

theorem isHex_of_digits {digits : List Char} (nonempty : digits ≠ [])
    (allDigits : digits.all Hex.isDigit = true) :
    Validator.isHex (String.ofList digits) = true := by
  have some : digits.isEmpty = false := List.isEmpty_eq_false_iff.mpr nonempty
  have sign : Hex.isDigit '-' = false := by decide
  rw [Validator.isHex, String.toList_ofList]
  split
  next => simp [sign] at allDigits
  next => simp [allDigits]
  next => simp [sign] at allDigits
  next => simp [some, allDigits]

theorem toString_natCast (natural : Nat) :
    toString (natural : Int) = String.ofList (Nat.toDigits 10 natural) := by
  rfl

/-- Decimal text of a natural number is read as it. -/
theorem toBigInt_decimal (natural : Nat) :
    toBigInt (.scalar (.text (toString (natural : Int)))) =
      some (natural : Int) := by
  have decimal : (Nat.toDigits 10 natural).all Char.isDigit = true :=
    List.all_eq_true.mpr fun _ => Decimal.isDigit_toDigits natural
  have hex : (Nat.toDigits 10 natural).all Hex.isDigit = true :=
    List.all_eq_true.mpr fun digit member =>
      Hex.isDigit_of_decimal (List.all_eq_true.mp decimal digit member)
  rw [toString_natCast, toBigInt, Utils.toBigInt,
    if_pos (isHex_of_digits Nat.toDigits_ne_nil hex),
    Utils.bigIntOfString_digits decimal, Decimal.value_toDigits]

theorem toBigInt_hexadecimal (natural : Nat) :
    toBigInt (.scalar (.text (Utils.numberToHex (natural : Int)))) =
      some (natural : Int) := by
  have hex := (Utils.hexToNumber_numberToHex natural).2.1
  rw [toBigInt, Utils.toBigInt, if_pos hex, Utils.numberToHex_natCast,
    bigIntOfString_hex (Utils.digits_ne_nil natural)
      (Hex.isDigit_digits natural), Hex.numeral_digits]

/-- Hexadecimal text with a minus sign is not read. -/
theorem toBigInt_negativeHexadecimal {number : Int} (negative : number < 0) :
    toBigInt (.scalar (.text (Utils.numberToHex number))) = none := by
  rw [toBigInt, Utils.toBigInt, Utils.numberToHex_of_neg negative,
    bigIntOfString_negativeHex (Hex.isDigit_digits _), ite_self]

/-- What a natural number is converted to is read as it. -/
theorem toBigInt_of_converted {natural : Nat} {format : FMT_NUMBER}
    (exact : format ≠ .NUMBER) {converted : Data}
    (done : convertNumber (.scalar (.bigint natural)) format =
      some converted) : toBigInt converted = some (natural : Int) := by
  cases format with
  | NUMBER => exact absurd rfl exact
  | HEX =>
      cases done
      exact toBigInt_hexadecimal natural
  | STR =>
      cases done
      exact toBigInt_decimal natural
  | BIGINT =>
      cases done
      rfl

theorem denoted_of_converted {natural : Nat} {format : FMT_NUMBER}
    (exact : format ≠ .NUMBER) {converted : Data}
    (done : convertNumber (.scalar (.bigint natural)) format =
      some converted) : denoted converted = some (natural : Int) := by
  cases format with
  | NUMBER => exact absurd rfl exact
  | HEX =>
      cases done
      rw [denoted, Utils.numberToHex_natCast, String.toList_ofList]
      change (parseDigits 16 (Hex.digits natural)).map Int.ofNat = _
      rw [parseDigits_hex (Utils.digits_ne_nil natural)
        (Hex.isDigit_digits natural), Hex.numeral_digits]
      rfl
  | STR =>
      cases done
      have absent : ∀ char, char.isDigit = false →
          char ∉ Nat.toDigits 10 natural :=
        fun char other => Decimal.not_mem_toDigits other natural
      rw [denoted, toString_natCast, String.toList_ofList]
      split
      next same => exact absurd (same ▸ by simp) (absent '-' (by decide))
      next same => exact absurd (same ▸ by simp) (absent 'x' (by decide))
      next same => exact absurd (same ▸ by simp) (absent '-' (by decide))
      next =>
        rw [Utils.parseDigits_decimal Nat.toDigits_ne_nil
          (List.all_eq_true.mpr fun _ => Decimal.isDigit_toDigits natural),
          Decimal.value_toDigits]
        rfl
  | BIGINT =>
      cases done
      rfl

/-- A natural number is converted as anything that is read as it. -/
theorem convertNumber_of_read {value : Data} {number : Int}
    (read : toBigInt value = some number) (format : FMT_NUMBER) :
    convertNumber value format =
      convertNumber (.scalar (.bigint number)) format := by
  rw [convertNumber, convertNumber, read]
  rfl

/-- An integer goes through all formats of integers exactly if it is not
negative. -/
theorem renderings_lossless_iff {type : String} (isInteger : IsIntegerType type)
    (number : Int) : Lossless type number ↔ 0 ≤ number := by
  constructor
  · intro lossless
    by_contra negative
    have back := (lossless ⟨.BIGINT, .HEX⟩ ⟨.HEX, .HEX⟩ nofun nofun).2
    have written : rendering type ⟨.BIGINT, .HEX⟩ number =
        .scalar (.bigint number) :=
      Option.some.inj (rendering_integer isInteger ⟨.BIGINT, .HEX⟩ number)
    have hexadecimal := Option.some.inj
      (rendering_integer isInteger ⟨.HEX, .HEX⟩ number)
    rw [rendering] at hexadecimal
    rw [written, hexadecimal, convertScalarValue_integer isInteger,
      convertNumber, toBigInt_negativeHexadecimal (Int.not_le.mp negative)]
      at back
    cases back
  · intro least
    obtain ⟨natural, rfl⟩ := Int.eq_ofNat_of_zero_le least
    intro first second firstExact secondExact
    have written := (rendering_integer isInteger first natural).symm
    have other := (rendering_integer isInteger second natural).symm
    have converted : convertScalarValue (rendering type first natural)
        (some type) second = rendering type second natural := by
      rw [convertScalarValue_integer isInteger, convertNumber_of_read
        (toBigInt_of_converted firstExact written), other]
      rfl
    refine ⟨denoted_of_converted firstExact written, ?_⟩
    rw [converted, convertScalarValue_integer isInteger, convertNumber_of_read
      (toBigInt_of_converted secondExact other), written]
    rfl

theorem lossless_large : Lossless "uint256" (2 ^ 200 + 1) :=
  (renderings_lossless_iff (.inr (by decide)) _).mpr (by decide)

/-- Hexadecimal text stands in for the big integer after it. -/
theorem not_lossless_negative :
    convertScalarValue (.scalar (.bigint (-5))) (some "int256")
        ⟨.HEX, .HEX⟩ = .scalar (.text "-0x5") ∧
      convertScalarValue (.scalar (.text "-0x5")) (some "int256")
        ⟨.BIGINT, .HEX⟩ = .scalar (.text "-0x5") ∧
      ¬Lossless "int256" (-5) := by
  have written : convertScalarValue (.scalar (.bigint (-5))) (some "int256")
      ⟨.HEX, .HEX⟩ = .scalar (.text "-0x5") := by
    rfl
  have unread : convertScalarValue (.scalar (.text "-0x5")) (some "int256")
      ⟨.BIGINT, .HEX⟩ = .scalar (.text "-0x5") := by
    rfl
  refine ⟨written, unread, ?_⟩
  intro lossless
  have back := (lossless ⟨.BIGINT, .HEX⟩ ⟨.HEX, .HEX⟩ nofun nofun).2
  have same : rendering "int256" ⟨.BIGINT, .HEX⟩ (-5) =
      .scalar (.bigint (-5)) := by
    rfl
  rw [same, written, unread] at back
  cases back

end Web3Js.Format
