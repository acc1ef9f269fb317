import Web3Js.Lib.Words
import Web3Js.Utils.Packing

/-!
# Packed integers

An integer of a type is packed as its remainder in as many bytes as the type
has, and an array as what its elements are packed as.  An integer is refused
where it is out of range.
-/

namespace Web3Js.Utils

/-! ## Words of bytes -/

theorem wordDigits_succ (number : Nat) {width : Nat} (some : 0 < width) :
    wordDigits number (width + 1) =
      wordDigits (number / 16) width ++ [Nat.digitChar (number % 16)] := by
  by_cases small : number < 16
  · have digit : Hex.digits number = [Nat.digitChar number] :=
      Nat.toDigits_of_lt_base small
    have zero : Hex.digits 0 = ['0'] := rfl
    rw [Nat.div_eq_of_lt small, Nat.mod_eq_of_lt small, wordDigits, wordDigits,
      padStart, padStart, digit, zero, List.length_singleton,
      List.length_singleton, Nat.add_sub_cancel, ← List.replicate_succ',
      Nat.sub_add_cancel some]
  · have digits : Hex.digits number =
        Hex.digits (number / 16) ++ [Nat.digitChar (number % 16)] :=
      Nat.toDigits_of_base_le (by decide) (by omega)
    rw [wordDigits, wordDigits, padStart, padStart, digits, List.length_append,
      List.length_singleton, Nat.add_sub_add_right, List.append_assoc]

/-- Padded digits of a number are those of its bytes. -/
theorem wordDigits_bytes {number width : Nat} (some : 0 < width)
    (small : number < 256 ^ width) :
    wordDigits number (2 * width) =
      Hex.encode (BigEndian.ofNat width number) := by
  induction width, some using Nat.le_induction generalizing number with
  | base =>
      have digit : Hex.digits (number / 16) =
          [Nat.digitChar (number / 16)] :=
        Nat.toDigits_of_lt_base (by omega)
      have first : wordDigits (number / 16) 1 =
          [Nat.digitChar (number / 16)] := by
        rw [wordDigits, padStart, digit]
        rfl
      have byte : (UInt8.ofNat number).toNat = number := by
        rw [UInt8.toNat_ofNat']
        exact Nat.mod_eq_of_lt (by omega)
      rw [wordDigits_succ number (by decide : 0 < 1), first]
      simp [BigEndian.ofNat, Hex.encodeByte, byte]
  | succ width positive induction =>
      have less : number / 256 < 256 ^ width := by
        rw [pow_succ] at small
        exact Nat.div_lt_of_lt_mul (by omega)
      have byte : (UInt8.ofNat number).toNat = number % 256 := by simp
      have high : number % 256 / 16 = number / 16 % 16 := by omega
      have low : number % 256 % 16 = number % 16 := by omega
      have shifted : number / 16 / 16 = number / 256 :=
        Nat.div_div_eq_div_mul number 16 16
      rw [show 2 * (width + 1) = 2 * width + 1 + 1 by omega,
        wordDigits_succ _ (by omega), wordDigits_succ _ (by omega), shifted,
        induction less, BigEndian.ofNat, Hex.encode_append, Hex.encode_cons,
        Hex.encodeByte, byte, high, low, List.append_assoc]
      rfl

/-! ## Integer types and their values -/

/-- An integer type of a number of bytes. -/
structure PackedInteger where
  signed : Bool
  bytes : Nat
  positive : 1 ≤ bytes
  bounded : bytes ≤ 64

/-- A text of decimal digits with a minus sign perhaps. -/
def IsDecimal (content : String) : Prop :=
  ∃ (negative : Bool) (digits : List Char), digits ≠ [] ∧
    digits.all Char.isDigit = true ∧
      content = String.ofList ((if negative then ['-'] else []) ++ digits)

/-- The integer is given as a number, a big integer or the text of one. -/
def Represents (given : Numbers) (number : Int) : Prop :=
  integer? given = some number ∧ ∀ content, given = .text content →
    Validator.isHexStrict content = true ∨ IsDecimal content

namespace PackedInteger

variable (type : PackedInteger)

def bits : Nat := 8 * type.bytes

/-- The name of the type, and what follows it in the name of an array type. -/
def text (suffix : List Char) : String :=
  String.ofList ((if type.signed then ['i', 'n', 't'] else ['u', 'i', 'n', 't'])
    ++ Nat.toDigits 10 type.bits ++ suffix)

def InRange (number : Int) : Prop :=
  if type.signed then
    -2 ^ (type.bits - 1) ≤ number ∧ number < 2 ^ (type.bits - 1)
  else 0 ≤ number ∧ number < 2 ^ type.bits

instance (number : Int) : Decidable (type.InRange number) :=
  inferInstanceAs (Decidable (ite _ _ _))

/-- The bytes of the integer in two's complement. -/
def word (number : Int) : Bytes :=
  BigEndian.ofNat type.bytes (number % 2 ^ type.bits).toNat

/-- The suffixes of type names: nothing, or what begins with a bracket. -/
def IsSuffix (suffix : List Char) : Prop :=
  ∀ first, suffix.head? = some first → first = '['

theorem IsSuffix.stops {suffix : List Char} (isSuffix : IsSuffix suffix) :
    Words.Stops Char.isDigit suffix := by
  intro first head
  rw [isSuffix first head]
  rfl

section Dispatch

variable {type} {suffix : List Char}

theorem digits_cons : ∃ digit rest, Nat.toDigits 10 type.bits = digit :: rest ∧
    digit.isDigit = true := by
  obtain ⟨digit, rest, same⟩ := List.exists_cons_of_ne_nil
    (Nat.toDigits_ne_nil : Nat.toDigits 10 type.bits ≠ [])
  refine ⟨digit, rest, same, Decimal.isDigit_toDigits type.bits ?_⟩
  rw [same]
  exact List.mem_cons_self

theorem size_of_digits (isSuffix : IsSuffix suffix) :
    Decimal.value
      ((Nat.toDigits 10 type.bits ++ suffix).takeWhile Char.isDigit) =
        type.bits := by
  have allDigits : (Nat.toDigits 10 type.bits).all Char.isDigit = true :=
    List.all_eq_true.mpr fun _ => Decimal.isDigit_toDigits type.bits
  rw [Words.takeWhile_word allDigits isSuffix.stops, Decimal.value_toDigits]

theorem isIntegerSize_bits : isIntegerSize type.bits = true := by
  have positive := type.positive
  have bounded := type.bounded
  rw [isIntegerSize, bits, Bool.and_eq_true, Bool.and_eq_true, beq_iff_eq,
    decide_eq_true_iff, decide_eq_true_iff]
  omega

theorem parseTypeN_unsigned (unsigned : type.signed = false)
    (isSuffix : IsSuffix suffix) :
    parseTypeN (elementaryName (type.text suffix)) 4 = type.bits := by
  obtain ⟨digit, rest, same, isDigit⟩ := @digits_cons type
  have name : (type.text suffix).toList =
      'u' :: 'i' :: 'n' :: 't' :: (Nat.toDigits 10 type.bits ++ suffix) := by
    rw [text, unsigned, String.toList_ofList]
    rfl
  have elementary : elementaryName (type.text suffix) = type.text suffix := by
    rw [elementaryName, name, same]
    split
    next other => cases other
    next other => cases other
    next other =>
      cases other
      cases isDigit
    next other => cases other
    next => rfl
  rw [elementary, parseTypeN, name]
  exact size_of_digits isSuffix

theorem parseTypeN_signed (signed : type.signed = true)
    (isSuffix : IsSuffix suffix) :
    parseTypeN (elementaryName (type.text suffix)) 3 = type.bits := by
  obtain ⟨digit, rest, same, isDigit⟩ := @digits_cons type
  have name : (type.text suffix).toList =
      'i' :: 'n' :: 't' :: (Nat.toDigits 10 type.bits ++ suffix) := by
    rw [text, signed, String.toList_ofList]
    rfl
  have elementary : elementaryName (type.text suffix) = type.text suffix := by
    rw [elementaryName, name, same]
    split
    next other =>
      cases other
      cases isDigit
    next other => cases other
    next other => cases other
    next other => cases other
    next => rfl
  rw [elementary, parseTypeN, name]
  exact size_of_digits isSuffix

/-- A value of an integer type is packed by its sign. -/
theorem hyperionPack_text (cryptography : Cryptography)
    (val : EncodingValue) :
    hyperionPack cryptography (type.text suffix) val =
      if type.signed then packSigned (type.text suffix) val.shown
      else packUnsigned (type.text suffix) val.shown := by
  have chars : (type.text suffix).toList =
      (if type.signed then ['i', 'n', 't'] else ['u', 'i', 'n', 't']) ++
        Nat.toDigits 10 type.bits ++ suffix := by
    rw [text, String.toList_ofList]
  have other : ∀ name : String, (∀ rest,
      name.toList ≠ (if type.signed then ['i', 'n', 't']
        else ['u', 'i', 'n', 't']) ++ rest) → type.text suffix ≠ name := by
    intro name different same
    rw [same, List.append_assoc] at chars
    exact different _ chars
  have noString := other "string" (by cases type.signed <;> exact nofun)
  have noBool := other "bool" (by cases type.signed <;> exact nofun)
  have noBoolean := other "boolean" (by cases type.signed <;> exact nofun)
  have noAddress := other "address" (by cases type.signed <;> exact nofun)
  unfold hyperionPack
  rw [if_neg noString, if_neg (not_or.mpr ⟨noBool, noBoolean⟩),
    if_neg noAddress]
  cases sign : type.signed with
  | true =>
      rw [sign] at chars
      have unsigned : startsWith (type.text suffix) "uint".toList = false := by
        rw [startsWith, chars]
        rfl
      have signed : startsWith (type.text suffix) "int".toList = true := by
        rw [startsWith, chars]
        rfl
      rw [unsigned, signed, if_neg Bool.false_ne_true, if_pos rfl, if_pos rfl]
  | false =>
      rw [sign] at chars
      have unsigned : startsWith (type.text suffix) "uint".toList = true := by
        rw [startsWith, chars]
        rfl
      rw [unsigned, if_pos rfl, if_neg Bool.false_ne_true]

end Dispatch

/-! ## Packing what is read -/

theorem pow_bits : 256 ^ type.bytes = 2 ^ type.bits := by
  rw [bits, pow_mul]
  rfl

theorem bits_pos : 0 < type.bits := by
  have positive := type.positive
  rw [bits]
  omega

theorem double_pow : 2 ^ type.bits = 2 * 2 ^ (type.bits - 1) := by
  have positive := type.bits_pos
  rw [← pow_succ']
  exact congrArg _ (by omega)

/-- The digits of a number are those of its bytes. -/
theorem wordDigits_word {number : Int} {natural : Nat}
    (small : natural < 2 ^ type.bits)
    (remainder : (natural : Int) = number % 2 ^ type.bits) :
    wordDigits natural (2 * type.bytes) = Hex.encode (type.word number) := by
  rw [wordDigits_bytes type.positive (type.pow_bits ▸ small), word,
    ← remainder, Int.toNat_natCast]

theorem remainder_natCast {natural : Nat} (small : natural < 2 ^ type.bits) :
    (natural : Int) = (natural : Int) % 2 ^ type.bits :=
  mod_cast (Nat.mod_eq_of_lt small).symm

theorem paddedHex_natCast {natural : Nat} (small : natural < 2 ^ type.bits) :
    paddedHex natural (2 * type.bytes) =
      String.ofList (Hex.encode (type.word natural)) := by
  have noX : ∀ char ∈ Hex.digits natural, char ≠ 'x' ∧ char ≠ 'X' := by
    intro char member
    have digit := List.all_eq_true.mp (Hex.isDigit_digits natural) char member
    constructor
    · rintro rfl
      cases digit
    · rintro rfl
      cases digit
  have plain : Validator.isHexStrict
      (String.ofList (Hex.digits natural)) = false :=
    isHexStrict_of_absent (fun member => (noX _ member).1 rfl)
      fun member => (noX _ member).2 rfl
  rw [paddedHex, Int.toNat_natCast, padLeft, plain,
    ← type.wordDigits_word small (type.remainder_natCast small),
    String.toList_ofList]
  rfl

theorem toNumber_of_read {value : String} {number : Int}
    (read : readNumber value = some number) :
    toNumber value = .ok number := by
  rw [toNumber, read]

theorem toNumber_of_unread {value : String} (unread : readNumber value = none) :
    ∃ problem, toNumber value = .error problem := by
  rw [toNumber, unread]
  exact ⟨_, rfl⟩

variable {type} {suffix : List Char} {value : String} {number : Int}

theorem packUnsigned_inRange (unsigned : type.signed = false)
    (isSuffix : IsSuffix suffix) (read : readNumber value = some number)
    (inRange : type.InRange number) :
    packUnsigned (type.text suffix) value =
      .ok (String.ofList (Hex.encode (type.word number))) := by
  rw [InRange, unsigned] at inRange
  obtain ⟨natural, rfl⟩ := Int.eq_ofNat_of_zero_le inRange.1
  have small : natural < 2 ^ type.bits := mod_cast inRange.2
  have length : bitLength natural ≤ type.bits := by
    rw [bitLength, if_neg (by omega), Int.natAbs_natCast, Nat.zero_add]
    exact (Nat.length_toDigits_le_iff (by decide) type.bits_pos).mpr small
  have width : type.bits / 8 * 2 = 2 * type.bytes := by
    rw [bits]
    omega
  rw [packUnsigned, parseTypeN_unsigned unsigned isSuffix, isIntegerSize_bits,
    if_neg Bool.true_eq_false.mp, toNumber_of_read read, Outcome.ok_bind,
    if_neg (by omega), if_neg (by omega), width, type.paddedHex_natCast small]

theorem packUnsigned_outOfRange (unsigned : type.signed = false)
    (isSuffix : IsSuffix suffix)
    (outside : ∀ number, readNumber value = some number →
      ¬type.InRange number) :
    ∃ problem, packUnsigned (type.text suffix) value = .error problem := by
  rw [packUnsigned, parseTypeN_unsigned unsigned isSuffix, isIntegerSize_bits,
    if_neg Bool.true_eq_false.mp]
  cases read : readNumber value with
  | none =>
      obtain ⟨problem, failed⟩ := toNumber_of_unread read
      rw [failed]
      exact ⟨problem, rfl⟩
  | some number =>
      rw [toNumber_of_read read, Outcome.ok_bind]
      split
      next => exact ⟨_, rfl⟩
      next short =>
        split
        next => exact ⟨_, rfl⟩
        next least =>
          exfalso
          apply outside number read
          obtain ⟨natural, rfl⟩ :=
            Int.eq_ofNat_of_zero_le (Int.not_lt.mp least)
          rw [bitLength, if_neg least, Int.natAbs_natCast, Nat.zero_add,
            Nat.not_lt, Nat.length_toDigits_le_iff (by decide)
              type.bits_pos] at short
          rw [InRange, unsigned]
          exact ⟨Int.natCast_nonneg natural, mod_cast short⟩

theorem withoutFirstPrefix_of_absent {text : List Char}
    (noX : 'x' ∉ text) : withoutFirstPrefix text = text := by
  induction text with
  | nil => rfl
  | cons char text induction =>
      rw [List.mem_cons, not_or] at noX
      unfold withoutFirstPrefix
      split
      next same =>
        cases same
        exact absurd List.mem_cons_self noX.2
      next same =>
        cases same
        rw [induction noX.2]
      next empty => cases empty

theorem withoutFirstPrefix_encode (bytes : Bytes) :
    withoutFirstPrefix (Hex.encode bytes) = Hex.encode bytes := by
  apply withoutFirstPrefix_of_absent
  intro member
  cases List.all_eq_true.mp (Hex.isDigit_encode bytes) 'x' member

theorem packSigned_inRange (signed : type.signed = true)
    (isSuffix : IsSuffix suffix) (read : readNumber value = some number)
    (inRange : type.InRange number) :
    ∃ packed, packSigned (type.text suffix) value = .ok packed ∧
      withoutFirstPrefix packed.toList = Hex.encode (type.word number) := by
  rw [InRange, signed, if_pos rfl] at inRange
  have half := type.double_pow
  have wholeInt : (2 : Int) ^ type.bits = 2 * 2 ^ (type.bits - 1) :=
    mod_cast half
  have positive : (0 : Int) < 2 ^ (type.bits - 1) := by positivity
  have width : type.bits / 8 * 2 = 2 * type.bytes := by
    rw [bits]
    omega
  have nibbles : type.bits / 4 = 2 * type.bytes := by
    rw [bits]
    omega
  rw [packSigned, parseTypeN_signed signed isSuffix, isIntegerSize_bits,
    if_neg Bool.true_eq_false.mp, toNumber_of_read read, Outcome.ok_bind]
  dsimp only
  rw [if_neg (by omega), width, nibbles]
  split
  next negative =>
    obtain ⟨complement, sum⟩ : ∃ complement : Nat,
        (complement : Int) = number + 2 ^ type.bits :=
      ⟨(number + 2 ^ type.bits).toNat, Int.toNat_of_nonneg (by omega)⟩
    have small : complement < 2 ^ type.bits := by
      zify
      omega
    have remainder : (complement : Int) = number % 2 ^ type.bits := by
      rw [← Int.add_mul_emod_self_left number (2 ^ type.bits) 1, mul_one,
        ← sum]
      exact type.remainder_natCast small
    have denotes : integer? (.text (String.ofList (Decimal.text number))) =
        some number := readNumber_text number
    have limit : (2 : Int) ^ (type.bits - 1) ≤ 2 ^ 511 := by
      have bounded := type.bounded
      exact pow_le_pow_right₀ one_le_two
        (show type.bits - 1 ≤ 511 by
          rw [bits]
          omega)
    have valid := isInt_text denotes
    rw [decide_eq_true (by omega)] at valid
    have bits : 2 * type.bytes * 4 = type.bits := by
      rw [PackedInteger.bits]
      omega
    have some : complement ≠ 0 := by omega
    rw [← bits] at sum
    rw [toTwosComplement_of_neg denotes valid negative sum some]
    refine ⟨_, rfl, ?_⟩
    rw [String.toList_ofList, ← type.wordDigits_word small remainder]
    rfl
  next least =>
    obtain ⟨natural, rfl⟩ := Int.eq_ofNat_of_zero_le (Int.not_lt.mp least)
    have small : natural < 2 ^ type.bits := by
      zify
      omega
    rw [type.paddedHex_natCast small]
    refine ⟨_, rfl, ?_⟩
    rw [String.toList_ofList, withoutFirstPrefix_encode]

theorem packSigned_outOfRange (signed : type.signed = true)
    (isSuffix : IsSuffix suffix)
    (outside : ∀ number, readNumber value = some number →
      ¬type.InRange number) :
    ∃ problem, packSigned (type.text suffix) value = .error problem := by
  rw [packSigned, parseTypeN_signed signed isSuffix, isIntegerSize_bits,
    if_neg Bool.true_eq_false.mp]
  cases read : readNumber value with
  | none =>
      obtain ⟨problem, failed⟩ := toNumber_of_unread read
      rw [failed]
      exact ⟨problem, rfl⟩
  | some number =>
      have beyond := outside number read
      rw [InRange, signed, if_pos rfl] at beyond
      rw [toNumber_of_read read, Outcome.ok_bind]
      dsimp only
      rw [if_pos (by omega)]
      exact ⟨_, rfl⟩

/-- A value is packed as the bytes of the integer that its text is read as,
if that is in range. -/
theorem hyperionPack_inRange (cryptography : Cryptography)
    (isSuffix : IsSuffix suffix) {given : Numbers}
    (read : readNumber (shown given) = some number)
    (inRange : type.InRange number) :
    ∃ packed,
      hyperionPack cryptography (type.text suffix) (.numbers given) =
          .ok packed ∧
        withoutFirstPrefix packed.toList = Hex.encode (type.word number) := by
  rw [hyperionPack_text]
  cases sign : type.signed with
  | true =>
      rw [if_pos rfl]
      exact packSigned_inRange sign isSuffix read inRange
  | false =>
      rw [if_neg Bool.false_ne_true]
      refine ⟨_, packUnsigned_inRange sign isSuffix read inRange, ?_⟩
      rw [String.toList_ofList, withoutFirstPrefix_encode]

theorem hyperionPack_outOfRange (cryptography : Cryptography)
    (isSuffix : IsSuffix suffix) {given : Numbers}
    (outside : ∀ number, readNumber (shown given) = some number →
      ¬type.InRange number) :
    ∃ problem,
      hyperionPack cryptography (type.text suffix) (.numbers given) =
        .error problem := by
  rw [hyperionPack_text]
  cases sign : type.signed with
  | true =>
      rw [if_pos rfl]
      exact packSigned_outOfRange sign isSuffix outside
  | false =>
      rw [if_neg Bool.false_ne_true]
      exact packUnsigned_outOfRange sign isSuffix outside

/-! ## Values as they are given -/

theorem isHexDigits {digits : List Char} (nonempty : digits ≠ [])
    (allDigits : digits.all Char.isDigit = true) :
    (!digits.isEmpty && digits.all Hex.isDigit) = true := by
  have hexDigits : digits.all Hex.isDigit = true := by
    rw [List.all_eq_true] at allDigits ⊢
    exact fun digit member => Hex.isDigit_of_decimal (allDigits digit member)
  rw [List.isEmpty_eq_false_iff.mpr nonempty, hexDigits]
  rfl

theorem isHex_negative {digits : List Char} (nonempty : digits ≠ [])
    (allDigits : digits.all Char.isDigit = true) :
    Validator.isHex (String.ofList ('-' :: digits)) = true := by
  have read := isHexDigits nonempty allDigits
  rw [Validator.isHex, String.toList_ofList]
  split
  next same =>
    rw [← (List.cons.inj same).2]
    dsimp only
    rw [read, Bool.or_true]
  next same => cases same
  next same =>
    rw [← (List.cons.inj same).2]
    exact read
  next unsigned => exact absurd rfl (unsigned digits)

theorem isHex_digits {digits : List Char} (nonempty : digits ≠ [])
    (allDigits : digits.all Char.isDigit = true) :
    Validator.isHex (String.ofList digits) = true := by
  have read := isHexDigits nonempty allDigits
  rw [Validator.isHex, String.toList_ofList]
  split
  next =>
    rw [List.all_cons, Bool.and_eq_true] at allDigits
    cases allDigits.1
  next =>
    dsimp only
    rw [read, Bool.or_true]
  next =>
    rw [List.all_cons, Bool.and_eq_true] at allDigits
    cases allDigits.1
  next => exact read

/-- A decimal text has no prefix and is read as the big integer. -/
theorem typedValue_decimal {content : String} (decimal : IsDecimal content)
    (read : readNumber content = some number)
    (plain : Validator.isHexStrict content = false) (name : String) :
    ∃ given, typedValue name (.single (.numbers (.text content))) =
        .ok (name, .single (.numbers given)) ∧
      readNumber (shown given) = some number := by
  have hex : Validator.isHex content = true := by
    obtain ⟨negative, digits, nonempty, allDigits, rfl⟩ := decimal
    cases negative with
    | true => exact isHex_negative nonempty allDigits
    | false => exact isHex_digits nonempty allDigits
  have integer : bigIntOfString content = some number := by
    rw [readNumber, plain] at read
    exact read
  rw [typedValue]
  split
  next =>
    rw [toBigInt, hex, if_pos rfl, integer]
    exact ⟨_, rfl, readNumber_text number⟩
  next => exact ⟨_, rfl, read⟩

theorem prefix_of_strict {content : String}
    (strict : Validator.isHexStrict content = true) :
    ∃ x digits, (x == 'x' || x == 'X') = true ∧
      (content.toList = '-' :: '0' :: x :: digits ∨
        content.toList = '0' :: x :: digits) := by
  unfold Validator.isHexStrict at strict
  split at strict
  next x digits chars =>
    simp only [Bool.and_eq_true] at strict
    exact ⟨x, digits, strict.1.1, .inl chars⟩
  next _ x digits chars =>
    simp only [Bool.and_eq_true] at strict
    exact ⟨x, digits, strict.1, .inr chars⟩
  next => cases strict

theorem hasHexPrefix_of_strict {content : String}
    (strict : Validator.isHexStrict content = true) :
    hasHexPrefix content = true := by
  obtain ⟨x, digits, isPrefix, chars | chars⟩ := prefix_of_strict strict
  · unfold hasHexPrefix
    rw [chars]
    exact isPrefix
  · unfold hasHexPrefix
    rw [chars]
    exact isPrefix

/-- A value that is given as a number is written in its decimal digits. -/
def Exactly (given : Numbers) : Prop :=
  ∀ number, given = .number number → numberText number = Decimal.text number

/-- The text of what is packed is read as the integer, or it is the integer as a
number. -/
def Given (number : Int) (value : Numbers) : Prop :=
  readNumber (shown value) = some number ∨ value = .number number

theorem read_number_iff (number : Int) :
    readNumber (shown (.number number)) = some number ↔
      Exactly (.number number) := by
  change readNumber (String.ofList (numberText number)) = some number ↔ _
  constructor
  · intro read other same
    cases same
    exact (numberText_of_read read).1
  · intro exactly
    rw [exactly number rfl, readNumber_text]

/-- Values are read as the integers they represent, but for some numbers. -/
theorem given_of_represents {given : Numbers}
    (represents : Represents given number) :
    Given number given ∧
      (readNumber (shown given) = some number ↔ Exactly given) := by
  obtain ⟨denotes, -⟩ := represents
  cases given with
  | number value =>
      obtain rfl : value = number := Option.some.inj denotes
      exact ⟨.inr rfl, read_number_iff value⟩
  | bigint value =>
      obtain rfl : value = number := Option.some.inj denotes
      have read := readNumber_text value
      exact ⟨.inl read, iff_of_true read nofun⟩
  | fraction shown => nomatch denotes
  | text content => exact ⟨.inl denotes, iff_of_true denotes nofun⟩

/-- A single value that is text is read before it is packed. -/
theorem typedValue_of_represents {given : Numbers}
    (represents : Represents given number) (name : String) :
    ∃ value, typedValue name (.single (.numbers given)) =
        .ok (name, .single (.numbers value)) ∧
      Given number value ∧
        (readNumber (shown value) = some number ↔ Exactly given) := by
  have unchanged := given_of_represents represents
  obtain ⟨denotes, texts⟩ := represents
  cases given with
  | number value => exact ⟨_, rfl, unchanged⟩
  | bigint value => exact ⟨_, rfl, unchanged⟩
  | fraction shown => nomatch denotes
  | text content =>
      cases strict : Validator.isHexStrict content with
      | true =>
          refine ⟨.text content, ?_, unchanged⟩
          rw [typedValue, hasHexPrefix_of_strict strict, Bool.not_true,
            Bool.and_false]
          rfl
      | false =>
          have decimal := (texts content rfl).resolve_left
            (ne_true_of_eq_false strict)
          obtain ⟨value, typed, read⟩ :=
            typedValue_decimal decimal denotes strict name
          exact ⟨value, typed, .inl read, iff_of_true read nofun⟩

/-- Integers in range with the same bytes are the same. -/
theorem word_injective {other : Int} (inRange : type.InRange number)
    (inRange' : type.InRange other)
    (same : type.word number = type.word other) : number = other := by
  have half := type.double_pow
  have wholeInt : (2 : Int) ^ type.bits = 2 * 2 ^ (type.bits - 1) :=
    mod_cast half
  have positive : (0 : Int) < 2 ^ (type.bits - 1) := by positivity
  have bounded (number : Int) :
      (number % 2 ^ type.bits).toNat < 256 ^ type.bytes := by
    rw [type.pow_bits]
    have below := Int.emod_lt_of_pos number
      (show (0 : Int) < 2 ^ type.bits by positivity)
    zify
    omega
  have remainders :=
    BigEndian.ofNat_injective (bounded number) (bounded other) same
  have least := Int.emod_nonneg number
    (show (2 : Int) ^ type.bits ≠ 0 by positivity)
  have least' := Int.emod_nonneg other
    (show (2 : Int) ^ type.bits ≠ 0 by positivity)
  have equal : number % 2 ^ type.bits = other % 2 ^ type.bits := by omega
  have divides : (2 : Int) ^ type.bits ∣ number - other :=
    Int.dvd_of_emod_eq_zero
      (Int.emod_eq_emod_iff_emod_sub_eq_zero.mp equal)
  have near : (number - other).natAbs < ((2 : Int) ^ type.bits).natAbs := by
    unfold InRange at inRange inRange'
    split at inRange
    next signed =>
      rw [if_pos signed] at inRange'
      omega
    next unsigned =>
      rw [if_neg unsigned] at inRange'
      omega
  have zero := Int.eq_zero_of_dvd_of_natAbs_lt_natAbs divides near
  omega

/-! ## Numbers that are written in other digits -/

/-- The text of a power of two that bounds a type of up to eight bytes denotes
no lower number. -/
theorem powers_printed : ∀ bytes < 9, ∀ exponent ∈ [8 * bytes, 8 * bytes - 1],
    2 ^ exponent ≤ Decimal.value (Double.text (some (2 ^ exponent))) := by
  decide +kernel

theorem le_of_printed {exponent other : Nat}
    (boundary : exponent = type.bits ∨ exponent = type.bits - 1)
    (printed : Double.text (some (2 ^ exponent)) = Nat.toDigits 10 other) :
    2 ^ exponent ≤ other := by
  have bits : type.bits = 8 * type.bytes := rfl
  by_cases short : type.bytes < 9
  · have member : exponent ∈ [8 * type.bytes, 8 * type.bytes - 1] := by
      rw [List.mem_cons, List.mem_singleton]
      exact boundary
    have least := powers_printed type.bytes short exponent member
    rwa [printed, Decimal.value_toDigits] at least
  · have bounded := type.bounded
    have long : 70 < exponent := by omega
    have large : 2 ^ 70 < 2 ^ exponent :=
      Nat.pow_lt_pow_right (by decide) long
    have few := Double.lt_of_text (by omega) printed
    rcases Double.text_spec (show 0 < 2 ^ exponent by omega) with
      ⟨written, -, rounded, same⟩ | ⟨first, rest, same, -, plus⟩
    · obtain rfl := Decimal.toDigits_injective (printed.symm.trans same)
      rcases rounded with equal | nearest
      · exact equal.ge
      · have most := Double.le_of_nearest
          (show other ≤ 2 ^ 70 by omega) (by decide) nearest
        omega
    · rw [printed] at same
      have inside : '+' ∈ Nat.toDigits 10 other := by
        rw [same]
        exact List.mem_cons_of_mem _ plus
      exact absurd inside (Decimal.not_mem_toDigits (by decide) other)

/-- An integer that is not below a bound of the type is not printed as one that
is. -/
theorem le_of_read {other : Int} {exponent : Nat}
    (boundary : exponent = type.bits ∨ exponent = type.bits - 1)
    (read : readNumber (String.ofList (numberText number)) = some other)
    (above : 2 ^ exponent ≤ number) : 2 ^ exponent ≤ other := by
  obtain ⟨written, sign, rounded⟩ := numberText_of_read read
  have power : (0 : Int) < 2 ^ exponent := by positivity
  obtain ⟨natural, rfl⟩ := Int.eq_ofNat_of_zero_le (a := number) (by omega)
  obtain ⟨printed, rfl⟩ := Int.eq_ofNat_of_zero_le (a := other) (by omega)
  rw [Int.natAbs_natCast, Int.natAbs_natCast] at rounded
  have least : 2 ^ exponent ≤ natural := mod_cast above
  have bounded : exponent < 1023 := by
    have bounded := type.bounded
    have bits : type.bits = 8 * type.bytes := rfl
    omega
  suffices low : 2 ^ exponent ≤ printed from mod_cast low
  rcases rounded with same | nearest
  · omega
  · by_contra less
    have most := Double.le_of_nearest (by omega) bounded nearest
    have power : natural = 2 ^ exponent := by omega
    rw [numberText, if_neg (by omega), Int.natAbs_natCast, power,
      Decimal.text_natCast] at written
    exact less (le_of_printed boundary written)

/-- An integer out of range is not printed as one in range. -/
theorem outOfRange_of_read {other : Int} (outside : ¬type.InRange number)
    (read : readNumber (String.ofList (numberText number)) = some other) :
    ¬type.InRange other := by
  intro inRange
  apply outside
  obtain ⟨-, sign, rounded⟩ := numberText_of_read read
  have whole := @le_of_read type number other type.bits (.inl rfl) read
  have half := @le_of_read type number other (type.bits - 1) (.inr rfl) read
  unfold InRange at inRange ⊢
  split at inRange
  next signed =>
    rw [if_pos signed]
    refine ⟨?_, by omega⟩
    by_contra low
    have cast : ((2 ^ (type.bits - 1) : Nat) : Int) = 2 ^ (type.bits - 1) :=
      Nat.cast_pow 2 (type.bits - 1)
    have small : other.natAbs ≤ 2 ^ (type.bits - 1) := by omega
    have large : 2 ^ (type.bits - 1) < number.natAbs := by omega
    have bounded : type.bits - 1 < 1023 := by
      have bounded := type.bounded
      rw [bits]
      omega
    rcases rounded with same | nearest
    · omega
    · have most := Double.le_of_nearest small bounded nearest
      omega
  next unsigned =>
    rw [if_neg unsigned]
    omega

/-! ## Arguments -/

/-- A value of an integer type or an array of them, with what follows the
element type in the name of the array type. -/
inductive Argument
  | single (given : Numbers)
  | array (suffix : List Char) (isSuffix : IsSuffix suffix)
      (givens : List Numbers)

def Argument.givens : Argument → List Numbers
  | .single given => [given]
  | .array _ _ givens => givens

def Argument.input (type : PackedInteger) : Argument → Sha3Input
  | .single given => .typed (type.text []) (.single (.numbers given))
  | .array suffix _ givens =>
      .typed (type.text suffix) (.array (givens.map .numbers))

/-- The integers are packed as their bytes one behind another, or one of them is
out of range and refused. -/
def Packs (cryptography : Cryptography) (type : PackedInteger)
    (argument : Argument) (numbers : List Int) : Prop :=
  if ∀ number ∈ numbers, type.InRange number then
    encodePacked cryptography [argument.input type] =
      .ok (hexlify (numbers.flatMap type.word))
  else
    ∃ problem, encodePacked cryptography [argument.input type] =
      .error problem

/-- A packed element. -/
def packed (cryptography : Cryptography) (type : PackedInteger)
    (suffix : List Char) (given : Numbers) : Except String (List Char) := do
  let packed ← hyperionPack cryptography (type.text suffix) (.numbers given)
  .ok (withoutFirstPrefix packed.toList)

section Elements

variable {cryptography : Cryptography}

theorem packed_inRange (isSuffix : IsSuffix suffix) {value : Numbers}
    (read : readNumber (shown value) = some number)
    (inRange : type.InRange number) :
    packed cryptography type suffix value =
      .ok (Hex.encode (type.word number)) := by
  obtain ⟨text, done, digits⟩ :=
    hyperionPack_inRange cryptography isSuffix read inRange
  rw [packed, done, Outcome.ok_bind, digits]

theorem packed_error (isSuffix : IsSuffix suffix) {value : Numbers}
    (outside : ∀ number, readNumber (shown value) = some number →
      ¬type.InRange number) :
    ∃ problem, packed cryptography type suffix value = .error problem := by
  obtain ⟨problem, failed⟩ :=
    hyperionPack_outOfRange cryptography isSuffix outside
  rw [packed, failed]
  exact ⟨problem, rfl⟩

theorem packed_outOfRange (isSuffix : IsSuffix suffix) {value : Numbers}
    (given : Given number value) (outside : ¬type.InRange number) :
    ∃ problem, packed cryptography type suffix value = .error problem := by
  apply packed_error isSuffix
  intro other read
  rcases given with exact | rfl
  · obtain rfl := Option.some.inj (exact.symm.trans read)
    exact outside
  · exact outOfRange_of_read outside read

/-- What is packed as the bytes of the integer is read as it. -/
theorem read_of_packed (isSuffix : IsSuffix suffix) {value : Numbers}
    (inRange : type.InRange number) {digits : List Char}
    (done : packed cryptography type suffix value = .ok digits) :
    (digits.length = 2 * type.bytes ∧ digits.map Char.toLower = digits) ∧
      (digits = Hex.encode (type.word number) →
        readNumber (shown value) = some number) := by
  by_cases within : ∃ other, readNumber (shown value) = some other ∧
      type.InRange other
  · obtain ⟨other, read, inRange'⟩ := within
    rw [packed_inRange isSuffix read inRange'] at done
    obtain rfl := Except.ok.inj done
    refine ⟨⟨?_, Hex.toLower_encode _⟩, ?_⟩
    · rw [Hex.length_encode, word, BigEndian.length_ofNat]
    · intro same
      rw [read, word_injective inRange inRange'
        (Hex.encode_injective same).symm]
  · obtain ⟨problem, failed⟩ : ∃ problem,
        packed cryptography type suffix value = .error problem :=
      packed_error isSuffix fun other read inRange' =>
        within ⟨other, read, inRange'⟩
    cases failed.symm.trans done

theorem mapM_packed (isSuffix : IsSuffix suffix) {values : List Numbers}
    {numbers : List Int}
    (read : List.Forall₂
      (fun value number => readNumber (shown value) = some number)
      values numbers)
    (inRange : ∀ number ∈ numbers, type.InRange number) :
    values.mapM (packed cryptography type suffix) =
      .ok (numbers.map fun number => Hex.encode (type.word number)) := by
  rw [Outcome.mapM_eq_ok, List.forall₂_map_right_iff]
  induction read with
  | nil => exact .nil
  | cons first _ induction =>
      rw [List.forall_mem_cons] at inRange
      exact .cons (packed_inRange isSuffix first inRange.1)
        (induction inRange.2)

theorem mapM_packed_error (isSuffix : IsSuffix suffix)
    {values : List Numbers} {numbers : List Int}
    (given : List.Forall₂ (fun value number => Given number value)
      values numbers)
    (outside : ¬∀ number ∈ numbers, type.InRange number) :
    ∃ problem, values.mapM (packed cryptography type suffix) =
      .error problem := by
  cases mapped : values.mapM (packed cryptography type suffix) with
  | error problem => exact ⟨problem, rfl⟩
  | ok results =>
      exfalso
      apply outside
      clear outside
      rw [Outcome.mapM_eq_ok] at mapped
      induction given generalizing results with
      | nil => exact nofun
      | cons first _ induction =>
          cases mapped with
          | cons done rest =>
              rw [List.forall_mem_cons]
              refine ⟨?_, induction _ rest⟩
              by_contra beyond
              obtain ⟨problem, failed⟩ :=
                packed_outOfRange isSuffix first beyond
              cases failed.symm.trans done

/-- Where all elements are packed as the bytes of integers in range, their
texts are read as these integers. -/
theorem read_of_mapM_packed (isSuffix : IsSuffix suffix)
    {values : List Numbers} {numbers : List Int}
    (sameLength : values.length = numbers.length)
    (inRange : ∀ number ∈ numbers, type.InRange number)
    {results : List (List Char)}
    (mapped : values.mapM (packed cryptography type suffix) = .ok results)
    (same : results.flatten.map Char.toLower =
      Hex.encode (numbers.flatMap type.word)) :
    List.Forall₂ (fun value number => readNumber (shown value) = some number)
      values numbers := by
  rw [Outcome.mapM_eq_ok] at mapped
  induction mapped generalizing numbers with
  | nil =>
      cases numbers with
      | nil => exact .nil
      | cons number numbers => nomatch sameLength
  | @cons value digits values results done _ induction =>
      cases numbers with
      | nil => nomatch sameLength
      | cons number numbers =>
          rw [List.forall_mem_cons] at inRange
          obtain ⟨⟨length, lower⟩, read⟩ :=
            read_of_packed isSuffix inRange.1 done
          rw [List.flatten_cons, List.flatMap_cons, Hex.encode_append,
            List.map_append, lower] at same
          obtain ⟨front, rest⟩ := List.append_inj same (by
            rw [length, Hex.length_encode, word, BigEndian.length_ofNat])
          exact .cons (read front) (induction
            (Nat.succ_inj.mp sameLength) inRange.2 rest)

end Elements

/-- The name of the type is not taken for that of big integers. -/
theorem getType_typed (cryptography : Cryptography) (suffix : List Char)
    (value : EncodingTypes) :
    getType cryptography (.typed (type.text suffix) value) =
      typedValue (type.text suffix) value := by
  have other : (type.text suffix).toList.map Char.toLower ≠
      "bigint".toList := by
    rw [text, String.toList_ofList]
    cases type.signed <;> exact nofun
  rw [getType, if_neg other]

/-- An argument is packed as the values that its elements are read as. -/
theorem encodePacked_input (cryptography : Cryptography)
    {argument : Argument} {numbers : List Int}
    (represents : List.Forall₂ Represents argument.givens numbers) :
    ∃ suffix values, IsSuffix suffix ∧
      (List.Forall₂ (fun value number => Given number value) values numbers ∧
        (List.Forall₂ (fun value number => readNumber (shown value) =
            some number) values numbers ↔
          ∀ given ∈ argument.givens, Exactly given)) ∧
      encodePacked cryptography [argument.input type] = (do
        let hexArg ← values.mapM (packed cryptography type suffix)
        .ok (String.ofList
          ('0' :: 'x' :: hexArg.flatten.map Char.toLower))) := by
  cases argument with
  | single given =>
      cases represents with
      | cons first rest =>
          cases rest
          obtain ⟨value, typed, isGiven, exactly⟩ :=
            typedValue_of_represents first (type.text [])
          refine ⟨[], [value], nofun, ⟨.cons isGiven .nil, ?_⟩, ?_⟩
          · rw [List.forall₂_cons, and_iff_left .nil, exactly]
            exact (List.forall_mem_singleton).symm
          · rw [encodePacked, Argument.input]
            simp only [List.mapM_cons, List.mapM_nil,
              processHyperionEncodePackedArgs, getType_typed, typed, packed,
              Outcome.ok_bind, Outcome.pure_eq_ok, bind_assoc]
  | array suffix isSuffix givens =>
      refine ⟨suffix, givens, isSuffix, ⟨?_, ?_⟩, ?_⟩
      · exact represents.imp fun _ _ each => (given_of_represents each).1
      · change List.Forall₂ Represents givens numbers at represents
        change _ ↔ ∀ given ∈ givens, Exactly given
        induction represents with
        | nil => exact iff_of_true .nil nofun
        | cons first _ induction =>
            rw [List.forall₂_cons, List.forall_mem_cons, induction,
              (given_of_represents first).2]
      · rw [encodePacked, Argument.input]
        simp only [List.mapM_cons, List.mapM_nil,
          processHyperionEncodePackedArgs, getType_typed, typedValue,
          Outcome.ok_bind, Outcome.pure_eq_ok, bind_assoc, List.mapM_map,
          List.flatten_singleton]
        rfl

/-! ## Exactness -/

/-- Integers are packed as their bytes, or refused where one is out of range,
exactly if none of them is given, in range, as a number that is written in other
digits than its decimal ones. -/
theorem packs_iff (cryptography : Cryptography) (type : PackedInteger)
    {argument : Argument} {numbers : List Int}
    (represents : List.Forall₂ Represents argument.givens numbers) :
    Packs cryptography type argument numbers ↔
      ((∀ number ∈ numbers, type.InRange number) →
        ∀ given ∈ argument.givens, Exactly given) := by
  obtain ⟨suffix, values, isSuffix, ⟨given, exactly⟩, encoded⟩ :=
    @encodePacked_input type cryptography _ _ represents
  rw [Packs, encoded]
  split
  next inRange =>
    rw [forall_prop_of_true inRange, ← exactly]
    constructor
    · intro done
      obtain ⟨results, mapped, rest⟩ := Outcome.bind_eq_ok.mp done
      refine read_of_mapM_packed isSuffix given.length_eq inRange mapped ?_
      have same := Except.ok.inj rest
      rw [hexlify, String.ofList_inj] at same
      exact (List.cons.inj (List.cons.inj same).2).2
    · intro read
      rw [mapM_packed isSuffix read inRange, Outcome.ok_bind, hexlify]
      have flat : (numbers.map fun number =>
          Hex.encode (type.word number)).flatten =
            Hex.encode (numbers.flatMap type.word) := by
        rw [Hex.encode, List.flatMap_assoc, List.flatMap_def]
        rfl
      rw [flat, Hex.toLower_encode]
  next outside =>
    obtain ⟨problem, failed⟩ : ∃ problem,
        values.mapM (packed cryptography type suffix) = .error problem :=
      mapM_packed_error isSuffix given outside
    rw [failed]
    exact iff_of_true ⟨problem, rfl⟩ fun inRange => absurd inRange outside

def int16 : PackedInteger := ⟨true, 2, by decide, by decide⟩

def uint64 : PackedInteger := ⟨false, 8, by decide, by decide⟩

/-- Two negative integers and a positive one, each given in another way. -/
def threeIntegers : Argument :=
  .array ['[', ']'] (by rintro _ ⟨⟩; rfl)
    [.number (-2), .text "-0X10", .text "007"]

theorem packs_threeIntegers :
    Packs .simple int16 threeIntegers [-2, -16, 7] :=
  (packs_iff .simple int16
    (.cons ⟨rfl, nofun⟩ (.cons
      ⟨by decide +kernel, by rintro _ ⟨⟩; exact .inl (by decide +kernel)⟩ (.cons
        ⟨by decide +kernel, by
          rintro _ ⟨⟩
          exact .inr ⟨false, ['0', '0', '7'], by decide, by decide, rfl⟩⟩
        .nil)))).mpr fun _ given member number same => by
    have first : given = .number (-2) := by
      rcases List.mem_cons.mp member with rfl | member
      · rfl
      · rcases List.mem_cons.mp member with rfl | member
        · cases same
        · rw [List.mem_singleton.mp member] at same
          cases same
    rw [first] at same
    cases same
    decide +kernel

/-- The sixtieth power of two is in range, but its text as a number is that of
another integer. -/
theorem not_packs :
    Represents (.number (2 ^ 60)) (2 ^ 60) ∧
      encodePacked .simple [.typed "uint64"
        (.single (.numbers (.number (2 ^ 60))))] =
          .ok "0x1000000000000018" ∧
        ¬Packs .simple uint64 (.single (.number (2 ^ 60))) [2 ^ 60] := by
  have packed : encodePacked .simple [.typed "uint64"
      (.single (.numbers (.number (2 ^ 60))))] =
        .ok "0x1000000000000018" := by
    decide +kernel
  refine ⟨⟨rfl, nofun⟩, packed, ?_⟩
  have inRange : ∀ number ∈ [(2 ^ 60 : Int)], uint64.InRange number := by
    decide +kernel
  have name : uint64.text [] = "uint64" := by decide +kernel
  rw [Packs, if_pos inRange, Argument.input, name, packed]
  intro same
  have texts := Except.ok.inj same
  exact absurd texts (by decide +kernel)

end PackedInteger

end Web3Js.Utils
