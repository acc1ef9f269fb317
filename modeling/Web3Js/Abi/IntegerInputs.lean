import Web3Js.Abi.Inputs
import Web3Js.Abi.Integers
import Web3Js.Abi.Words
import Web3Js.Lib.Decimal

/-!
# Integers as text and as numbers

A decimal text of a textual integer type is filled up with zeros to the width
of the type, unless it is short.  The zeros come before the sign, which no
number is read from.
-/

namespace Web3Js.Abi

/-! ## Decimal texts -/

/-- `/^-?0x[0-9a-f]+$/i` or `/^-?[0-9]+$/` -/
def isNumeral (text : List Char) : Bool :=
  let unsigned :=
    match text with
    | '-' :: text => text
    | text => text
  let hexadecimal :=
    match unsigned with
    | '0' :: x :: digits =>
        (x == 'x' || x == 'X') && !digits.isEmpty && digits.all Hex.isDigit
    | _ => false
  hexadecimal || (!unsigned.isEmpty && unsigned.all Char.isDigit)

/-- What `BigNumber.from` documents of integers. -/
structure Externals.ReadsIntegers (externals : Externals) : Prop where
  bigint : ∀ value : Int, externals.bigNumberFrom (.bigint value) = .ok value
  natural : ∀ digits : List Char, digits ≠ [] →
    digits.all Char.isDigit = true →
      externals.bigNumberFrom (.string (String.ofList digits)) =
        .ok (Reader.parseInt digits)
  negative : ∀ digits : List Char, digits ≠ [] →
    digits.all Char.isDigit = true →
      externals.bigNumberFrom (.string (String.ofList ('-' :: digits))) =
        .ok (-(Reader.parseInt digits : Int))
  refused : ∀ text : String, isNumeral text.toList = false →
    ∃ problem, externals.bigNumberFrom (.string text) = .error problem

theorem parseInt_eq (digits : List Char) :
    Reader.parseInt digits = Nat.ofDigitChars 10 digits 0 :=
  Nat.ofDigitChars_eq_foldl.symm

theorem parseInt_padded (count number : Nat) :
    Reader.parseInt (List.replicate count '0' ++ Nat.toDigits 10 number) =
      number := by
  rw [parseInt_eq, Nat.ofDigitChars_append, Nat.ofDigitChars_replicate_zero,
    Nat.mul_zero, Nat.ofDigitChars_ten_toDigits]

theorem isDigit_padded (count number : Nat) :
    (List.replicate count '0' ++ Nat.toDigits 10 number).all Char.isDigit =
      true := by
  rw [List.all_append, Bool.and_eq_true, List.all_eq_true, List.all_eq_true]
  constructor
  · intro char member
    rw [List.eq_of_mem_replicate member]
    rfl
  · intro digit member
    exact Nat.isDigit_of_mem_toDigits (by decide) (by decide) member

/-- Zeros in front of a sign make no numeral. -/
theorem not_isNumeral (count : Nat) (digits : List Char) :
    isNumeral (List.replicate (count + 1) '0' ++ '-' :: digits) = false := by
  have sign : ('0' :: (List.replicate count '0' ++ '-' :: digits)).all
      Char.isDigit = false := by
    rw [List.all_eq_false]
    exact ⟨'-', by simp, by decide⟩
  rw [List.replicate_succ, List.cons_append]
  cases count with
  | zero => simp [isNumeral]
  | succ count =>
      rw [List.replicate_succ, List.cons_append] at sign ⊢
      simp [isNumeral]

/-! ## Integer types -/

/-- An integer type, which is of the greatest width where none is given. -/
structure IntegerType where
  signed : Bool
  size : Option ByteSize

namespace IntegerType

def greatest : ByteSize := ⟨64, by decide, by decide⟩

/-- The size with the default filled in. -/
def width (type : IntegerType) : ByteSize := type.size.getD greatest

def bits (type : IntegerType) : Nat := type.width.bytes * 8

def text (type : IntegerType) : String :=
  match type.size with
  | some size => numberName size.bytes type.signed
  | none => if type.signed then "int" else "uint"

def lower (type : IntegerType) : Int := lowerBound type.signed type.bits

def upper (type : IntegerType) : Int := upperBound type.signed type.bits

end IntegerType

section Names

private theorem named_integers :
    ∀ (size : Fin 65) (signed : Bool), 0 < size.val →
      (Reader.matchNumber (numberName size signed)).any (fun matched =>
        matched.1 = signed ∧ matched.2 ≠ [] ∧
          Reader.parseInt matched.2 = size * 8) = true ∧
      verifyType (numberName size signed).toList =
        (numberName size signed).toList ∧
      mentionsTuple (numberName size signed) = false := by
  decide +kernel

theorem ByteSize.lt (size : ByteSize) : size.bytes < 65 :=
  Nat.lt_succ_of_le size.withinWord

/-- The digits of a numbered integer type. -/
theorem matchNumber_named (size : ByteSize) (signed : Bool) :
    ∃ digits, Reader.matchNumber (numberName size.bytes signed) =
        some (signed, digits) ∧
      digits ≠ [] ∧ Reader.parseInt digits = size.bytes * 8 := by
  have matched := (named_integers ⟨size.bytes, size.lt⟩ signed
    size.positive).1
  change (Reader.matchNumber (numberName size.bytes signed)).any _ = true
    at matched
  cases found : Reader.matchNumber (numberName size.bytes signed) with
  | none =>
      rw [found] at matched
      cases matched
  | some matching =>
      rw [found, Option.any_some, decide_eq_true_iff] at matched
      obtain ⟨same, given, read⟩ := matched
      exact ⟨matching.2, by rw [← same], given, read⟩

theorem verifyType_named (size : ByteSize) (signed : Bool) :
    verifyType (numberName size.bytes signed).toList =
      (numberName size.bytes signed).toList :=
  (named_integers ⟨size.bytes, size.lt⟩ signed size.positive).2.1

theorem IntegerType.matchNumber_text (type : IntegerType) :
    ∃ digits, Reader.matchNumber type.text = some (type.signed, digits) ∧
      Reader.parseInt (if digits = [] then "512".toList else digits) =
        type.bits := by
  obtain ⟨signed, none | size⟩ := type
  · cases signed
    · exact ⟨[], by decide, by decide⟩
    · exact ⟨[], by decide, by decide⟩
  · obtain ⟨digits, found, given, read⟩ := matchNumber_named size signed
    refine ⟨digits, found, ?_⟩
    rw [if_neg given, read]
    rfl

theorem IntegerType.verifyType_text (type : IntegerType) :
    verifyType type.text.toList =
      (numberName type.width.bytes type.signed).toList := by
  obtain ⟨signed, none | size⟩ := type
  · cases signed
    · decide +kernel
    · decide +kernel
  · exact verifyType_named size signed

theorem IntegerType.mentionsTuple_text (type : IntegerType) :
    mentionsTuple type.text = false := by
  obtain ⟨signed, none | size⟩ := type
  · cases signed
    · decide
    · decide
  · exact (named_integers ⟨size.bytes, size.lt⟩ signed size.positive).2.2

theorem getElementaryCoder_named (externals : Externals) (size : ByteSize)
    (signed : Bool) (name : Option String) :
    getElementaryCoder externals name (numberName size.bytes signed) =
      .ok (NumberCoder externals size.bytes signed name) := by
  obtain ⟨digits, found, given, read⟩ := matchNumber_named size signed
  have other : ∀ type : String, Reader.matchNumber type = none →
      numberName size.bytes signed ≠ type := by
    rintro type unmatched rfl
    rw [unmatched] at found
    cases found
  have bounds : ¬(size.bytes * 8 = 0 ∨ 512 < size.bytes * 8 ∨
      size.bytes * 8 % 8 ≠ 0) := by
    have positive := size.positive
    have within := size.lt
    omega
  unfold getElementaryCoder
  rw [if_neg (other "address" (by decide)), if_neg (other "bool" (by decide)),
    if_neg (other "string" (by decide)), if_neg (other "bytes" (by decide)),
    if_neg (other "array" (by decide)), if_neg (other "tuple" (by decide)),
    if_neg (other "" (by decide)), found]
  simp only [if_neg given, read, if_neg bounds, Nat.mul_div_cancel _
    (show 0 < 8 by decide)]

end Names

/-! ## Encoding an integer -/

section Encoding

variable {externals : Externals}

/-- What the coder of an integer type makes of a number. -/
def IntegerType.encoded (type : IntegerType) (number : Int) :
    Option String :=
  if type.lower ≤ number ∧ number < type.upper then
    some (hexlify (Spec.word number))
  else none

theorem encode_named (type : IntegerType) (name : Option String)
    (value : Value) :
    (AbiCoder.encode externals
        [.elementary name (numberName type.width.bytes type.signed)]
        [value]).toOption =
      (externals.bigNumberFrom value).toOption.bind type.encoded := by
  have built : getCoder externals
      (.elementary name (numberName type.width.bytes type.signed)) =
        .ok (NumberCoder externals type.width.bytes type.signed name) :=
    getElementaryCoder_named externals type.width type.signed name
  rw [AbiCoder.encode_static externals built rfl]
  cases given : externals.bigNumberFrom value with
  | error problem =>
      simp only [NumberCoder, given]
      rfl
  | ok number =>
      rw [NumberCoder.encode_of_number type.width type.signed name given]
      change _ = type.encoded number
      unfold IntegerType.encoded
      split
      next inBounds =>
        have range : type.lower ≤ number ∧ number < type.upper := inBounds
        rw [if_pos range]
        have short : 2 + 2 * ((({} : Writer).writeData
            (Spec.word number)).1).data.flatten.length ≤ maxSafeInteger := by
          simp [Writer.writeData, Spec.length_word, wordSize, maxSafeInteger]
        rw [Outcome.ok_bind, Writer.text, if_pos short]
        simp [Writer.writeData]
        rfl
      next outOfBounds =>
        have range : ¬(type.lower ≤ number ∧ number < type.upper) :=
          outOfBounds
        rw [if_neg range]
        rfl

/-! ## Formatting an integer -/

theorem ParamType.fromString_integer (type : IntegerType) :
    ParamType.fromString type.text =
      .ok (.elementary none
        (numberName type.width.bytes type.signed)) := by
  obtain ⟨digits, found, -⟩ := type.matchNumber_text
  rw [ParamType.fromString_word (isAlphanum_of_matchNumber found),
    type.verifyType_text, String.ofList_toList]
  intro blank
  rw [Reader.matchNumber, blank] at found
  cases found

theorem ParamType.fromObject_integer (name : String) (type : IntegerType) :
    ParamType.fromObject (.mk name type.text none) =
      .elementary (givenName (some name))
        (numberName type.width.bytes type.signed) := by
  obtain ⟨digits, found, -⟩ := type.matchNumber_text
  have word := isAlphanum_of_matchNumber found
  rw [fromObject, construct_word word, type.verifyType_text,
    String.ofList_toList]

/-- A value of a textual integer type is formatted to the width of the
type. -/
theorem format_integer (type : IntegerType) (value : Value) :
    AbiInput.format externals (.text type.text) value =
      formatNumber type.bits value.copy := by
  obtain ⟨digits, found, read⟩ := type.matchNumber_text
  have formatted : ∀ param, formatParam type.text param =
      formatNumber type.bits param := by
    intro param
    rw [formatParam, arraySuffix_word (isAlphanum_of_matchNumber found)]
    simp only [formatElementary, found, read]
  rw [AbiInput.format, formatted, type.mentionsTuple_text]
  cases formatNumber type.bits value.copy <;> rfl

/-- A text filled up with zeros, unless it is short. -/
def padded (bits : Nat) (text : List Char) : List Char :=
  if bits < 8 * text.length then
    List.replicate (bits - text.length) '0' ++ text
  else text

theorem decimal_chars (value : Int) {char : Char}
    (member : char ∈ Decimal.text value) : char = '-' ∨ char.isDigit = true := by
  have digit : char ∈ Nat.toDigits 10 value.natAbs → char.isDigit = true :=
    Nat.isDigit_of_mem_toDigits (by decide) (by decide)
  unfold Decimal.text at member
  split at member
  · rcases List.mem_cons.mp member with rfl | member
    · exact .inl rfl
    · exact .inr (digit member)
  · exact .inr (digit member)

theorem codeUnits_decimal (value : Int) :
    codeUnits (String.ofList (Decimal.text value)) = (Decimal.text value).length := by
  have single : ∀ char ∈ Decimal.text value,
      (if char.toNat < 65536 then 1 else 2) = 1 := by
    intro char member
    apply if_pos
    rcases decimal_chars value member with rfl | digit
    · decide
    · rw [Char.isDigit, Bool.and_eq_true, decide_eq_true_iff,
        decide_eq_true_iff] at digit
      have bound : char.toNat ≤ 57 := digit.2
      omega
  rw [codeUnits, String.toList_ofList, List.map_congr_left single,
    List.map_const', List.sum_replicate_nat, Nat.mul_one]

theorem isHexStrict_decimal (value : Int) :
    Validator.isHexStrict (String.ofList (Decimal.text value)) = false := by
  have other : ∀ char ∈ Decimal.text value,
      (char == 'x' || char == 'X') = false := by
    intro char member
    rcases decimal_chars value member with rfl | digit
    · rfl
    · rw [Bool.or_eq_false_iff, beq_eq_false_iff_ne, beq_eq_false_iff_ne]
      constructor
      · rintro rfl
        cases digit
      · rintro rfl
        cases digit
  rw [Validator.isHexStrict, String.toList_ofList]
  split
  next x digits chars =>
    rw [other x (by rw [chars]; simp)]
    rfl
  next _ x digits chars =>
    rw [other x (by rw [chars]; simp)]
    rfl
  next => rfl

theorem formatNumber_decimal (bits : Nat) (value : Int) :
    formatNumber bits (.string (String.ofList (Decimal.text value))) =
      .ok (.string (String.ofList (padded bits (Decimal.text value)))) := by
  rw [formatNumber, codeUnits_decimal, padded, Utils.padLeft]
  simp only [isHexStrict_decimal, String.toList_ofList]
  split <;> rfl

/-! ## Reading a filled text -/

/-- A number of a signed type is shorter than the bits of the type. -/
theorem length_decimal_lt {type : IntegerType} {value : Int}
    (low : type.lower ≤ value) (negative : value < 0) :
    (Decimal.text value).length < type.bits := by
  have wide : 8 ≤ type.bits := by
    have positive := type.width.positive
    unfold IntegerType.bits
    omega
  have signed : type.signed = true := by
    rw [← Bool.not_eq_false]
    intro unsigned
    rw [IntegerType.lower, lowerBound, unsigned] at low
    simp only [Bool.false_eq_true, if_false] at low
    omega
  rw [IntegerType.lower, lowerBound, if_pos signed] at low
  obtain ⟨rest, bits⟩ : ∃ rest, type.bits = rest + 3 := ⟨type.bits - 3, by omega⟩
  have bounded : value.natAbs ≤ 2 ^ (rest + 2) := by
    rw [bits, Nat.add_sub_cancel (rest + 2) 1] at low
    zify
    rw [abs_of_neg negative]
    linarith
  have power : 2 ^ (rest + 2) < 10 ^ (rest + 1) := by
    have smaller : 2 ^ (rest + 1) ≤ 5 ^ (rest + 1) :=
      Nat.pow_le_pow_left (by decide) _
    calc 2 ^ (rest + 2) = 2 ^ (rest + 1) * 2 := pow_succ 2 (rest + 1)
      _ < 2 ^ (rest + 1) * 5 ^ (rest + 1) := by
          apply Nat.mul_lt_mul_of_pos_left
          · calc 2 < 5 ^ 1 := by decide
              _ ≤ 5 ^ (rest + 1) := Nat.pow_le_pow_right (by decide) (by omega)
          · positivity
      _ = 10 ^ (rest + 1) := by rw [← Nat.mul_pow]
  have digits : (Nat.toDigits 10 value.natAbs).length ≤ rest + 1 :=
    (Nat.length_toDigits_le_iff (by decide) (Nat.succ_pos rest)).mpr
      (bounded.trans_lt power)
  rw [Decimal.text, if_pos negative, List.length_cons, bits]
  omega

theorem read_decimal (reads : externals.ReadsIntegers) (value : Int) :
    externals.bigNumberFrom (.string (String.ofList (Decimal.text value))) =
      .ok value := by
  have nonempty : Nat.toDigits 10 value.natAbs ≠ [] := Nat.toDigits_ne_nil
  have number := parseInt_padded 0 value.natAbs
  have allDigits := isDigit_padded 0 value.natAbs
  rw [List.replicate_zero, List.nil_append] at number allDigits
  unfold Decimal.text
  split
  next negative =>
    rw [reads.negative _ nonempty allDigits, number]
    exact congrArg Except.ok (by omega)
  next sign =>
    rw [reads.natural _ nonempty allDigits, number]
    exact congrArg Except.ok (by omega)

/-- The number is read from its filled text, unless zeros come before a
sign. -/
theorem read_padded (reads : externals.ReadsIntegers) {type : IntegerType}
    {value : Int} (low : type.lower ≤ value) :
    (externals.bigNumberFrom (.string
        (String.ofList (padded type.bits (Decimal.text value))))).toOption =
      if 0 ≤ value ∨ 8 * (Decimal.text value).length ≤ type.bits then some value
      else none := by
  have nonempty : Nat.toDigits 10 value.natAbs ≠ [] := Nat.toDigits_ne_nil
  by_cases sign : 0 ≤ value
  · have text : ∃ count, padded type.bits (Decimal.text value) =
        List.replicate count '0' ++ Nat.toDigits 10 value.natAbs := by
      rw [padded, Decimal.text, if_neg (Int.not_lt.mpr sign)]
      split
      · exact ⟨_, rfl⟩
      · exact ⟨0, rfl⟩
    obtain ⟨count, text⟩ := text
    rw [if_pos (.inl sign), text, reads.natural _
      (List.append_ne_nil_of_right_ne_nil _ nonempty) (isDigit_padded _ _),
      parseInt_padded, Int.natAbs_of_nonneg sign]
    rfl
  · have negative : value < 0 := Int.not_le.mp sign
    have written : Decimal.text value = '-' :: Nat.toDigits 10 value.natAbs := by
      rw [Decimal.text, if_pos negative]
    by_cases short : 8 * (Decimal.text value).length ≤ type.bits
    · rw [if_pos (.inr short), padded, if_neg (Nat.not_lt.mpr short),
        read_decimal reads]
      rfl
    · have room := length_decimal_lt low negative
      obtain ⟨count, zeros⟩ : ∃ count,
          type.bits - (Decimal.text value).length = count + 1 :=
        ⟨type.bits - (Decimal.text value).length - 1, by omega⟩
      obtain ⟨problem, refused⟩ := reads.refused
        (String.ofList (padded type.bits (Decimal.text value))) (by
          rw [String.toList_ofList, padded, if_pos (Nat.not_le.mp short), zeros,
            written]
          exact not_isNumeral count _)
      rw [if_neg (not_or.mpr ⟨sign, short⟩), refused]
      rfl

/-! ## The ways of giving an integer -/

/-- Every way of giving the integer has the same data. -/
def IntegerType.GivenAlike (externals : Externals) (type : IntegerType)
    (value : Int) : Prop :=
  ∃ data,
    encodeParameters externals [.text type.text]
        [.string (String.ofList (Decimal.text value))] = .ok data ∧
      encodeParameters externals [.text type.text] [.bigint value] =
        .ok data ∧
      ∀ name, ∀ given ∈ [Value.string (String.ofList (Decimal.text value)),
          .bigint value],
        encodeParameters externals [.parameter (.mk name type.text none)]
          [given] = .ok data

theorem IntegerType.text_ne_function (type : IntegerType) :
    type.text ≠ "function" := by
  obtain ⟨digits, found, -⟩ := type.matchNumber_text
  intro same
  have unmatched : Reader.matchNumber "function" = none := by decide
  rw [same, unmatched] at found
  cases found

/-- An integer is encoded alike in every way, unless it is negative and its
text is filled up. -/
theorem IntegerType.givenAlike_iff (reads : externals.ReadsIntegers)
    {type : IntegerType} {value : Int} (low : type.lower ≤ value)
    (high : value < type.upper) :
    type.GivenAlike externals value ↔
      0 ≤ value ∨ 8 * (Decimal.text value).length ≤ type.bits := by
  have encoded : type.encoded value = some (hexlify (Spec.word value)) :=
    if_pos ⟨low, high⟩
  have number : (encodeParameters externals [.text type.text]
      [.bigint value]).toOption = some (hexlify (Spec.word value)) := by
    rw [encodeParameters_text, format_integer, ParamType.fromString_integer]
    change (AbiCoder.encode externals _ [.bigint value]).toOption = _
    rw [encode_named, reads.bigint]
    exact encoded
  have text : (encodeParameters externals [.text type.text]
      [.string (String.ofList (Decimal.text value))]).toOption =
        (if 0 ≤ value ∨ 8 * (Decimal.text value).length ≤ type.bits then some value
          else none).bind type.encoded := by
    have formatted := formatNumber_decimal type.bits value
    rw [encodeParameters_text, format_integer, ParamType.fromString_integer]
    change (Except.toOption (formatNumber type.bits (.string _))).bind _ = _
    rw [formatted]
    change (AbiCoder.encode externals _ [.string _]).toOption = _
    rw [encode_named, read_padded reads low]
  have object : ∀ name, ∀ given ∈
      [Value.string (String.ofList (Decimal.text value)), .bigint value],
        (encodeParameters externals [.parameter (.mk name type.text none)]
          [given]).toOption = some (hexlify (Spec.word value)) := by
    intro name given member
    have kept : externals.bigNumberFrom given.copy = .ok value := by
      rcases List.mem_pair.mp member with rfl | rfl
      · exact read_decimal reads value
      · exact reads.bigint value
    have known : (JsonFragmentType.mk name type.text none).type ≠ "function" :=
      type.text_ne_function
    rw [encodeParameters_parameter externals known,
      ParamType.fromObject_integer, encode_named, kept]
    exact encoded
  constructor
  · rintro ⟨data, written, -⟩
    by_contra refused
    rw [if_neg refused, written] at text
    cases text
  · intro holds
    rw [if_pos holds, Option.bind_some, encoded] at text
    exact ⟨hexlify (Spec.word value), Outcome.toOption_eq_some.mp text,
      Outcome.toOption_eq_some.mp number, fun name given member =>
        Outcome.toOption_eq_some.mp (object name given member)⟩

end Encoding

section Numerals

/-- The natural number of hexadecimal digits with a prefix, or of decimal
digits. -/
def readUnsigned : List Char → Nat
  | '0' :: x :: digits =>
      if x = 'x' ∨ x = 'X' then (parseDigits 16 digits).getD 0
      else Reader.parseInt ('0' :: x :: digits)
  | digits => Reader.parseInt digits

/-- Conversions that read numerals. -/
def Externals.numerals : Externals where
  toCryptography := .simple
  arrayify := Externals.simple.arrayify
  bigNumberFrom value :=
    match value with
    | .string text =>
        if isNumeral text.toList then
          .ok (match text.toList with
            | '-' :: digits => -(readUnsigned digits : Int)
            | digits => readUnsigned digits)
        else
          .error (Error.ofArgument "invalid BigNumber string" (some "value"))
    | value => Externals.simple.bigNumberFrom value

theorem readUnsigned_digits {digits : List Char}
    (allDigits : digits.all Char.isDigit = true) :
    readUnsigned digits = Reader.parseInt digits := by
  unfold readUnsigned
  split
  next x digits =>
    rw [if_neg]
    rintro (rfl | rfl)
    · cases List.all_eq_true.mp allDigits 'x' (by simp)
    · cases List.all_eq_true.mp allDigits 'X' (by simp)
  next => rfl

theorem isNumeral_digits {digits : List Char} (nonempty : digits ≠ [])
    (allDigits : digits.all Char.isDigit = true) :
    isNumeral digits = true ∧ isNumeral ('-' :: digits) = true ∧
      ∀ rest, digits ≠ '-' :: rest := by
  have unsigned : ∀ rest, digits ≠ '-' :: rest := by
    rintro rest rfl
    cases List.all_eq_true.mp allDigits '-' List.mem_cons_self
  have some : digits.isEmpty = false := by
    cases digits with
    | nil => exact absurd rfl nonempty
    | cons digit digits => rfl
  refine ⟨?_, ?_, unsigned⟩
  · unfold isNumeral
    split
    next rest => exact absurd rfl (unsigned rest)
    next => simp [some, allDigits]
  · simp [isNumeral, some, allDigits]

theorem Externals.numerals_readsIntegers :
    Externals.numerals.ReadsIntegers where
  bigint _ := rfl
  natural digits nonempty allDigits := by
    obtain ⟨numeral, -, unsigned⟩ := isNumeral_digits nonempty allDigits
    simp only [numerals, String.toList_ofList, numeral, if_true]
    rw [readUnsigned_digits allDigits]
  negative digits nonempty allDigits := by
    obtain ⟨-, numeral, -⟩ := isNumeral_digits nonempty allDigits
    simp only [numerals, String.toList_ofList, numeral, if_true,
      readUnsigned_digits allDigits]
  refused text unread := by
    simp only [numerals, unread]
    exact ⟨_, rfl⟩

/-- A negative number whose text is short enough. -/
theorem IntegerType.givenAlike_minusFive :
    IntegerType.GivenAlike .numerals
      ⟨true, some ⟨2, by decide, by decide⟩⟩ (-5) :=
  (IntegerType.givenAlike_iff Externals.numerals_readsIntegers
    (by decide) (by decide)).mpr (by decide)

/-- The text `-5` is filled up to `000000-5` for a single byte. -/
theorem IntegerType.not_givenAlike :
    ¬IntegerType.GivenAlike .numerals
      ⟨true, some ⟨1, by decide, by decide⟩⟩ (-5) := by
  rintro ⟨data, written, -⟩
  have refused : encodeParameters .numerals [.text "int8"] [.string "-5"] =
      .error "Parameter encoding error" := by
    decide +kernel
  change encodeParameters .numerals [.text "int8"] [.string "-5"] = _ at written
  rw [refused] at written
  cases written

end Numerals

end Web3Js.Abi
