import Web3Js.Tx.Values

/-!
# Formatting of scalar values

Numbers and byte strings are converted to the format that is asked for, and
stay as they are where the conversion throws.  A conversion that went through
keeps what the value denotes; one that did not leaves the value to whatever
reads it last.
-/

namespace Web3Js

/-- A number as a caller gives it. -/
inductive Numbers
  | number (value : Int)
  /-- A number that is no integer, by its text. -/
  | fraction (text : String)
  | bigint (value : Int)
  | text (content : String)
  deriving DecidableEq

/-- Bytes as a caller gives them. -/
inductive BytesInput
  | bytes (content : Bytes)
  | text (content : String)
  deriving DecidableEq

/-- `FMT_NUMBER`; bytes are always formatted as hexadecimal text. -/
inductive FMT_NUMBER
  | HEX
  | BIGINT

namespace Utils

/-- `toBigInt`; `none` where it throws. -/
def toBigInt : Numbers → Option Int
  | .number value | .bigint value => some value
  | .fraction _ => none
  | .text content =>
      if Validator.isHex content then bigIntOfString content else none

/-- `numberToHex` of a big integer. -/
def numberToHex (value : Int) : String :=
  if value < 0 then
    String.ofList ('-' :: '0' :: 'x' :: Hex.digits value.natAbs)
  else bigIntToHex value.toNat

/-- `bytesToUint8Array` -/
def bytesToUint8Array : BytesInput → Except String Bytes
  | .bytes content => .ok content
  | .text content => hexToUint8Array content

/-- `padLeft` of a string, with zeros. -/
def padLeft (value : String) (characterAmount : Nat) : String :=
  let padStart (text : List Char) : List Char :=
    List.replicate (characterAmount - text.length) '0' ++ text
  if Validator.isHexStrict value then
    match value.toList with
    | '-' :: _ :: _ :: digits =>
        String.ofList ('-' :: '0' :: 'x' :: padStart digits)
    | _ :: _ :: digits => String.ofList ('0' :: 'x' :: padStart digits)
    | _ => value
  else String.ofList (padStart value.toList)

end Utils

section Conversion

/-- `convertScalarValue` of the type `uint`. -/
def convertUint (format : FMT_NUMBER) (value : Numbers) : Numbers :=
  match Utils.toBigInt value with
  | none => value
  | some number =>
      match format with
      | .HEX => .text (Utils.numberToHex number)
      | .BIGINT => .bigint number

/-- `convertScalarValue` of the type `bytes`. -/
def convertBytes (value : BytesInput) : BytesInput :=
  match Utils.bytesToUint8Array value with
  | .ok content => .text (hexlify content)
  | .error _ => value

/-- `convertScalarValue` of a string, of the type `bytes32`. -/
def convertBytes32 (value : String) : String :=
  match Utils.hexToUint8Array (Utils.padLeft value 64) with
  | .ok content => hexlify content
  | .error _ => value

/-- A number as the field of a transaction. -/
def Numbers.input : Numbers → Tx.Input
  | .number value => .number value
  | .fraction shown => .fraction shown
  | .bigint value => .bigint value
  | .text content => .text content

def BytesInput.input : BytesInput → Tx.Input
  | .bytes content => .bytes content
  | .text content => .text content

end Conversion

section Meaning

/-- The integer that a number stands for; text is read as the language reads
it, and a prefix without digits is zero. -/
def Numbers.integer : Numbers → Option Int
  | .number value | .bigint value => some value
  | .fraction _ => none
  | .text content =>
      if content = "0x" then some 0 else bigIntOfString content

/-- The digits of hexadecimal text, with or without a prefix. -/
def unprefixed (text : List Char) : List Char :=
  match text with
  | '0' :: x :: digits => if x = 'x' ∨ x = 'X' then digits else text
  | _ => text

/-- The byte string that is given; digits of odd number lack a zero in
front. -/
def BytesInput.content : BytesInput → Option Bytes
  | .bytes content => some content
  | .text content => Hex.decode (Hex.padToEven (unprefixed content.toList))

/-- The digits of a storage key; the zero of the prefix may be missing, as any
other zero in front. -/
def storageKeyDigits : List Char → Option (List Char)
  | '0' :: x :: digits => if x = 'x' ∨ x = 'X' then some digits else none
  | x :: digits => if x = 'x' ∨ x = 'X' then some digits else none
  | [] => none

/-- The storage key of 32 bytes that a text stands for. -/
def storageKey (text : String) : Option Bytes :=
  (storageKeyDigits text.toList).bind fun digits =>
    Hex.decode (List.replicate (64 - digits.length) '0' ++ digits)

end Meaning

section Preservation

theorem bigIntOfString_bareHex : bigIntOfString "0x" = none := by decide

theorem integer_hexText {digits : List Char} (nonempty : digits ≠ [])
    (allDigits : digits.all Hex.isDigit = true) :
    (Numbers.text (String.ofList ('0' :: 'x' :: digits))).integer =
      some (Hex.numeral digits : Int) := by
  rw [Numbers.integer, if_neg, bigIntOfString_hex nonempty allDigits]
  intro same
  have chars := congrArg String.toList same
  rw [String.toList_ofList] at chars
  have none : digits = [] := (List.cons.inj (List.cons.inj chars).2).2
  exact nonempty none

theorem integer_negativeHexText {digits : List Char}
    (allDigits : digits.all Hex.isDigit = true) :
    (Numbers.text (String.ofList ('-' :: '0' :: 'x' :: digits))).integer =
      none := by
  rw [Numbers.integer, if_neg, bigIntOfString_negativeHex allDigits]
  intro same
  have chars := congrArg String.toList same
  rw [String.toList_ofList] at chars
  cases (List.cons.inj chars).1

theorem integer_of_toBigInt {value : Numbers} {number : Int}
    (converted : Utils.toBigInt value = some number) :
    value.integer = some number := by
  cases value with
  | number | bigint => exact converted
  | fraction => cases converted
  | text content =>
      rw [Utils.toBigInt] at converted
      split at converted
      · rw [Numbers.integer, if_neg]
        · exact converted
        · rintro rfl
          rw [bigIntOfString_bareHex] at converted
          cases converted
      · cases converted

/-- What a converted number stands for, the value stood for. -/
theorem integer_of_convertUint {format : FMT_NUMBER} {value : Numbers}
    {number : Int} (meant : (convertUint format value).integer = some number) :
    value.integer = some number := by
  rw [convertUint] at meant
  split at meant
  · exact meant
  · rename_i found converted
    rw [integer_of_toBigInt converted]
    cases format with
    | BIGINT => exact meant
    | HEX =>
        dsimp only [Utils.numberToHex] at meant
        split at meant
        · rw [integer_negativeHexText (Hex.isDigit_digits _)] at meant
          cases meant
        · rename_i natural
          have nonempty : Hex.digits found.toNat ≠ [] := Nat.toDigits_ne_nil
          rw [Utils.bigIntToHex, integer_hexText nonempty
            (Hex.isDigit_digits _), Hex.numeral_digits] at meant
          rw [← meant]
          congr 1
          omega

/-- Text that is read as bytes is the prefix and digits. -/
theorem hexText_of_textToUint8Array {text : String} {buf : Bytes}
    (read : Tx.textToUint8Array text = .ok buf) :
    ∃ digits, text = String.ofList ('0' :: 'x' :: digits) ∧
      digits.all Hex.isDigit = true ∧
      Hex.decode (Hex.padToEven digits) = some buf := by
  rw [Tx.textToUint8Array] at read
  split at read
  · rename_i isHex
    rw [Validator.isHexString] at isHex
    split at isHex
    · rename_i digits chars
      refine ⟨digits, ?_, isHex, ?_⟩
      · rw [← chars, String.ofList_toList]
      · rw [chars] at read
        split at read
        · rename_i bytes decoded
          cases read
          exact decoded
        · cases read
    · cases isHex
  · cases read

theorem integer_of_hexText {text : String} {buf : Bytes}
    (read : Tx.textToUint8Array text = .ok buf) :
    (Numbers.text text).integer = some (BigEndian.toNat buf : Int) := by
  obtain ⟨digits, rfl, allDigits, decoded⟩ := hexText_of_textToUint8Array read
  obtain ⟨bytes, again, value, -⟩ := Hex.decode_padToEven allDigits
  rw [decoded] at again
  cases again
  cases digits with
  | nil =>
      rw [value]
      rfl
  | cons digit digits =>
      rw [integer_hexText (List.cons_ne_nil _ _) allDigits, value]

/-- A number that is read as the field of a transaction is the one that was
given. -/
theorem integer_of_readNumber {value : Numbers} {number : Nat}
    (read : Tx.readNumber value.input = .ok number) :
    value.integer = some (number : Int) := by
  cases value with
  | fraction shown => cases read
  | text content =>
      obtain ⟨buf, converted, done⟩ := Outcome.bind_eq_ok.mp read
      cases done
      dsimp only [Numbers.input, Tx.Input.emptyAsHex] at converted
      split at converted
      · rename_i empty
        subst empty
        cases converted
        rfl
      · exact integer_of_hexText converted
  | bigint value =>
      by_cases negative : value < 0
      · simp [Tx.readNumber, Numbers.input, Tx.Input.emptyAsHex,
          Tx.toUint8Array, negative] at read
      · obtain ⟨natural, rfl⟩ := Int.eq_ofNat_of_zero_le (not_lt.mp negative)
        have own := Tx.readNumber_bigint natural
        rw [Numbers.input, own] at read
        cases read
        rfl
  | number value =>
      obtain ⟨buf, converted, done⟩ := Outcome.bind_eq_ok.mp read
      cases done
      dsimp only [Numbers.input, Tx.Input.emptyAsHex, Tx.toUint8Array]
        at converted
      split at converted
      · cases converted
      split at converted
      · obtain ⟨digits, negative, -⟩ := hexText_of_textToUint8Array converted
        have chars := congrArg String.toList negative
        rw [String.toList_ofList, String.toList_ofList] at chars
        cases (List.cons.inj chars).1
      · rename_i natural
        obtain ⟨whole, value'⟩ :=
          Tx.textToUint8Array_bigIntToHex value.toNat
        rw [whole] at converted
        cases converted
        rw [Tx.uint8ArrayToBigInt, value', Numbers.integer]
        congr 1
        omega

theorem padToEven_of_decode {digits : List Char} {content : Bytes}
    (decoded : Hex.decode digits = some content) :
    Hex.padToEven digits = digits := by
  have length := Hex.length_of_decode decoded
  rw [Hex.padToEven, if_neg]
  omega

theorem hexDigits_of_hexToUint8Array {text : String} {content : Bytes}
    (read : Utils.hexToUint8Array text = .ok content) :
    ∃ x digits, text.toList = '0' :: x :: digits ∧ (x = 'x' ∨ x = 'X') ∧
      Hex.decode digits = some content := by
  rw [Utils.hexToUint8Array] at read
  split at read
  · rename_i x digits chars
    split at read
    · rename_i isPrefix
      split at read
      · rename_i bytes decoded
        cases read
        exact ⟨x, digits, chars, isPrefix, decoded⟩
      · cases read
    · cases read
  · cases read

theorem content_hexlify (content : Bytes) :
    (BytesInput.text (hexlify content)).content = some content := by
  rw [BytesInput.content, hexlify, String.toList_ofList, unprefixed,
    if_pos (.inl rfl), padToEven_of_decode (Hex.decode_encode_bytes content),
    Hex.decode_encode_bytes]

/-- Conversion of bytes keeps the content. -/
theorem content_convertBytes (value : BytesInput) :
    (convertBytes value).content = value.content := by
  rw [convertBytes]
  split
  · rename_i content read
    rw [content_hexlify]
    cases value with
    | bytes given =>
        cases read
        rfl
    | text given =>
        obtain ⟨x, digits, chars, isPrefix, decoded⟩ :=
          hexDigits_of_hexToUint8Array read
        rw [BytesInput.content, chars, unprefixed, if_pos isPrefix,
          padToEven_of_decode decoded, decoded]
  · rfl

theorem content_of_toUint8Array {value : BytesInput} {content : Bytes}
    (read : Tx.toUint8Array value.input.emptyAsHex = .ok content) :
    value.content = some content := by
  cases value with
  | bytes given =>
      cases read
      rfl
  | text given =>
      dsimp only [BytesInput.input, Tx.Input.emptyAsHex] at read
      split at read
      · rename_i empty
        subst empty
        cases read
        rfl
      · obtain ⟨digits, rfl, -, decoded⟩ := hexText_of_textToUint8Array read
        rw [BytesInput.content, String.toList_ofList, unprefixed,
          if_pos (.inl rfl), decoded]

section StorageKeys

theorem storageKey_hexText {digits : List Char} :
    storageKey (String.ofList ('0' :: 'x' :: digits)) =
      Hex.decode (List.replicate (64 - digits.length) '0' ++ digits) := by
  rw [storageKey, String.toList_ofList, storageKeyDigits, if_pos (.inl rfl)]
  rfl

/-- A storage key that is read as 32 bytes is the one that was given. -/
theorem storageKey_of_read {text : String} {key : Bytes}
    (read : Tx.textToUint8Array text = .ok key) (width : key.length = 32) :
    storageKey text = some key := by
  obtain ⟨digits, rfl, -, decoded⟩ := hexText_of_textToUint8Array read
  have length := Hex.length_of_decode decoded
  rw [storageKey_hexText, ← decoded, Hex.padToEven]
  rw [Hex.padToEven] at length
  split
  · rename_i odd
    rw [if_pos odd, List.length_cons] at length
    have missing : 64 - digits.length = 1 := by omega
    rw [missing]
    rfl
  · rename_i even
    rw [if_neg even] at length
    have missing : 64 - digits.length = 0 := by omega
    rw [missing]
    rfl

/-- Text with a prefix is padded behind it. -/
theorem padLeft_of_strict {text : String} {x : Char} {digits : List Char}
    (strict : Validator.isHexStrict text = true)
    (padded : (Utils.padLeft text 64).toList = '0' :: x :: digits) :
    ∃ given, storageKeyDigits text.toList = some given ∧
      digits = List.replicate (64 - given.length) '0' ++ given := by
  rw [Utils.padLeft, if_pos strict] at padded
  rw [Validator.isHexStrict] at strict
  split at padded
  · rw [String.toList_ofList] at padded
    cases (List.cons.inj padded).1
  · rename_i first second given notNegative chars
    rw [String.toList_ofList] at padded
    have same := (List.cons.inj (List.cons.inj padded).2).2
    refine ⟨given, ?_, same.symm⟩
    rw [chars] at strict ⊢
    split at strict
    · rename_i whole
      cases whole
      exact (notNegative _ _ rfl rfl).elim
    · rename_i whole
      cases whole
      simp only [Bool.and_eq_true, Bool.or_eq_true, beq_iff_eq] at strict
      rw [storageKeyDigits, if_pos strict.1]
    · cases strict
  · rename_i tooShort
    split at strict
    · rename_i chars
      exact (tooShort _ _ _ chars).elim
    · rename_i chars
      exact (tooShort _ _ _ chars).elim
    · cases strict

/-- Text without a prefix is padded to one with a prefix only where the zero of
the prefix was missing. -/
theorem padLeft_of_not_strict {text : String} {x : Char} {digits : List Char}
    (notStrict : Validator.isHexStrict text = false)
    (padded : (Utils.padLeft text 64).toList = '0' :: x :: digits)
    (isPrefix : x = 'x' ∨ x = 'X') (allDigits : digits.all Hex.isDigit = true) :
    text.toList = x :: digits ∧ digits.length = 62 := by
  rw [Utils.padLeft, if_neg (by simp [notStrict])] at padded
  dsimp only at padded
  rw [String.toList_ofList] at padded
  match missing : 64 - text.toList.length with
  | 0 =>
      rw [missing] at padded
      have chars : text.toList = '0' :: x :: digits := padded
      have strict : Validator.isHexStrict text = true := by
        rw [Validator.isHexStrict, chars]
        simp [isPrefix, allDigits]
      rw [notStrict] at strict
      cases strict
  | 1 =>
      rw [missing] at padded
      have chars : text.toList = x :: digits := (List.cons.inj padded).2
      rw [chars, List.length_cons] at missing
      exact ⟨chars, by omega⟩
  | count + 2 =>
      rw [missing] at padded
      have zero : '0' = x := (List.cons.inj (List.cons.inj padded).2).1
      rcases isPrefix with rfl | rfl
      · cases zero
      · cases zero

/-- Conversion of a storage key keeps the key. -/
theorem storageKey_of_convertBytes32 {text : String} {key : Bytes}
    (meant : storageKey (convertBytes32 text) = some key) :
    storageKey text = some key := by
  rw [convertBytes32] at meant
  split at meant
  · rename_i content read
    obtain ⟨x, digits, chars, isPrefix, decoded⟩ :=
      hexDigits_of_hexToUint8Array read
    rw [hexlify, storageKey_hexText, Hex.length_encode] at meant
    have length := Hex.length_of_decode decoded
    cases strict : Validator.isHexStrict text with
    | true =>
        obtain ⟨given, givenDigits, whole⟩ := padLeft_of_strict strict chars
        have full : 64 - 2 * content.length = 0 := by
          rw [whole, List.length_append, List.length_replicate] at length
          omega
        rw [full] at meant
        rw [storageKey, givenDigits, Option.bind_some, ← whole, decoded,
          ← meant]
        exact (Hex.decode_encode_bytes content).symm
    | false =>
        obtain ⟨given, width⟩ := padLeft_of_not_strict strict chars isPrefix
          (Hex.isDigit_of_decode decoded)
        have notZero : x ≠ '0' := by
          rcases isPrefix with rfl | rfl
          · decide
          · decide
        have givenDigits : storageKeyDigits text.toList = some digits := by
          rw [given, storageKeyDigits]
          · exact if_pos isPrefix
          · intro y others isZero
            exact absurd isZero notZero
        have bytes : content.length = 31 := by omega
        rw [storageKey, givenDigits, Option.bind_some, width, ← meant, bytes,
          Hex.decode_replicate_append decoded 1,
          Hex.decode_replicate_append (Hex.decode_encode_bytes content) 1]
  · exact meant

end StorageKeys

end Preservation

end Web3Js
