import Web3Js.Address

/-!
# Numbers and hexadecimal text

The conversions between numbers, hexadecimal text and byte strings that the
packages share, on texts.  Reading a text as a number follows the language's
own rules: surrounding white space, a sign before decimal digits, or a prefix
for the hexadecimal, octal and binary digits.
-/

namespace Web3Js

section BigInt

/-- White space and line ends, as the language trims them. -/
def isWhiteSpace (char : Char) : Bool :=
  char.toNat ∈ [9, 10, 11, 12, 13, 32, 160, 5760, 8232, 8233, 8239, 8287,
    12288, 65279] || (8192 ≤ char.toNat && char.toNat ≤ 8202)

def trim (text : List Char) : List Char :=
  ((text.dropWhile isWhiteSpace).reverse.dropWhile isWhiteSpace).reverse

/-- Digits below a base, at least one. -/
def parseDigits (base : Nat) (text : List Char) : Option Nat :=
  if text = [] then none
  else
    text.foldlM (fun number digit =>
      (Hex.digitValue digit).bind fun value =>
        if value < base then some (base * number + value) else none) 0

/-- `BigInt` of a string; `none` where it throws. -/
def bigIntOfString (value : String) : Option Int :=
  match trim value.toList with
  | [] => some 0
  | '0' :: 'x' :: digits | '0' :: 'X' :: digits =>
      (parseDigits 16 digits).map Int.ofNat
  | '0' :: 'o' :: digits | '0' :: 'O' :: digits =>
      (parseDigits 8 digits).map Int.ofNat
  | '0' :: 'b' :: digits | '0' :: 'B' :: digits =>
      (parseDigits 2 digits).map Int.ofNat
  | '-' :: digits => (parseDigits 10 digits).map fun number => -(number : Int)
  | '+' :: digits => (parseDigits 10 digits).map Int.ofNat
  | digits => (parseDigits 10 digits).map Int.ofNat

end BigInt

namespace Validator

def maxSafeInteger : Nat := 2 ^ 53 - 1

/-- `/^0x[0-9A-Fa-f]*$/` -/
def isHexString (value : String) : Bool :=
  match value.toList with
  | '0' :: 'x' :: digits => digits.all Hex.isDigit
  | _ => false

/-- `/^((-0x|0x|-)?[0-9a-f]+|(0x))$/i` -/
def isHex (hex : String) : Bool :=
  let isDigits (text : List Char) := !text.isEmpty && text.all Hex.isDigit
  match hex.toList with
  | '-' :: '0' :: x :: digits =>
      ((x == 'x' || x == 'X') && isDigits digits) || isDigits ('0' :: x :: digits)
  | '0' :: x :: digits =>
      ((x == 'x' || x == 'X') && digits.all Hex.isDigit) ||
        isDigits ('0' :: x :: digits)
  | '-' :: digits => isDigits digits
  | digits => isDigits digits

/-- `hexToNumber` of strict hexadecimal text, exact for numbers of any size;
`none` where it throws, without digits. -/
def hexToNumber (value : String) : Option Int :=
  match value.toList with
  | '-' :: _ :: _ :: digits =>
      (parseDigits 16 digits).map fun number => -(number : Int)
  | _ :: _ :: digits => (parseDigits 16 digits).map Int.ofNat
  | _ => none

/-- `isInt` of a string, for 512 bits. -/
def isIntString (value : String) : Bool :=
  let number :=
    if isHexStrict value then hexToNumber value
    else bigIntOfString value
  match number with
  | some number => decide (-2 ^ 511 ≤ number ∧ number ≤ 2 ^ 511 - 1)
  | none => false

end Validator

namespace Utils

/-- `bytesToUint8Array` of a string, which `validator.validate(['bytes'])`
checks first. -/
def hexToUint8Array (text : String) : Except String Bytes :=
  match text.toList with
  | '0' :: x :: digits =>
      if x = 'x' ∨ x = 'X' then
        match Hex.decode digits with
        | some bytes => .ok bytes
        | none => .error (validationMessage "bytes" text)
      else .error (validationMessage "bytes" text)
  | _ => .error (validationMessage "bytes" text)

/-- A missing prefix is added. -/
def hexToBytes (text : String) : Except String Bytes :=
  match text.toList with
  | '0' :: 'x' :: _ | '0' :: 'X' :: _ => hexToUint8Array text
  | digits => hexToUint8Array (String.ofList ('0' :: 'x' :: digits))

/-- `0x${num.toString(16)}` -/
def bigIntToHex (number : Nat) : String :=
  String.ofList ('0' :: 'x' :: Hex.digits number)

/-- `utf8ToHex`, which drops a null character at either end. -/
def utf8ToHex (text : String) : String :=
  let dropNull (chars : List Char) : List Char :=
    if chars.head? = some (Char.ofNat 0) then chars.tail else chars
  let chars := (dropNull (dropNull text.toList).reverse).reverse
  hexlify (String.ofList chars).toUTF8.toList

/-- `numberToHex` of a string with a sign and a hexadecimal prefix. -/
def negativeToHex (value : String) : Except String String :=
  if Validator.isIntString value then
    .ok (String.ofList ('-' :: '0' :: 'x' ::
      ((value.toList.drop 3).dropWhile (· == '0')).map Char.toLower))
  else .error (validationMessage "int" value)

/-- `toHex` of a string. -/
def toHex (cryptography : Cryptography) (value : String) :
    Except String String :=
  if ['-', '0', 'x'].isPrefixOf value.toList ||
      ['-', '0', 'X'].isPrefixOf value.toList then
    negativeToHex value
  else if Validator.isHexStrict value then .ok value
  else if Validator.isHex value && !Validator.isIntString value then
    .ok ("0x" ++ value)
  else if Validator.isAddressString cryptography value true then
    addressToHex cryptography value
  else .ok (utf8ToHex value)

end Utils

section Readings

private theorem not_isWhiteSpace_ascii :
    ∀ code : Fin 128, Hex.isDigit (Char.ofNat code) = true →
      isWhiteSpace (Char.ofNat code) = false := by
  decide +kernel

theorem not_isWhiteSpace_of_isDigit {digit : Char}
    (isDigit : Hex.isDigit digit = true) : isWhiteSpace digit = false := by
  obtain ⟨value, read⟩ := Option.isSome_iff_exists.mp isDigit
  have restored : Char.ofNat digit.toNat = digit := Char.ofNat_toNat digit
  have general :=
    not_isWhiteSpace_ascii ⟨digit.toNat, Hex.toNat_lt_of_digitValue read⟩
  simp only [restored] at general
  exact general isDigit

theorem trim_of_visible {text : List Char}
    (visible : ∀ char ∈ text, isWhiteSpace char = false) : trim text = text := by
  have keeps : ∀ chars : List Char,
      (∀ char ∈ chars, isWhiteSpace char = false) →
        chars.dropWhile isWhiteSpace = chars := by
    intro chars all
    cases chars with
    | nil => rfl
    | cons char chars =>
        rw [List.dropWhile_cons_of_neg]
        simp [all char List.mem_cons_self]
  rw [trim, keeps text visible, keeps text.reverse, List.reverse_reverse]
  intro char member
  exact visible char (List.mem_reverse.mp member)

theorem parseDigits_hex {digits : List Char} (nonempty : digits ≠ [])
    (allDigits : digits.all Hex.isDigit = true) :
    parseDigits 16 digits = some (Hex.numeral digits) := by
  have folded : ∀ (rest : List Char) (number : Nat),
      rest.all Hex.isDigit = true →
      rest.foldlM (fun number digit =>
        (Hex.digitValue digit).bind fun value =>
          if value < 16 then some (16 * number + value) else none) number =
        some (rest.foldl (fun number digit =>
          16 * number + (Hex.digitValue digit).getD 0) number) := by
    intro rest
    induction rest with
    | nil => intro number _; rfl
    | cons digit rest induction =>
        intro number all
        rw [List.all_cons, Bool.and_eq_true] at all
        obtain ⟨value, read⟩ := Option.isSome_iff_exists.mp all.1
        have small := (Hex.digitValue_eq_some read).1
        rw [List.foldlM_cons, List.foldl_cons, read, Option.bind_some,
          if_pos small]
        exact induction _ all.2
  rw [parseDigits, if_neg nonempty]
  exact folded digits 0 allDigits

/-- Hexadecimal text is read as the number of its digits. -/
theorem bigIntOfString_hex {digits : List Char} (nonempty : digits ≠ [])
    (allDigits : digits.all Hex.isDigit = true) :
    bigIntOfString (String.ofList ('0' :: 'x' :: digits)) =
      some (Hex.numeral digits : Int) := by
  have trimmed : trim ('0' :: 'x' :: digits) = '0' :: 'x' :: digits := by
    apply trim_of_visible
    intro char member
    rcases List.mem_cons.mp member with rfl | member
    · decide
    rcases List.mem_cons.mp member with rfl | member
    · decide
    exact not_isWhiteSpace_of_isDigit (List.all_eq_true.mp allDigits char member)
  rw [bigIntOfString, String.toList_ofList, trimmed]
  simp only [parseDigits_hex nonempty allDigits]
  rfl

theorem bigIntOfString_negativeHex {digits : List Char}
    (allDigits : digits.all Hex.isDigit = true) :
    bigIntOfString (String.ofList ('-' :: '0' :: 'x' :: digits)) = none := by
  have trimmed : trim ('-' :: '0' :: 'x' :: digits) =
      '-' :: '0' :: 'x' :: digits := by
    apply trim_of_visible
    intro char member
    rcases List.mem_cons.mp member with rfl | member
    · decide
    rcases List.mem_cons.mp member with rfl | member
    · decide
    rcases List.mem_cons.mp member with rfl | member
    · decide
    exact not_isWhiteSpace_of_isDigit (List.all_eq_true.mp allDigits char member)
  rw [bigIntOfString, String.toList_ofList, trimmed]
  simp only [parseDigits]
  rfl

/-- Text of an address has no hexadecimal form of its own. -/
theorem Utils.toHex_of_regex {cryptography : Cryptography} {text : String}
    (valid : Validator.qrlAddressRegex text = true) :
    Utils.toHex cryptography text =
      if Validator.isAddressString cryptography text true then
        Utils.addressToHex cryptography text
      else .ok (Utils.utf8ToHex text) := by
  rw [Validator.qrlAddressRegex] at valid
  split at valid
  · cases valid
  · rename_i letter body chars
    simp only [Bool.and_eq_true, Bool.or_eq_true, beq_iff_eq] at valid
    have notHex : Validator.isHexStrict text = false := by
      rcases valid.1.1 with rfl | rfl <;>
        simp [Validator.isHexStrict, chars]
    have notDigits : Validator.isHex text = false := by
      rcases valid.1.1 with rfl | rfl <;>
        simp [Validator.isHex, chars, Hex.isDigit, Hex.digitValue]
    have noSign : (['-', '0', 'x'].isPrefixOf text.toList ||
        ['-', '0', 'X'].isPrefixOf text.toList) = false := by
      rcases valid.1.1 with rfl | rfl <;> simp [chars, List.isPrefixOf]
    rw [Utils.toHex, if_neg (by simp [noSign]), if_neg (by simp [notHex]),
      if_neg (by simp [notDigits])]

theorem length_le_size_utf8Encode (chars : List Char) :
    chars.length ≤ chars.utf8Encode.size := by
  induction chars with
  | nil => exact Nat.zero_le _
  | cons char chars induction =>
      have one : 1 ≤ [char].utf8Encode.size := by
        rw [List.utf8Encode_singleton, List.size_toByteArray,
          String.length_utf8EncodeChar]
        exact char.utf8Size_pos
      rw [List.utf8Encode_cons, ByteArray.size_append, List.length_cons]
      omega

theorem length_le_length_utf8Bytes (text : String) :
    text.toList.length ≤ (utf8Bytes text).length := by
  have encoded : text.toByteArray = text.toList.utf8Encode := by
    rw [← String.toByteArray_ofList, String.ofList_toList]
  rw [utf8Bytes, encoded, Array.length_toList]
  exact length_le_size_utf8Encode text.toList

theorem length_byteArrayToList (bytes : ByteArray) :
    bytes.toList.length = bytes.size := by
  have loop : ∀ index (read : List UInt8), index ≤ bytes.size →
      (ByteArray.toList.loop bytes index read).length + index =
        bytes.size + read.length := by
    intro index read
    fun_induction ByteArray.toList.loop bytes index read with
    | case1 index read more induction =>
        intro _
        have later := induction more
        rw [List.length_cons] at later
        omega
    | case2 index read done =>
        intro within
        rw [List.length_reverse]
        omega
  exact loop 0 [] (Nat.zero_le _)

/-- Text is at least as long in bytes, but for a null character at either
end. -/
theorem Utils.utf8ToHex_bytes (text : String) :
    ∃ bytes : Bytes, Utils.utf8ToHex text = hexlify bytes ∧
      text.length ≤ bytes.length + 2 := by
  have dropped : ∀ chars : List Char, chars.length ≤
      (if chars.head? = some (Char.ofNat 0) then chars.tail
        else chars).length + 1 := by
    intro chars
    split
    · rw [List.length_tail]
      omega
    · omega
  refine ⟨_, rfl, ?_⟩
  rw [length_byteArrayToList, String.toUTF8_eq_toByteArray,
    String.toByteArray_ofList, ← String.length_toList]
  refine le_trans (le_trans (dropped text.toList) ?_)
    (Nat.add_le_add_right (length_le_size_utf8Encode _) 2)
  rw [List.length_reverse]
  have second := dropped (List.reverse
    (if text.toList.head? = some (Char.ofNat 0) then text.toList.tail
      else text.toList))
  rw [List.length_reverse] at second
  exact Nat.succ_le_succ second

end Readings

end Web3Js
