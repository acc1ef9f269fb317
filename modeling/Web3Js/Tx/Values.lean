import Web3Js.Lib.Outcome
import Web3Js.Lib.Rlp
import Web3Js.Numbers

/-!
# Values of transaction fields

A field arrives as text, a number, a byte string, an address object or, from
decoded data, a nested array.  `toUint8Array` makes bytes of all of them; the
numbers of a transaction are read from these bytes and written back without
leading zeros.
-/

namespace Web3Js.Tx

/-- The address object, whose length its constructor checks. -/
structure Address where
  buf : Bytes
  width : buf.length = 64

namespace Address

def new (buf : Bytes) : Except String Address :=
  if width : buf.length = 64 then .ok ⟨buf, width⟩
  else .error "Invalid address length"

def toString (address : Address) : Except String String :=
  Utils.hexToAddress (hexlify address.buf)

@[simp] theorem new_buf (address : Address) : new address.buf = .ok address := by
  simp [new, address.width]

theorem new_eq_ok {buf : Bytes} {address : Address}
    (made : new buf = .ok address) : address.buf = buf := by
  unfold new at made
  split at made
  · cases made
    rfl
  · cases made

end Address

inductive Input
  | undefined
  | null
  | bytes (content : Bytes)
  | array (elements : List Rlp.Item)
  | text (content : String)
  | number (value : Int)
  /-- A number that is no integer, by its text. -/
  | fraction (text : String)
  | bigint (value : Int)
  | address (address : Address)

namespace Input

def isArray : Input → Bool
  | .array _ => true
  | _ => false

/-- `value === '' ? '0x' : value` -/
def emptyAsHex : Input → Input
  | .text content => if content = "" then .text "0x" else .text content
  | input => input

/-- A decoded item as the value of a field. -/
def ofItem : Rlp.Item → Input
  | .bytes content => .bytes content
  | .list items => .array items

end Input

section Conversions

/-- The byte that `Uint8Array.from` stores for a nested element: the text of
an array of at most one element is the text of that element, and any other
array is no number. -/
def elementByte : Rlp.Item → UInt8
  | .bytes [byte] => byte
  | .bytes _ => 0
  | .list [element] => elementByte element
  | .list _ => 0

/-- `toUint8Array` of a string. -/
def textToUint8Array (text : String) : Except String Bytes :=
  if Validator.isHexString text then
    match Hex.decode (Hex.padToEven (text.toList.drop 2)) with
    | some bytes => .ok bytes
    | none => .error "Invalid hex string"
  else
    .error ("Cannot convert string to Uint8Array. only supports 0x-prefixed " ++
      "hex strings and this string was given: " ++ text)

def toUint8Array : Input → Except String Bytes
  | .undefined | .null => .ok []
  | .bytes content => .ok content
  | .array elements => .ok (elements.map elementByte)
  | .text content => textToUint8Array content
  | .number value =>
      if (Validator.maxSafeInteger : Int) < value then
        .error (Utils.validationMessage "int" (toString value))
      else if value < 0 then
        textToUint8Array
          (String.ofList ('-' :: '0' :: 'x' :: Hex.digits value.natAbs))
      else textToUint8Array (Utils.bigIntToHex value.toNat)
  | .fraction text => .error (Utils.validationMessage "int" text)
  | .bigint value =>
      if value < 0 then
        .error ("Cannot convert negative bigint to Uint8Array. Given: " ++
          toString value)
      else textToUint8Array (Utils.bigIntToHex value.toNat)
  | .address address => .ok address.buf

def uint8ArrayToBigInt (buf : Bytes) : Nat := BigEndian.toNat buf

/-- The bytes of `0x${num.toString(16)}`, padded to whole bytes. -/
def bigIntToUint8Array (number : Nat) : Bytes :=
  (Hex.decode (Hex.padToEven (Hex.digits number))).getD []

def bigIntToUnpaddedUint8Array (number : Nat) : Bytes :=
  BigEndian.stripZeros (bigIntToUint8Array number)

/-- The number of a field. -/
def readNumber (input : Input) : Except String Nat := do
  let buf ← toUint8Array input.emptyAsHex
  .ok (uint8ArrayToBigInt buf)

end Conversions

section Rules

theorem textToUint8Array_digits {digits : List Char}
    (allDigits : digits.all Hex.isDigit = true) :
    ∃ bytes, textToUint8Array (String.ofList ('0' :: 'x' :: digits)) =
        .ok bytes ∧
      Hex.decode (Hex.padToEven digits) = some bytes ∧
      BigEndian.toNat bytes = Hex.numeral digits := by
  obtain ⟨bytes, read, value, -⟩ := Hex.decode_padToEven allDigits
  refine ⟨bytes, ?_, read, value⟩
  simp [textToUint8Array, Validator.isHexString, allDigits, read]

theorem textToUint8Array_bigIntToHex (number : Nat) :
    textToUint8Array (Utils.bigIntToHex number) =
        .ok (bigIntToUint8Array number) ∧
      BigEndian.toNat (bigIntToUint8Array number) = number := by
  obtain ⟨bytes, converted, read, value⟩ :=
    textToUint8Array_digits (Hex.isDigit_digits number)
  have own : bigIntToUint8Array number = bytes := by
    rw [bigIntToUint8Array, read]
    rfl
  rw [own, value, Hex.numeral_digits]
  exact ⟨converted, rfl⟩

theorem textToUint8Array_hexlify (bytes : Bytes) :
    textToUint8Array (hexlify bytes) = .ok bytes := by
  have even : (Hex.encode bytes).length % 2 = 0 := by simp
  simp [textToUint8Array, Validator.isHexString, hexlify, Hex.isDigit_encode,
    Hex.padToEven]

@[simp] theorem toNat_bigIntToUnpaddedUint8Array (number : Nat) :
    BigEndian.toNat (bigIntToUnpaddedUint8Array number) = number := by
  rw [bigIntToUnpaddedUint8Array, BigEndian.toNat_stripZeros]
  exact (textToUint8Array_bigIntToHex number).2

theorem canonical_bigIntToUnpaddedUint8Array (number : Nat) :
    BigEndian.Canonical (bigIntToUnpaddedUint8Array number) :=
  BigEndian.canonical_stripZeros _

/-- Writing a number that was read from bytes without a leading zero gives
these bytes back. -/
theorem bigIntToUnpaddedUint8Array_toNat {bytes : Bytes}
    (canonical : BigEndian.Canonical bytes) :
    bigIntToUnpaddedUint8Array (BigEndian.toNat bytes) = bytes :=
  (canonical_bigIntToUnpaddedUint8Array _).eq_of_toNat_eq canonical
    (toNat_bigIntToUnpaddedUint8Array _)

theorem readNumber_bigint (number : Nat) :
    readNumber (.bigint number) = .ok number := by
  obtain ⟨converted, value⟩ := textToUint8Array_bigIntToHex number
  have notNegative : ¬(number : Int) < 0 := by omega
  have plain : (Input.bigint number).emptyAsHex = .bigint number := rfl
  rw [readNumber, plain, toUint8Array, if_neg notNegative,
    Int.toNat_natCast, converted, Outcome.ok_bind, uint8ArrayToBigInt, value]

theorem readNumber_bytes (bytes : Bytes) :
    readNumber (.bytes bytes) = .ok (BigEndian.toNat bytes) := rfl

theorem emptyAsHex_hex (digits : List Char) :
    (Input.text (String.ofList ('0' :: 'x' :: digits))).emptyAsHex =
      .text (String.ofList ('0' :: 'x' :: digits)) := by
  simp [Input.emptyAsHex]

theorem readNumber_bigIntToHex (number : Nat) :
    readNumber (.text (Utils.bigIntToHex number)) = .ok number := by
  obtain ⟨converted, value⟩ := textToUint8Array_bigIntToHex number
  rw [readNumber, Utils.bigIntToHex, emptyAsHex_hex, toUint8Array]
  rw [Utils.bigIntToHex] at converted
  rw [converted, Outcome.ok_bind, uint8ArrayToBigInt, value]

theorem toUint8Array_hexlify (bytes : Bytes) :
    toUint8Array (Input.text (hexlify bytes)).emptyAsHex = .ok bytes := by
  rw [hexlify, emptyAsHex_hex, toUint8Array, ← hexlify,
    textToUint8Array_hexlify]

end Rules

end Web3Js.Tx
