import Web3Js.Cryptography
import Web3Js.Numbers

/-!
# Hashing text and bytes

`sha3` takes text or bytes.  Text that reads as strict hexadecimal with a
lower-case prefix is hashed by the bytes it spells, any other text by its
UTF-8.
-/

namespace Web3Js.Utils

inductive HashInput where
  | text (data : String)
  | bytes (data : Bytes)

def sha3EmptyBytes : String :=
  "0xc5d2460186f7233c927e7db2dcc703c0e500b653ca82273b7bfad8045d85a470"

/-- The bytes that are hashed. -/
def updatedData (cryptography : Cryptography) :
    HashInput → Except String Bytes
  | .text data =>
      if "0x".toList.isPrefixOf data.toList && Validator.isHexStrict data then
        hexToBytes data
      else .ok (cryptography.utf8ToBytes data)
  | .bytes data => .ok data

/-- `undefined` for the hash of no bytes. -/
def sha3 (cryptography : Cryptography) (data : HashInput) :
    Except String (Option String) := do
  let updatedData ← updatedData cryptography data
  let hash := hexlify (cryptography.keccak256 updatedData)
  pure (if hash = sha3EmptyBytes then none else some hash)

def sha3Raw (cryptography : Cryptography) (data : HashInput) :
    Except String String := do
  let hash ← sha3 cryptography data
  pure (hash.getD sha3EmptyBytes)

theorem sha3Raw_eq (cryptography : Cryptography) (data : HashInput) :
    sha3Raw cryptography data =
      (updatedData cryptography data).map fun bytes =>
        hexlify (cryptography.keccak256 bytes) := by
  rw [sha3Raw, sha3]
  cases updatedData cryptography data with
  | error message => rfl
  | ok bytes =>
      by_cases isEmpty :
          hexlify (cryptography.keccak256 bytes) = sha3EmptyBytes
      · change Except.ok (Option.getD (if _ then none else some _) _) = _
        rw [if_pos isEmpty, Option.getD_none, Except.map, isEmpty]
      · change Except.ok (Option.getD (if _ then none else some _) _) = _
        rw [if_neg isEmpty, Option.getD_some, Except.map]

/-- The digits of text that is read as hexadecimal. -/
def hexDigits? (text : String) : Option (List Char) :=
  match text.toList with
  | '0' :: 'x' :: digits =>
      if digits.all Hex.isDigit then some digits else none
  | _ => none

theorem toList_of_hexDigits {text : String} {digits : List Char}
    (found : hexDigits? text = some digits) :
    text.toList = '0' :: 'x' :: digits ∧ digits.all Hex.isDigit = true := by
  unfold hexDigits? at found
  split at found
  · rename_i rest chars
    split at found
    · rename_i allDigits
      cases found
      exact ⟨chars, allDigits⟩
    · cases found
  · cases found

theorem hexDigits_hexlify (bytes : Bytes) :
    hexDigits? (hexlify bytes) = some (Hex.encode bytes) := by
  rw [hexDigits?, hexlify, String.toList_ofList]
  exact if_pos (Hex.isDigit_encode bytes)

/-- The bytes that a text is hashed by. -/
def readText (text : String) : Option Bytes :=
  match hexDigits? text with
  | some digits => Hex.decode digits
  | none => some (utf8Bytes text)

private theorem isHexStrict_of_digits {text : String} {digits : List Char}
    (chars : text.toList = '0' :: 'x' :: digits) :
    Validator.isHexStrict text = digits.all Hex.isDigit := by
  rw [Validator.isHexStrict, chars]
  rfl

theorem hexToBytes_of_digits {text : String} {digits : List Char}
    (chars : text.toList = '0' :: 'x' :: digits) :
    hexToBytes text = match Hex.decode digits with
      | some bytes => .ok bytes
      | none => .error (validationMessage "bytes" text) := by
  simp only [hexToBytes, hexToUint8Array, chars]
  rfl

/-- Digits without a prefix. -/
theorem hexToBytes_of_hexDigits {digits : List Char} {bytes : Bytes}
    (read : Hex.decode digits = some bytes) :
    hexToBytes (String.ofList digits) = .ok bytes := by
  have allDigits := Hex.isDigit_of_decode read
  unfold hexToBytes
  rw [String.toList_ofList]
  split
  · rw [List.all_cons, List.all_cons] at allDigits
    cases allDigits
  · rw [List.all_cons, List.all_cons] at allDigits
    cases allDigits
  · unfold hexToUint8Array
    rw [String.toList_ofList]
    simp only [true_or, if_true, read]

/-- Hashing succeeds on text that can be read, and hashes what is read. -/
theorem updatedData_text {cryptography : Cryptography}
    (utf8 : cryptography.EncodesUtf8) (text : String) :
    updatedData cryptography (.text text) = match readText text with
      | some bytes => .ok bytes
      | none => .error (validationMessage "bytes" text) := by
  unfold updatedData readText
  cases found : hexDigits? text with
  | some digits =>
      obtain ⟨chars, allDigits⟩ := toList_of_hexDigits found
      have strict : Validator.isHexStrict text = true := by
        rw [isHexStrict_of_digits chars, allDigits]
      have isPrefix : "0x".toList.isPrefixOf text.toList = true := by
        rw [chars]
        rfl
      simp only [isPrefix, strict, Bool.and_self, if_true]
      exact hexToBytes_of_digits chars
  | none =>
      have notHex : ("0x".toList.isPrefixOf text.toList &&
          Validator.isHexStrict text) = false := by
        rw [Bool.and_eq_false_iff]
        by_contra both
        rw [not_or, Bool.not_eq_false, Bool.not_eq_false] at both
        obtain ⟨isPrefix, strict⟩ := both
        obtain ⟨digits, chars⟩ := List.isPrefixOf_iff_prefix.mp isPrefix
        change '0' :: 'x' :: digits = text.toList at chars
        rw [isHexStrict_of_digits chars.symm] at strict
        have digitsFound : hexDigits? text = some digits := by
          rw [hexDigits?, ← chars]
          exact if_pos strict
        rw [digitsFound] at found
        cases found
      simp only [notHex, Bool.false_eq_true, if_false, utf8 text]

end Web3Js.Utils
