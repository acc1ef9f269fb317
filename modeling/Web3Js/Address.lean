import Web3Js.Cryptography
import Web3Js.Lib.Hex

/-!
# Address strings

An address is the letter `Q` and 128 hexadecimal digits.  A body of one letter
case is accepted as it is; one of mixed case must be the checksummed form.
The checksummed form of the address of a byte string is its canonical text.
-/

namespace Web3Js

namespace Validator

def qrlAddressHexLength : Nat := 128

def qrlChecksumBits : Nat := 512

/-- `/^Q[0-9a-f]{128}$/i` -/
def qrlAddressRegex (data : String) : Bool :=
  match data.toList with
  | [] => false
  | letter :: body =>
      (letter == 'Q' || letter == 'q') &&
        body.length == qrlAddressHexLength && body.all Hex.isDigit

/-- The body digits under the digits of the hash, a missing one reading as
`NaN`. -/
def checksumBody : List Char → List Char → List Char
  | [], _ => []
  | char :: body, hash =>
      let raised := (hash.head?.bind Hex.digitValue).any (8 ≤ ·)
      (if 'a' ≤ char ∧ char ≤ 'f' ∧ raised then char.toUpper else char) ::
        checksumBody body hash.tail

def checksummed (cryptography : Cryptography) (data : List Char) : String :=
  let lowerBody := data.tail.map Char.toLower
  let hash := cryptography.shake256
    (cryptography.utf8ToBytes (String.ofList lowerBody)) (qrlChecksumBits / 8)
  String.ofList ('Q' :: checksumBody lowerBody (Hex.encode hash))

def toChecksumAddress (cryptography : Cryptography) (data : String) :
    Except String String :=
  if qrlAddressRegex data then
    .ok (checksummed cryptography data.toList)
  else
    .error "invalid qrl address"

def checkAddressCheckSum (cryptography : Cryptography) (data : String) :
    Bool :=
  if qrlAddressRegex data then
    let body := data.toList.tail
    body == body.map Char.toLower || body == body.map Char.toUpper ||
      data == checksummed cryptography data.toList
  else
    false

def isAddressString (cryptography : Cryptography) (value : String)
    (checkChecksum : Bool) : Bool :=
  qrlAddressRegex value &&
    (!checkChecksum || checkAddressCheckSum cryptography value)

/-- `/^((-)?0x[0-9a-f]+|(0x))$/i` -/
def isHexStrict (hex : String) : Bool :=
  match hex.toList with
  | '-' :: '0' :: x :: digits =>
      (x == 'x' || x == 'X') && !digits.isEmpty && digits.all Hex.isDigit
  | '0' :: x :: digits => (x == 'x' || x == 'X') && digits.all Hex.isDigit
  | _ => false

def addressToHex (cryptography : Cryptography) (value : String) :
    Except String String :=
  if isAddressString cryptography value true then
    -- The letter in front is an upper- or lower-case `q`.
    .ok (String.ofList
      ('0' :: 'x' :: (value.toList.map Char.toLower).tail))
  else
    .error "Invalid address string"

end Validator

/-- `hexlify` of a byte string. -/
def hexlify (bytes : Bytes) : String :=
  String.ofList ('0' :: 'x' :: Hex.encode bytes)

/-- The canonical text of the address of a byte string. -/
def canonicalAddress (cryptography : Cryptography) (bytes : Bytes) : String :=
  Validator.checksummed cryptography ('Q' :: Hex.encode bytes)

namespace Utils

/-- The message of the schema validator for one string of the wrong format. -/
def validationMessage (format value : String) : String :=
  "Web3 validator found 1 error[s]:\nvalue \"" ++ value ++
    "\" at \"/0\" must pass \"" ++ format ++ "\" validation"

/-- `value.toLowerCase().replace(/^0x/i, '')` -/
def stripHexPrefix (value : String) : List Char :=
  match value.toList.map Char.toLower with
  | '0' :: 'x' :: digits => digits
  | text => text

def hexToAddress (value : String) : Except String String :=
  if Validator.isHexStrict value then
    let hex := stripHexPrefix value
    if Validator.qrlAddressHexLength < hex.length then
      .error "invalid qrl address"
    else
      .ok (String.ofList
        ('Q' :: (List.replicate
          (Validator.qrlAddressHexLength - hex.length) '0' ++ hex)))
  else
    .error (validationMessage "hex" value)

def addressToHex (cryptography : Cryptography) (value : String) :
    Except String String :=
  if Validator.isAddressString cryptography value true then
    Validator.addressToHex cryptography value
  else
    .error (validationMessage "address" value)

def toChecksumAddress (cryptography : Cryptography) (address : String) :
    Except String String :=
  if Validator.isAddressString cryptography address false then
    Validator.toChecksumAddress cryptography address
  else
    .error "invalid qrl address"

end Utils

section Rules

variable {cryptography : Cryptography}

theorem Validator.qrlAddressRegex_encode {bytes : Bytes}
    (length : bytes.length = 64) :
    Validator.qrlAddressRegex (String.ofList ('Q' :: Hex.encode bytes)) =
      true := by
  simp [Validator.qrlAddressRegex, Validator.qrlAddressHexLength, length,
    Hex.isDigit_encode]

/-- An address string stands for 64 bytes, which its hex form spells out. -/
theorem Validator.addressToHex_eq_ok {value hex : String}
    (accepted : Validator.addressToHex cryptography value = .ok hex) :
    ∃ bytes : Bytes, bytes.length = 64 ∧ hex = hexlify bytes := by
  unfold Validator.addressToHex at accepted
  split at accepted
  · rename_i valid
    cases accepted
    simp only [Validator.isAddressString, Bool.and_eq_true,
      Validator.qrlAddressRegex] at valid
    cases text : value.toList with
    | nil => simp [text] at valid
    | cons letter body =>
        simp only [text, Bool.and_eq_true, beq_iff_eq] at valid
        obtain ⟨⟨⟨-, length⟩, digits⟩, -⟩ := valid
        obtain ⟨bytes, read, bytesLength⟩ :=
          Hex.exists_decode 64 length digits
        refine ⟨bytes, bytesLength, ?_⟩
        simp [hexlify, Hex.encode_of_decode read]
  · cases accepted

theorem Utils.addressToHex_eq_ok {value hex : String}
    (accepted : Utils.addressToHex cryptography value = .ok hex) :
    Validator.addressToHex cryptography value = .ok hex := by
  unfold Utils.addressToHex at accepted
  split at accepted
  · exact accepted
  · cases accepted

/-- The lower-case text of the address of a byte string. -/
def addressText (bytes : Bytes) : String :=
  String.ofList ('Q' :: Hex.encode bytes)

theorem Utils.hexToAddress_hexlify {bytes : Bytes}
    (length : bytes.length = 64) :
    Utils.hexToAddress (hexlify bytes) = .ok (addressText bytes) := by
  have strict : Validator.isHexStrict (hexlify bytes) = true := by
    simp [Validator.isHexStrict, hexlify, Hex.isDigit_encode]
  have stripped : Utils.stripHexPrefix (hexlify bytes) = Hex.encode bytes := by
    have lower : ('0' :: 'x' :: Hex.encode bytes).map Char.toLower =
        '0' :: 'x' :: Hex.encode bytes := by
      simp only [List.map_cons, Hex.toLower_encode]
      rfl
    simp only [Utils.stripHexPrefix, hexlify, String.toList_ofList, lower]
  simp [Utils.hexToAddress, strict, stripped, Validator.qrlAddressHexLength,
    length, addressText]

/-- Text of one letter case passes the checksum. -/
theorem Validator.isAddressString_addressText (cryptography : Cryptography)
    {bytes : Bytes} (length : bytes.length = 64) (checkChecksum : Bool) :
    Validator.isAddressString cryptography (addressText bytes)
      checkChecksum = true := by
  have valid : Validator.qrlAddressRegex (addressText bytes) = true :=
    Validator.qrlAddressRegex_encode length
  have chars : (addressText bytes).toList = 'Q' :: Hex.encode bytes :=
    String.toList_ofList
  simp [Validator.isAddressString, Validator.checkAddressCheckSum, valid,
    chars]

theorem Utils.addressToHex_addressText (cryptography : Cryptography)
    {bytes : Bytes} (length : bytes.length = 64) :
    Utils.addressToHex cryptography (addressText bytes) =
      .ok (hexlify bytes) := by
  have valid :=
    Validator.isAddressString_addressText cryptography length true
  rw [Utils.addressToHex, if_pos valid, Validator.addressToHex, if_pos valid]
  simp [addressText, hexlify]

/-- The text of a full-width byte string leads to its canonical address. -/
theorem Utils.toChecksumAddress_hexToAddress (cryptography : Cryptography)
    {bytes : Bytes} (length : bytes.length = 64) :
    (Utils.hexToAddress (hexlify bytes) >>=
        Utils.toChecksumAddress cryptography) =
      .ok (canonicalAddress cryptography bytes) := by
  have valid : Validator.qrlAddressRegex (addressText bytes) = true :=
    Validator.qrlAddressRegex_encode length
  rw [Utils.hexToAddress_hexlify length]
  simp only [bind, Except.bind, Utils.toChecksumAddress,
    Validator.isAddressString_addressText cryptography length false, if_true,
    Validator.toChecksumAddress, valid]
  rw [addressText, String.toList_ofList, canonicalAddress]

section Content

/-- The bytes that the digits of an address stand for. -/
def addressContent (text : String) : Option Bytes :=
  if Validator.qrlAddressRegex text then Hex.decode text.toList.tail else none

private theorem toLower_toUpper_digit :
    ∀ code : Fin 128, 'a' ≤ Char.ofNat code ∧ Char.ofNat code ≤ 'f' →
      (Char.ofNat code).toUpper.toLower = Char.ofNat code := by
  decide +kernel

theorem toLower_toUpper_of_hexLetter {char : Char}
    (low : 'a' ≤ char) (high : char ≤ 'f') :
    char.toUpper.toLower = char := by
  have bound : char.toNat ≤ 'f'.toNat := high
  have small : char.toNat < 128 := lt_of_le_of_lt bound (by decide)
  have restored : Char.ofNat char.toNat = char := Char.ofNat_toNat char
  have general := toLower_toUpper_digit ⟨char.toNat, small⟩
  simp only [restored] at general
  exact general ⟨low, high⟩

/-- A checksummed body is the body up to letter case. -/
theorem Validator.toLower_checksumBody {body hash : List Char}
    (lower : body.map Char.toLower = body) :
    (Validator.checksumBody body hash).map Char.toLower = body := by
  induction body generalizing hash with
  | nil => rfl
  | cons char body induction =>
      obtain ⟨charLower, bodyLower⟩ := List.cons.inj lower
      rw [Validator.checksumBody, List.map_cons, induction bodyLower]
      congr 1
      split
      · rename_i raised
        exact toLower_toUpper_of_hexLetter raised.1 raised.2.1
      · exact charLower

theorem exists_addressContent {text : String}
    (valid : Validator.qrlAddressRegex text = true) :
    ∃ bytes, addressContent text = some bytes ∧ bytes.length = 64 ∧
      Hex.encode bytes = text.toList.tail.map Char.toLower := by
  rw [addressContent, if_pos valid]
  rw [Validator.qrlAddressRegex] at valid
  split at valid
  · cases valid
  · rename_i letter body chars
    simp only [Bool.and_eq_true, beq_iff_eq] at valid
    obtain ⟨⟨-, length⟩, digits⟩ := valid
    obtain ⟨bytes, read, width⟩ := Hex.exists_decode 64 length digits
    rw [chars]
    exact ⟨bytes, read, width, Hex.encode_of_decode read⟩

/-- Texts with one checksummed form stand for the same bytes. -/
theorem addressContent_of_checksum {left right checksum : String}
    (leftRead : Utils.toChecksumAddress cryptography left = .ok checksum)
    (rightRead : Utils.toChecksumAddress cryptography right = .ok checksum) :
    ∃ bytes, addressContent left = some bytes ∧
      addressContent right = some bytes := by
  have body : ∀ text : String,
      Utils.toChecksumAddress cryptography text = .ok checksum →
        ∃ bytes, addressContent text = some bytes ∧
          checksum.toList.tail.map Char.toLower = Hex.encode bytes := by
    intro text read
    rw [Utils.toChecksumAddress] at read
    split at read
    · rw [Validator.toChecksumAddress] at read
      split at read
      · rename_i valid
        cases read
        obtain ⟨bytes, content, -, written⟩ := exists_addressContent valid
        refine ⟨bytes, content, ?_⟩
        rw [Validator.checksummed, String.toList_ofList, List.tail_cons,
          ← written]
        exact Validator.toLower_checksumBody (Hex.toLower_encode bytes)
      · cases read
    · cases read
  obtain ⟨leftBytes, leftContent, leftBody⟩ := body left leftRead
  obtain ⟨rightBytes, rightContent, rightBody⟩ := body right rightRead
  have same : leftBytes = rightBytes :=
    Hex.encode_injective (leftBody.symm.trans rightBody)
  exact ⟨leftBytes, leftContent, same ▸ rightContent⟩

/-- The hexadecimal form of an address has the digits of the address. -/
theorem addressContent_of_addressToHex {text hex : String}
    (read : Validator.addressToHex cryptography text = .ok hex) :
    ∃ bytes, addressContent text = some bytes ∧ bytes.length = 64 ∧
      hex = hexlify bytes := by
  rw [Validator.addressToHex] at read
  split at read
  · rename_i valid
    cases read
    rw [Validator.isAddressString, Bool.and_eq_true] at valid
    obtain ⟨bytes, content, width, written⟩ := exists_addressContent valid.1
    refine ⟨bytes, content, width, ?_⟩
    rw [hexlify, written, List.map_tail]
  · cases read

end Content

end Rules

end Web3Js
