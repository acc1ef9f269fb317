import Web3Js.Address

/-!
# Conversions of addresses

A hexadecimal text without a sign becomes the address of its bytes, with
zeros in front.  A sign is admitted as well and ends up between the zeros and
the digits, so that the result is no address.  The checksummed form depends on
the bytes of an address alone.
-/

namespace Web3Js

namespace Utils

variable {cryptography : Cryptography}

/-- The bytes that a prefixed text without a sign denotes, a single digit in
front being a byte of its own. -/
def hexContent (value : String) : Option Bytes :=
  match value.toList with
  | '0' :: _ :: digits => Hex.decode (Hex.padToEven digits)
  | _ => none

/-- The address of a value is an address string, and it stands for the bytes
of the value behind zeros. -/
structure HexToAddressCoherent (cryptography : Cryptography)
    (value address : String) : Prop where
  isAddress : Validator.isAddressString cryptography address true = true
  sameBytes : ∃ bytes, hexContent value = some bytes ∧
    addressToHex cryptography address =
      .ok (hexlify (List.replicate (64 - bytes.length) 0 ++ bytes))

/-- The checksummed form of an address is its own checksummed form and that of
every other spelling, has the bytes of the address and passes the check. -/
structure ChecksumCoherent (cryptography : Cryptography)
    (text checksum : String) : Prop where
  computed : toChecksumAddress cryptography text = .ok checksum
  idempotent : toChecksumAddress cryptography checksum = .ok checksum
  sameBytes : ∃ bytes, bytes.length = 64 ∧
    addressContent text = some bytes ∧ addressContent checksum = some bytes
  caseIndependent : ∀ other, Validator.qrlAddressRegex other = true →
    other.toList.map Char.toLower = text.toList.map Char.toLower →
      toChecksumAddress cryptography other = .ok checksum
  passes : Validator.checkAddressCheckSum cryptography checksum = true

section HexToAddress

/-- Zeros in front make up for the digit that padding adds. -/
theorem zeros_append_padToEven {digits : List Char} {half : Nat}
    (length : (Hex.padToEven digits).length = 2 * half) (zeros : Nat)
    (fits : digits.length ≤ zeros) (even : zeros % 2 = 0) :
    List.replicate (zeros - 2 * half) '0' ++ Hex.padToEven digits =
      List.replicate (zeros - digits.length) '0' ++ digits := by
  rw [Hex.padToEven] at length ⊢
  split at length
  · rename_i odd
    rw [if_pos odd]
    rw [List.length_cons] at length
    have front : zeros - digits.length = (zeros - 2 * half) + 1 := by omega
    rw [front, List.replicate_succ', List.append_assoc]
    rfl
  · rename_i odd
    rw [if_neg odd, length]

theorem toLower_padToEven (digits : List Char) :
    (Hex.padToEven digits).map Char.toLower =
      Hex.padToEven (digits.map Char.toLower) := by
  rw [Hex.padToEven, Hex.padToEven, List.length_map]
  split
  · rfl
  · rfl

/-- A text of digits without a sign becomes the address of its bytes. -/
theorem hexToAddress_unsigned {value address : String} {x : Char}
    {digits : List Char} (chars : value.toList = '0' :: x :: digits)
    (prefixLetter : (x == 'x' || x == 'X') = true)
    (allDigits : digits.all Hex.isDigit = true)
    (accepted : hexToAddress value = .ok address) :
    ∃ bytes, hexContent value = some bytes ∧ bytes.length ≤ 64 ∧
      address = addressText
        (List.replicate (64 - bytes.length) 0 ++ bytes) := by
  have strict : Validator.isHexStrict value = true := by
    simp [Validator.isHexStrict, chars, prefixLetter, allDigits]
  have lowerLetter : x.toLower = 'x' := by
    rcases Bool.or_eq_true_iff.mp prefixLetter with lower | upper
    · rw [eq_of_beq lower]
      rfl
    · rw [eq_of_beq upper]
      rfl
  have stripped : stripHexPrefix value = digits.map Char.toLower := by
    have lower : value.toList.map Char.toLower =
        '0' :: 'x' :: digits.map Char.toLower := by
      rw [chars, List.map_cons, List.map_cons, lowerLetter]
      rfl
    simp only [stripHexPrefix, lower]
  rw [hexToAddress, if_pos strict] at accepted
  simp only [stripped, List.length_map] at accepted
  split at accepted
  · cases accepted
  · rename_i fits
    obtain ⟨bytes, read, -, width⟩ := Hex.decode_padToEven allDigits
    have length := Hex.length_of_decode read
    have bound : digits.length ≤ 128 := not_lt.mp fits
    refine ⟨bytes, ?_, by omega, ?_⟩
    · simp only [hexContent, chars, read]
    · have lowerLength :
          (Hex.padToEven (digits.map Char.toLower)).length =
            2 * bytes.length := by
        rw [← toLower_padToEven, List.length_map, length]
      have body := zeros_append_padToEven lowerLength 128
        (by rw [List.length_map]; exact bound) rfl
      have zeros : 2 * (64 - bytes.length) = 128 - 2 * bytes.length := by
        omega
      rw [addressText, Hex.encode_append, Hex.encode_replicate_zero, zeros,
        Hex.encode_of_decode read, toLower_padToEven, body, List.length_map]
      exact (Except.ok.inj accepted).symm

/-- The sign of a text ends up in the address. -/
theorem hexToAddress_signed {value address : String} {rest : List Char}
    (chars : value.toList = '-' :: rest)
    (accepted : hexToAddress value = .ok address) :
    Validator.qrlAddressRegex address = false := by
  have stripped : stripHexPrefix value = '-' :: rest.map Char.toLower := by
    have lower : value.toList.map Char.toLower =
        '-' :: rest.map Char.toLower := by
      rw [chars]
      rfl
    simp only [stripHexPrefix, lower]
    rfl
  rw [hexToAddress] at accepted
  split at accepted
  · simp only [stripped] at accepted
    split at accepted
    · cases accepted
    · cases accepted
      have sign : Hex.isDigit '-' = false := by decide
      simp [Validator.qrlAddressRegex, sign]
  · cases accepted

/-- An accepted value coheres with its address when it has no sign. -/
theorem hexToAddress_coherent_iff {value address : String}
    (accepted : hexToAddress value = .ok address) :
    HexToAddressCoherent cryptography value address ↔
      value.toList.head? ≠ some '-' := by
  constructor
  · intro coherent signed
    obtain ⟨rest, chars⟩ := List.head?_eq_some_iff.mp signed
    have structural := coherent.isAddress
    rw [Validator.isAddressString, hexToAddress_signed chars accepted] at structural
    cases structural
  · intro unsigned
    have strict : Validator.isHexStrict value = true := by
      by_contra loose
      rw [hexToAddress, if_neg loose] at accepted
      cases accepted
    rw [Validator.isHexStrict] at strict
    split at strict
    · rename_i chars
      rw [chars] at unsigned
      exact absurd rfl unsigned
    · rename_i chars
      obtain ⟨letter, allDigits⟩ := Bool.and_eq_true_iff.mp strict
      obtain ⟨bytes, content, width, whole⟩ :=
        hexToAddress_unsigned chars letter allDigits accepted
      have full :
          (List.replicate (64 - bytes.length) 0 ++ bytes).length = 64 := by
        rw [List.length_append, List.length_replicate]
        omega
      subst whole
      constructor
      · exact Validator.isAddressString_addressText cryptography full true
      · exact ⟨bytes, content, addressToHex_addressText cryptography full⟩
    · cases strict

end HexToAddress

section Checksum

private theorem isDigit_toUpper_code :
    ∀ code : Fin 128, 'a' ≤ Char.ofNat code ∧ Char.ofNat code ≤ 'f' →
      Hex.isDigit (Char.ofNat code).toUpper = true := by
  decide +kernel

theorem isDigit_toUpper {char : Char} (low : 'a' ≤ char) (high : char ≤ 'f') :
    Hex.isDigit char.toUpper = true := by
  have bound : char.toNat ≤ 'f'.toNat := high
  have small : char.toNat < 128 := lt_of_le_of_lt bound (by decide)
  have restored : Char.ofNat char.toNat = char := Char.ofNat_toNat char
  have general := isDigit_toUpper_code ⟨char.toNat, small⟩
  simp only [restored] at general
  exact general ⟨low, high⟩

theorem isDigit_checksumBody {body hash : List Char}
    (digits : body.all Hex.isDigit = true) :
    (Validator.checksumBody body hash).all Hex.isDigit = true := by
  induction body generalizing hash with
  | nil => rfl
  | cons char body induction =>
      rw [List.all_cons, Bool.and_eq_true] at digits
      rw [Validator.checksumBody, List.all_cons, induction digits.2,
        Bool.and_true]
      split
      · rename_i raised
        exact isDigit_toUpper raised.1 raised.2.1
      · exact digits.1

theorem length_checksumBody (body hash : List Char) :
    (Validator.checksumBody body hash).length = body.length := by
  induction body generalizing hash with
  | nil => rfl
  | cons char body induction =>
      rw [Validator.checksumBody, List.length_cons, induction,
        List.length_cons]

/-- The checksummed form depends on the bytes alone. -/
theorem checksummed_of_content {text : String} {bytes : Bytes}
    (written : Hex.encode bytes = text.toList.tail.map Char.toLower) :
    Validator.checksummed cryptography text.toList =
      canonicalAddress cryptography bytes := by
  rw [canonicalAddress, Validator.checksummed, Validator.checksummed,
    List.tail_cons, Hex.toLower_encode, written]

theorem toChecksumAddress_of_content {text : String} {bytes : Bytes}
    (valid : Validator.qrlAddressRegex text = true)
    (written : Hex.encode bytes = text.toList.tail.map Char.toLower) :
    toChecksumAddress cryptography text =
      .ok (canonicalAddress cryptography bytes) := by
  have structural :
      Validator.isAddressString cryptography text false = true := by
    rw [Validator.isAddressString, valid]
    rfl
  rw [toChecksumAddress, if_pos structural, Validator.toChecksumAddress,
    if_pos valid, checksummed_of_content written]

/-- The checksummed form is a structurally valid spelling of its bytes. -/
theorem canonicalAddress_spec (cryptography : Cryptography) {bytes : Bytes}
    (width : bytes.length = 64) :
    Validator.qrlAddressRegex (canonicalAddress cryptography bytes) = true ∧
      Hex.encode bytes =
        (canonicalAddress cryptography bytes).toList.tail.map
          Char.toLower := by
  have lower := Hex.toLower_encode bytes
  constructor
  · simp [Validator.qrlAddressRegex, canonicalAddress, Validator.checksummed,
      Validator.qrlAddressHexLength, length_checksumBody,
      isDigit_checksumBody, Hex.isDigit_encode, width]
  · rw [canonicalAddress, Validator.checksummed, String.toList_ofList,
      List.tail_cons, List.tail_cons, lower,
      Validator.toLower_checksumBody lower]

/-- Every structurally valid address has a coherent checksummed form. -/
theorem exists_checksumCoherent (cryptography : Cryptography) {text : String}
    (valid : Validator.qrlAddressRegex text = true) :
    ∃ checksum, ChecksumCoherent cryptography text checksum := by
  obtain ⟨bytes, content, width, written⟩ := exists_addressContent valid
  obtain ⟨checksumValid, checksumWritten⟩ :=
    canonicalAddress_spec cryptography width
  refine ⟨canonicalAddress cryptography bytes, ?_⟩
  constructor
  · exact toChecksumAddress_of_content valid written
  · exact toChecksumAddress_of_content checksumValid checksumWritten
  · obtain ⟨others, otherContent, -, otherWritten⟩ :=
      exists_addressContent checksumValid
    have same : others = bytes :=
      Hex.encode_injective (otherWritten.trans checksumWritten.symm)
    exact ⟨bytes, width, content, same ▸ otherContent⟩
  · intro other otherValid sameText
    apply toChecksumAddress_of_content otherValid
    rw [written, List.map_tail, List.map_tail, sameText]
  · rw [Validator.checkAddressCheckSum, if_pos checksumValid,
      checksummed_of_content checksumWritten]
    simp

end Checksum

/-- Address conversions are coherent for every accepted value without a sign
and for every structurally valid address. -/
theorem address_conversions_coherent_iff (cryptography : Cryptography)
    {value address text : String}
    (accepted : hexToAddress value = .ok address)
    (valid : Validator.qrlAddressRegex text = true) :
    (HexToAddressCoherent cryptography value address ∧
        ∃ checksum, ChecksumCoherent cryptography text checksum) ↔
      value.toList.head? ≠ some '-' := by
  constructor
  · intro coherent
    exact (hexToAddress_coherent_iff accepted).mp coherent.1
  · intro unsigned
    exact ⟨(hexToAddress_coherent_iff accepted).mpr unsigned,
      exists_checksumCoherent cryptography valid⟩

/-- The digit one, and an address in capitals. -/
theorem address_conversions_coherent_digit :
    (HexToAddressCoherent Cryptography.simple "0x1"
          (String.ofList ('Q' :: (List.replicate 127 '0' ++ ['1']))) ∧
        ∃ checksum, ChecksumCoherent Cryptography.simple
          (String.ofList ('Q' :: List.replicate 128 'A')) checksum) ↔
      "0x1".toList.head? ≠ some '-' :=
  address_conversions_coherent_iff Cryptography.simple
    (by decide +kernel) (by decide +kernel)

/-- A signed value becomes a text that is no address. -/
theorem hexToAddress_keeps_sign :
    ∃ address, hexToAddress "-0x1" = .ok address ∧
      ¬ HexToAddressCoherent Cryptography.simple "-0x1" address := by
  refine ⟨String.ofList
    ('Q' :: (List.replicate 124 '0' ++ ['-', '0', 'x', '1'])), ?_, ?_⟩
  · decide +kernel
  · intro coherent
    have accepted : hexToAddress "-0x1" = .ok (String.ofList
        ('Q' :: (List.replicate 124 '0' ++ ['-', '0', 'x', '1']))) := by
      decide +kernel
    exact (hexToAddress_coherent_iff accepted).mp coherent (by decide +kernel)

end Utils

end Web3Js
