import Web3Js.Address
import Web3Js.Lib.BloomFilter

/-!
# Bloom filters of logs

A bloom is 512 hexadecimal digits of one letter case, with or without a
prefix.  A value is looked up by three positions that its hash selects.  The
bits found in the digits are the bits of the number that the digits denote.
-/

namespace Web3Js

namespace Validator

/-- `/^(0x)?[…]{512}$/` for a class of prefix letters and one of digits. -/
def bloomRegex (isPrefix isBloomDigit : Char → Bool) (bloom : String) : Bool :=
  let matchesDigits (digits : List Char) : Bool :=
    digits.length == 512 && digits.all isBloomDigit
  match bloom.toList with
  | '0' :: x :: digits =>
      (isPrefix x && matchesDigits digits) ||
        matchesDigits ('0' :: x :: digits)
  | digits => matchesDigits digits

def isLowerDigit (char : Char) : Bool :=
  char.isDigit || ('a' ≤ char && char ≤ 'f')

def isUpperDigit (char : Char) : Bool :=
  char.isDigit || ('A' ≤ char && char ≤ 'F')

def isBloom (bloom : String) : Bool :=
  if !bloomRegex (fun x => x == 'x' || x == 'X') Hex.isDigit bloom then
    false
  else
    bloomRegex (· == 'x') isLowerDigit bloom ||
      bloomRegex (· == 'x') isUpperDigit bloom

def codePointToInt (codePoint : Nat) : Except String Nat :=
  if 48 ≤ codePoint ∧ codePoint ≤ 57 then
    .ok (codePoint - 48)
  else if 65 ≤ codePoint ∧ codePoint ≤ 70 then
    .ok (codePoint - 55)
  else if 97 ≤ codePoint ∧ codePoint ≤ 102 then
    .ok (codePoint - 87)
  else
    .error s!"Invalid code point: {codePoint}"

/-- The message of `InvalidBytesError`. -/
def invalidBytes (value : String) : String :=
  "Invalid value given \"" ++ value ++
    "\". Error: can not parse as byte data."

def hexToUint8Array (hex : String) : Except String Bytes :=
  let value :=
    match hex.toList with
    | '0' :: 'x' :: digits | '0' :: 'X' :: digits => digits
    | text => text
  if value.length % 2 ≠ 0 then
    .error (invalidBytes ("hex string has odd length: " ++ hex))
  else
    match Hex.decode value with
    | some bytes => .ok bytes
    | none => .error (invalidBytes ("Invalid hex string: " ++ hex))

inductive BloomValue where
  | text (content : String)
  | bytes (content : Bytes)
  deriving DecidableEq, Repr

/-- `parseInt(hash.slice(start, start + 2), 16)`, `none` for `NaN`. -/
def parsePair (hash : List Char) (start : Nat) : Option Nat :=
  match (hash.drop start).take 2 with
  | [] => none
  | digits => some (Hex.numeral digits)

/-- A `NaN` counts as zero in a shift and in a conjunction. -/
def bitPosition (hash : List Char) (start : Nat) : Nat :=
  match parsePair hash (start + 2) with
  | some low => (((parsePair hash start).getD 0 <<< 8) + low) &&& 2047
  | none => 0

def isBitSet (bloom : String) (bitpos : Nat) : Except String Bool :=
  -- `bloom.charCodeAt(bloom.length - 1 - Math.floor(bitpos / 4))`
  match bloom.toList.reverse[bitpos / 4]? with
  | none => .error "Invalid code point: NaN"
  | some char => do
      let code ← codePointToInt char.toNat
      let offset := 1 <<< (bitpos % 4)
      pure (code &&& offset == offset)

/-- The loop over the bit positions that start at the given digits. -/
def areBitsSet (bloom : String) (hash : List Char) :
    List Nat → Except String Bool
  | [] => .ok true
  | start :: starts => do
      if ← isBitSet bloom (bitPosition hash start) then
        areBitsSet bloom hash starts
      else
        pure false

def isInBloom (cryptography : Cryptography) (bloom : String)
    (value : BloomValue) : Except String Bool :=
  let rejected : Bool :=
    match value with
    | .text content => !isHexStrict content
    | .bytes _ => false
  if rejected then .ok false
  else if !isBloom bloom then .ok false
  else do
    let uint8Array ←
      match value with
      | .text content => hexToUint8Array content
      | .bytes content => pure content
    areBitsSet bloom (Hex.encode (cryptography.keccak256 uint8Array)) [0, 4, 8]

section Reference

/-- The low 11 bits of a 16-bit word of a hash. -/
def referenceBit (hash : Bytes) (word : Nat) : Nat :=
  BigEndian.toNat ((hash.drop (2 * word)).take 2) % 2048

/-- The bits of the first three words of the hash of a byte string. -/
def referenceBits (cryptography : Cryptography) (content : Bytes) : List Nat :=
  [0, 1, 2].map (referenceBit (cryptography.keccak256 content))

def bloomDigits (bloom : String) : List Char :=
  match bloom.toList with
  | '0' :: 'x' :: digits => digits
  | digits => digits

/-- The 2048-bit big-endian number that a bloom is written as. -/
def bloomNumber (bloom : String) : Nat := Hex.numeral (bloomDigits bloom)

/-- A value stands for a byte string when it is its bytes or their
hexadecimal text. -/
def BloomValue.Denotes (content : Bytes) : BloomValue → Prop
  | .bytes stored => stored = content
  | .text written => ∃ x digits, written.toList = '0' :: x :: digits ∧
      (x = 'x' ∨ x = 'X') ∧ Hex.decode digits = some content

end Reference

section Digits

theorem isDigit_of_isLowerDigit {char : Char}
    (digit : isLowerDigit char = true) : Hex.isDigit char = true := by
  rw [isLowerDigit, Bool.or_eq_true, Bool.and_eq_true, decide_eq_true_iff,
    decide_eq_true_iff] at digit
  rcases digit with decimal | lower
  · exact Hex.isDigit_of_decimal decimal
  · simp only [Hex.isDigit, Hex.digitValue, lower, and_self, if_true]
    split
    · rfl
    · rfl

theorem isDigit_of_isUpperDigit {char : Char}
    (digit : isUpperDigit char = true) : Hex.isDigit char = true := by
  rw [isUpperDigit, Bool.or_eq_true, Bool.and_eq_true, decide_eq_true_iff,
    decide_eq_true_iff] at digit
  rcases digit with decimal | upper
  · exact Hex.isDigit_of_decimal decimal
  · simp only [Hex.isDigit, Hex.digitValue, upper, and_self, if_true]
    split
    · rfl
    · split
      · rfl
      · rfl

/-- The number of a digit is the value of its code point. -/
theorem codePointToInt_of_digitValue {char : Char} {value : Nat}
    (read : Hex.digitValue char = some value) :
    codePointToInt char.toNat = .ok value := by
  unfold Hex.digitValue at read
  rw [codePointToInt]
  split_ifs at read with decimal lower upper
  · have within : 48 ≤ char.toNat ∧ char.toNat ≤ 57 := decimal
    rw [if_pos within, Option.some.inj read]
  · have within : 97 ≤ char.toNat ∧ char.toNat ≤ 102 := lower
    rw [if_neg (by omega), if_neg (by omega), if_pos within,
      Option.some.inj read]
  · have within : 65 ≤ char.toNat ∧ char.toNat ≤ 70 := upper
    rw [if_neg (by omega), if_pos within, Option.some.inj read]

/-- A text of the expression has its digits behind the prefix, or it has no
prefix. -/
theorem bloomRegex_cases {isPrefix isBloomDigit : Char → Bool}
    {bloom : String} (found : bloomRegex isPrefix isBloomDigit bloom = true) :
    (∃ x digits, bloom.toList = '0' :: x :: digits ∧ isPrefix x = true ∧
        digits.length = 512 ∧ digits.all isBloomDigit = true) ∨
      (bloom.toList.length = 512 ∧ bloom.toList.all isBloomDigit = true) := by
  simp only [bloomRegex] at found
  split at found
  · rename_i x digits chars
    simp only [Bool.or_eq_true, Bool.and_eq_true, beq_iff_eq] at found
    rcases found with ⟨isPrefix, length, allDigits⟩ | plain
    · exact .inl ⟨x, digits, chars, isPrefix, length, allDigits⟩
    · rw [chars]
      exact .inr plain
  · rw [Bool.and_eq_true, beq_iff_eq] at found
    exact .inr found

theorem bloomDigits_of_bloomRegex {isBloomDigit : Char → Bool}
    (isDigit : ∀ char, isBloomDigit char = true → Hex.isDigit char = true)
    {bloom : String}
    (found : bloomRegex (· == 'x') isBloomDigit bloom = true) :
    (bloomDigits bloom).length = 512 ∧
      (bloomDigits bloom).all Hex.isDigit = true ∧
      ∃ front, bloom.toList = front ++ bloomDigits bloom := by
  have weaken : ∀ {digits : List Char}, digits.all isBloomDigit = true →
      digits.all Hex.isDigit = true := by
    intro digits allDigits
    rw [List.all_eq_true] at allDigits ⊢
    exact fun char member => isDigit char (allDigits char member)
  rcases bloomRegex_cases found with
    ⟨x, digits, chars, isPrefix, length, allDigits⟩ | ⟨length, allDigits⟩
  · have letter : x = 'x' := eq_of_beq isPrefix
    subst letter
    have behind : bloomDigits bloom = digits := by
      simp only [bloomDigits, chars]
    rw [behind]
    exact ⟨length, weaken allDigits, ['0', 'x'], chars⟩
  · have plain : bloomDigits bloom = bloom.toList := by
      rw [bloomDigits]
      split
      · rename_i digits chars
        have digit := weaken allDigits
        rw [chars, List.all_cons, List.all_cons] at digit
        have letter : Hex.isDigit 'x' = false := by decide
        rw [letter] at digit
        simp at digit
      · rfl
    rw [plain]
    exact ⟨length, weaken allDigits, [], rfl⟩

/-- A bloom ends in the 512 digits of its number. -/
theorem bloomDigits_of_isBloom {bloom : String} (valid : isBloom bloom = true) :
    (bloomDigits bloom).length = 512 ∧
      (bloomDigits bloom).all Hex.isDigit = true ∧
      ∃ front, bloom.toList = front ++ bloomDigits bloom := by
  rw [isBloom] at valid
  split at valid
  · cases valid
  · rcases Bool.or_eq_true_iff.mp valid with lower | upper
    · exact bloomDigits_of_bloomRegex
        (fun _ => isDigit_of_isLowerDigit) lower
    · exact bloomDigits_of_bloomRegex
        (fun _ => isDigit_of_isUpperDigit) upper

/-- The bit that the character of a position is tested for is the bit of the
number. -/
theorem isBitSet_eq {bloom : String} (valid : isBloom bloom = true)
    {bitpos : Nat} (small : bitpos < 2048) :
    isBitSet bloom bitpos = .ok ((bloomNumber bloom).testBit bitpos) := by
  obtain ⟨length, allDigits, front, chars⟩ := bloomDigits_of_isBloom valid
  have covered : bitpos / 4 < (bloomDigits bloom).reverse.length := by
    rw [List.length_reverse, length]
    omega
  have member : (bloomDigits bloom).reverse[bitpos / 4] ∈ bloomDigits bloom :=
    List.mem_reverse.mp (List.getElem_mem covered)
  obtain ⟨code, read⟩ := Option.isSome_iff_exists.mp
    (List.all_eq_true.mp allDigits _ member)
  have found : (bloomDigits bloom).reverse[bitpos / 4]? =
      some (bloomDigits bloom).reverse[bitpos / 4] :=
    List.getElem?_eq_getElem covered
  have foundInText : bloom.toList.reverse[bitpos / 4]? =
      some (bloomDigits bloom).reverse[bitpos / 4] := by
    rw [chars, List.reverse_append, List.getElem?_append_left covered, found]
  rw [bloomNumber, BloomFilter.testBit_numeral, found]
  simp only [isBitSet, foundInText, codePointToInt_of_digitValue read,
    Option.bind_some, read, Option.getD_some, Nat.one_shiftLeft,
    Nat.and_two_pow]
  have positive : 2 ^ (bitpos % 4) ≠ 0 := (Nat.two_pow_pos _).ne'
  cases set : code.testBit (bitpos % 4) with
  | false =>
      simp [bind, Except.bind, pure, Except.pure, set, positive.symm]
  | true => simp [bind, Except.bind, pure, Except.pure, set]

end Digits

section Hash

theorem numeral_encodeByte (byte : UInt8) :
    Hex.numeral (Hex.encodeByte byte) = byte.toNat := by
  have read := Hex.decode_encode_bytes [byte]
  rw [Hex.encode_cons, Hex.encode_nil, List.append_nil] at read
  rw [← Hex.toNat_of_decode read]
  simp [BigEndian.toNat]

/-- A pair of digits of a hash is one of its bytes. -/
theorem parsePair_encode (before : Bytes) (byte : UInt8) (behind : Bytes) :
    parsePair (Hex.encode (before ++ byte :: behind)) (2 * before.length) =
      some byte.toNat := by
  have dropped : (Hex.encode (before ++ byte :: behind)).drop
      (2 * before.length) = Hex.encodeByte byte ++ Hex.encode behind := by
    rw [Hex.encode_append, ← Hex.length_encode, List.drop_left,
      Hex.encode_cons]
  have taken : ((Hex.encode (before ++ byte :: behind)).drop
      (2 * before.length)).take 2 = Hex.encodeByte byte := by
    rw [dropped]
    rfl
  rw [← numeral_encodeByte, parsePair, taken]
  rfl

/-- The position that starts at a word of the hash is its reference bit. -/
theorem bitPosition_encode (before : Bytes) (high low : UInt8)
    (behind : Bytes) :
    bitPosition (Hex.encode (before ++ high :: low :: behind))
        (2 * before.length) =
      (256 * high.toNat + low.toNat) % 2048 := by
  have first := parsePair_encode before high (low :: behind)
  have second := parsePair_encode (before ++ [high]) low behind
  rw [List.append_assoc, List.length_append, List.length_singleton,
    Nat.mul_succ] at second
  have second' : parsePair (Hex.encode (before ++ high :: low :: behind))
      (2 * before.length + 2) = some low.toNat := second
  have low11 := Nat.and_two_pow_sub_one_eq_mod
    (high.toNat * 2 ^ 8 + low.toNat) 11
  rw [bitPosition, second', first]
  simp only [Option.getD_some, Nat.shiftLeft_eq]
  rw [show (2047 : Nat) = 2 ^ 11 - 1 from rfl, low11]
  congr 1
  omega

theorem referenceBit_append (before : Bytes) (high low : UInt8)
    (behind : Bytes) {word : Nat} (length : before.length = 2 * word) :
    referenceBit (before ++ high :: low :: behind) word =
      (256 * high.toNat + low.toNat) % 2048 := by
  rw [referenceBit, ← length, List.drop_left]
  have number : BigEndian.toNat [high, low] =
      256 * high.toNat + low.toNat := by
    simp [BigEndian.toNat, Nat.mul_comm]
  rw [← number]
  rfl

theorem bitPosition_eq_referenceBit {hash : Bytes} {word : Nat}
    (covers : 2 * word + 2 ≤ hash.length) :
    bitPosition (Hex.encode hash) (4 * word) = referenceBit hash word := by
  obtain ⟨before, rest, whole, length⟩ : ∃ before rest,
      hash = before ++ rest ∧ before.length = 2 * word :=
    ⟨hash.take (2 * word), hash.drop (2 * word),
      (List.take_append_drop _ _).symm, by
        rw [List.length_take]
        omega⟩
  subst whole
  rw [List.length_append, length] at covers
  rcases rest with _ | ⟨high, _ | ⟨low, behind⟩⟩
  · simp at covers
  · simp at covers
  · have start : 4 * word = 2 * before.length := by omega
    rw [start, bitPosition_encode, referenceBit_append _ _ _ _ length]

end Hash

section Lookup

variable {cryptography : Cryptography}

theorem referenceBit_lt (hash : Bytes) (word : Nat) :
    referenceBit hash word < 2048 :=
  Nat.mod_lt _ (by decide)

/-- The loop asks for every bit in turn. -/
theorem areBitsSet_eq {bloom : String} (valid : isBloom bloom = true)
    {hash : Bytes} (words : List Nat)
    (covers : ∀ word ∈ words, 2 * word + 2 ≤ hash.length) :
    areBitsSet bloom (Hex.encode hash) (words.map (4 * ·)) =
      .ok (words.all fun word =>
        (bloomNumber bloom).testBit (referenceBit hash word)) := by
  induction words with
  | nil => rfl
  | cons word words induction =>
      have here := covers word List.mem_cons_self
      have behind := induction fun other member =>
        covers other (List.mem_cons_of_mem word member)
      rw [List.map_cons, areBitsSet, bitPosition_eq_referenceBit here,
        isBitSet_eq valid (referenceBit_lt hash word), List.all_cons, behind]
      cases (bloomNumber bloom).testBit (referenceBit hash word) with
      | false => rfl
      | true => rfl

/-- A value that stands for bytes is looked up by the bytes. -/
theorem isInBloom_of_denotes {bloom : String} (valid : isBloom bloom = true)
    {value : BloomValue} {content : Bytes} (denotes : value.Denotes content) :
    isInBloom cryptography bloom value =
      areBitsSet bloom (Hex.encode (cryptography.keccak256 content))
        [0, 4, 8] := by
  cases value with
  | bytes stored =>
      have same : stored = content := denotes
      subst same
      simp only [isInBloom, valid]
      rfl
  | text written =>
      obtain ⟨x, digits, chars, letter, read⟩ := denotes
      have allDigits := Hex.isDigit_of_decode read
      have strict : isHexStrict written = true := by
        simp [isHexStrict, chars, letter, allDigits]
      have even : digits.length % 2 = 0 := by
        rw [Hex.length_of_decode read]
        omega
      have bytes : hexToUint8Array written = .ok content := by
        rcases letter with lower | upper
        · subst lower
          simp [hexToUint8Array, chars, even, read]
        · subst upper
          simp [hexToUint8Array, chars, even, read]
      simp only [isInBloom, strict, valid, bytes]
      rfl

/-- A lookup in a valid bloom is membership in the reference filter. -/
theorem isInBloom_eq (width : cryptography.KeccakWidth) {bloom : String}
    (valid : isBloom bloom = true) {value : BloomValue} {content : Bytes}
    (denotes : value.Denotes content) :
    isInBloom cryptography bloom value =
      .ok (decide (BloomFilter.Member (referenceBits cryptography)
        (bloomNumber bloom) content)) := by
  have covers : ∀ word ∈ [0, 1, 2],
      2 * word + 2 ≤ (cryptography.keccak256 content).length := by
    intro word member
    have small : word ≤ 2 := by
      simp only [List.mem_cons, List.not_mem_nil, or_false] at member
      omega
    rw [width content]
    omega
  have looked := areBitsSet_eq valid [0, 1, 2] covers
  rw [isInBloom_of_denotes valid denotes]
  refine looked.trans (congrArg _ ?_)
  rw [Bool.eq_iff_iff, decide_eq_true_iff, List.all_eq_true,
    BloomFilter.Member, referenceBits, List.forall_mem_map]

end Lookup

section Rendering

/-- The text of a bloom number, with or without the prefix and in either
letter case. -/
def bloomText (withPrefix capitals : Bool) (number : Nat) : String :=
  let digits := Hex.encode (BigEndian.ofNat 256 number)
  String.ofList ((if withPrefix then ['0', 'x'] else []) ++
    if capitals then digits.map Char.toUpper else digits)

private theorem digitChar_spec :
    ∀ value : Fin 16,
      isLowerDigit (Nat.digitChar value) = true ∧
        isUpperDigit (Nat.digitChar value).toUpper = true ∧
        Hex.digitValue (Nat.digitChar value).toUpper = some value.val := by
  decide

theorem all_encode {property : Char → Bool}
    (holds : ∀ value < 16, property (Nat.digitChar value) = true)
    (bytes : Bytes) : (Hex.encode bytes).all property = true := by
  induction bytes with
  | nil => rfl
  | cons byte bytes induction =>
      have small : byte.toNat < 256 := byte.toNat_lt
      have high := holds (byte.toNat / 16) (by omega)
      have low := holds (byte.toNat % 16) (by omega)
      simp [Hex.encodeByte, high, low, induction]

theorem decode_toUpper_encode (bytes : Bytes) :
    Hex.decode ((Hex.encode bytes).map Char.toUpper) = some bytes := by
  induction bytes with
  | nil => rfl
  | cons byte bytes induction =>
      have small : byte.toNat < 256 := byte.toNat_lt
      have high := (digitChar_spec ⟨byte.toNat / 16, by omega⟩).2.2
      have low := (digitChar_spec ⟨byte.toNat % 16, by omega⟩).2.2
      have whole :
          UInt8.ofNat (16 * (byte.toNat / 16) + byte.toNat % 16) = byte := by
        rw [Nat.div_add_mod]
        simp
      simp only [Hex.encode_cons, Hex.encodeByte, List.cons_append,
        List.nil_append, List.map_cons, Hex.decode, high, low, induction,
        Option.bind_eq_bind, Option.bind_some, whole]
      rfl

/-- The digits of a rendering are of its letter case and denote its number. -/
theorem bloomText_digits (withPrefix capitals : Bool) {number : Nat}
    (small : number < 2 ^ 2048) :
    ∃ digits : List Char,
      (bloomText withPrefix capitals number).toList =
        (if withPrefix then ['0', 'x'] else []) ++ digits ∧
      digits.length = 512 ∧
      (digits.all isLowerDigit = true ∨ digits.all isUpperDigit = true) ∧
      Hex.numeral digits = number := by
  have width : (2 ^ 8) ^ 256 = 2 ^ 2048 := by
    rw [← pow_mul]
  have value : BigEndian.toNat (BigEndian.ofNat 256 number) = number :=
    BigEndian.toNat_ofNat_of_lt (lt_of_lt_of_eq small width.symm)
  cases capitals with
  | false =>
      refine ⟨Hex.encode (BigEndian.ofNat 256 number), ?_, ?_, .inl ?_, ?_⟩
      · simp [bloomText]
      · rw [Hex.length_encode, BigEndian.length_ofNat]
      · exact all_encode (fun value below => (digitChar_spec ⟨value, below⟩).1)
          _
      · rw [← Hex.toNat_of_decode (Hex.decode_encode_bytes _), value]
  | true =>
      refine ⟨(Hex.encode (BigEndian.ofNat 256 number)).map Char.toUpper, ?_,
        ?_, .inr ?_, ?_⟩
      · simp [bloomText]
      · rw [List.length_map, Hex.length_encode, BigEndian.length_ofNat]
      · rw [List.all_map]
        exact all_encode
          (fun value below => (digitChar_spec ⟨value, below⟩).2.1) _
      · rw [← Hex.toNat_of_decode (decode_toUpper_encode _), value]

theorem bloomRegex_of_digits {isPrefix isBloomDigit : Char → Bool}
    (prefixLetter : isPrefix 'x' = true) {bloom : String} {withPrefix : Bool}
    {digits : List Char}
    (chars : bloom.toList = (if withPrefix then ['0', 'x'] else []) ++ digits)
    (length : digits.length = 512)
    (allDigits : digits.all isBloomDigit = true) :
    bloomRegex isPrefix isBloomDigit bloom = true := by
  rw [bloomRegex]
  cases withPrefix with
  | true =>
      have spelled : bloom.toList = '0' :: 'x' :: digits := chars
      simp only [spelled, prefixLetter, length, allDigits, Bool.true_and,
        BEq.rfl, Bool.true_or]
  | false =>
      have spelled : bloom.toList = digits := chars
      simp only [spelled]
      split
      · simp only [length, allDigits, BEq.rfl, Bool.true_and, Bool.or_true]
      · simp only [length, allDigits, BEq.rfl, Bool.true_and]

theorem isBloom_bloomText (withPrefix capitals : Bool) {number : Nat}
    (small : number < 2 ^ 2048) :
    isBloom (bloomText withPrefix capitals number) = true := by
  obtain ⟨digits, chars, length, cased, -⟩ :=
    bloomText_digits withPrefix capitals small
  have weaken : ∀ {isBloomDigit : Char → Bool},
      (∀ char, isBloomDigit char = true → Hex.isDigit char = true) →
      digits.all isBloomDigit = true → digits.all Hex.isDigit = true := by
    intro isBloomDigit isDigit allDigits
    rw [List.all_eq_true] at allDigits ⊢
    exact fun char member => isDigit char (allDigits char member)
  have hexDigits : digits.all Hex.isDigit = true := by
    rcases cased with lower | upper
    · exact weaken (fun _ => isDigit_of_isLowerDigit) lower
    · exact weaken (fun _ => isDigit_of_isUpperDigit) upper
  rw [isBloom, bloomRegex_of_digits rfl chars length hexDigits]
  rcases cased with lower | upper
  · rw [bloomRegex_of_digits rfl chars length lower]
    rfl
  · have found : bloomRegex (· == 'x') isUpperDigit
        (bloomText withPrefix capitals number) = true :=
      bloomRegex_of_digits rfl chars length upper
    rw [found, Bool.or_true]
    rfl

theorem bloomNumber_bloomText (withPrefix capitals : Bool) {number : Nat}
    (small : number < 2 ^ 2048) :
    bloomNumber (bloomText withPrefix capitals number) = number := by
  obtain ⟨digits, chars, length, -, denoted⟩ :=
    bloomText_digits withPrefix capitals small
  have valid := isBloom_bloomText withPrefix capitals small
  obtain ⟨fullLength, -, front, whole⟩ := bloomDigits_of_isBloom valid
  have same : bloomDigits (bloomText withPrefix capitals number) = digits :=
    (List.append_inj' (whole.symm.trans chars)
      (fullLength.trans length.symm)).2
  rw [bloomNumber, same, denoted]

end Rendering

/-- A lookup is membership in the reference filter, so a bloom that holds the
bits of some values reports each of them. -/
theorem isInBloom_iff_reference {cryptography : Cryptography}
    (width : cryptography.KeccakWidth) :
    (∀ bloom value content, isBloom bloom = true →
        BloomValue.Denotes content value →
        ((isInBloom cryptography bloom value = .ok true ↔
            ∀ bit ∈ referenceBits cryptography content,
              (bloomNumber bloom).testBit bit = true) ∧
          ∃ found, isInBloom cryptography bloom value = .ok found)) ∧
      ∀ (contents : List Bytes) (withPrefix capitals : Bool),
        isBloom (bloomText withPrefix capitals (BloomFilter.build
            (referenceBits cryptography) contents)) = true ∧
          ∀ value, ∀ content ∈ contents, BloomValue.Denotes content value →
            isInBloom cryptography (bloomText withPrefix capitals
              (BloomFilter.build (referenceBits cryptography) contents))
              value = .ok true := by
  have lookup : ∀ bloom value content, isBloom bloom = true →
      BloomValue.Denotes content value →
      (isInBloom cryptography bloom value = .ok true ↔
        BloomFilter.Member (referenceBits cryptography) (bloomNumber bloom)
          content) := by
    intro bloom value content valid denotes
    rw [isInBloom_eq width valid denotes, Except.ok.injEq,
      decide_eq_true_iff]
  constructor
  · intro bloom value content valid denotes
    exact ⟨lookup bloom value content valid denotes,
      _, isInBloom_eq width valid denotes⟩
  · intro contents withPrefix capitals
    have bounded : ∀ content, ∀ bit ∈ referenceBits cryptography content,
        bit < 2048 := by
      intro content bit selected
      rw [referenceBits] at selected
      obtain ⟨word, -, rfl⟩ := List.mem_map.mp selected
      exact referenceBit_lt _ word
    have small : BloomFilter.build (referenceBits cryptography) contents <
        2 ^ 2048 := BloomFilter.build_lt contents bounded
    have valid := isBloom_bloomText withPrefix capitals small
    refine ⟨valid, ?_⟩
    intro value content listed denotes
    rw [lookup _ value content valid denotes,
      bloomNumber_bloomText withPrefix capitals small]
    exact BloomFilter.member_build listed

section Example

/-- The hash of no bytes. -/
def hashOfEmpty : Bytes :=
  [0xc5, 0xd2, 0x46, 0x01, 0x86, 0xf7, 0x23, 0x3c, 0x92, 0x7e, 0x7d, 0xb2,
   0xdc, 0xc7, 0x03, 0xc0, 0xe5, 0x00, 0xb6, 0x53, 0xca, 0x82, 0x27, 0x3b,
   0x7b, 0xfa, 0xd8, 0x04, 0x5d, 0x85, 0xa4, 0x70]

/-- The hash of `0x0102`. -/
def hashOfPair : Bytes :=
  [0x22, 0xae, 0x6d, 0xa6, 0xb4, 0x82, 0xf9, 0xb1, 0xb1, 0x9b, 0x0b, 0x89,
   0x7c, 0x3f, 0xd4, 0x38, 0x84, 0x18, 0x0a, 0x1c, 0x5e, 0xe3, 0x61, 0xe1,
   0x10, 0x7a, 0x1b, 0xc6, 0x35, 0x64, 0x9d, 0xda]

def pairHashed : Cryptography where
  shake256 _ dkLen := List.replicate dkLen 0
  keccak256 input :=
    if input = [] then hashOfEmpty
    else if input = [1, 2] then hashOfPair
    else List.replicate 32 1
  utf8ToBytes := utf8Bytes
  bytesToUtf8 bytes := String.fromUTF8? ⟨bytes.toArray⟩

theorem pairHashed_keccakWidth : pairHashed.KeccakWidth := by
  intro input
  simp only [pairHashed]
  split
  · rfl
  · split
    · rfl
    · rfl

/-- The bloom of two byte strings, looked up by the text of one. -/
theorem isInBloom_pair :
    referenceBits pairHashed [1, 2] = [686, 1446, 1154] ∧
      isInBloom pairHashed
        (bloomText true false
          (BloomFilter.build (referenceBits pairHashed) [[], [1, 2]]))
        (.text "0x0102") = .ok true := by
  have denotes : BloomValue.Denotes [1, 2] (.text "0x0102") :=
    ⟨'x', ['0', '1', '0', '2'], rfl, .inl rfl, rfl⟩
  have listed : [1, 2] ∈ [[], [(1 : UInt8), 2]] :=
    List.mem_cons_of_mem [] List.mem_cons_self
  exact ⟨by decide +kernel,
    ((isInBloom_iff_reference pairHashed_keccakWidth).2
      [[], [1, 2]] true false).2 (.text "0x0102") [1, 2] listed denotes⟩

end Example

end Validator

end Web3Js
