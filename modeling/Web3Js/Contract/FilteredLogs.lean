import Web3Js.Abi.Inputs
import Web3Js.Contract.EventFilters

/-!
# What event filters select

The topics of a filter admit exactly the logs of the event whose indexed values
are among the given ones, whatever representation these have.
-/

namespace Web3Js.Contract

open Abi (AbiInput AbiType AbiValue EventInput Externals Value codeUnits
  elementaryType encodeParameter encodeParameters formatElementary
  formatOddHexstrings formatParam indexedInputs isIndexedHash isOddHexstring
  rightPad textType verifyType)

/-! ## The texts of hashes -/

section Hashes

theorem hexlify_eq_iff {left right : Bytes} :
    hexlify left = hexlify right ↔ left = right := by
  constructor
  · intro same
    have chars := congrArg String.toList same
    rw [hexlify, hexlify, String.toList_ofList, String.toList_ofList] at chars
    exact Hex.encode_injective
      (List.tail_eq_of_cons_eq (List.tail_eq_of_cons_eq chars))
  · exact congrArg hexlify

theorem codeUnits_hexDigits {text : List Char}
    (digits : text.all Hex.isDigit = true) (front : List Char)
    (plain : ∀ char ∈ front, char.toNat < 65536) :
    codeUnits (String.ofList (front ++ text)) = front.length + text.length := by
  have single : ∀ char ∈ front ++ text,
      (if char.toNat < 65536 then 1 else 2) = 1 := by
    intro char member
    apply if_pos
    rcases List.mem_append.mp member with inFront | inText
    · exact plain char inFront
    · have digit := List.all_eq_true.mp digits char inText
      obtain ⟨value, read⟩ := Option.isSome_iff_exists.mp digit
      exact Nat.lt_trans (Hex.toNat_lt_of_digitValue read) (by decide)
  rw [codeUnits, String.toList_ofList, List.map_congr_left single,
    List.map_const', List.sum_replicate_nat, Nat.mul_one, List.length_append]

theorem isHexStrict_hexlify (bytes : Bytes) :
    Validator.isHexStrict (hexlify bytes) = true := by
  rw [Validator.isHexStrict, hexlify, String.toList_ofList]
  exact Hex.isDigit_encode bytes

theorem isIntString_hexlify {bytes : Bytes} (width : bytes.length = 32) :
    Validator.isIntString (hexlify bytes) = true := by
  have nonempty : Hex.encode bytes ≠ [] := by
    intro blank
    have length := Hex.length_encode bytes
    rw [blank, width] at length
    cases length
  have small : Hex.numeral (Hex.encode bytes) < 256 ^ 32 := by
    rw [← Hex.toNat_of_decode (Hex.decode_encode_bytes bytes), ← width]
    exact BigEndian.toNat_lt bytes
  have number : Validator.hexToNumber (hexlify bytes) =
      some (Hex.numeral (Hex.encode bytes) : Int) := by
    rw [Validator.hexToNumber, hexlify, String.toList_ofList]
    change (parseDigits 16 (Hex.encode bytes)).map Int.ofNat = _
    rw [parseDigits_hex nonempty (Hex.isDigit_encode bytes)]
    rfl
  rw [Validator.isIntString, isHexStrict_hexlify, if_pos rfl, number]
  apply decide_eq_true
  omega

/-- A hash is padded to a whole word. -/
theorem rightPad_hash {digest : Bytes} (width : digest.length = 32) :
    rightPad (hexlify digest) 128 =
      .ok (hexlify (digest ++ List.replicate 32 0)) := by
  have units : codeUnits (hexlify digest) = 66 := by
    have counted := codeUnits_hexDigits (Hex.isDigit_encode digest)
      ['0', 'x'] (by simp)
    rw [Hex.length_encode, width] at counted
    exact counted
  have front : (hexlify digest).toList.head? ≠ some '-' := by
    rw [hexlify, String.toList_ofList]
    change some '0' ≠ some '-'
    decide
  rw [rightPad, isHexStrict_hexlify, if_pos rfl, isIntString_hexlify width,
    if_pos rfl, if_neg front, units]
  congr 1
  apply String.toList_injective
  rw [String.toList_append, hexlify, hexlify, String.toList_ofList,
    String.toList_ofList, String.toList_ofList, Hex.encode_append,
    Hex.encode_replicate_zero]
  rfl

end Hashes

/-! ## Values and their topics -/

section Topics

variable (externals : Externals)

/-- What the packages document of bytes: texts are strict hexadecimal texts,
arrays consist of bytes, and a copied byte array is not readable. -/
structure ReadsBytes : Prop where
  text : ∀ text contents, externals.arrayify (.string text) = .ok contents →
    Validator.isHexStrict text = true ∧
      Utils.hexToUint8Array text = .ok contents
  array : ∀ elements contents,
    externals.arrayify (.array elements) = .ok contents →
      elements.mapM byteOf = some contents
  copied : ∀ bytes contents,
    externals.arrayify (.object (Abi.byteProperties bytes)) ≠ .ok contents

/-- Strict texts and lists of bytes. -/
def strictArrayify : Value → Except Abi.Error Bytes
  | .string text =>
      if Validator.isHexStrict text then
        (Utils.hexToUint8Array text).mapError fun message =>
          Abi.Error.ofArgument message (some "value")
      else .error (Abi.Error.ofArgument "invalid arrayify value" (some "value"))
  | .array elements =>
      match elements.mapM byteOf with
      | some bytes => .ok bytes
      | none =>
          .error (Abi.Error.ofArgument "invalid arrayify value" (some "value"))
  | _ => .error (Abi.Error.ofArgument "invalid arrayify value" (some "value"))

def strictExternals : Externals :=
  { Externals.simple with arrayify := strictArrayify }

theorem strictExternals_readsBytes : ReadsBytes strictExternals where
  text text contents read := by
    change strictArrayify (.string text) = .ok contents at read
    rw [strictArrayify] at read
    by_cases strict : Validator.isHexStrict text = true
    · rw [if_pos strict] at read
      refine ⟨strict, ?_⟩
      cases decoded : Utils.hexToUint8Array text with
      | error message =>
          rw [decoded] at read
          cases read
      | ok bytes =>
          rw [decoded] at read
          exact congrArg Except.ok (Except.ok.inj read)
    · rw [if_neg strict] at read
      cases read
  array elements contents read := by
    change strictArrayify (.array elements) = .ok contents at read
    rw [strictArrayify] at read
    cases listed : elements.mapM byteOf with
    | none =>
        rw [listed] at read
        cases read
    | some bytes =>
        rw [listed] at read
        exact congrArg some (Except.ok.inj read)
  copied bytes contents := by
    rintro ⟨⟩

theorem strictExternals_documented : strictExternals.Documented where
  bigNumberFrom_number := Externals.simple_documented.bigNumberFrom_number
  bigNumberFrom_hexlify := Externals.simple_documented.bigNumberFrom_hexlify
  arrayify_hexlify bytes := by
    change strictArrayify (.string (hexlify bytes)) = .ok bytes
    have decoded : Utils.hexToUint8Array (hexlify bytes) = .ok bytes := by
      simp [Utils.hexToUint8Array, hexlify]
    rw [strictArrayify, isHexStrict_hexlify, if_pos rfl, decoded]
    rfl
  utf8Inverse := Externals.simple_documented.utf8Inverse

theorem strictExternals_keccakWidth : strictExternals.KeccakWidth := by
  intro bytes
  rfl

/-- The typed value that a value for an input of a type denotes. -/
def denoted (type : String) (value : Value) : Option AbiValue := do
  let formatted ← (formatParam type value.copy).toOption
  let abi ← textType type
  abi.normalise externals formatted

/-- The topic of an indexed value: a hash in the front of a word, or the word
of the value. -/
def indexedTopic (cryptography : Cryptography) : AbiType → AbiValue → Bytes
  | .string, .string text =>
      cryptography.keccak256 (cryptography.utf8ToBytes text) ++
        List.replicate 32 0
  | .bytes, .bytes contents =>
      cryptography.keccak256 contents ++ List.replicate 32 0
  | type, value => Abi.Spec.encode cryptography type value

/-- Values that topics do not tell apart: hashed ones with one hash. -/
def Agrees (cryptography : Cryptography) :
    AbiType → AbiValue → AbiValue → Prop
  | .string, .string left, .string right =>
      cryptography.keccak256 (cryptography.utf8ToBytes left) =
        cryptography.keccak256 (cryptography.utf8ToBytes right)
  | .bytes, .bytes left, .bytes right =>
      cryptography.keccak256 left = cryptography.keccak256 right
  | _, left, right => left = right

/-- The types whose values are given to a filter. -/
def IsFiltered (type : String) : Prop :=
  isIndexedHash type = false ∨ type = "string" ∨ type = "bytes"

/-- A value of an indexed input, with its topic in a log. -/
structure LogsValue (type : String) (value : AbiValue) (topic : String) :
    Prop where
  filtered : IsFiltered type
  ofType : ∃ abi source, textType type = some abi ∧
    abi.normalise externals source = some value ∧
    topic = hexlify (indexedTopic externals.toCryptography abi value)

inductive LogsValues : List EventInput → List AbiValue → List String → Prop
  | nil : LogsValues [] [] []
  | cons {input : EventInput} {inputs : List EventInput} {value : AbiValue}
      {values : List AbiValue} {topic : String} {topics : List String}
      (first : LogsValue externals input.param.type value topic)
      (others : LogsValues inputs values topics) :
      LogsValues (input :: inputs) (value :: values) (topic :: topics)

def Topic.Admits : Topic → String → Prop
  | .any, _ => True
  | .one topic, logged => topic = logged
  | .oneOf topics, logged => logged ∈ topics

/-- What a node takes topics for: an open place admits every topic, and a log
may have more topics. -/
def Selects : List Topic → List String → Prop
  | [], _ => True
  | _ :: _, [] => False
  | topic :: topics, logged :: others =>
      topic.Admits logged ∧ Selects topics others

instance decidableAdmits :
    ∀ (topic : Topic) (logged : String), Decidable (topic.Admits logged)
  | .any, _ => .isTrue trivial
  | .one topic, logged => inferInstanceAs (Decidable (topic = logged))
  | .oneOf topics, logged => inferInstanceAs (Decidable (logged ∈ topics))

instance decidableSelects :
    ∀ (topics : List Topic) (logged : List String),
      Decidable (Selects topics logged)
  | [], _ => .isTrue trivial
  | _ :: _, [] => .isFalse id
  | topic :: topics, logged :: others =>
      have := decidableSelects topics others
      inferInstanceAs (Decidable (topic.Admits logged ∧ Selects topics others))

/-- The values that are offered for an input. -/
def candidates : Value → List Value
  | .array values => values
  | value => [value]

def isNullish : Value → Bool
  | .undefined | .null => true
  | _ => false

def isNumeric : Value → Bool
  | .number _ | .bigint _ => true
  | _ => false

/-- A value that is given for an input admits a value of it. -/
def Accepts (type : String) (given : Value) (value : AbiValue) : Prop :=
  isNullish given = true ∨ ∃ candidate ∈ candidates given, ∃ abi meant,
    textType type = some abi ∧ denoted externals type candidate = some meant ∧
      Agrees externals.toCryptography abi meant value

end Topics

section Encoding

variable {externals : Externals}

/-- Formatting passes on what `formatParam` makes of the value. -/
theorem format_eq_ok {type : String} {value formatted : Value}
    (done : AbiInput.format externals (.text type) value = .ok formatted) :
    formatParam type value.copy = .ok formatted := by
  rw [AbiInput.format] at done
  obtain ⟨newParam, given, done⟩ := Outcome.bind_eq_ok.mp done
  split at done
  next =>
      obtain ⟨param, -, done⟩ := Outcome.bind_eq_ok.mp done
      obtain ⟨coder, -, done⟩ := Outcome.bind_eq_ok.mp done
      obtain ⟨_, -, done⟩ := Outcome.bind_eq_ok.mp done
      cases done
      exact given
  next =>
      cases done
      exact given

theorem normaliseAll_singleton {abi : AbiType} {value : Value}
    {normals : List AbiValue}
    (normalised : AbiType.normaliseAll externals [abi] [value] =
      some normals) :
    ∃ normal, abi.normalise externals value = some normal ∧
      normals = [normal] := by
  rw [AbiType.normaliseAll] at normalised
  obtain ⟨normal, single, rest⟩ := Option.bind_eq_some_iff.mp normalised
  cases rest
  exact ⟨normal, single, rfl⟩

/-- What a text of a type is encoded to. -/
theorem encodeParameter_eq_ok (documented : externals.Documented)
    {type : String} {abi : AbiType} (typed : textType type = some abi)
    {value : Value} {data : String}
    (encoded : encodeParameter externals (.text type) value = .ok data) :
    ∃ meant, denoted externals type value = some meant ∧
      data = hexlify (Abi.Spec.sequence (Abi.Spec.parts
        externals.toCryptography [abi] [meant])) := by
  have opened := congrArg Except.toOption encoded
  rw [encodeParameter, Abi.encodeParameters_text] at opened
  obtain ⟨formatted, isFormatted, opened⟩ := Option.bind_eq_some_iff.mp opened
  obtain ⟨param, parsed, opened⟩ := Option.bind_eq_some_iff.mp opened
  have coded := Outcome.toOption_eq_some.mp opened
  rw [Abi.ParamType.fromString_of_textType typed] at parsed
  cases parsed
  have paramTyped : Abi.ParamType.abiTypes
      [.elementary none (String.ofList (verifyType type.toList))] =
        some [abi] := by
    rw [Abi.ParamType.abiTypes, Abi.ParamType.abiType]
    rw [textType] at typed
    rw [typed]
    rfl
  have nonempty : Abi.ParamType.AllNonempty
      [.elementary none (String.ofList (verifyType type.toList))] := by
    refine ⟨?_, trivial⟩
    intro blank
    rw [textType, blank] at typed
    cases typed
  obtain ⟨types, normals, isTyped, normalised, text, -⟩ :=
    Abi.AbiCoder.encode_eq_ok documented nonempty coded
  rw [paramTyped] at isTyped
  cases isTyped
  have given := format_eq_ok (Outcome.toOption_eq_some.mp isFormatted)
  obtain ⟨meant, single, rfl⟩ := normaliseAll_singleton normalised
  refine ⟨meant, ?_, text⟩
  rw [denoted, given, typed]
  exact single

theorem isFiltered_word {type : String} (shown : isIndexedHash type = false)
    {abi : AbiType} (typed : textType type = some abi) :
    type ≠ "string" ∧ type ≠ "bytes" ∧ abi.IsWord := by
  simp only [isIndexedHash, Bool.or_eq_false_iff, beq_eq_false_iff_ne]
    at shown
  obtain ⟨⟨⟨⟨string, bytes⟩, -⟩, tuple⟩, -⟩ := shown
  exact ⟨string, bytes, Abi.isWord_of_textType typed string bytes tuple⟩

theorem indexedTopic_word (cryptography : Cryptography) {abi : AbiType}
    (word : abi.IsWord) (value : AbiValue) :
    indexedTopic cryptography abi value =
      Abi.Spec.encode cryptography abi value := by
  cases abi with
  | string | bytes | array | tuple => exact word.elim
  | address | bool | number | fixedBytes => rfl

theorem formatParam_string (value : Value) :
    formatParam "string" value = .ok value := by
  rfl

theorem denoted_string {value : Value} {meant : AbiValue}
    (denotes : denoted externals "string" value = some meant) :
    ∃ text, value = .string text ∧ meant = .string text := by
  rw [denoted, formatParam_string] at denotes
  cases value with
  | string text =>
      cases denotes
      exact ⟨text, rfl, rfl⟩
  | undefined | null | boolean | number | notANumber | infinity | bigint
  | function | array | object | byteArray => cases denotes

theorem formatParam_bytes (value : Value) :
    formatParam "bytes" value = .ok (normalizeBytes value) := by
  cases value <;> rfl

theorem not_isOddHexstring_of_even {text : String}
    (even : codeUnits text % 2 = 0) : isOddHexstring text = false := by
  rw [isOddHexstring, even]
  exact Bool.and_false _

/-- A text that has been made even stays as it is. -/
theorem formatOddHexstrings_twice (text : String) :
    formatOddHexstrings (formatOddHexstrings text) =
      formatOddHexstrings text := by
  by_cases odd : isOddHexstring text = true
  · have once : formatOddHexstrings text =
        String.ofList ('0' :: 'x' :: '0' :: text.toList.drop 2) := if_pos odd
    rw [once]
    apply if_neg
    rw [Bool.not_eq_true]
    rw [isOddHexstring] at odd
    rw [Bool.and_eq_true, beq_iff_eq] at odd
    obtain ⟨digits, units⟩ := odd
    rw [codeUnits] at units
    split at digits
    next x rest chars =>
        rw [isOddHexstring, String.toList_ofList, chars]
        split at digits
        next isX =>
            have foreign : Hex.isDigit x = false := by
              rcases isX with rfl | rfl <;> rfl
            change ((if 'x' = 'x' ∨ 'x' = 'X' then some ('0' :: x :: rest)
              else none).any (·.all Hex.isDigit) && _) = false
            rw [if_pos (.inl rfl), Option.any_some, List.all_cons,
              List.all_cons, foreign, Bool.false_and, Bool.and_false,
              Bool.false_and]
        next => cases digits
    next _ x rest chars =>
        split at digits
        next isX =>
            apply not_isOddHexstring_of_even
            have ascii : x.toNat < 65536 := by
              rcases isX with rfl | rfl <;> decide
            rw [chars, List.map_cons, List.map_cons, List.sum_cons,
              List.sum_cons, if_pos ascii] at units
            rw [codeUnits, String.toList_ofList, chars, List.map_cons,
              List.map_cons, List.map_cons, List.sum_cons, List.sum_cons,
              List.sum_cons]
            change (1 + (1 + (1 + (List.map _ rest).sum))) % 2 = 0
            change (1 + (1 + (List.map _ rest).sum)) % 2 = 1 at units
            omega
        next => cases digits
    next => cases digits
  · have once : formatOddHexstrings text = text := if_neg odd
    rw [once, once]

theorem normalizeBytes_twice (value : Value) :
    normalizeBytes (normalizeBytes value) = normalizeBytes value := by
  cases value with
  | string text => exact congrArg Value.string (formatOddHexstrings_twice text)
  | undefined | null | boolean | number | notANumber | infinity | bigint
  | function | array | object | byteArray => rfl

theorem denoted_bytes (value : Value) :
    denoted externals "bytes" value =
      ((externals.arrayify (normalizeBytes value.copy)).toOption).map
        AbiValue.bytes := by
  rw [denoted, formatParam_bytes]
  change ((externals.arrayify _).toOption.bind fun contents =>
    some (AbiValue.bytes contents)) = _
  rw [Option.map_eq_bind]
  rfl

theorem denoted_normalizeBytes (value : Value) :
    denoted externals "bytes" (normalizeBytes value) =
      denoted externals "bytes" value := by
  rw [denoted_bytes, denoted_bytes]
  cases value with
  | string text =>
      have twice := normalizeBytes_twice (.string text)
      change (Except.toOption (externals.arrayify
        (normalizeBytes (normalizeBytes (.string text))))).map _ = _
      rw [twice]
      rfl
  | undefined | null | boolean | number | notANumber | infinity | bigint
  | function | array | object | byteArray => rfl

/-- What is hashed is what the value denotes. -/
theorem bytesToHash_denoted (reads : ReadsBytes externals) {value : Value}
    (given : isNumeric value = false) {meant : AbiValue}
    (denotes : denoted externals "bytes" value = some meant)
    {contents : Bytes}
    (hashed : bytesToHash externals (normalizeBytes value) = .ok contents) :
    meant = .bytes contents := by
  rw [denoted_bytes] at denotes
  obtain ⟨bytes, read, rfl⟩ := Option.map_eq_some_iff.mp denotes
  have arrayified := Outcome.toOption_eq_some.mp read
  congr 1
  cases value with
  | string text =>
      obtain ⟨strict, decoded⟩ := reads.text _ _ arrayified
      change (if Validator.isHexStrict (formatOddHexstrings text) = true then _
        else _) = _ at hashed
      rw [if_pos strict, decoded] at hashed
      exact Except.ok.inj hashed
  | array elements =>
      have listed := reads.array elements bytes arrayified
      change listedBytes (elements.mapM byteOf) = _ at hashed
      rw [listed] at hashed
      exact Except.ok.inj hashed
  | byteArray copied => exact absurd arrayified (reads.copied copied bytes)
  | number value => cases given
  | bigint value => cases given
  | undefined | null | boolean | notANumber | infinity | function | object =>
      cases hashed

/-- The topic of a value that is given is that of the value it denotes. -/
theorem encodeIndexed_eq_ok (documented : externals.Documented)
    (reads : ReadsBytes externals) (width : externals.KeccakWidth)
    {type : String} (filtered : IsFiltered type) {value : Value}
    (bytesGiven : type = "bytes" → isNumeric value = false)
    {abi : AbiType} (typed : textType type = some abi) {topic : String}
    (encoded : encodeIndexed externals type value = .ok topic) :
    ∃ meant, denoted externals type value = some meant ∧
      topic = hexlify (indexedTopic externals.toCryptography abi meant) := by
  rcases filtered with shown | rfl | rfl
  · obtain ⟨string, bytes, word⟩ := isFiltered_word shown typed
    rw [encodeIndexed, if_neg string, if_neg bytes] at encoded
    obtain ⟨meant, denotes, text⟩ :=
      encodeParameter_eq_ok documented typed encoded
    refine ⟨meant, denotes, ?_⟩
    rw [text, Abi.Spec.sequence_static word.isDynamic,
      indexedTopic_word _ word]
  · cases typed
    rw [encodeIndexed, if_pos rfl, encodeIndexedStringTopic] at encoded
    obtain ⟨_, isText, encoded⟩ := Outcome.bind_eq_ok.mp encoded
    rw [rightPad_hash (width _)] at encoded
    cases encoded
    obtain ⟨meant, denotes, -⟩ := encodeParameter_eq_ok documented rfl isText
    obtain ⟨text, rfl, rfl⟩ := denoted_string denotes
    exact ⟨.string text, rfl, rfl⟩
  · cases typed
    rw [encodeIndexed, if_neg (by decide), if_pos rfl, encodeIndexedBytesTopic]
      at encoded
    obtain ⟨_, isBytes, encoded⟩ := Outcome.bind_eq_ok.mp encoded
    obtain ⟨hash, isHash, encoded⟩ := Outcome.bind_eq_ok.mp encoded
    rw [keccak256] at isHash
    obtain ⟨contents, hashed, isHash⟩ := Outcome.bind_eq_ok.mp isHash
    cases isHash
    rw [rightPad_hash (width contents)] at encoded
    cases encoded
    obtain ⟨meant, denotes, -⟩ :=
      encodeParameter_eq_ok documented rfl isBytes
    rw [denoted_normalizeBytes] at denotes
    obtain rfl := bytesToHash_denoted reads (bytesGiven rfl) denotes hashed
    exact ⟨_, denotes, rfl⟩

end Encoding

/-! ## Telling values apart -/

section Telling

variable {externals : Externals}

theorem canonicalAddress_injective (cryptography : Cryptography)
    {left right : Bytes} (same : canonicalAddress cryptography left =
      canonicalAddress cryptography right) : left = right := by
  have body : ∀ bytes, ((canonicalAddress cryptography bytes).toList.tail).map
      Char.toLower = Hex.encode bytes := by
    intro bytes
    rw [canonicalAddress, Validator.checksummed, String.toList_ofList,
      List.tail_cons, List.tail_cons, Hex.toLower_encode]
    exact Validator.toLower_checksumBody (Hex.toLower_encode bytes)
  apply Hex.encode_injective
  rw [← body left, ← body right, same]

/-- The values of a word type by what is read of them. -/
inductive WordValue : AbiType → AbiValue → Prop
  | address (contents : Bytes) : WordValue .address (.address contents)
  | bool (value : Bool) : WordValue .bool (.bool value)
  | number (signed : Bool) (size : Abi.ByteSize) (value : Int) :
      WordValue (.number signed size) (.number value)
  | fixedBytes (size : Abi.ByteSize) (contents : Bytes) :
      WordValue (.fixedBytes size) (.bytes contents)

theorem wordValue_of_normalise {abi : AbiType} (word : abi.IsWord)
    {source : Value} {value : AbiValue}
    (normalised : abi.normalise externals source = some value) :
    WordValue abi value := by
  cases abi with
  | address =>
      cases source with
      | string text =>
          rw [AbiType.normalise] at normalised
          obtain ⟨hex, -, normalised⟩ := Option.bind_eq_some_iff.mp normalised
          obtain ⟨contents, -, normalised⟩ :=
            Option.bind_eq_some_iff.mp normalised
          cases normalised
          exact .address contents
      | undefined | null | boolean | number | notANumber | infinity | bigint
      | function | array | object | byteArray => cases normalised
  | bool =>
      cases normalised
      exact .bool _
  | number signed size =>
      rw [AbiType.normalise] at normalised
      obtain ⟨integer, -, normalised⟩ := Option.bind_eq_some_iff.mp normalised
      split at normalised
      next =>
          cases normalised
          exact .number signed size integer
      next => cases normalised
  | fixedBytes size =>
      rw [AbiType.normalise] at normalised
      obtain ⟨contents, -, normalised⟩ := Option.bind_eq_some_iff.mp normalised
      split at normalised
      next =>
          cases normalised
          exact .fixedBytes size contents
      next => cases normalised
  | string | bytes | array | tuple => exact word.elim

theorem WordValue.plain_injective {cryptography : Cryptography}
    {abi : AbiType} {left right : AbiValue} (isLeft : WordValue abi left)
    (isRight : WordValue abi right)
    (same : left.plain cryptography = right.plain cryptography) :
    left = right := by
  cases isLeft with
  | address contents =>
      cases isRight with
      | address other =>
          rw [canonicalAddress_injective cryptography
            (Abi.Plain.text.inj same)]
  | bool value =>
      cases isRight with
      | bool other => rw [Abi.Plain.boolean.inj same]
  | number signed size value =>
      cases isRight with
      | number other otherSize number => rw [Abi.Plain.integer.inj same]
  | fixedBytes size contents =>
      cases isRight with
      | fixedBytes otherSize other =>
          rw [hexlify_eq_iff.mp (Abi.Plain.text.inj same)]

/-- Words are told apart, as decoding them gives the values. -/
theorem encode_injective (documented : externals.Documented) {type : String}
    {abi : AbiType} (typed : textType type = some abi) (word : abi.IsWord)
    {leftSource rightSource : Value} {left right : AbiValue}
    (isLeft : abi.normalise externals leftSource = some left)
    (isRight : abi.normalise externals rightSource = some right)
    (same : Abi.Spec.encode externals.toCryptography abi left =
      Abi.Spec.encode externals.toCryptography abi right) : left = right := by
  obtain ⟨param, read, plain⟩ :=
    Abi.decodeParameter_word documented typed word isLeft
  obtain ⟨other, otherRead, otherPlain⟩ :=
    Abi.decodeParameter_word documented typed word isRight
  rw [same, otherRead] at read
  cases read
  exact (wordValue_of_normalise word isLeft).plain_injective
    (wordValue_of_normalise word isRight)
    (Option.some.inj (plain.symm.trans otherPlain))

theorem text_of_normalise {source : Value} {value : AbiValue}
    (normalised : AbiType.string.normalise externals source = some value) :
    ∃ text, value = .string text := by
  cases source with
  | string text =>
      rw [AbiType.normalise] at normalised
      cases normalised
      exact ⟨text, rfl⟩
  | undefined | null | boolean | number | notANumber | infinity | bigint
  | function | array | object | byteArray => cases normalised

theorem contents_of_normalise {source : Value} {value : AbiValue}
    (normalised : AbiType.bytes.normalise externals source = some value) :
    ∃ contents, value = .bytes contents := by
  rw [AbiType.normalise] at normalised
  obtain ⟨contents, -, normalised⟩ := Option.bind_eq_some_iff.mp normalised
  cases normalised
  exact ⟨contents, rfl⟩

theorem agrees_word {cryptography : Cryptography} {abi : AbiType}
    (word : abi.IsWord) {left right : AbiValue} :
    Agrees cryptography abi left right ↔ left = right := by
  cases abi with
  | address | bool | number | fixedBytes => exact Iff.rfl
  | string | bytes | array | tuple => exact word.elim

/-- Topics are the same exactly where the values agree. -/
theorem indexedTopic_eq_iff (documented : externals.Documented)
    {type : String} (filtered : IsFiltered type) {abi : AbiType}
    (typed : textType type = some abi) {leftSource rightSource : Value}
    {left right : AbiValue}
    (isLeft : abi.normalise externals leftSource = some left)
    (isRight : abi.normalise externals rightSource = some right) :
    indexedTopic externals.toCryptography abi left =
        indexedTopic externals.toCryptography abi right ↔
      Agrees externals.toCryptography abi left right := by
  rcases filtered with shown | rfl | rfl
  · obtain ⟨-, -, word⟩ := isFiltered_word shown typed
    rw [indexedTopic_word _ word, indexedTopic_word _ word]
    rw [agrees_word word]
    exact ⟨encode_injective documented typed word isLeft isRight,
      congrArg _⟩
  · cases typed
    obtain ⟨text, rfl⟩ := text_of_normalise isLeft
    obtain ⟨other, rfl⟩ := text_of_normalise isRight
    exact List.append_left_inj _
  · cases typed
    obtain ⟨contents, rfl⟩ := contents_of_normalise isLeft
    obtain ⟨other, rfl⟩ := contents_of_normalise isRight
    exact List.append_left_inj _

end Telling

/-! ## Filters -/

section Filters

variable {externals : Externals}

theorem encodeIndexed_admits (documented : externals.Documented)
    (reads : ReadsBytes externals) (width : externals.KeccakWidth)
    {type : String} {candidate : Value}
    (bytesGiven : type = "bytes" → isNumeric candidate = false)
    {topic : String} (encoded : encodeIndexed externals type candidate =
      .ok topic)
    {value : AbiValue} {logged : String}
    (logs : LogsValue externals type value logged) :
    topic = logged ↔ ∃ abi meant, textType type = some abi ∧
      denoted externals type candidate = some meant ∧
      Agrees externals.toCryptography abi meant value := by
  obtain ⟨filtered, abi, source, typed, isValue, rfl⟩ := logs
  obtain ⟨meant, denotes, rfl⟩ := encodeIndexed_eq_ok documented reads width
    filtered bytesGiven typed encoded
  have given := denotes
  rw [denoted] at given
  obtain ⟨formatted, -, given⟩ := Option.bind_eq_some_iff.mp given
  obtain ⟨other, otherTyped, isMeant⟩ := Option.bind_eq_some_iff.mp given
  rw [typed] at otherTyped
  cases otherTyped
  rw [hexlify_eq_iff,
    indexedTopic_eq_iff documented filtered typed isMeant isValue]
  constructor
  · intro agrees
    exact ⟨abi, meant, typed, denotes, agrees⟩
  · rintro ⟨_, _, sameType, sameMeant, agrees⟩
    rw [typed] at sameType
    rw [denotes] at sameMeant
    cases sameType
    cases sameMeant
    exact agrees

/-- A place of the filter admits the topics of the values that are accepted. -/
theorem encodeTopic_admits (documented : externals.Documented)
    (reads : ReadsBytes externals) (width : externals.KeccakWidth)
    {type : String} {given : Value}
    (bytesGiven : type = "bytes" →
      ∀ candidate ∈ candidates given, isNumeric candidate = false)
    {topic : Topic} (encoded : encodeTopic externals type given = .ok topic)
    {value : AbiValue} {logged : String}
    (logs : LogsValue externals type value logged) :
    topic.Admits logged ↔ Accepts externals type given value := by
  have single : ∀ candidate text, candidates given = [candidate] →
      isNullish given = false →
      encodeIndexed externals type candidate = .ok text →
        (text = logged ↔ Accepts externals type given value) := by
    intro candidate text only present isText
    have bytes : type = "bytes" → isNumeric candidate = false := by
      intro isBytes
      apply bytesGiven isBytes
      rw [only]
      exact List.mem_singleton_self candidate
    rw [encodeIndexed_admits documented reads width bytes isText logs, Accepts,
      or_iff_right (by rw [present]; exact Bool.false_ne_true), only]
    constructor
    · intro agrees
      exact ⟨candidate, List.mem_singleton_self candidate, agrees⟩
    · rintro ⟨other, among, agrees⟩
      rw [List.mem_singleton.mp among] at agrees
      exact agrees
  cases given with
  | undefined | null =>
      cases encoded
      exact iff_of_true trivial (.inl rfl)
  | array values =>
      obtain ⟨topics, mapped, rfl⟩ := Outcome.map_eq_ok.mp encoded
      change logged ∈ topics ↔ _
      have present : ¬isNullish (.array values) = true := Bool.false_ne_true
      rw [Outcome.mem_mapM_iff mapped, Accepts, or_iff_right present]
      constructor
      · rintro ⟨candidate, among, isText⟩
        exact ⟨candidate, among, (encodeIndexed_admits documented reads width
          (fun isBytes => bytesGiven isBytes candidate among) isText logs).mp
            rfl⟩
      · rintro ⟨candidate, among, agrees⟩
        obtain ⟨text, isText⟩ :=
          (Outcome.exists_of_mapM mapped).1 candidate among
        refine ⟨candidate, among, ?_⟩
        have same := (encodeIndexed_admits documented reads width
          (fun isBytes => bytesGiven isBytes candidate among) isText logs).mpr
            agrees
        rw [isText, same]
  | boolean | number | notANumber | infinity | bigint | string | function
  | object | byteArray =>
      obtain ⟨text, isText, rfl⟩ := Outcome.map_eq_ok.mp encoded
      exact single _ text rfl rfl isText

theorem selects_arguments (documented : externals.Documented)
    (reads : ReadsBytes externals) (width : externals.KeccakWidth)
    {inputs : List EventInput} {options : Filter}
    (bytesGiven : ∀ input ∈ inputs, input.param.type = "bytes" →
      ∀ candidate ∈ candidates (options.given input.param.name),
        isNumeric candidate = false)
    {topics : List Topic}
    (encoded : inputs.mapM (fun input => encodeTopic externals
      input.param.type (options.given input.param.name)) = .ok topics)
    {values : List AbiValue} {logged : List String}
    (logs : LogsValues externals inputs values logged) :
    Selects topics logged ↔ List.Forall₂ (fun input value =>
      Accepts externals input.param.type (options.given input.param.name)
        value) inputs values := by
  induction logs generalizing topics with
  | nil =>
      cases encoded
      exact iff_of_true trivial .nil
  | cons first _ induction =>
      rw [List.mapM_cons] at encoded
      obtain ⟨topic, isTopic, encoded⟩ := Outcome.bind_eq_ok.mp encoded
      obtain ⟨others, areTopics, encoded⟩ := Outcome.bind_eq_ok.mp encoded
      cases encoded
      change (topic.Admits _ ∧ Selects others _) ↔ _
      rw [List.forall₂_cons, encodeTopic_admits documented reads width
        (bytesGiven _ List.mem_cons_self) isTopic first,
        induction (fun input among =>
          bytesGiven input (List.mem_cons_of_mem _ among)) areTopics]

/-- The topic of the signature admits the logs of the event. -/
theorem selects_front {event : AbiEventFragment}
    (own : event.name ≠ some allEventsName) {front : List Topic}
    (made : signatureTopics event = .ok front) {signature : String}
    (signed : rightPad event.signature 128 = .ok signature)
    (topics : List Topic) (logged : List String) :
    Selects (front ++ topics)
        ((if event.anonymous then [] else [signature]) ++ logged) ↔
      Selects topics logged := by
  rw [signatureTopics] at made
  cases anonymous : event.anonymous with
  | true =>
      rw [if_pos (.inl anonymous)] at made
      cases made
      exact Iff.rfl
  | false =>
      rw [anonymous, if_neg (not_or.mpr ⟨Bool.false_ne_true, own⟩), signed]
        at made
      cases made
      exact and_iff_right rfl

/-- The topics of a filter select the logs of the event whose indexed values
are accepted, whatever the representation of the values that are given. -/
theorem selects_iff_accepts (documented : externals.Documented)
    (reads : ReadsBytes externals) (width : externals.KeccakWidth)
    {event : AbiEventFragment} (own : event.name ≠ some allEventsName)
    {options : Filter} (free : options.topics = none)
    (bytesGiven : ∀ input ∈ indexedInputs (event.inputs.getD []),
      input.param.type = "bytes" →
        ∀ candidate ∈ candidates (options.given input.param.name),
          isNumeric candidate = false)
    {topics : List Topic}
    (encoded : encodeTopics externals event options = .ok topics)
    {signature : String}
    (signed : rightPad event.signature 128 = .ok signature)
    {values : List AbiValue} {logged : List String}
    (logs : LogsValues externals (indexedInputs (event.inputs.getD [])) values
      logged) :
    Selects topics ((if event.anonymous then [] else [signature]) ++ logged) ↔
      List.Forall₂ (fun input value =>
        Accepts externals input.param.type (options.given input.param.name)
          value) (indexedInputs (event.inputs.getD [])) values := by
  rw [encodeTopics, free] at encoded
  obtain ⟨front, signatureMade, encoded⟩ := Outcome.bind_eq_ok.mp encoded
  obtain ⟨arguments, argumentsMade, encoded⟩ := Outcome.bind_eq_ok.mp encoded
  cases encoded
  rw [argumentTopics, if_neg own] at argumentsMade
  have selected := selects_arguments documented reads width bytesGiven
    argumentsMade logs
  rw [selects_front own signatureMade signed, selected]

/-- A node compares the bytes of the address. -/
def EventFilter.Selects (filter : EventFilter) (address : Bytes)
    (topics : List String) : Prop :=
  (∀ text, filter.address = some text →
    addressContent text = some address) ∧
  Contract.Selects (filter.topics.getD []) topics

theorem addressContent_lower {text : String}
    (valid : Validator.qrlAddressRegex text = true) :
    addressContent (String.ofList
      ('Q' :: (text.toList.drop 1).map Char.toLower)) =
        addressContent text := by
  obtain ⟨bytes, content, width, written⟩ := exists_addressContent valid
  have lower : (text.toList.drop 1).map Char.toLower = Hex.encode bytes := by
    rw [written, List.drop_one]
  rw [lower, content, addressContent,
    if_pos (Validator.qrlAddressRegex_encode width), String.toList_ofList,
    List.tail_cons, Hex.decode_encode_bytes]

/-- The address of a filter is the one of the contract. -/
theorem filterAddress_selects {contract address : Option String}
    (made : filterAddress externals contract = .ok address)
    (emitter : Bytes) :
    (∀ text, address = some text → addressContent text = some emitter) ↔
      ∀ text, contract = some text → text ≠ "" →
        addressContent text = some emitter := by
  cases contract with
  | none =>
      cases made
      constructor
      · rintro _ _ ⟨⟩
      · rintro _ _ ⟨⟩
  | some given =>
      rw [filterAddress] at made
      by_cases blank : given = ""
      · rw [if_pos blank] at made
        cases made
        constructor
        · rintro _ text ⟨⟩ inhabited
          exact absurd blank inhabited
        · rintro _ _ ⟨⟩
      · rw [if_neg blank] at made
        by_cases valid : Validator.isAddressString externals.toCryptography
            given true = true
        · rw [if_pos valid] at made
          cases made
          have regex : Validator.qrlAddressRegex given = true := by
            rw [Validator.isAddressString, Bool.and_eq_true] at valid
            exact valid.1
          have same := addressContent_lower regex
          constructor
          · rintro selected text ⟨⟩ _
            rw [← same]
            exact selected _ rfl
          · rintro given _ ⟨⟩
            rw [same]
            exact given _ rfl blank
        · rw [if_neg valid] at made
          cases made

theorem getD_topics (topics : List Topic) :
    (if topics.isEmpty = true then none else some topics).getD [] =
      topics := by
  cases topics <;> rfl

/-- A filter selects exactly the logs of the event at the contract whose
indexed values are accepted, whatever the representation of the values that
are given. -/
theorem encodeEventABI_selects (documented : externals.Documented)
    (reads : ReadsBytes externals) (width : externals.KeccakWidth)
    {contract : Option String} {event : AbiEventFragment}
    (own : event.name ≠ some allEventsName)
    {options : Filter} (free : options.topics = none)
    (bytesGiven : ∀ input ∈ indexedInputs (event.inputs.getD []),
      input.param.type = "bytes" →
        ∀ candidate ∈ candidates (options.given input.param.name),
          isNumeric candidate = false)
    {filter : EventFilter}
    (encoded : encodeEventABI externals contract event options = .ok filter)
    {signature : String}
    (signed : rightPad event.signature 128 = .ok signature)
    {values : List AbiValue} {logged : List String}
    (logs : LogsValues externals (indexedInputs (event.inputs.getD [])) values
      logged) (emitter : Bytes) :
    filter.Selects emitter
        ((if event.anonymous then [] else [signature]) ++ logged) ↔
      (∀ text, contract = some text → text ≠ "" →
        addressContent text = some emitter) ∧
      List.Forall₂ (fun input value =>
        Accepts externals input.param.type (options.given input.param.name)
          value) (indexedInputs (event.inputs.getD [])) values := by
  rw [encodeEventABI] at encoded
  obtain ⟨topics, topicsMade, encoded⟩ := Outcome.bind_eq_ok.mp encoded
  obtain ⟨address, addressMade, encoded⟩ := Outcome.bind_eq_ok.mp encoded
  cases encoded
  rw [EventFilter.Selects, getD_topics, filterAddress_selects addressMade,
    selects_iff_accepts documented reads width own free bytesGiven topicsMade
      signed logs]

/-- Its signature is not computed from the inputs. -/
def transferEvent : AbiEventFragment where
  name := some "Transfer"
  inputs := some Abi.transferInputs
  signature := hexlify (List.replicate 32 9)

/-- The hash of a text, which is zero. -/
def textTopic : String :=
  hexlify (List.replicate 32 0 ++ List.replicate 32 0)

theorem transfer_logged : LogsValues strictExternals
    (indexedInputs Abi.transferInputs) [.number 5, .string "a"]
      [Abi.fiveTopic, textTopic] := by
  have normalised : (AbiType.number false ⟨1, by decide, by decide⟩).normalise
      strictExternals (.bigint 5) = some (.number 5) := by
    simp [AbiType.normalise, strictExternals, Externals.simple,
      Except.toOption, Abi.lowerBound, Abi.upperBound]
  exact .cons ⟨.inl (by decide), .number false ⟨1, by decide, by decide⟩,
      .bigint 5, rfl, normalised, rfl⟩
    (.cons ⟨.inr (.inl rfl), .string, .string "a", rfl, rfl, rfl⟩ .nil)

theorem encodeEventABI_selects_transfer :
    ∃ filter, encodeEventABI strictExternals none transferEvent
        { filter := [("amount", .array [.bigint 5, .bigint 7])] } =
          .ok filter ∧
      (filter.Selects (List.replicate 64 0)
          ((if transferEvent.anonymous then [] else
            [hexlify (List.replicate 32 9 ++ List.replicate 32 0)]) ++
              [Abi.fiveTopic, textTopic]) ↔
        (∀ text, none = some text → text ≠ "" →
          addressContent text = some (List.replicate 64 0)) ∧
        List.Forall₂ (fun input value =>
          Accepts strictExternals input.param.type
            (Filter.given
              { filter := [("amount", .array [.bigint 5, .bigint 7])] }
              input.param.name) value)
          (indexedInputs Abi.transferInputs) [.number 5, .string "a"]) := by
  have made : (encodeEventABI strictExternals none transferEvent
      { filter := [("amount", .array [.bigint 5, .bigint 7])] }).toOption.isSome
        = true := by
    decide +kernel
  obtain ⟨filter, encoded⟩ := Option.isSome_iff_exists.mp made
  refine ⟨filter, Outcome.toOption_eq_some.mp encoded, ?_⟩
  exact encodeEventABI_selects strictExternals_documented
    strictExternals_readsBytes strictExternals_keccakWidth (by decide) rfl
    (by decide) (Outcome.toOption_eq_some.mp encoded)
    (rightPad_hash (by decide)) transfer_logged (List.replicate 64 0)

end Filters

end Web3Js.Contract
