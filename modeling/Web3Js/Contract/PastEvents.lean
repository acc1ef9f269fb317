import Mathlib
import Web3Js.Contract.EventLogs
import Web3Js.Abi.IntegerInputs
import Web3Js.Abi.ObjectValues

/-!
# Which past events are kept

Past events are filtered a second time, by the texts of the values that are
returned.  Where the values of the filter are spelled as they are returned,
this keeps exactly the logs that the topics of the filter select.
-/

namespace Web3Js.Contract

open Abi (AbiInput AbiType AbiValue Carries DecodedParam DistinctNames
  EventInput Externals Plain ReturnValues Value decimal_chars
  encodeParameters indexedInputs isIndexedHash lookup_of_distinct
  nonIndexedInputs nonIndexedValues rightPad textType)

/-! ## Spelling -/

section Spelling

/-- `String` of a value that is read. -/
def shownPlain : Plain → String
  | .boolean value => if value then "true" else "false"
  | .integer value => String.ofList (Decimal.text value)
  | .text value => value
  | .list _ => ""

theorem shownParam_plain {param : DecodedParam} {plain : Plain}
    (readable : param.plain? = some plain)
    (elementary : ∀ elements, plain ≠ .list elements) :
    shownParam (some param) = shownPlain plain := by
  cases param with
  | value decoded =>
      cases decoded with
      | boolean | number | bigint | bigNumber | string =>
          cases readable
          rfl
      | null => cases readable
      | failure => cases readable
      | result elements named =>
          obtain ⟨plains, -, whole⟩ := Abi.Decoded.plain?_result.mp readable
          obtain ⟨members, rfl⟩ := Plain.list_of_ofResult whole
          exact absurd rfl (elementary members)
  | object elements named =>
      obtain ⟨plains, -, whole⟩ := Option.bind_eq_some_iff.mp readable
      obtain ⟨members, rfl⟩ := Plain.list_of_ofResult whole
      exact absurd rfl (elementary members)

theorem lower_of_upperCase {left right : String}
    (same : upperCase left = upperCase right) :
    left.toList.map Char.toLower = right.toList.map Char.toLower := by
  have lower : ∀ text : String, (upperCase text).map Char.toLower =
      text.toList.map Char.toLower := by
    intro text
    rw [upperCase, List.map_map]
    exact List.map_congr_left fun char _ =>
      char.toLower_toUpper_eq_toLower
  rw [← lower left, ← lower right, same]

theorem hexlify_of_upperCase {left right : Bytes}
    (same : upperCase (hexlify left) = upperCase (hexlify right)) :
    left = right := by
  have lower : ∀ bytes, (hexlify bytes).toList.map Char.toLower =
      '0' :: 'x' :: Hex.encode bytes := by
    intro bytes
    rw [hexlify, String.toList_ofList, List.map_cons, List.map_cons,
      Hex.toLower_encode]
    rfl
  have chars := lower_of_upperCase same
  rw [lower, lower] at chars
  exact Hex.encode_injective
    (List.tail_eq_of_cons_eq (List.tail_eq_of_cons_eq chars))

theorem toLower_canonicalAddress (cryptography : Cryptography)
    (bytes : Bytes) :
    (canonicalAddress cryptography bytes).toList.map Char.toLower =
      'q' :: Hex.encode bytes := by
  rw [canonicalAddress, Validator.checksummed, String.toList_ofList,
    List.tail_cons, Hex.toLower_encode, List.map_cons,
    Validator.toLower_checksumBody (Hex.toLower_encode bytes)]
  rfl

theorem canonicalAddress_of_upperCase {cryptography : Cryptography}
    {left right : Bytes}
    (same : upperCase (canonicalAddress cryptography left) =
      upperCase (canonicalAddress cryptography right)) : left = right := by
  have chars := lower_of_upperCase same
  rw [toLower_canonicalAddress, toLower_canonicalAddress] at chars
  exact Hex.encode_injective (List.tail_eq_of_cons_eq chars)

theorem toLower_of_isDigit {char : Char} (digit : char.isDigit = true) :
    char.toLower = char := by
  have low : char.val ≤ '9'.val := by
    rw [Char.isDigit, Bool.and_eq_true] at digit
    exact of_decide_eq_true digit.2
  have notCapital : ¬(char.val ≥ 'A'.val ∧ char.val ≤ 'Z'.val) := by
    rintro ⟨high, -⟩
    exact absurd (UInt32.le_trans high low) (by decide)
  exact dif_neg notCapital

theorem decimal_of_upperCase {left right : Int}
    (same : upperCase (String.ofList (Decimal.text left)) =
      upperCase (String.ofList (Decimal.text right))) : left = right := by
  have lower : ∀ value : Int, (Decimal.text value).map Char.toLower =
      Decimal.text value := by
    intro value
    conv_rhs => rw [← List.map_id (Decimal.text value)]
    apply List.map_congr_left
    intro char member
    rcases decimal_chars value member with rfl | digit
    · rfl
    · exact toLower_of_isDigit digit
  have chars := lower_of_upperCase same
  rw [String.toList_ofList, String.toList_ofList, lower, lower] at chars
  exact Decimal.text_injective chars

/-- The values of a word are told apart by their texts in any case. -/
theorem WordValue.of_upperCase {cryptography : Cryptography}
    {abi : AbiType} {left right : AbiValue} (isLeft : WordValue abi left)
    (isRight : WordValue abi right)
    (same : upperCase (shownPlain (left.plain cryptography)) =
      upperCase (shownPlain (right.plain cryptography))) :
    left = right := by
  cases isLeft with
  | address contents =>
      cases isRight with
      | address other => rw [canonicalAddress_of_upperCase same]
  | bool value =>
      cases isRight with
      | bool other =>
          have told : upperCase "false" ≠ upperCase "true" := by decide
          cases value with
          | false =>
              cases other with
              | false => rfl
              | true => exact absurd same told
          | true =>
              cases other with
              | false => exact absurd same.symm told
              | true => rfl
  | number signed size value =>
      cases isRight with
      | number other otherSize number => rw [decimal_of_upperCase same]
  | fixedBytes size contents =>
      cases isRight with
      | fixedBytes otherSize other => rw [hexlify_of_upperCase same]

end Spelling

/-! ## The values of a log -/

section Returning

variable (externals : Externals)

/-- What is read of an indexed value: its hash, or the value. -/
def topicPlain (cryptography : Cryptography) : AbiType → AbiValue → Plain
  | .string, .string text =>
      .text (hexlify (cryptography.keccak256 (cryptography.utf8ToBytes text)))
  | .bytes, .bytes contents =>
      .text (hexlify (cryptography.keccak256 contents))
  | _, value => value.plain cryptography

/-- The values that are returned show what the topic of an input says. -/
def Shows (returned : ReturnValues) (input : EventInput) (topic : String) :
    Prop :=
  ∃ value abi, LogsValue externals input.param.type value topic ∧
    textType input.param.type = some abi ∧
    (input.param.name ≠ "" → shownReturned returned input.param.name =
      shownPlain (topicPlain externals.toCryptography abi value))

end Returning

section Logs

variable {externals : Externals}

theorem topicPlain_word (cryptography : Cryptography) {abi : AbiType}
    (word : abi.IsWord) (value : AbiValue) :
    topicPlain cryptography abi value = value.plain cryptography := by
  cases abi with
  | string | bytes | array | tuple => exact word.elim
  | address | bool | number | fixedBytes => rfl

theorem WordValue.elementary {cryptography : Cryptography} {abi : AbiType}
    {value : AbiValue} (isWord : WordValue abi value) (elements : List Plain) :
    value.plain cryptography ≠ .list elements := by
  cases isWord <;> rintro ⟨⟩

/-- A word that is carried is the one that is logged. -/
theorem word_of_topic (documented : externals.Documented) {type : String}
    (shown : isIndexedHash type = false) {abi : AbiType}
    (typed : textType type = some abi) {source : Value} {normal : AbiValue}
    (normalised : abi.normalise externals source = some normal)
    {value : AbiValue} (logs : LogsValue externals type value
      (hexlify (Abi.Spec.encode externals.toCryptography abi normal))) :
    normal = value := by
  obtain ⟨-, other, logged, otherTyped, isValue, same⟩ := logs
  rw [typed] at otherTyped
  cases otherTyped
  obtain ⟨-, -, word⟩ := isFiltered_word shown typed
  have bytes := hexlify_eq_iff.mp same
  rw [indexedTopic_word _ word] at bytes
  exact encode_injective documented typed word normalised isValue bytes

/-- A hash that is carried is the one of the value that is logged. -/
theorem hash_of_topic {type : String}
    (hidden : isIndexedHash type = true) {digest : Bytes} {value : AbiValue}
    (logs : LogsValue externals type value
      (hexlify (digest ++ List.replicate 32 0))) :
    ∃ abi, textType type = some abi ∧ Plain.text (hexlify digest) =
      topicPlain externals.toCryptography abi value := by
  obtain ⟨filtered, abi, source, typed, isValue, same⟩ := logs
  refine ⟨abi, typed, ?_⟩
  have bytes := hexlify_eq_iff.mp same
  rcases filtered with shown | rfl | rfl
  · rw [hidden] at shown
    cases shown
  · cases typed
    obtain ⟨text, rfl⟩ := text_of_normalise isValue
    rw [List.append_cancel_right bytes]
    rfl
  · cases typed
    obtain ⟨contents, rfl⟩ := contents_of_normalise isValue
    rw [List.append_cancel_right bytes]
    rfl

/-- The topics of a log are shown by the values that are returned. -/
theorem shows_logged (documented : externals.Documented)
    {returned : ReturnValues} {inputs : List EventInput}
    {sources : List Value} {logged : List String}
    {plains : List Plain}
    (carried : Carries externals inputs sources logged plains)
    {values : List AbiValue}
    (logs : LogsValues externals (indexedInputs inputs) values logged)
    (holds : ∀ (index : Nat) (input : EventInput) (plain : Plain),
      inputs[index]? = some input → plains[index]? = some plain →
        input.param.name ≠ "" → ∃ param : DecodedParam,
          param.plain? = some plain ∧
          returned.read input.param.name = some param) :
    List.Forall₂ (Shows externals returned) (indexedInputs inputs) logged := by
  induction carried generalizing values with
  | nil => exact .nil
  | @word input inputs value sources topics plains abi normal indexed shown
      typed normalised _ induction =>
      rw [indexedInputs, List.filter_cons_of_pos indexed] at logs ⊢
      cases logs with
      | cons first others =>
          constructor
          · have same := word_of_topic documented shown typed normalised first
            obtain ⟨-, -, word⟩ := isFiltered_word shown typed
            refine ⟨_, abi, first, typed, ?_⟩
            intro named
            obtain ⟨param, readable, read⟩ := holds 0 input _ rfl rfl named
            rw [shownReturned_of_read read, shownParam_plain readable,
              topicPlain_word _ word, same]
            exact (wordValue_of_normalise word normalised).elementary
          · exact induction others fun index other plain atInput atPlain =>
              holds (index + 1) other plain atInput atPlain
  | @hash input inputs value sources topics plains digest indexed hidden _ _
      induction =>
      rw [indexedInputs, List.filter_cons_of_pos indexed] at logs ⊢
      cases logs with
      | cons first others =>
          constructor
          · obtain ⟨abi, typed, same⟩ :=
              hash_of_topic hidden first
            refine ⟨_, abi, first, typed, ?_⟩
            intro named
            obtain ⟨param, readable, read⟩ := holds 0 input _ rfl rfl named
            rw [shownReturned_of_read read, shownParam_plain readable, same]
            rintro elements ⟨⟩
          · exact induction others fun index other plain atInput atPlain =>
              holds (index + 1) other plain atInput atPlain
  | @data input inputs value sources topics plains abi normal unindexed _ _ _
      _ _ _ induction =>
      have skipped : indexedInputs (input :: inputs) = indexedInputs inputs :=
        List.filter_cons_of_neg (by rw [unindexed]; exact Bool.false_ne_true)
      rw [skipped] at logs ⊢
      exact induction logs fun index other plain atInput atPlain =>
        holds (index + 1) other plain atInput atPlain

end Logs

/-! ## The second filter -/

section Matching

variable {externals : Externals}

/-- A value is written as what it denotes is returned, up to letter case. -/
def Spelled (externals : Externals) (type : String) (candidate : Value) :
    Prop :=
  isIndexedHash type = false → ∀ meant,
    denoted externals type candidate = some meant →
      upperCase (shown candidate) =
        upperCase (shownPlain (meant.plain externals.toCryptography))

theorem textType_integer (type : Abi.IntegerType) :
    textType type.text = some (.number type.signed type.width) := by
  obtain ⟨digits, found, given, read⟩ :=
    Abi.matchNumber_named type.width type.signed
  have other : ∀ name : String, Abi.Reader.matchNumber name = none →
      Abi.numberName type.width.bytes type.signed ≠ name := by
    rintro name unmatched same
    rw [same, unmatched] at found
    cases found
  have bounds : 0 < type.width.bytes * 8 ∧ type.width.bytes * 8 ≤ 512 ∧
      8 ∣ type.width.bytes * 8 := by
    have positive := type.width.positive
    have within := type.width.lt
    exact ⟨by omega, by omega, Nat.dvd_mul_left 8 _⟩
  rw [textType, type.verifyType_text, String.ofList_toList,
    Abi.elementaryType, if_neg (other "address" (by decide)),
    if_neg (other "bool" (by decide)), if_neg (other "string" (by decide)),
    if_neg (other "bytes" (by decide)), if_neg (other "tuple" (by decide)),
    found]
  dsimp only
  rw [if_neg given, read, Abi.integerType, dif_pos bounds]
  simp only [Nat.mul_div_cancel _ (show 0 < 8 by decide)]

/-- An integer is spelled as a `bigint`. -/
theorem spelled_bigint (reads : ∀ value : Int,
      externals.bigNumberFrom (.bigint value) = .ok value)
    (type : Abi.IntegerType) (value : Int) :
    Spelled externals type.text (.bigint value) := by
  intro _ meant denotes
  have done : AbiInput.format externals (.text type.text) (.bigint value) =
      .ok (.bigint value) := by
    rw [Abi.format_integer]
    rfl
  have formatted := format_eq_ok done
  rw [denoted, formatted, textType_integer] at denotes
  change AbiType.normalise externals (.number type.signed type.width)
    (.bigint value) = some meant at denotes
  rw [AbiType.normalise, reads] at denotes
  obtain ⟨integer, isInteger, denotes⟩ := Option.bind_eq_some_iff.mp denotes
  cases isInteger
  split at denotes
  next =>
      cases denotes
      rfl
  next => cases denotes

/-- What a spelled value is compared as is what would be returned of it. -/
theorem expectedText_eq_ok (reads : ReadsBytes externals)
    {input : EventInput} (indexed : input.indexed = true) {candidate : Value}
    (bytesGiven : input.param.type = "bytes" → isNumeric candidate = false)
    (filtered : IsFiltered input.param.type)
    (spelled : Spelled externals input.param.type candidate)
    {abi : AbiType} (typed : textType input.param.type = some abi)
    {topic : String} (encoded : encodeIndexed externals input.param.type
      candidate = .ok topic) {meant : AbiValue}
    (denotes : denoted externals input.param.type candidate = some meant) :
    ∃ text, expectedText externals (some input) candidate = .ok text ∧
      upperCase text = upperCase (shownPlain
        (topicPlain externals.toCryptography abi meant)) := by
  rw [expectedText]
  rcases filtered with isShown | isString | isBytes
  · obtain ⟨string, bytes, word⟩ := isFiltered_word isShown typed
    rw [if_neg (fun both => string both.2), if_neg (fun both => bytes both.2),
      topicPlain_word _ word]
    exact ⟨_, rfl, spelled isShown meant denotes⟩
  · rw [if_pos ⟨indexed, isString⟩]
    rw [isString] at typed denotes
    cases typed
    obtain ⟨text, rfl, rfl⟩ := denoted_string denotes
    exact ⟨_, rfl, rfl⟩
  · rw [if_neg (fun both => absurd both.2 (by rw [isBytes]; decide)),
      if_pos ⟨indexed, isBytes⟩]
    rw [isBytes] at typed denotes encoded
    cases typed
    rw [encodeIndexed, if_neg (by decide), if_pos rfl, encodeIndexedBytesTopic]
      at encoded
    obtain ⟨_, -, encoded⟩ := Outcome.bind_eq_ok.mp encoded
    obtain ⟨hash, isHash, -⟩ := Outcome.bind_eq_ok.mp encoded
    refine ⟨hash, isHash, ?_⟩
    rw [keccak256] at isHash
    obtain ⟨contents, hashed, isHash⟩ := Outcome.bind_eq_ok.mp isHash
    cases isHash
    rw [bytesToHash_denoted reads (bytesGiven isBytes) denotes hashed]
    rfl

/-- Texts of what is returned tell values apart as topics do. -/
theorem topicPlain_of_upperCase {type : String} (filtered : IsFiltered type)
    {abi : AbiType} (typed : textType type = some abi)
    {leftSource rightSource : Value} {left right : AbiValue}
    (isLeft : abi.normalise externals leftSource = some left)
    (isRight : abi.normalise externals rightSource = some right) :
    upperCase (shownPlain (topicPlain externals.toCryptography abi left)) =
        upperCase (shownPlain (topicPlain externals.toCryptography abi right)) ↔
      Agrees externals.toCryptography abi left right := by
  rcases filtered with shown | rfl | rfl
  · obtain ⟨-, -, word⟩ := isFiltered_word shown typed
    rw [topicPlain_word _ word, topicPlain_word _ word, agrees_word word]
    constructor
    · exact (wordValue_of_normalise word isLeft).of_upperCase
        (wordValue_of_normalise word isRight)
    · rintro rfl
      rfl
  · cases typed
    obtain ⟨text, rfl⟩ := text_of_normalise isLeft
    obtain ⟨other, rfl⟩ := text_of_normalise isRight
    constructor
    · exact hexlify_of_upperCase
    · intro agrees
      exact congrArg (fun hash => upperCase (hexlify hash)) agrees
  · cases typed
    obtain ⟨contents, rfl⟩ := contents_of_normalise isLeft
    obtain ⟨other, rfl⟩ := contents_of_normalise isRight
    constructor
    · exact hexlify_of_upperCase
    · intro agrees
      exact congrArg (fun hash => upperCase (hexlify hash)) agrees

/-- A spelled value matches a log exactly where its topic does. -/
theorem matchesValue_eq_ok (documented : externals.Documented)
    (reads : ReadsBytes externals) (width : externals.KeccakWidth)
    {input : EventInput} (indexed : input.indexed = true)
    (named : input.param.name ≠ "") {candidate : Value}
    (bytesGiven : input.param.type = "bytes" → isNumeric candidate = false)
    (spelled : Spelled externals input.param.type candidate)
    {topic : String} (encoded : encodeIndexed externals input.param.type
      candidate = .ok topic) {returned : ReturnValues} {logged : String}
    (shows : Shows externals returned input logged) :
    ∃ matched, matchesValue externals (some input)
        (shownReturned returned input.param.name) candidate = .ok matched ∧
      (matched = true ↔ topic = logged) := by
  obtain ⟨value, abi, ⟨filtered, other, source, otherTyped, isValue, isLogged⟩,
    typed, read⟩ := shows
  rw [typed] at otherTyped
  cases otherTyped
  obtain ⟨meant, denotes, rfl⟩ := encodeIndexed_eq_ok documented reads width
    filtered bytesGiven typed encoded
  obtain ⟨text, expected, upper⟩ := expectedText_eq_ok reads indexed bytesGiven
    filtered spelled typed encoded denotes
  have isMeant := denotes
  rw [denoted] at isMeant
  obtain ⟨formatted, -, isMeant⟩ := Option.bind_eq_some_iff.mp isMeant
  rw [typed] at isMeant
  refine ⟨_, by rw [matchesValue, expected, Outcome.ok_bind], ?_⟩
  rw [decide_eq_true_iff, read named, upper, eq_comm,
    topicPlain_of_upperCase filtered typed isMeant isValue, isLogged,
    hexlify_eq_iff, indexedTopic_eq_iff documented filtered typed isMeant
      isValue]

/-- A value that is given for an input matches a log exactly where its topics
admit the one of the log. -/
theorem matchesGiven_eq_ok (documented : externals.Documented)
    (reads : ReadsBytes externals) (width : externals.KeccakWidth)
    {input : EventInput} (indexed : input.indexed = true)
    (named : input.param.name ≠ "") {given : Value}
    (present : isNullish given = false)
    (bytesGiven : input.param.type = "bytes" →
      ∀ candidate ∈ candidates given, isNumeric candidate = false)
    (spelled : ∀ candidate ∈ candidates given,
      Spelled externals input.param.type candidate)
    {topic : Topic}
    (encoded : encodeTopic externals input.param.type given = .ok topic)
    {returned : ReturnValues} {logged : String}
    (shows : Shows externals returned input logged) :
    ∃ matched, matchesGiven externals (some input)
        (shownReturned returned input.param.name) given = .ok matched ∧
      (matched = true ↔ topic.Admits logged) := by
  have single : ∀ candidate ∈ candidates given, ∀ text,
      encodeIndexed externals input.param.type candidate = .ok text →
        ∃ matched, matchesValue externals (some input)
            (shownReturned returned input.param.name) candidate = .ok matched ∧
          (matched = true ↔ text = logged) := by
    intro candidate among text isText
    exact matchesValue_eq_ok documented reads width indexed named
      (fun isBytes => bytesGiven isBytes candidate among)
      (spelled candidate among) isText shows
  cases given with
  | undefined | null => cases present
  | array values =>
      obtain ⟨topics, mapped, rfl⟩ := Outcome.map_eq_ok.mp encoded
      have each : ∀ value ∈ values, ∃ matched, matchesValue externals
          (some input) (shownReturned returned input.param.name) value =
            .ok matched := by
        intro value among
        obtain ⟨text, isText⟩ := (Outcome.exists_of_mapM mapped).1 value among
        obtain ⟨matched, isMatched, -⟩ := single value among text isText
        exact ⟨matched, isMatched⟩
      obtain ⟨matched, isMatched, matches_iff⟩ := Outcome.anyM_eq_ok each
      refine ⟨matched, isMatched, ?_⟩
      change _ ↔ logged ∈ topics
      rw [matches_iff, Outcome.mem_mapM_iff mapped]
      constructor
      · rintro ⟨value, among, isTrue⟩
        obtain ⟨text, isText⟩ := (Outcome.exists_of_mapM mapped).1 value among
        obtain ⟨_, made, same⟩ := single value among text isText
        rw [isTrue] at made
        cases made
        exact ⟨value, among, by rw [isText, same.mp rfl]⟩
      · rintro ⟨value, among, isText⟩
        obtain ⟨_, made, same⟩ := single value among logged isText
        exact ⟨value, among, by rw [made, same.mpr rfl]⟩
  | boolean | number | notANumber | infinity | bigint | string | function
  | object | byteArray =>
      obtain ⟨text, isText, rfl⟩ := Outcome.map_eq_ok.mp encoded
      exact single _ (List.mem_singleton_self _) text isText

end Matching

section Selecting

variable {externals : Externals}

/-- The values of a filter are given for the inputs, and spelled. -/
structure Filters (externals : Externals) (inputs : List EventInput)
    (options : Filter) : Prop where
  named : ∀ input ∈ inputs, isNullish (options.given input.param.name) =
    false → input.param.name ≠ ""
  bytesGiven : ∀ input ∈ inputs, input.param.type = "bytes" →
    ∀ candidate ∈ candidates (options.given input.param.name),
      isNumeric candidate = false
  spelled : ∀ input ∈ inputs,
    ∀ candidate ∈ candidates (options.given input.param.name),
      Spelled externals input.param.type candidate

/-- Whether the value that is given for an input matches. -/
def Matches (externals : Externals) (options : Filter)
    (returned : ReturnValues) (input : EventInput) : Prop :=
  isNullish (options.given input.param.name) = false →
    matchesGiven externals (some input) (shownReturned returned input.param.name)
      (options.given input.param.name) = .ok true

theorem encodeTopic_nullish {type : String} {given : Value}
    (absent : isNullish given = true) :
    encodeTopic externals type given = .ok .any := by
  cases given with
  | undefined | null => rfl
  | boolean | number | notANumber | infinity | bigint | string | function
  | object | byteArray | array => cases absent

/-- All given values match exactly where the topics select the log. -/
theorem selects_iff_matches (documented : externals.Documented)
    (reads : ReadsBytes externals) (width : externals.KeccakWidth)
    {options : Filter} {returned : ReturnValues} {inputs : List EventInput}
    (indexed : ∀ input ∈ inputs, input.indexed = true)
    (filters : Filters externals inputs options) {topics : List Topic}
    (encoded : inputs.mapM (fun input => encodeTopic externals
      input.param.type (options.given input.param.name)) = .ok topics)
    {logged : List String}
    (shows : List.Forall₂ (Shows externals returned) inputs logged) :
    (∀ input ∈ inputs, isNullish (options.given input.param.name) = false →
      ∃ matched, matchesGiven externals (some input)
        (shownReturned returned input.param.name) (options.given input.param.name) =
          .ok matched) ∧
      (Selects topics logged ↔
        ∀ input ∈ inputs, Matches externals options returned input) := by
  induction shows generalizing topics with
  | nil =>
      cases encoded
      refine ⟨?_, iff_of_true trivial ?_⟩
      · rintro _ ⟨⟩
      · rintro _ ⟨⟩
  | @cons input logged inputs others first _ induction =>
      rw [List.mapM_cons] at encoded
      obtain ⟨topic, isTopic, encoded⟩ := Outcome.bind_eq_ok.mp encoded
      obtain ⟨topics, areTopics, encoded⟩ := Outcome.bind_eq_ok.mp encoded
      cases encoded
      have later : Filters externals inputs options :=
        ⟨fun other among => filters.named other (List.mem_cons_of_mem _ among),
          fun other among =>
            filters.bytesGiven other (List.mem_cons_of_mem _ among),
          fun other among =>
            filters.spelled other (List.mem_cons_of_mem _ among)⟩
      obtain ⟨each, selected⟩ := induction
        (fun other among => indexed other (List.mem_cons_of_mem _ among))
        later areTopics
      have here : isNullish (options.given input.param.name) = false →
          ∃ matched, matchesGiven externals (some input)
              (shownReturned returned input.param.name)
              (options.given input.param.name) = .ok matched ∧
            (matched = true ↔ topic.Admits logged) := by
        intro present
        exact matchesGiven_eq_ok documented reads width
          (indexed input List.mem_cons_self)
          (filters.named input List.mem_cons_self present) present
          (filters.bytesGiven input List.mem_cons_self)
          (filters.spelled input List.mem_cons_self) isTopic first
      rw [List.forall_mem_cons, List.forall_mem_cons, ← selected]
      refine ⟨⟨?_, each⟩, and_congr_left fun _ => ?_⟩
      · intro present
        obtain ⟨matched, isMatched, -⟩ := here present
        exact ⟨matched, isMatched⟩
      · rw [Matches]
        cases given : isNullish (options.given input.param.name) with
        | true =>
            rw [encodeTopic_nullish given] at isTopic
            cases isTopic
            exact iff_of_true trivial (by rintro ⟨⟩)
        | false =>
            obtain ⟨matched, isMatched, admits⟩ := here given
            rw [isMatched, ← admits, Except.ok.injEq]
            constructor
            · intro same _
              exact same
            · intro implied
              exact implied rfl

end Selecting

section Keeping

variable {externals : Externals}

theorem find?_input {inputs : List EventInput} (names : DistinctNames inputs)
    {input : EventInput} (member : input ∈ inputs)
    (named : input.param.name ≠ "") :
    inputs.find? (·.param.name = input.param.name) = some input := by
  induction inputs with
  | nil => cases member
  | cons first inputs induction =>
      rcases List.mem_cons.mp member with rfl | later
      · exact List.find?_cons_of_pos (decide_eq_true rfl)
      · have other : first.param.name ≠ input.param.name := by
          intro same
          rw [← same] at named
          exact names.fresh named later same.symm
        rw [List.find?_cons_of_neg (by simpa using other)]
        exact induction names.tail later

/-- The keys of a filter are the names of indexed inputs, of which none is a
name that objects inherit. -/
structure ForIndexed (inputs : List EventInput) (options : Filter) :
    Prop where
  keys : (options.filter.map Prod.fst).Nodup
  indexed : ∀ entry ∈ options.filter, isNullish entry.2 = false ∧
    entry.1 ≠ "" ∧ ∃ input ∈ indexedInputs inputs,
      input.param.name = entry.1
  own : ∀ input ∈ indexedInputs inputs,
    isNullish (inheritedMember input.param.name) = true

/-- What holds of all keys holds of all indexed inputs that are given. -/
theorem forall_keys (test : Option EventInput → String → Value → Prop)
    {options : Filter} {inputs : List EventInput}
    (names : DistinctNames inputs) (keys : ForIndexed inputs options) :
    (∀ entry ∈ options.filter,
      test (inputs.find? (·.param.name = entry.1)) entry.1 entry.2) ↔
      ∀ input ∈ indexedInputs inputs,
        isNullish (options.given input.param.name) = false →
          test (some input) input.param.name
            (options.given input.param.name) := by
  constructor
  · intro all input among present
    cases found : options.filter.lookup input.param.name with
    | none =>
        rw [Filter.given, found, Option.getD_none, keys.own input among]
          at present
        cases present
    | some value =>
        obtain ⟨before, after, split, -⟩ := List.lookup_eq_some_iff.mp found
        have member : (input.param.name, value) ∈ options.filter := by
          rw [split]
          exact List.mem_append_right _ List.mem_cons_self
        have tested := all _ member
        dsimp only at tested
        rw [find?_input names (List.mem_of_mem_filter among)
          (keys.indexed _ member).2.1] at tested
        rw [Filter.given, found, Option.getD_some]
        exact tested
  · intro all entry member
    obtain ⟨present, named, input, among, same⟩ := keys.indexed entry member
    have given : options.given input.param.name = entry.2 := by
      rw [Filter.given, same, lookup_of_distinct keys.keys member,
        Option.getD_some]
    have tested := all input among
    rw [given] at tested
    rw [← same] at named ⊢
    rw [find?_input names (List.mem_of_mem_filter among) named]
    exact tested present

/-- A decoded log is kept exactly where the topics select it. -/
theorem keepsLog_eq_ok (documented : externals.Documented)
    (reads : ReadsBytes externals) (width : externals.KeccakWidth)
    {event : AbiEventFragment} (own : event.name ≠ some allEventsName)
    {inputs : List EventInput} (given : event.inputs = some inputs)
    (names : DistinctNames inputs) {options : Filter}
    (keys : ForIndexed inputs options)
    (filters : Filters externals (indexedInputs inputs) options)
    {topics : List Topic} (encoded : (indexedInputs inputs).mapM (fun input =>
      encodeTopic externals input.param.type
        (options.given input.param.name)) = .ok topics)
    (jsonInterface : List AbiEventFragment) {log : EventLog}
    {logged : List String} (shows : List.Forall₂
      (Shows externals log.returnValues) (indexedInputs inputs) logged) :
    ∃ kept, keepsLog externals event jsonInterface options log = .ok kept ∧
      (kept = true ↔ Selects topics logged) := by
  obtain ⟨each, selected⟩ := selects_iff_matches documented reads width
    (fun input among => List.of_mem_filter among) filters encoded shows
  let test (input : Option EventInput) (key : String) (value : Value) :
      Except String Bool :=
    matchesGiven externals input (shownReturned log.returnValues key) value
  have answered : ∀ entry ∈ options.filter, ∃ answer,
      test (inputs.find? (·.param.name = entry.1)) entry.1 entry.2 =
        .ok answer :=
    (forall_keys (fun input key value => ∃ answer,
      test input key value = .ok answer) names keys).mpr each
  obtain ⟨kept, isKept, kept_iff⟩ := Outcome.allM_eq_ok answered
  refine ⟨kept, ?_, ?_⟩
  · rw [keepsLog, logAbi, if_neg own, Option.bind_some, given]
    exact isKept
  · rw [kept_iff, selected]
    exact forall_keys (fun input key value =>
      test input key value = .ok true) names keys

end Keeping

section PastEvents

variable {externals : Externals}

/-- A log of the event, with its indexed values in its topics. -/
def Emits (externals : Externals) (event : AbiEventFragment)
    (inputs : List EventInput) (digest : Bytes) (log : LogsInput) : Prop :=
  ∃ sources values plains logged,
    Carries externals inputs sources logged plains ∧
    LogsValues externals (indexedInputs inputs) values logged ∧
    encodeParameters externals (nonIndexedInputs inputs)
      (nonIndexedValues inputs sources) = .ok log.data ∧
    log.topics = frontTopics event digest ++ logged

/-- A log of the event is decoded, and kept where the topics select it. -/
theorem decoded_kept (documented : externals.Documented)
    (reads : ReadsBytes externals) (width : externals.KeccakWidth)
    {event : AbiEventFragment} (own : event.name ≠ some allEventsName)
    {inputs : List EventInput} (given : event.inputs = some inputs)
    (names : DistinctNames inputs) {digest : Bytes}
    (signed : event.signature = hexlify digest)
    (digestWidth : digest.length = 32) {options : Filter}
    (free : options.topics = none) (keys : ForIndexed inputs options)
    (filters : Filters externals (indexedInputs inputs) options)
    {topics : List Topic}
    (encoded : encodeTopics externals event options = .ok topics)
    (jsonInterface : List AbiEventFragment) {log : LogsInput}
    (emitted : Emits externals event inputs digest log) :
    ∃ decoded, decodeEventABI externals event log jsonInterface =
        .ok decoded ∧ decoded.raw = log ∧
      ∃ kept, keepsLog externals event jsonInterface options decoded =
          .ok kept ∧
        (kept = true ↔ Selects topics log.topics) := by
  obtain ⟨sources, values, plains, logged, carried, logs, dataMade,
    topicsMade⟩ := emitted
  obtain ⟨data, logTopics⟩ := log
  cases topicsMade
  obtain ⟨decoded, reports, isRaw, decodes⟩ := exists_reported documented
    jsonInterface given carried names dataMade signed digestWidth
  have shows := shows_logged documented carried logs
    fun index input plain atInput atPlain named => by
      obtain ⟨param, readable, -, read⟩ :=
        reports.holds index input plain atInput atPlain
      exact ⟨param, readable, read named⟩
  rw [encodeTopics, free] at encoded
  obtain ⟨front, signatureMade, encoded⟩ := Outcome.bind_eq_ok.mp encoded
  obtain ⟨arguments, argumentsMade, encoded⟩ := Outcome.bind_eq_ok.mp encoded
  cases encoded
  rw [argumentTopics, if_neg own, given, Option.getD_some] at argumentsMade
  obtain ⟨kept, isKept, kept_iff⟩ := keepsLog_eq_ok documented reads width own
    given names keys filters argumentsMade jsonInterface shows
  refine ⟨decoded, decodes event (if_neg own), isRaw, kept, isKept, ?_⟩
  have padded : rightPad event.signature 128 =
      .ok (hexlify (digest ++ List.replicate 32 0)) := by
    rw [signed, rightPad_hash digestWidth]
  rw [kept_iff]
  exact (selects_front own signatureMade padded arguments logged).symm

theorem transfer_emitted : Emits strictExternals transferEvent
    Abi.transferInputs (List.replicate 32 9)
    { data := hexlify (Abi.Spec.word 1)
      topics := frontTopics transferEvent (List.replicate 32 9) ++
        [Abi.fiveTopic, textTopic] } :=
  ⟨_, _, _, _, transfer_carried, transfer_logged, transfer_data, rfl⟩

theorem transfer_filters : Filters strictExternals
    (indexedInputs Abi.transferInputs)
    { filter := [("amount", .bigint 5)] } where
  named := by decide
  bytesGiven := by decide
  spelled := by
    intro input among candidate offered hidden
    have first : input.param.name = "amount" ∧ input.param.type = "uint8" := by
      clear offered
      revert hidden
      revert input
      decide
    rw [first.1] at offered
    rw [first.2] at hidden ⊢
    cases List.mem_singleton.mp offered
    have spelled : Spelled strictExternals
        (Abi.IntegerType.text ⟨false, some ⟨1, by decide, by decide⟩⟩)
          (.bigint 5) := spelled_bigint (fun _ => rfl) _ 5
    have text : Abi.IntegerType.text
        ⟨false, some ⟨1, by decide, by decide⟩⟩ = "uint8" := by decide
    rw [text] at spelled
    exact spelled hidden

end PastEvents

end Web3Js.Contract
