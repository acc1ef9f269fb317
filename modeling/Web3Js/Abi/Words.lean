import Web3Js.Abi.Results

/-!
# Elementary types

The text of an elementary type is one word of letters and digits.  A type that
is neither `string` nor `bytes` nor a tuple takes one word of data, which is
decoded to the value that it encodes.
-/

namespace Web3Js.Abi

section Texts

theorem isAlphanum_of_digits {digits : List Char}
    (numeric : digits.all Char.isDigit = true) :
    digits.all Char.isAlphanum = true := by
  rw [List.all_eq_true] at numeric ⊢
  intro char member
  rw [Char.isAlphanum, numeric char member, Bool.or_true]

theorem isAlphanum_of_matchNumber {type : String}
    {matched : Bool × List Char}
    (number : Reader.matchNumber type = some matched) :
    type.toList.all Char.isAlphanum = true := by
  unfold Reader.matchNumber at number
  split at number
  · rename_i digits text
    split at number
    · rename_i numeric
      rw [text]
      change ("uint".toList ++ digits).all Char.isAlphanum = true
      rw [List.all_append, isAlphanum_of_digits numeric]
      rfl
    · cases number
  · rename_i digits text
    split at number
    · rename_i numeric
      rw [text]
      change ("int".toList ++ digits).all Char.isAlphanum = true
      rw [List.all_append, isAlphanum_of_digits numeric]
      rfl
    · cases number
  · cases number

theorem isAlphanum_of_matchBytes {type : String} {digits : List Char}
    (sized : matchBytes type = some digits) :
    type.toList.all Char.isAlphanum = true := by
  unfold matchBytes at sized
  split at sized
  · rename_i digits text
    split at sized
    · rename_i numeric
      rw [text]
      change ("bytes".toList ++ digits).all Char.isAlphanum = true
      rw [List.all_append, isAlphanum_of_digits numeric]
      rfl
    · cases sized
  · cases sized

theorem isAlphanum_of_elementaryType {type : String} {abi : AbiType}
    (typed : elementaryType type = some abi) :
    type.toList.all Char.isAlphanum = true := by
  unfold elementaryType at typed
  split_ifs at typed with address bool string bytes tuple
  · subst address
    decide
  · subst bool
    decide
  · subst string
    decide
  · subst bytes
    decide
  · subst tuple
    decide
  · cases number : Reader.matchNumber type with
    | some matched => exact isAlphanum_of_matchNumber number
    | none =>
        simp only [number] at typed
        obtain ⟨digits, sized, -⟩ := Option.bind_eq_some_iff.mp typed
        exact isAlphanum_of_matchBytes sized

/-- Writing out the width of an integer adds no other characters. -/
theorem isAlphanum_of_verifyType {type : List Char}
    (word : (verifyType type).all Char.isAlphanum = true) :
    type.all Char.isAlphanum = true := by
  obtain same | ⟨rest, ⟨rfl, wide⟩ | ⟨rfl, wide⟩⟩ := verifyType_cases type
  · rwa [same] at word
  · rw [wide, List.all_append, Bool.and_eq_true] at word
    rw [List.all_append, word.2]
    rfl
  · rw [wide, List.all_append, Bool.and_eq_true] at word
    rw [List.all_append, word.2]
    rfl

/-- The type that a text without brackets names. -/
def textType (type : String) : Option AbiType :=
  elementaryType (String.ofList (verifyType type.toList))

theorem ParamType.fromString_of_textType {type : String} {abi : AbiType}
    (typed : textType type = some abi) :
    ParamType.fromString type =
      .ok (.elementary none (String.ofList (verifyType type.toList))) := by
  have word := isAlphanum_of_elementaryType typed
  rw [String.toList_ofList] at word
  apply ParamType.fromString_word (isAlphanum_of_verifyType word)
  intro blank
  rw [textType, blank] at typed
  cases typed

/-- Only a text that is the type itself is taken for one without a width. -/
theorem verifyType_eq_self {type : List Char} {first : Char}
    (start : (verifyType type).head? = some first)
    (other : first ≠ 'u' ∧ first ≠ 'i') : verifyType type = type := by
  obtain same | ⟨rest, ⟨-, wide⟩ | ⟨-, wide⟩⟩ := verifyType_cases type
  · exact same
  · rw [wide] at start
    exact absurd (Option.some.inj start).symm other.1
  · rw [wide] at start
    exact absurd (Option.some.inj start).symm other.2

end Texts

section Words

/-- The types whose values take one word. -/
def AbiType.IsWord : AbiType → Prop
  | .address | .bool | .number _ _ | .fixedBytes _ => True
  | .string | .bytes | .array _ _ | .tuple _ _ => False

namespace AbiType.IsWord

variable {type : AbiType}

theorem isDynamic (word : type.IsWord) : type.isDynamic = false := by
  cases type with
  | address | bool | number | fixedBytes => rfl
  | string | bytes | array | tuple => nomatch word

theorem headed (word : type.IsWord) : type.Headed := by
  cases type with
  | address | bool | number | fixedBytes => trivial
  | string | bytes | array | tuple => nomatch word

theorem uncounted (word : type.IsWord) : type.Uncounted := by
  cases type with
  | address | bool | number | fixedBytes => trivial
  | string | bytes | array | tuple => nomatch word

theorem unlengthened (word : type.IsWord) : type.Unlengthened := by
  cases type with
  | address | bool | number | fixedBytes => trivial
  | string | bytes | array | tuple => nomatch word

theorem headSize (word : type.IsWord) : type.headSize = wordSize := by
  cases type with
  | address | bool | number | fixedBytes => rfl
  | string | bytes | array | tuple => nomatch word

theorem length_encode {externals : Externals} (word : type.IsWord)
    {value : Value} {normal : AbiValue}
    (normalised : type.normalise externals value = some normal) :
    (Spec.encode externals.toCryptography type normal).length = wordSize := by
  rw [← word.headSize]
  exact (AbiType.sized type value normal normalised).2 word.isDynamic

end AbiType.IsWord

theorem isWord_of_elementaryType {type : String} {abi : AbiType}
    (typed : elementaryType type = some abi) (string : type ≠ "string")
    (bytes : type ≠ "bytes") (tuple : type ≠ "tuple") : abi.IsWord := by
  unfold elementaryType at typed
  rw [if_neg string, if_neg bytes, if_neg tuple] at typed
  split_ifs at typed
  · cases typed
    trivial
  · cases typed
    trivial
  · cases number : Reader.matchNumber type with
    | some matched =>
        simp only [number] at typed
        generalize (if matched.2 = [] then 512
          else Reader.parseInt matched.2) = size at typed
        rw [integerType] at typed
        split at typed
        · cases typed
          trivial
        · cases typed
    | none =>
        simp only [number] at typed
        obtain ⟨digits, -, bounded⟩ := Option.bind_eq_some_iff.mp typed
        split at bounded
        · cases bounded
          trivial
        · cases bounded

theorem isWord_of_textType {type : String} {abi : AbiType}
    (typed : textType type = some abi) (string : type ≠ "string")
    (bytes : type ≠ "bytes") (tuple : type ≠ "tuple") : abi.IsWord := by
  have distinct : ∀ (other : String) (first : Char),
      other.toList.head? = some first → first ≠ 'u' ∧ first ≠ 'i' →
        type ≠ other → String.ofList (verifyType type.toList) ≠ other := by
    intro other first start plain different same
    apply different
    rw [← same, String.toList_ofList] at start
    rw [verifyType_eq_self start plain, String.ofList_toList] at same
    exact same
  exact isWord_of_elementaryType typed
    (distinct "string" 's' rfl (by decide) string)
    (distinct "bytes" 'b' rfl (by decide) bytes)
    (distinct "tuple" 't' rfl (by decide) tuple)

/-- A single static part is laid out as its contents. -/
theorem Spec.sequence_static {cryptography : Cryptography} {type : AbiType}
    (static : type.isDynamic = false) (normal : AbiValue) :
    Spec.sequence (Spec.parts cryptography [type] [normal]) =
      Spec.encode cryptography type normal := by
  simp [Spec.parts, Spec.sequence, HeadTail.layout, HeadTail.heads,
    HeadTail.tails, static]

variable {externals : Externals}

theorem normaliseAll_single {type : AbiType} {value : Value}
    {normal : AbiValue}
    (normalised : type.normalise externals value = some normal) :
    AbiType.normaliseAll externals [type] [value] = some [normal] := by
  rw [AbiType.normaliseAll, normalised]
  rfl

/-- The word of a value is decoded to the value. -/
theorem decodeParameter_word (documented : externals.Documented)
    {text : String} {type : AbiType} (typed : textType text = some type)
    (word : type.IsWord) {value : Value} {normal : AbiValue}
    (normalised : type.normalise externals value = some normal) :
    ∃ param,
      decodeParameter externals (.text text)
          (hexlify (Spec.encode externals.toCryptography type normal)) =
        .ok (some param) ∧
      param.plain? = some (normal.plain externals.toCryptography) := by
  have parsed : [AbiInput.text text].mapM ParamType.from =
      .ok [.elementary none (String.ofList (verifyType text.toList))] := by
    rw [List.mapM_cons, ParamType.from, ParamType.fromString_of_textType typed]
    rfl
  have paramTyped : ParamType.abiTypes
      [.elementary none (String.ofList (verifyType text.toList))] =
        some [type] := by
    rw [ParamType.abiTypes, ParamType.abiType]
    rw [textType] at typed
    rw [typed]
    rfl
  have contents : Spec.sequence
      (Spec.parts externals.toCryptography [type] [normal]) =
        Spec.encode externals.toCryptography type normal :=
    Spec.sequence_static word.isDynamic normal
  have length := word.length_encode normalised
  obtain ⟨returned, done, plains⟩ := decodeParametersWith_sequence documented
    rfl parsed paramTyped ⟨word.headed, trivial⟩
    ⟨word.unlengthened, trivial⟩ (List.forall_mem_nil _)
    (by simp [ParamType.localName])
    ⟨word.uncounted, trivial⟩ (normaliseAll_single normalised)
    (by rw [contents, length]; decide)
    (fun _ blank => by
      rw [contents] at blank
      rw [blank] at length
      cases length)
    false
  rw [contents] at done
  obtain ⟨elements, named⟩ := returned
  obtain _ | ⟨readable, -⟩ := DecodedParam.plains?_eq_some.mp plains
  refine ⟨_, ?_, readable⟩
  rw [decodeParameter, decodeParameters, done]
  rfl

end Words

end Web3Js.Abi
