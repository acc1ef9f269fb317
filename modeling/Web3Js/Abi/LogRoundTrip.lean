import Web3Js.Abi.Logs

/-!
# Decoding the logs of an event

The topics and the data of a log carry the values of the inputs.  By induction
on the inputs, decoding the topics gives the values of the indexed inputs in
their order, and the loop puts every value at the position and under the name
of its input.
-/

namespace Web3Js.Abi

section Carrying

variable (externals : Externals)

mutual

/-- A type without arrays of no elements and tuples of no components. -/
def AbiType.Filled : AbiType → Prop
  | .address | .bool | .string | .bytes | .number _ _ | .fixedBytes _ => True
  | .array element length => length ≠ some 0 ∧ element.Filled
  | .tuple _ components => components ≠ [] ∧ AbiType.AllFilled components

def AbiType.AllFilled : List AbiType → Prop
  | [] => True
  | component :: components =>
      component.Filled ∧ AbiType.AllFilled components

end

/-- The values of the inputs, with the topics of the indexed ones and what is
to be read back: a value that the parameter denotes, or the hash. -/
inductive Carries : List EventInput → List Value → List String →
    List Plain → Prop
  | nil : Carries [] [] [] []
  | word {input : EventInput} {inputs : List EventInput} {value : Value}
      {values : List Value} {topics : List String} {plains : List Plain}
      {type : AbiType} {normal : AbiValue}
      (indexed : input.indexed = true)
      (shown : isIndexedHash input.param.type = false)
      (typed : textType input.param.type = some type)
      (normalised : type.normalise externals value = some normal)
      (others : Carries inputs values topics plains) :
      Carries (input :: inputs) (value :: values)
        (hexlify (Spec.encode externals.toCryptography type normal) ::
          topics)
        (normal.plain externals.toCryptography :: plains)
  | hash {input : EventInput} {inputs : List EventInput} {value : Value}
      {values : List Value} {topics : List String} {plains : List Plain}
      {digest : Bytes} (indexed : input.indexed = true)
      (hidden : isIndexedHash input.param.type = true)
      (width : digest.length = 32)
      (others : Carries inputs values topics plains) :
      Carries (input :: inputs) (value :: values)
        (hexlify (digest ++ List.replicate 32 0) :: topics)
        (.text (hexlify digest) :: plains)
  | data {input : EventInput} {inputs : List EventInput} {value : Value}
      {values : List Value} {topics : List String} {plains : List Plain}
      {type : AbiType} {normal : AbiValue}
      (unindexed : input.indexed = false)
      (typed : (ParamType.fromObject input.param).abiType = some type)
      (filled : type.Filled) (uncounted : type.Uncounted)
      (unlengthened : type.Unlengthened)
      (normalised : type.normalise externals value.copy = some normal)
      (others : Carries inputs values topics plains) :
      Carries (input :: inputs) (value :: values) topics
        (normal.plain externals.toCryptography :: plains)

/-- The values of the inputs that are not indexed. -/
def nonIndexedValues : List EventInput → List Value → List Value
  | input :: inputs, value :: values =>
      if input.indexed then nonIndexedValues inputs values
      else value :: nonIndexedValues inputs values
  | _, _ => []

/-- The names are distinct keys of their own. -/
structure DistinctNames (inputs : List EventInput) : Prop where
  distinct : ((inputs.map (·.param.name)).filter (· ≠ "")).Nodup
  unnumbered : ∀ input ∈ inputs, ∀ index : Nat,
    input.param.name ≠ toString index
  settable : ∀ input ∈ inputs, input.param.name ≠ "__proto__"

end Carrying

section Sizes

mutual

/-- A value of a filled type takes a place in the head. -/
theorem AbiType.Filled.headed : ∀ {type : AbiType}, type.Filled →
    type.Headed ∧ 1 ≤ type.headSize
  | .address, _ | .bool, _ | .string, _ | .bytes, _ | .number _ _, _
  | .fixedBytes _, _ => ⟨trivial, show 1 ≤ wordSize by decide⟩
  | .array element none, filled => by
      obtain ⟨headed, size⟩ := AbiType.Filled.headed filled.2
      exact ⟨⟨size, headed⟩, show 1 ≤ wordSize by decide⟩
  | .array element (some length), filled => by
      obtain ⟨headed, size⟩ := AbiType.Filled.headed filled.2
      refine ⟨headed, ?_⟩
      rw [AbiType.headSize]
      split
      · decide
      · have positive : 0 < length := by
          apply Nat.pos_of_ne_zero
          rintro rfl
          exact filled.1 rfl
        exact Nat.mul_pos positive size
  | .tuple names components, filled => by
      obtain ⟨headed, size⟩ := AbiType.AllFilled.headed filled.2
      refine ⟨headed, ?_⟩
      rw [AbiType.headSize]
      split
      · decide
      · exact size filled.1

theorem AbiType.AllFilled.headed : ∀ {types : List AbiType},
    AbiType.AllFilled types →
      AbiType.AllHeaded types ∧ (types ≠ [] → 1 ≤ AbiType.headSizes types)
  | [], _ => ⟨trivial, fun nonempty => absurd rfl nonempty⟩
  | type :: types, filled => by
      obtain ⟨headed, size⟩ := AbiType.Filled.headed filled.1
      obtain ⟨others, -⟩ := AbiType.AllFilled.headed filled.2
      exact ⟨⟨headed, others⟩, fun _ => Nat.le_add_right_of_le size⟩

end

variable {externals : Externals}

theorem Spec.sequence_ne_nil {types : List AbiType}
    (filled : AbiType.AllFilled types) (nonempty : types ≠ [])
    {values : List Value} {normals : List AbiValue}
    (normalised :
      AbiType.normaliseAll externals types values = some normals) :
    Spec.sequence (Spec.parts externals.toCryptography types normals) ≠
      [] := by
  intro blank
  have size := filled.headed.2 nonempty
  obtain ⟨-, heads, -⟩ :=
    Spec.parts_sized (AbiType.allSized types) normalised
  have length := congrArg List.length blank
  rw [Spec.sequence, HeadTail.length_layout Spec.length_lengthWord, heads,
    List.length_nil] at length
  omega

end Sizes

section Topics

variable {externals : Externals}

/-- The topics are read from the cursor on. -/
theorem decodeTopics_from {inputs : List EventInput} {topics whole : List String}
    {results : List (Option DecodedParam)} {offset : Int} {start : Nat}
    (decoded : List.Forall₂ (fun carried result =>
      decodeTopic externals carried.1.param.type (some carried.2) =
        .ok result) (inputs.zip topics) results)
    (same : topics.length = inputs.length)
    (located : ∀ index : Nat,
      topicAt whole ((start + index : Nat) + offset) = topics[index]?) :
    List.Forall₂ (fun input result =>
      decodeTopic externals input.1.param.type
        (topicAt whole (input.2 + offset)) = .ok result)
      (inputs.zipIdx start) results := by
  induction inputs generalizing topics results start with
  | nil =>
      cases decoded
      exact .nil
  | cons input inputs induction =>
      cases topics with
      | nil => nomatch same
      | cons topic topics =>
          rw [List.zip_cons_cons] at decoded
          cases decoded with
          | cons first others =>
              rw [List.zipIdx_cons]
              constructor
              · have here := located 0
                rw [Nat.add_zero] at here
                rw [here]
                exact first
              · apply induction others (Nat.succ.inj same)
                intro index
                have there := located (index + 1)
                rw [List.getElem?_cons_succ] at there
                rw [← there]
                congr 2
                push_cast
                omega

theorem decodeTopics_of_topics {inputs : List EventInput}
    {topics : List String} {results : List (Option DecodedParam)}
    (decoded : List.Forall₂ (fun carried result =>
      decodeTopic externals carried.1.param.type (some carried.2) =
        .ok result) (inputs.zip topics) results)
    (same : topics.length = inputs.length) (front : List String) :
    decodeTopics externals inputs (front ++ topics)
        ((front ++ topics).length - inputs.length) = .ok results := by
  rw [decodeTopics, Outcome.mapM_eq_ok]
  refine decodeTopics_from decoded same ?_
  intro index
  have shift : ((0 + index : Nat) : Int) +
      ((front ++ topics).length - inputs.length) =
        ((front.length + index : Nat) : Int) := by
    rw [List.length_append, same]
    push_cast
    omega
  rw [shift, topicAt, if_neg (by omega), Int.toNat_natCast,
    List.getElem?_append_right (Nat.le_add_right _ _), Nat.add_sub_cancel_left]

theorem decodeTopic_word (documented : externals.Documented) {text : String}
    {type : AbiType} (shown : isIndexedHash text = false)
    (typed : textType text = some type) {value : Value} {normal : AbiValue}
    (normalised : type.normalise externals value = some normal) :
    ∃ param,
      decodeTopic externals text (some (hexlify
          (Spec.encode externals.toCryptography type normal))) =
        .ok (some param) ∧
      param.plain? = some (normal.plain externals.toCryptography) := by
  have other := shown
  simp only [isIndexedHash, Bool.or_eq_false_iff, beq_eq_false_iff_ne]
    at other
  obtain ⟨⟨⟨⟨string, bytes⟩, -⟩, tuple⟩, -⟩ := other
  have word := isWord_of_textType typed string bytes tuple
  obtain ⟨param, read, plain⟩ :=
    decodeParameter_word documented typed word normalised
  refine ⟨param, ?_, plain⟩
  rw [decodeTopic, shown, if_neg Bool.false_ne_true, Option.getD_some]
  exact read

theorem decodeTopic_hash {text : String} (hidden : isIndexedHash text = true)
    {digest : Bytes} (width : digest.length = 32) (rest : Bytes) :
    decodeTopic externals text (some (hexlify (digest ++ rest))) =
      .ok (some (.value (.string (hexlify digest)))) := by
  have front : (hexlify (digest ++ rest)).toList.take 66 =
      '0' :: 'x' :: Hex.encode digest := by
    rw [hexlify, String.toList_ofList, Hex.encode_append, List.take_succ_cons,
      List.take_succ_cons]
    rw [List.take_left' (by rw [Hex.length_encode, width])]
  rw [decodeTopic, if_pos hidden]
  simp only [front]
  rfl

/-- The results of the two walks, in the order of the inputs. -/
inductive Returned : List EventInput → List (Option DecodedParam) →
    List DecodedParam → List Plain → Prop
  | nil : Returned [] [] [] []
  | indexed {input : EventInput} {inputs : List EventInput}
      {results : List (Option DecodedParam)} {elements : List DecodedParam}
      {plains : List Plain} {param : DecodedParam} {plain : Plain}
      (indexed : input.indexed = true) (readable : param.plain? = some plain)
      (others : Returned inputs results elements plains) :
      Returned (input :: inputs) (some param :: results) elements
        (plain :: plains)
  | data {input : EventInput} {inputs : List EventInput}
      {results : List (Option DecodedParam)} {elements : List DecodedParam}
      {plains : List Plain} {param : DecodedParam} {plain : Plain}
      (unindexed : input.indexed = false)
      (readable : param.plain? = some plain)
      (others : Returned inputs results elements plains) :
      Returned (input :: inputs) results (param :: elements)
        (plain :: plains)

/-- What the walk over the topics and the encoder of the data make of the
inputs. -/
structure Walked (externals : Externals) (inputs : List EventInput)
    (values : List Value) (topics : List String) (plains : List Plain)
    (results : List (Option DecodedParam)) (types : List AbiType)
    (normals : List AbiValue) : Prop where
  sameLength : topics.length = (indexedInputs inputs).length
  decoded : List.Forall₂ (fun carried result =>
    decodeTopic externals carried.1.param.type (some carried.2) = .ok result)
      ((indexedInputs inputs).zip topics) results
  typed : ParamType.abiTypes ((inputs.filter (!·.indexed)).map
    (ParamType.fromObject ·.param)) = some types
  filled : AbiType.AllFilled types
  uncounted : AbiType.AllUncounted types
  unlengthened : AbiType.AllUnlengthened types
  normalised : AbiType.normaliseAll externals types
    ((nonIndexedValues inputs values).map Value.copy) = some normals
  returned : ∀ elements, DecodedParam.plains? elements =
      some (AbiValue.plains externals.toCryptography normals) →
    Returned inputs results elements plains

namespace Walked

variable {inputs : List EventInput} {values : List Value}
  {topics : List String} {plains : List Plain}
  {results : List (Option DecodedParam)} {types : List AbiType}
  {normals : List AbiValue}

theorem indexed
    (walked : Walked externals inputs values topics plains results types
      normals)
    {input : EventInput} (indexed : input.indexed = true) (value : Value)
    {topic : String} {param : DecodedParam} {plain : Plain}
    (read : decodeTopic externals input.param.type (some topic) =
      .ok (some param))
    (readable : param.plain? = some plain) :
    Walked externals (input :: inputs) (value :: values) (topic :: topics)
      (plain :: plains) (some param :: results) types normals := by
  have first : indexedInputs (input :: inputs) =
      input :: indexedInputs inputs := List.filter_cons_of_pos indexed
  have skipped : (input :: inputs).filter (!·.indexed) =
      inputs.filter (!·.indexed) :=
    List.filter_cons_of_neg (by simp [indexed])
  refine ⟨?_, ?_, ?_, walked.filled, walked.uncounted, walked.unlengthened,
    ?_, ?_⟩
  · rw [first, List.length_cons, List.length_cons, walked.sameLength]
  · rw [first]
    exact .cons read walked.decoded
  · rw [skipped]
    exact walked.typed
  · rw [nonIndexedValues, if_pos indexed]
    exact walked.normalised
  · intro elements allReadable
    exact .indexed indexed readable (walked.returned elements allReadable)

theorem data
    (walked : Walked externals inputs values topics plains results types
      normals)
    {input : EventInput} (unindexed : input.indexed = false) {value : Value}
    {type : AbiType} {normal : AbiValue}
    (typed : (ParamType.fromObject input.param).abiType = some type)
    (filled : type.Filled) (uncounted : type.Uncounted)
    (unlengthened : type.Unlengthened)
    (normalised : type.normalise externals value.copy = some normal) :
    Walked externals (input :: inputs) (value :: values) topics
      (normal.plain externals.toCryptography :: plains) results
      (type :: types) (normal :: normals) := by
  have notIndexed : ¬input.indexed = true := by
    rw [unindexed]
    exact Bool.false_ne_true
  have skipped : indexedInputs (input :: inputs) = indexedInputs inputs :=
    List.filter_cons_of_neg notIndexed
  have first : (input :: inputs).filter (!·.indexed) =
      input :: inputs.filter (!·.indexed) :=
    List.filter_cons_of_pos (by simp [unindexed])
  refine ⟨?_, ?_, ?_, ⟨filled, walked.filled⟩, ⟨uncounted, walked.uncounted⟩,
    ⟨unlengthened, walked.unlengthened⟩, ?_, ?_⟩
  · rw [skipped]
    exact walked.sameLength
  · rw [skipped]
    exact walked.decoded
  · rw [first, List.map_cons, ParamType.abiTypes, typed, walked.typed]
    rfl
  · rw [nonIndexedValues, if_neg notIndexed, List.map_cons,
      AbiType.normaliseAll, normalised, walked.normalised]
    rfl
  · intro elements readable
    have related := DecodedParam.plains?_eq_some.mp readable
    rw [AbiValue.plains] at related
    cases related with
    | cons readableHead others =>
        exact .data unindexed readableHead
          (walked.returned _ (DecodedParam.plains?_eq_some.mpr others))

end Walked

theorem Carries.walked (documented : externals.Documented)
    {inputs : List EventInput} {values : List Value} {topics : List String}
    {plains : List Plain}
    (carried : Carries externals inputs values topics plains) :
    ∃ results types normals, Walked externals inputs values topics plains
      results types normals := by
  induction carried with
  | nil =>
      refine ⟨[], [], [], rfl, .nil, rfl, trivial, trivial, trivial, rfl, ?_⟩
      intro elements readable
      cases DecodedParam.plains?_eq_some.mp readable
      exact .nil
  | word indexed shown typed normalised _ induction =>
      obtain ⟨results, types, normals, walked⟩ := induction
      obtain ⟨param, read, plain⟩ :=
        decodeTopic_word documented shown typed normalised
      exact ⟨some param :: results, types, normals,
        walked.indexed indexed _ read plain⟩
  | hash indexed hidden width _ induction =>
      obtain ⟨results, types, normals, walked⟩ := induction
      exact ⟨_, types, normals,
        walked.indexed indexed _ (decodeTopic_hash hidden width _) rfl⟩
  | data unindexed typed filled uncounted unlengthened normalised _ induction =>
      obtain ⟨results, types, normals, walked⟩ := induction
      exact ⟨results, _, _, walked.data unindexed typed filled uncounted
        unlengthened normalised⟩

end Topics

section Merging

/-- A position is written with digits, at least one. -/
theorem toString_ne {key : String}
    (other : (!key.toList.isEmpty && key.toList.all Char.isDigit) = false)
    (position : Nat) : toString position ≠ key := by
  rintro rfl
  rw [Nat.toString_eq_ofList_toDigits, String.toList_ofList,
    Bool.and_eq_false_iff] at other
  rcases other with empty | letters
  · rw [Bool.not_eq_false', List.isEmpty_iff] at empty
    exact Nat.toDigits_ne_nil empty
  · apply Bool.eq_false_iff.mp letters
    rw [List.all_eq_true]
    intro digit member
    exact Nat.isDigit_of_mem_toDigits (by decide) (by decide) member

theorem toString_ne_proto (position : Nat) :
    toString position ≠ "__proto__" :=
  toString_ne (by decide) position

theorem ReturnValues.set_of_plain {values : ReturnValues} {key : String}
    (settable : key ≠ "__proto__") (plain : values.prototype = none)
    (value : Option DecodedParam) :
    values.set key value =
      .ok { values with properties := values.properties.set key value } := by
  unfold ReturnValues.set
  rw [if_neg settable, if_neg (by simp [plain])]

theorem DistinctNames.tail {input : EventInput} {inputs : List EventInput}
    (names : DistinctNames (input :: inputs)) : DistinctNames inputs where
  distinct := by
    refine names.distinct.sublist (List.Sublist.filter _ ?_)
    exact List.sublist_cons_self _ _
  unnumbered other member :=
    names.unnumbered other (List.mem_cons_of_mem input member)
  settable other member :=
    names.settable other (List.mem_cons_of_mem input member)

theorem DistinctNames.fresh {input other : EventInput}
    {inputs : List EventInput} (names : DistinctNames (input :: inputs))
    (named : input.param.name ≠ "") (member : other ∈ inputs) :
    other.param.name ≠ input.param.name := by
  intro same
  have distinct := names.distinct
  rw [List.map_cons, List.filter_cons_of_pos (by simpa using named)]
    at distinct
  apply (List.nodup_cons.mp distinct).1
  rw [List.mem_filter, List.mem_map]
  exact ⟨⟨other, member, same⟩, by simpa using named⟩

/-- An object holds the value of an input at a position and under its name. -/
def ReturnValues.Holds (values : ReturnValues) (position : Nat)
    (name : String) (plain : Plain) : Prop :=
  ∃ param : DecodedParam, param.plain? = some plain ∧
    values.read (toString position) = some param ∧
    (name ≠ "" → values.read name = some param)

/-- The object after the loop over some inputs. -/
structure Merged (inputs : List EventInput) (plains : List Plain)
    (position : Nat) (values final : ReturnValues) : Prop where
  length : final.length = values.length + inputs.length
  holds : ∀ (index : Nat) (input : EventInput) (plain : Plain),
    inputs[index]? = some input → plains[index]? = some plain →
      final.Holds (position + index) input.param.name plain
  kept : ∀ key : String, (∀ index : Nat, position ≤ index →
      key ≠ toString index) →
    (∀ input ∈ inputs, input.param.name ≠ "" → input.param.name ≠ key) →
      final.properties.get? key = values.properties.get? key
  before : ∀ index : Nat, index < position →
    final.properties.get? (toString index) =
      values.properties.get? (toString index)

/-- The object after one input. -/
def ReturnValues.push (values : ReturnValues) (position : Nat) (name : String)
    (param : DecodedParam) : ReturnValues :=
  { values with
    properties :=
      if name = "" then values.properties.set (toString position) (some param)
      else (values.properties.set (toString position) (some param)).set name
        (some param)
    length := values.length + 1 }

theorem ReturnValues.get?_push_of_ne {values : ReturnValues}
    {position : Nat} {name key : String} (param : DecodedParam)
    (otherPosition : key ≠ toString position)
    (otherName : name ≠ "" → key ≠ name) :
    (values.push position name param).properties.get? key =
      values.properties.get? key := by
  simp only [push]
  split
  · rw [OrderedMap.get?_set, if_neg otherPosition]
  · rename_i named
    rw [OrderedMap.get?_set, if_neg (otherName named), OrderedMap.get?_set,
      if_neg otherPosition]

theorem ReturnValues.get?_push_position {values : ReturnValues}
    {position : Nat} {name : String} (param : DecodedParam)
    (unnumbered : name ≠ toString position) :
    (values.push position name param).properties.get? (toString position) =
      some (some param) := by
  simp only [push]
  split
  · rw [OrderedMap.get?_set, if_pos rfl]
  · rw [OrderedMap.get?_set, if_neg unnumbered.symm, OrderedMap.get?_set,
      if_pos rfl]

theorem ReturnValues.get?_push_name {values : ReturnValues}
    {position : Nat} {name : String} (param : DecodedParam)
    (named : name ≠ "") :
    (values.push position name param).properties.get? name =
      some (some param) := by
  simp only [push, if_neg named]
  rw [OrderedMap.get?_set, if_pos rfl]

/-- One turn of the loop, on an object whose prototype nothing replaced. -/
theorem mergeInputs_cons {indexed : List (Option DecodedParam)}
    {nonIndexed : DecodedParams} {input : EventInput}
    {inputs : List EventInput} {position indexedCounter nonIndexedCounter : Nat}
    {values : ReturnValues} {param : DecodedParam}
    (settable : input.param.name ≠ "__proto__")
    (plain : values.prototype = none)
    (decoded : (if input.indexed then indexed[indexedCounter]?.join
      else nonIndexed.at nonIndexedCounter) = some param) :
    mergeInputs indexed nonIndexed (input :: inputs) position indexedCounter
        nonIndexedCounter values =
      mergeInputs indexed nonIndexed inputs (position + 1)
        (if input.indexed then indexedCounter + 1 else indexedCounter)
        (if input.indexed then nonIndexedCounter else nonIndexedCounter + 1)
        (values.push position input.param.name param) := by
  rw [mergeInputs]
  simp only [decoded]
  rw [ReturnValues.set_of_plain (toString_ne_proto position) plain,
    Outcome.ok_bind]
  by_cases named : input.param.name = ""
  · simp only [if_pos named, Outcome.ok_bind, ReturnValues.push]
  · have set := ReturnValues.set_of_plain settable
      (show ReturnValues.prototype { values with
        properties := values.properties.set (toString position)
          (some param) } = none from plain) (some param)
    simp only [if_neg named, set, Outcome.ok_bind, ReturnValues.push]

/-- The turn of an input together with the loop over the later ones. -/
theorem Merged.cons {input : EventInput} {inputs : List EventInput}
    {param : DecodedParam} {plain : Plain} {plains : List Plain}
    {position : Nat} {values final : ReturnValues}
    (names : DistinctNames (input :: inputs))
    (readable : param.plain? = some plain)
    (others : Merged inputs plains (position + 1)
      (values.push position input.param.name param) final) :
    Merged (input :: inputs) (plain :: plains) position values final where
  length := by
    rw [others.length, List.length_cons]
    change values.length + 1 + inputs.length = _
    omega
  holds index other otherPlain atInput atPlain := by
    cases index with
    | zero =>
        cases atInput
        cases atPlain
        have unnumbered := names.unnumbered input List.mem_cons_self
        refine ⟨param, readable, ?_, ?_⟩
        · rw [ReturnValues.read, if_neg (toString_ne_proto _), Nat.add_zero,
            others.before position (Nat.lt_succ_self position),
            ReturnValues.get?_push_position param (unnumbered position)]
          rfl
        · intro named
          rw [ReturnValues.read,
            if_neg (names.settable input List.mem_cons_self),
            others.kept input.param.name (fun index _ => unnumbered index)
              (fun other member _ => names.fresh named member),
            ReturnValues.get?_push_name param named]
          rfl
    | succ index =>
        have later := others.holds index other otherPlain atInput atPlain
        rwa [Nat.add_right_comm] at later
  kept key otherPositions otherNames := by
    rw [others.kept key
      (fun index after => otherPositions index (by omega))
      (fun other member =>
        otherNames other (List.mem_cons_of_mem input member))]
    apply ReturnValues.get?_push_of_ne param
    · exact otherPositions position (Nat.le_refl position)
    · intro named same
      exact otherNames input List.mem_cons_self named same.symm
  before index earlier := by
    rw [others.before index (by omega)]
    apply ReturnValues.get?_push_of_ne param
    · intro same
      have equal := Decimal.toString_injective same
      omega
    · intro _ same
      exact names.unnumbered input List.mem_cons_self index same.symm

/-- The loop puts the results of both walks in their places. -/
theorem mergeInputs_returned {indexed : List (Option DecodedParam)}
    {nonIndexed : DecodedParams} {inputs : List EventInput}
    {results : List (Option DecodedParam)} {elements : List DecodedParam}
    {plains : List Plain}
    (returned : Returned inputs results elements plains)
    (names : DistinctNames inputs)
    {indexedCounter nonIndexedCounter : Nat}
    (atIndexed : indexed.drop indexedCounter = results)
    (atData : nonIndexed.elements.drop nonIndexedCounter = elements)
    {values : ReturnValues} (plainObject : values.prototype = none)
    (position : Nat) :
    ∃ final,
      mergeInputs indexed nonIndexed inputs position indexedCounter
        nonIndexedCounter values = .ok final ∧
      Merged inputs plains position values final := by
  induction returned generalizing position indexedCounter nonIndexedCounter
      values with
  | nil =>
      refine ⟨values, rfl, rfl, ?_, fun _ _ _ => rfl, fun _ _ => rfl⟩
      intro index input plain atInput
      cases atInput
  | @indexed input inputs results elements plains param plain isIndexed
      readable _ induction =>
      have here : indexed[indexedCounter]? = some (some param) := by
        rw [← Nat.add_zero indexedCounter, ← List.getElem?_drop, atIndexed]
        rfl
      have rest : indexed.drop (indexedCounter + 1) = results := by
        rw [← List.drop_drop, atIndexed]
        rfl
      obtain ⟨final, done, merged⟩ := induction names.tail rest atData
        (show (values.push position input.param.name param).prototype = none
          from plainObject) (position + 1)
      refine ⟨final, ?_, merged.cons names readable⟩
      rw [mergeInputs_cons (names.settable input List.mem_cons_self)
        plainObject (by rw [if_pos isIndexed, here]; rfl),
        if_pos isIndexed, if_pos isIndexed]
      exact done
  | @data input inputs results elements plains param plain unindexed
      readable _ induction =>
      have notIndexed : ¬input.indexed = true := by
        rw [unindexed]
        exact Bool.false_ne_true
      have here : nonIndexed.at nonIndexedCounter = some param := by
        rw [DecodedParams.at, ← Nat.add_zero nonIndexedCounter,
          ← List.getElem?_drop, atData]
        rfl
      have rest : nonIndexed.elements.drop (nonIndexedCounter + 1) =
          elements := by
        rw [← List.drop_drop, atData]
        rfl
      obtain ⟨final, done, merged⟩ := induction names.tail atIndexed rest
        (show (values.push position input.param.name param).prototype = none
          from plainObject) (position + 1)
      refine ⟨final, ?_, merged.cons names readable⟩
      rw [mergeInputs_cons (names.settable input List.mem_cons_self)
        plainObject (by rw [if_neg notIndexed, here]),
        if_neg notIndexed, if_neg notIndexed]
      exact done

end Merging

section Results

variable {externals : Externals}

theorem mapError_eq_ok {ε ε' α : Type} {rename : ε → ε'}
    {result : Except ε α} {value : α} :
    result.mapError rename = .ok value ↔ result = .ok value := by
  cases result with
  | error problem => simp [Except.mapError]
  | ok other => simp [Except.mapError]

theorem mapTypes_eq_ok {inputs mapped : List AbiInput}
    (done : mapTypes inputs = .ok mapped) : mapped = inputs := by
  have related := Outcome.mapM_eq_ok.mp done
  clear done
  induction related with
  | nil => rfl
  | @cons input result _ _ first _ induction =>
      have same : result = input := by
        cases input with
        | text type =>
            cases first
            rfl
        | parameter param =>
            simp only at first
            split at first
            · cases first
            · cases first
              rfl
      rw [same, induction]

/-- Values for parameters that are objects are copied. -/
theorem formatParams_objects {params : List JsonFragmentType}
    {values formatted : List Value}
    (done : formatParams externals (params.map .parameter) values =
      .ok formatted)
    (same : params.length = formatted.length) :
    formatted = values.map Value.copy := by
  have related := Outcome.mapM_eq_ok.mp done
  have lengths := related.length_eq
  rw [List.length_zipIdx] at lengths
  apply List.ext_getElem
  · rw [List.length_map, lengths]
  · intro index low high
    have step := related.get
      (by rw [List.length_zipIdx]; omega : index < values.zipIdx.length) low
    have typed : index < params.length := by omega
    simp only [List.get_eq_getElem, List.getElem_zipIdx, Nat.zero_add,
      List.getElem?_map, List.getElem?_eq_getElem typed, Option.map_some,
      AbiInput.format, Except.ok.injEq] at step
    rw [← step, List.getElem_map]

/-- Parameters that are objects pass unchanged to the coder, with copies of
their values. -/
theorem encodeParameters_objects {params : List JsonFragmentType}
    {values : List Value} {data : String}
    (encoded : encodeParameters externals (params.map .parameter) values =
      .ok data) :
    mapTypes (params.map .parameter) = .ok (params.map .parameter) ∧
      AbiCoder.encode externals (params.map ParamType.fromObject)
        (values.map Value.copy) = .ok data := by
  have inner := mapError_eq_ok.mp encoded
  obtain ⟨mapped, mappedOk, rest⟩ := Outcome.bind_eq_ok.mp inner
  obtain rfl := mapTypes_eq_ok mappedOk
  obtain ⟨formatted, formattedOk, rest⟩ := Outcome.bind_eq_ok.mp rest
  obtain ⟨types, typesOk, coded⟩ := Outcome.bind_eq_ok.mp rest
  have parsed : (params.map AbiInput.parameter).mapM ParamType.from =
      .ok (params.map ParamType.fromObject) := by
    rw [Outcome.mapM_eq_ok, List.forall₂_map_left_iff,
      List.forall₂_map_right_iff]
    exact List.forall₂_same.mpr fun _ _ => rfl
  rw [codedMessage, mapError_eq_ok, parsed] at typesOk
  cases typesOk
  have written := mapError_eq_ok.mp coded
  have same : params.length = formatted.length := by
    by_contra different
    rw [AbiCoder.encode, if_pos (by rwa [List.length_map])] at written
    cases written
  exact ⟨mappedOk, formatParams_objects formattedOk same ▸ written⟩

theorem ParamType.localName_construct
    (components : Option (List ParamType)) (fuel : Nat) (name : Option String)
    (type : List Char) :
    (ParamType.construct components fuel name type).localName = name := by
  unfold construct
  cases fuel with
  | zero =>
      cases components with
      | none => rfl
      | some components => rfl
  | succ fuel =>
      dsimp only
      split
      · rfl
      · cases components with
        | none => rfl
        | some components => rfl

theorem ParamType.localName_fromObject (param : JsonFragmentType) :
    (ParamType.fromObject param).localName = givenName (some param.name) := by
  cases param with
  | mk name type components =>
      cases components with
      | none =>
          rw [fromObject, localName_construct]
          rfl
      | some components =>
          rw [fromObject, localName_construct]
          rfl

/-- No input has the name of the count. -/
theorem localName_ne_count (inputs : List EventInput) :
    some "__length__" ∉ (inputs.map (ParamType.fromObject ·.param)).map
      (·.localName) := by
  intro member
  rw [List.map_map] at member
  obtain ⟨input, -, named⟩ := List.mem_map.mp member
  rw [Function.comp_apply, ParamType.localName_fromObject] at named
  exact input.uncounted
    (Option.some.inj (Option.filter_eq_some_iff.mp named).1)

/-- No input has the name of an index. -/
theorem DistinctNames.unindexed {inputs : List EventInput}
    (names : DistinctNames inputs) :
    ∀ name ∈ (((inputs.filter (!·.indexed)).map
        (ParamType.fromObject ·.param)).map (·.localName)).filterMap givenName,
      arrayIndex name = none := by
  intro name member
  obtain ⟨local?, isLocal, given⟩ := List.mem_filterMap.mp member
  rw [List.map_map] at isLocal
  obtain ⟨input, isInput, named⟩ := List.mem_map.mp isLocal
  rw [Function.comp_apply, ParamType.localName_fromObject] at named
  obtain rfl : local? = some name := (Option.filter_eq_some_iff.mp given).1
  have same := Option.some.inj (Option.filter_eq_some_iff.mp named).1
  cases isIndex : arrayIndex name with
  | none => rfl
  | some index =>
      exact absurd (same.trans (toString_of_arrayIndex isIndex).symm)
        (names.unnumbered input (List.mem_of_mem_filter isInput) index)

theorem ParamType.length_abiTypes {params : List ParamType}
    {types : List AbiType}
    (typed : ParamType.abiTypes params = some types) :
    types.length = params.length := by
  induction params generalizing types with
  | nil =>
      cases typed
      rfl
  | cons param params induction =>
      obtain ⟨type, -, rest⟩ := Option.bind_eq_some_iff.mp typed
      obtain ⟨others, othersTyped, done⟩ := Option.bind_eq_some_iff.mp rest
      cases done
      rw [List.length_cons, List.length_cons, induction othersTyped]

/-- The data are decoded to the values that are not indexed. -/
theorem decode_data (documented : externals.Documented)
    {inputs : List EventInput} {values : List Value} {topics : List String}
    {plains : List Plain} {results : List (Option DecodedParam)}
    {types : List AbiType} {normals : List AbiValue}
    (walked : Walked externals inputs values topics plains results types
      normals) (names : DistinctNames inputs) {data : String}
    (encoded : encodeParameters externals (nonIndexedInputs inputs)
      (nonIndexedValues inputs values) = .ok data) :
    data ≠ "" ∧ ∃ returned,
      decodeParametersWith externals (nonIndexedInputs inputs) data true =
        .ok returned ∧
      DecodedParam.plains? returned.elements =
        some (AbiValue.plains externals.toCryptography normals) := by
  have split : nonIndexedInputs inputs =
      ((inputs.filter (!·.indexed)).map (·.param)).map .parameter := by
    rw [nonIndexedInputs, List.map_map]
    rfl
  rw [split] at encoded ⊢
  obtain ⟨mapped, coded⟩ := encodeParameters_objects encoded
  rw [List.map_map] at coded
  obtain ⟨nonempty, coders, codersOk⟩ :=
    getCoders_of_abiTypes externals _ walked.typed
  obtain ⟨_, _, typed, normalised, text, limit⟩ :=
    AbiCoder.encode_eq_ok documented nonempty coded
  cases Option.some.inj (walked.typed.symm.trans typed)
  cases Option.some.inj (walked.normalised.symm.trans normalised)
  have parsed : (((inputs.filter (!·.indexed)).map (·.param)).map
      AbiInput.parameter).mapM ParamType.from =
        .ok ((inputs.filter (!·.indexed)).map
          (ParamType.fromObject ·.param)) := by
    rw [Outcome.mapM_eq_ok, List.map_map, List.forall₂_map_left_iff,
      List.forall₂_map_right_iff]
    exact List.forall₂_same.mpr fun _ _ => rfl
  have given : types ≠ [] ∨ (inputs.filter (!·.indexed)) = [] := by
    have length := ParamType.length_abiTypes walked.typed
    rw [List.length_map] at length
    cases types with
    | nil => exact .inr (List.length_eq_zero_iff.mp length.symm)
    | cons type types => exact .inl (List.cons_ne_nil type types)
  refine ⟨?_, ?_⟩
  · rintro rfl
    have chars := congrArg String.toList text.symm
    rw [hexlify, String.toList_ofList] at chars
    cases chars
  · rw [text]
    apply decodeParametersWith_sequence documented mapped parsed
      walked.typed walked.filled.headed.1 walked.unlengthened
      names.unindexed (localName_ne_count _) walked.uncounted
      walked.normalised (by omega)
    intro inhabited
    rcases given with present | none
    · exact Spec.sequence_ne_nil walked.filled present walked.normalised
    · rw [none] at inhabited
      exact absurd rfl inhabited

/-- What stands in front of the topics of the inputs is skipped. -/
theorem decodeLog_behind (documented : externals.Documented)
    {inputs : List EventInput} {values : List Value} {topics : List String}
    {plains : List Plain}
    (carried : Carries externals inputs values topics plains)
    (names : DistinctNames inputs) {data : String}
    (encoded : encodeParameters externals (nonIndexedInputs inputs)
      (nonIndexedValues inputs values) = .ok data)
    (front : List String) :
    ∃ returned,
      decodeLog externals inputs data (front ++ topics) = .ok returned ∧
      returned.length = inputs.length ∧
      ∀ (index : Nat) (input : EventInput) (plain : Plain),
        inputs[index]? = some input → plains[index]? = some plain →
          returned.Holds index input.param.name plain := by
  obtain ⟨results, types, normals, walked⟩ := carried.walked documented
  obtain ⟨given, returned, decoded, plainsRead⟩ :=
    decode_data documented walked names encoded
  have topicsRead := decodeTopics_of_topics walked.decoded walked.sameLength
    front
  have fresh : ({} : ReturnValues).prototype = none := rfl
  obtain ⟨final, merged, spec⟩ := mergeInputs_returned
    (walked.returned returned.elements plainsRead) names List.drop_zero
    List.drop_zero fresh 0
  refine ⟨final, ?_, spec.length.trans (Nat.zero_add _), ?_⟩
  · rw [decodeLog, if_neg given, decoded, Outcome.ok_bind]
    dsimp only
    rw [topicsRead]
    exact merged
  · intro index input plain atInput atPlain
    have held := spec.holds index input plain atInput atPlain
    rwa [Nat.zero_add] at held

/-- An indexed integer, a truth value in the data and the hash of a string. -/
def transferInputs : List EventInput :=
  [{ param := .mk "amount" "uint8" none, indexed := true,
     uncounted := by decide },
   { param := .mk "open" "bool" none, indexed := false,
     uncounted := by decide },
   { param := .mk "" "string" none, indexed := true, uncounted := by decide }]

private theorem textType_uint8 :
    textType "uint8" = some (.number false ⟨1, by decide, by decide⟩) := rfl

private theorem normalise_uint8 :
    (AbiType.number false ⟨1, by decide, by decide⟩).normalise
      Externals.simple (.bigint 5) = some (.number 5) := by
  simp [AbiType.normalise, Externals.simple, Except.toOption, lowerBound,
    upperBound]

/-- The word of the integer. -/
def fiveTopic : String :=
  hexlify (Spec.encode Externals.simple.toCryptography
    (.number false ⟨1, by decide, by decide⟩) (.number 5))

private theorem transferCarried :
    Carries Externals.simple transferInputs
      [.bigint 5, .boolean true, .undefined]
      [fiveTopic,
        hexlify (List.replicate 32 7 ++ List.replicate 32 0)]
      [.integer 5, .boolean true, .text (hexlify (List.replicate 32 7))] := by
  refine Carries.word ?_ ?_ textType_uint8 normalise_uint8 ?_
  · rfl
  · decide
  · refine Carries.data ?_ (show _ = some AbiType.bool from rfl) trivial
      trivial trivial (show _ = some (AbiValue.bool true) from rfl) ?_
    · rfl
    · exact Carries.hash rfl (by decide) (by decide) .nil

/-- An indexed integer that is named like the prototype of an object. -/
def prototypeInput : EventInput where
  param := .mk "__proto__" "uint8" none
  indexed := true
  uncounted := by decide

/-- A tuple with a component that is named like the count. -/
def countInput : EventInput where
  param := .mk "order" "tuple" (some [.mk "__length__" "uint8" none])
  indexed := false
  uncounted := by decide

/-- A tuple with a component that is named like an index past its end. -/
def indexInput : EventInput where
  param := .mk "order" "tuple" (some [.mk "5" "uint8" none])
  indexed := false
  uncounted := by decide

end Results

end Web3Js.Abi
