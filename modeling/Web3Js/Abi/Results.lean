import Web3Js.Abi.Parameters

/-!
# Decoded results as objects

A result whose elements have names becomes an object, with the same elements.
This fails only where a name is the key under which an object counts its
elements.  No name of a result is that key unless it is one of a component, by
rules for what a decoder returns whatever it reads.
-/

namespace Web3Js.Abi

section Plain

mutual

/-- The plain value of a decoded value or of an object. -/
def DecodedParam.plain? : DecodedParam → Option Plain
  | .value decoded => decoded.plain?
  | .object elements named => do
      let plains ← DecodedParam.plains? elements
      Plain.ofResult plains named

def DecodedParam.plains? : List DecodedParam → Option (List Plain)
  | [] => some []
  | element :: elements => do
      let plain ← element.plain?
      let plains ← DecodedParam.plains? elements
      pure (plain :: plains)

end

theorem DecodedParam.plains?_eq_some {elements : List DecodedParam}
    {plains : List Plain} :
    DecodedParam.plains? elements = some plains ↔
      List.Forall₂ (fun element plain => element.plain? = some plain)
        elements plains := by
  induction elements generalizing plains with
  | nil =>
      cases plains with
      | nil => simp [DecodedParam.plains?]
      | cons plain plains => simp [DecodedParam.plains?]
  | cons element elements induction =>
      cases plains with
      | nil => simp [DecodedParam.plains?, Option.bind_eq_some_iff]
      | cons plain plains =>
          simp [DecodedParam.plains?, Option.bind_eq_some_iff, ← induction]

end Plain

section Names

mutual

/-- No name in a decoded value is the key of the count. -/
def Decoded.Uncounted : Decoded → Prop
  | .result elements named =>
      named.lookup "__length__" = none ∧ Decoded.AllUncounted elements
  | _ => True

def Decoded.AllUncounted : List Decoded → Prop
  | [] => True
  | element :: elements =>
      element.Uncounted ∧ Decoded.AllUncounted elements

end

mutual

/-- No component is named like the key of the count. -/
def AbiType.Uncounted : AbiType → Prop
  | .address | .bool | .string | .bytes | .number _ _ | .fixedBytes _ => True
  | .array element _ => element.Uncounted
  | .tuple names components =>
      some "__length__" ∉ names ∧ AbiType.AllUncounted components

def AbiType.AllUncounted : List AbiType → Prop
  | [] => True
  | component :: components =>
      component.Uncounted ∧ AbiType.AllUncounted components

end

theorem Decoded.AllUncounted.append {left right : List Decoded}
    (leftUncounted : Decoded.AllUncounted left)
    (rightUncounted : Decoded.AllUncounted right) :
    Decoded.AllUncounted (left ++ right) := by
  induction left with
  | nil => exact rightUncounted
  | cons element left induction =>
      obtain ⟨first, others⟩ := leftUncounted
      exact ⟨first, induction others⟩

theorem countKeys_of_unnamed {named : List (String × Nat)}
    (unnamed : named.lookup "__length__" = none)
    (elements : List DecodedParam) : countKeys elements named = .ok () := by
  rw [countKeys, unnamed]
  rfl

mutual

/-- Making objects of a readable value keeps its plain value. -/
theorem formatElement_of_plain : ∀ {decoded : Decoded} {plain : Plain},
    decoded.plain? = some plain → decoded.Uncounted →
      ∃ param, formatElement decoded = .ok param ∧
        param.plain? = some plain
  | .null, _, readable, _ => by cases readable
  | .boolean value, _, readable, _ => ⟨.value (.boolean value), rfl, readable⟩
  | .number value, _, readable, _ => ⟨.value (.number value), rfl, readable⟩
  | .bigint value, _, readable, _ => ⟨.value (.bigint value), rfl, readable⟩
  | .bigNumber value, _, readable, _ =>
      ⟨.value (.bigNumber value), rfl, readable⟩
  | .string value, _, readable, _ => ⟨.value (.string value), rfl, readable⟩
  | .failure _ _ _ _, _, readable, _ => by cases readable
  | .result elements named, plain, readable, uncounted => by
      rw [formatElement]
      split
      · obtain ⟨plains, elementsReadable, whole⟩ :=
          Decoded.plain?_result.mp readable
        obtain ⟨params, formatted, paramsReadable⟩ :=
          formatElements_of_plain elementsReadable uncounted.2
        refine ⟨.object params named, ?_, ?_⟩
        · rw [formatted, Outcome.ok_bind, countKeys_of_unnamed uncounted.1]
          rfl
        · rw [DecodedParam.plain?, paramsReadable, ← whole]
          rfl
      · exact ⟨.value (.result elements named), rfl, readable⟩

theorem formatElements_of_plain : ∀ {elements : List Decoded}
    {plains : List Plain}, Decoded.plains? elements = some plains →
      Decoded.AllUncounted elements →
        ∃ params, formatElements elements = .ok params ∧
          DecodedParam.plains? params = some plains
  | [], plains, readable, _ => ⟨[], rfl, readable⟩
  | element :: elements, plains, readable, uncounted => by
      obtain ⟨plain, first, rest⟩ := Option.bind_eq_some_iff.mp readable
      obtain ⟨others, later, whole⟩ := Option.bind_eq_some_iff.mp rest
      obtain ⟨param, formatted, paramReadable⟩ :=
        formatElement_of_plain first uncounted.1
      obtain ⟨params, allFormatted, paramsReadable⟩ :=
        formatElements_of_plain later uncounted.2
      refine ⟨param :: params, ?_, ?_⟩
      · rw [formatElements, formatted, Outcome.ok_bind, allFormatted]
        rfl
      · rw [DecodedParam.plains?, paramReadable, paramsReadable, ← whole]
        rfl

end

end Names

section Reads

/-- With the coerce function of the contracts' coder, which no step changes,
a step returns only values of a kind. -/
def Read.Returns {α : Type} (read : Read α) (kind : α → Prop) : Prop :=
  ∀ reader : Reader, reader.coerceFunc = ethersAbiCoder.coerceFunc →
    (read reader).2.coerceFunc = ethersAbiCoder.coerceFunc ∧
      ∀ value, (read reader).1 = .ok value → kind value

namespace Read.Returns

variable {α β : Type} {kind : α → Prop}

theorem pure {value : α} (holds : kind value) :
    (Pure.pure value : Read α).Returns kind := by
  intro reader contracts
  refine ⟨contracts, ?_⟩
  rintro _ ⟨⟩
  exact holds

theorem lift {outcome : Except Error α}
    (holds : ∀ value, outcome = .ok value → kind value) :
    (Read.lift outcome).Returns kind :=
  fun _ contracts => ⟨contracts, holds⟩

theorem lift_any (outcome : Except Error α) :
    (Read.lift outcome).Returns fun _ => True :=
  lift fun _ _ => trivial

theorem throw (problem : Error) :
    (Read.throw problem : Read α).Returns kind :=
  lift (by rintro _ ⟨⟩)

theorem mono {read : Read α} {other : α → Prop} (returns : read.Returns kind)
    (weaker : ∀ value, kind value → other value) : read.Returns other :=
  fun reader contracts =>
    ⟨(returns reader contracts).1, fun value done =>
      weaker value ((returns reader contracts).2 value done)⟩

theorem bind {step : Read α} {next : α → Read β} {last : β → Prop}
    (first : step.Returns kind)
    (second : ∀ value, kind value → (next value).Returns last) :
    (step >>= next).Returns last := by
  intro reader contracts
  obtain ⟨kept, holds⟩ := first reader contracts
  simp only [Bind.bind]
  cases stepped : step reader with
  | mk outcome moved =>
      rw [stepped] at kept holds
      cases outcome with
      | error problem => exact ⟨kept, by rintro _ ⟨⟩⟩
      | ok value => exact second value (holds value rfl) moved kept

theorem readBytes (length : Nat) (loose : Bool) :
    (Reader.readBytes length loose).Returns fun _ => True := by
  intro reader contracts
  refine ⟨?_, fun _ _ => trivial⟩
  rw [Reader.readBytes]
  split
  · exact contracts
  · exact contracts

theorem readValue : Reader.readValue.Returns fun _ => True :=
  bind (readBytes wordSize false) fun _ _ => pure trivial

/-- Big numbers are coerced to `bigint`, and nothing else is changed. -/
theorem coerce (name : String) {value : Decoded}
    (uncounted : value.Uncounted) :
    (Reader.coerce name value).Returns Decoded.Uncounted := by
  intro reader contracts
  refine ⟨contracts, ?_⟩
  intro coerced done
  rw [Reader.coerce, contracts] at done
  cases value with
  | bigNumber integer =>
      cases done
      trivial
  | null | boolean | number | bigint | string | result | failure =>
      cases done
      exact uncounted

theorem foldlM {step : β → α → Read β} {invariant : β → Prop}
    {values : List α}
    (preserved : ∀ state, invariant state → ∀ value ∈ values,
      (step state value).Returns invariant)
    {state : β} (initial : invariant state) :
    (values.foldlM step state).Returns invariant := by
  induction values generalizing state with
  | nil => exact pure initial
  | cons value values induction =>
      rw [List.foldlM_cons]
      apply bind (preserved state initial value List.mem_cons_self)
      intro next holds
      exact induction (fun state holds other member =>
        preserved state holds other (List.mem_cons_of_mem value member)) holds

end Read.Returns

/-- A coder of a type without the key decodes to values without it. -/
def Uncounts (coder : Coder) (type : AbiType) : Prop :=
  type.Uncounted → coder.decode.Returns Decoded.Uncounted

theorem deferError_returns {decode : Read Decoded}
    (returns : decode.Returns Decoded.Uncounted) (coder : Coder) :
    (deferError coder decode).Returns Decoded.Uncounted := by
  intro reader contracts
  obtain ⟨kept, holds⟩ := returns reader contracts
  rw [deferError]
  cases stepped : decode reader with
  | mk outcome moved =>
      rw [stepped] at kept holds
      cases outcome with
      | ok value => exact ⟨kept, holds⟩
      | error problem =>
          by_cases overrun : problem.code = .bufferOverrun
          · simp only [if_pos overrun]
            exact ⟨kept, by rintro _ ⟨⟩⟩
          · simp only [if_neg overrun]
            refine ⟨kept, ?_⟩
            rintro _ ⟨⟩
            trivial

theorem unpackComponent_returns {coder : Coder} {baseReader : Reader}
    (contracts : baseReader.coerceFunc = ethersAbiCoder.coerceFunc)
    (returns : coder.decode.Returns Decoded.Uncounted) :
    (unpackComponent baseReader coder).Returns Decoded.Uncounted := by
  rw [unpackComponent]
  split
  · apply Read.Returns.bind Read.Returns.readValue
    intro offset _
    apply Read.Returns.bind (Read.Returns.lift_any _)
    intro number _
    exact Read.Returns.lift
      (deferError_returns returns coder (baseReader.subReader number.toNat)
        contracts).2
  · exact deferError_returns returns coder

/-- The names of a result are names of its coders. -/
theorem lookup_namedProperties {coders : List Coder}
    (unnamed : some "__length__" ∉ coders.map (·.localName))
    (length : Nat) :
    (namedProperties coders length).lookup "__length__" = none := by
  rw [namedProperties]
  refine List.foldlRecOn
    (motive := fun named : List (String × Nat) =>
      named.lookup "__length__" = none) _ _ rfl ?_
  intro named absent component member
  have others : component.1.localName ≠ some "__length__" := by
    intro named
    apply unnamed
    rw [← named]
    exact List.mem_map_of_mem (List.fst_mem_of_mem_zipIdx member)
  rw [nameStep]
  split
  · exact absent
  · rename_i name given
    have own : name ≠ "__length__" := by
      rintro rfl
      exact others (Option.filter_eq_some_iff.mp given).1
    have other : "__length__" ≠ propertyName name := by
      rw [propertyName]
      split
      · decide
      · exact own.symm
    split
    · exact absent
    · rw [List.lookup_append, absent, Option.none_or]
      rw [List.lookup_cons, beq_false_of_ne other]
      rfl

/-- A result of elements without the key, with the properties of the names. -/
def Decoded.IsCompleted (coders : List Coder) (decoded : Decoded) : Prop :=
  ∃ elements, decoded = .result elements
    (namedProperties coders elements.length) ∧ Decoded.AllUncounted elements

theorem unpack_completes {coders : List Coder}
    (returns : ∀ coder ∈ coders,
      coder.decode.Returns Decoded.Uncounted) :
    (unpack coders).Returns (Decoded.IsCompleted coders) := by
  intro reader contracts
  have values : (unpackValues (reader.subReader 0) coders).Returns
      Decoded.AllUncounted := by
    apply Read.Returns.foldlM _ trivial
    intro earlier uncounted coder member
    have component : (unpackComponent (reader.subReader 0) coder).Returns
        Decoded.Uncounted :=
      unpackComponent_returns contracts (returns coder member)
    apply component.bind
    intro value valueUncounted
    apply Read.Returns.pure
    split
    · exact uncounted
    · exact uncounted.append ⟨valueUncounted, trivial⟩
  obtain ⟨kept, holds⟩ := values reader contracts
  rw [unpack]
  cases stepped : unpackValues (reader.subReader 0) coders reader with
  | mk outcome moved =>
      rw [stepped] at kept holds
      cases outcome with
      | error problem => exact ⟨kept, by rintro _ ⟨⟩⟩
      | ok values =>
          refine ⟨kept, ?_⟩
          intro value returned
          exact ⟨values, completeResult_eq_ok returned, holds values rfl⟩

theorem Decoded.IsCompleted.uncounted {coders : List Coder}
    (unnamed : some "__length__" ∉ coders.map (·.localName))
    {decoded : Decoded} (completed : decoded.IsCompleted coders) :
    decoded.Uncounted := by
  obtain ⟨elements, rfl, uncounted⟩ := completed
  exact ⟨lookup_namedProperties unnamed _, uncounted⟩

theorem unpack_returns {coders : List Coder}
    (unnamed : some "__length__" ∉ coders.map (·.localName))
    (returns : ∀ coder ∈ coders,
      coder.decode.Returns Decoded.Uncounted) :
    (unpack coders).Returns Decoded.Uncounted :=
  (unpack_completes returns).mono fun _ completed =>
    completed.uncounted unnamed

theorem DynamicBytesCoder.decode_returns :
    DynamicBytesCoder.decode.Returns fun _ => True := by
  apply Read.Returns.bind Read.Returns.readValue
  intro length _
  apply Read.Returns.bind (Read.Returns.lift_any _)
  intro number _
  exact Read.Returns.readBytes number.toNat true

end Reads

section Classes

variable {externals : Externals}

theorem AddressCoder.uncounts (name : Option String) :
    Uncounts (AddressCoder externals name) .address := by
  intro _
  apply Read.Returns.readValue.bind
  intro number _
  apply (Read.Returns.lift_any _).bind
  intro hex _
  split
  · exact Read.Returns.pure trivial
  · exact Read.Returns.throw _

theorem StringCoder.uncounts (name : Option String) :
    Uncounts (StringCoder externals name) .string := by
  intro _
  apply DynamicBytesCoder.decode_returns.bind
  intro data _
  split
  · exact Read.Returns.pure trivial
  · exact Read.Returns.throw _

theorem NumberCoder.uncounts (size : ByteSize) (signed : Bool)
    (name : Option String) :
    Uncounts (NumberCoder externals size.bytes signed name)
      (.number signed size) := by
  intro _
  apply Read.Returns.readValue.bind
  intro number _
  apply (Read.Returns.lift_any _).bind
  intro masked _
  exact Read.Returns.coerce _ trivial

theorem ArrayCoder.readCount_returns (length : Option Nat) :
    (ArrayCoder.readCount length).Returns fun _ => True := by
  cases length with
  | some count => exact Read.Returns.pure trivial
  | none =>
      apply Read.Returns.readValue.bind
      intro count _
      apply (Read.Returns.lift_any _).bind
      intro number _ reader contracts
      refine ⟨?_, fun _ _ => trivial⟩
      rw [ArrayCoder.checkCount]
      split
      · exact contracts
      · exact contracts

theorem ArrayCoder.uncounts {coder : Coder} {element : AbiType}
    (length : Option Nat) (name : Option String)
    (uncounts : Uncounts coder element) :
    Uncounts (ArrayCoder externals coder length name)
      (.array element length) := by
  intro uncounted
  apply (ArrayCoder.readCount_returns length).bind
  intro count _
  have elements : (unpack (List.replicate count (AnonymousCoder coder))).Returns
      Decoded.Uncounted := by
    apply unpack_returns
    · rw [List.map_replicate]
      intro named
      cases List.eq_of_mem_replicate named
    · intro copy member
      rw [List.eq_of_mem_replicate member]
      exact uncounts uncounted
  apply elements.bind
  intro value holds
  exact Read.Returns.coerce "array" holds

theorem Uncounts.each {coders : List Coder} {components : List AbiType}
    (uncounts : List.Forall₂ Uncounts coders components)
    (uncounted : AbiType.AllUncounted components) :
    ∀ coder ∈ coders, coder.decode.Returns Decoded.Uncounted := by
  induction uncounts with
  | nil => exact fun _ member => nomatch member
  | cons first _ induction =>
      intro coder member
      rcases List.mem_cons.mp member with rfl | later
      · exact first uncounted.1
      · exact induction uncounted.2 coder later

theorem TupleCoder.uncounts {coders : List Coder} {components : List AbiType}
    (name : Option String)
    (uncounts : List.Forall₂ Uncounts coders components) :
    Uncounts (TupleCoder externals coders name)
      (.tuple (coders.map (·.localName)) components) := by
  rintro ⟨unnamed, uncounted⟩
  apply (unpack_returns unnamed (Uncounts.each uncounts uncounted)).bind
  intro value holds
  exact Read.Returns.coerce "tuple" holds

theorem uncounts_respected : RespectedByClasses externals Uncounts where
  address := AddressCoder.uncounts
  bool _ _ := Read.Returns.readValue.bind fun _ _ =>
    Read.Returns.coerce "bool" trivial
  string := StringCoder.uncounts
  bytes _ _ := DynamicBytesCoder.decode_returns.bind fun _ _ =>
    Read.Returns.coerce "bytes" trivial
  number := NumberCoder.uncounts
  fixedBytes size _ _ := (Read.Returns.readBytes size.bytes false).bind
    fun _ _ => Read.Returns.coerce (fixedBytesName size.bytes) trivial
  array _ _ length name uncounts := ArrayCoder.uncounts length name uncounts
  tuple _ _ name uncounts := TupleCoder.uncounts name uncounts

/-- What the contracts' coder decodes has only names of its parameters. -/
theorem AbiCoder.decode_completed {params : List ParamType}
    {types : List AbiType} {data : Value} {loose : Bool} {decoded : Decoded}
    (typed : ParamType.abiTypes params = some types)
    (uncounted : AbiType.AllUncounted types)
    (read : ethersAbiCoder.decode externals params data loose = .ok decoded) :
    ∃ coders, coders.map (·.localName) = params.map (·.localName) ∧
      decoded.IsCompleted coders := by
  obtain ⟨nonempty, coders, codersOk⟩ :=
    getCoders_of_abiTypes externals params typed
  obtain ⟨types', typed', names, uncounts⟩ :=
    getCoders_induction uncounts_respected params nonempty codersOk
  obtain rfl : types = types' := by
    rw [typed] at typed'
    exact Option.some.inj typed'
  rw [AbiCoder.decode, codersOk, Outcome.ok_bind] at read
  obtain ⟨bytes, -, done⟩ := Outcome.bind_eq_ok.mp read
  have tuple : (TupleCoder externals coders (some "_")).decode.Returns
      (Decoded.IsCompleted coders) := by
    apply (unpack_completes (Uncounts.each uncounts uncounted)).bind
    rintro _ ⟨elements, rfl, all⟩ reader contracts
    refine ⟨contracts, ?_⟩
    intro coerced kept
    rw [Reader.coerce, contracts] at kept
    cases kept
    exact ⟨elements, rfl, all⟩
  exact ⟨coders, names,
    (tuple (ethersAbiCoder.getReader bytes loose) rfl).2 decoded done⟩

end Classes

section Parameters

variable {externals : Externals}

theorem dropHexPrefix_hexlify (bytes : Bytes) :
    String.ofList ('0' :: 'x' :: dropHexPrefix (hexlify bytes).toList) =
      hexlify bytes := by
  rw [hexlify, String.toList_ofList, dropHexPrefix]
  simp

theorem hexlify_ne_blank {bytes : Bytes} (nonempty : bytes ≠ []) :
    ¬(hexlify bytes = "" ∨ hexlify bytes = "0x" ∨ hexlify bytes = "0X") := by
  have long : 4 ≤ (hexlify bytes).toList.length := by
    have := List.length_pos_of_ne_nil nonempty
    rw [hexlify, String.toList_ofList, List.length_cons, List.length_cons,
      Hex.length_encode]
    omega
  rintro (same | same | same)
  · rw [same] at long
    exact absurd long (by decide)
  · rw [same] at long
    exact absurd long (by decide)
  · rw [same] at long
    exact absurd long (by decide)

/-- The reference encoding of typed values is decoded by position to these
values. -/
theorem decodeParametersWith_sequence (documented : externals.Documented)
    {abis : List AbiInput} {params : List ParamType} {types : List AbiType}
    (mapped : mapTypes abis = .ok abis)
    (parsed : abis.mapM ParamType.from = .ok params)
    (typed : ParamType.abiTypes params = some types)
    (headed : AbiType.AllHeaded types)
    (unlengthened : AbiType.AllUnlengthened types)
    (unindexed : ∀ name ∈ (params.map (·.localName)).filterMap givenName,
      arrayIndex name = none)
    (unnamed : some "__length__" ∉ params.map (·.localName))
    (uncounted : AbiType.AllUncounted types) {values : List Value}
    {normals : List AbiValue}
    (normalised : AbiType.normaliseAll externals types values = some normals)
    (limit : (Spec.sequence (Spec.parts externals.toCryptography types
      normals)).length ≤ maxSafeInteger)
    (present : abis ≠ [] → Spec.sequence
      (Spec.parts externals.toCryptography types normals) ≠ [])
    (loose : Bool) :
    ∃ returned,
      decodeParametersWith externals abis (hexlify (Spec.sequence
        (Spec.parts externals.toCryptography types normals))) loose =
          .ok returned ∧
      DecodedParam.plains? returned.elements =
        some (AbiValue.plains externals.toCryptography normals) := by
  obtain ⟨decoded, read, plain⟩ := AbiCoder.decode_sequence documented
    ethersAbiCoder ethersAbiCoder_faithful typed headed unlengthened
    (.of_unindexed unindexed) normalised limit loose
  obtain ⟨coders, names, elements, rfl, keyless⟩ :=
    AbiCoder.decode_completed typed uncounted read
  rw [← names] at unnamed unindexed
  rw [filterMap_localNames] at unindexed
  obtain ⟨plains, readable, whole⟩ := Decoded.plain?_result.mp plain
  rw [Plain.ofResult_of_unindexed (NamedUpTo.unindexed unindexed
    (namedUpTo_namedProperties unindexed elements.length))] at whole
  cases whole
  obtain ⟨formatted, done, formattedPlain⟩ :=
    formatElements_of_plain readable keyless
  refine ⟨{
    elements := formatted
    named := namedProperties coders elements.length }, ?_, formattedPlain⟩
  have given : ¬(abis ≠ [] ∧ (hexlify (Spec.sequence
      (Spec.parts externals.toCryptography types normals)) = "" ∨ _)) :=
    fun blank => hexlify_ne_blank (present blank.1) blank.2
  rw [decodeParametersWith, if_neg given, mapped, Outcome.ok_bind, parsed]
  rw [dropHexPrefix_hexlify]
  simp only [codedMessage, Except.mapError, Outcome.ok_bind, read,
    formatArrayResToObject, done,
    countKeys_of_unnamed (lookup_namedProperties unnamed _)]

end Parameters

end Web3Js.Abi
