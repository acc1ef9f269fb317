import Web3Js.Abi.Parameters
import Web3Js.Fragments.Parameters

/-!
# Structs in the simplified notation

An object with one property can stand for a tuple: the property names the
tuple, with brackets for an array, and holds its components, which are texts of
types or structs again.  It is brought into the explicit notation before
anything is encoded.
-/

namespace Web3Js.Abi

open Fragments (Length brackets tupleWord)

/-- What a property of a struct holds. -/
inductive StructItem
  | type (text : String)
  | struct (members : List (String × StructItem))

/-- `structName.includes('[]')` -/
def mentionsArray (structName : String) : Bool :=
  decide ("[]".toList <:+: structName.toList)

/-- `structName.slice(0, -2)` -/
def sliceBrackets (structName : String) : String :=
  String.ofList structName.toList.dropLast.dropLast

/-- The type and the name. -/
def mapStructNameAndType (structName : String) : String × String :=
  if mentionsArray structName then ("tuple[]", sliceBrackets structName)
  else ("tuple", structName)

mutual

def mapStructMember (key : String) : StructItem → JsonFragmentType
  | .type text => .mk key text none
  | .struct members =>
      .mk (mapStructNameAndType key).2 (mapStructNameAndType key).1
        (some (mapStructToCoderFormat members))

def mapStructToCoderFormat :
    (struct : List (String × StructItem)) → List JsonFragmentType
  | [] => []
  | (key, item) :: struct =>
      mapStructMember key item :: mapStructToCoderFormat struct

end

/-- The properties that `Object.keys` finds in an item. -/
def StructItem.properties : StructItem → List (String × StructItem)
  | .struct members => members
  | .type text => text.toList.zipIdx.map fun (char, index) =>
      (toString index, .type char.toString)

def StructItem.text? : StructItem → Option String
  | .type text => some text
  | .struct _ => none

/-- What a caller gives as a type. -/
inductive TypeInput
  | given (item : AbiInput)
  /-- An object with one property. -/
  | property (key : String) (item : StructItem)

/-- What `mapTypes` makes of it. -/
inductive MappedType
  | typed (item : AbiInput)
  /-- An object without a type. -/
  | untyped

def TypeInput.map : TypeInput → Except String MappedType
  | .given (.parameter param) =>
      if param.type = "function" then
        .error "ABI function type is not supported for 64-byte QRL addresses."
      else .ok (.typed (.parameter param))
  | .given (.text type) => .ok (.typed (.text type))
  | .property key item =>
      if key = "type" ∧ item.text? = some "function" then
        .error "ABI function type is not supported for 64-byte QRL addresses."
      -- These make the object one in the explicit notation.
      else if key = "components" ∨ key = "name" then .ok .untyped
      else
        .ok (.typed (.parameter (.mk (mapStructNameAndType key).2
          (mapStructNameAndType key).1
          (some (mapStructToCoderFormat item.properties)))))

def MappedType.paramType : MappedType → Except Error ParamType
  | .typed item => ParamType.from item
  | .untyped =>
      .error { code := .unspecified,
               message := "Cannot read properties of undefined" }

section Encoding

variable (externals : Externals)

def MappedType.format : MappedType → Value → Except String Value
  | .typed item, value => item.format externals value
  | .untyped, value => .ok value.copy

/-- `encodeParameters` with types in either notation. -/
def encodeInputs (abi : List TypeInput) (params : List Value) :
    Except String String :=
  Except.mapError (fun _ => "Parameter encoding error") do
    let modifiedTypes ← abi.mapM TypeInput.map
    let modifiedParams ← params.zipIdx.mapM fun (param, index) =>
      match modifiedTypes[index]? with
      | some item => item.format externals param
      | none => .ok param
    let types ← codedMessage (modifiedTypes.mapM MappedType.paramType)
    codedMessage (AbiCoder.encode externals types modifiedParams)

end Encoding

/-- A struct with its names and array suffixes. -/
inductive Shape
  | field (name type : String)
  | struct (name : String) (lengths : List Length) (members : List Shape)

namespace Shape

/-- The key text of a struct. -/
def key (name : String) (lengths : List Length) : String :=
  String.ofList (name.toList ++ brackets lengths)

mutual

/-- The property that the simplified notation writes. -/
def simplified : Shape → String × StructItem
  | .field name type => (name, .type type)
  | .struct name lengths members =>
      (key name lengths, .struct (simplifiedAll members))

def simplifiedAll : List Shape → List (String × StructItem)
  | [] => []
  | shape :: shapes => simplified shape :: simplifiedAll shapes

end

mutual

/-- The description in the explicit notation. -/
def explicit : Shape → JsonFragmentType
  | .field name type => .mk name type none
  | .struct name lengths members =>
      .mk name (String.ofList (tupleWord ++ brackets lengths))
        (some (explicitAll members))

def explicitAll : List Shape → List JsonFragmentType
  | [] => []
  | shape :: shapes => explicit shape :: explicitAll shapes

end

end Shape

/-! ## Types of tuples in arrays -/

/-- The length that the digits between brackets stand for. -/
def readDigits (digits : List Char) : Option Nat :=
  if digits = [] then none else some (Reader.parseInt digits)

/-- The type of arrays of tuples, the outermost length first. -/
def tupleArrays (components : List ParamType) :
    List Length → (name : Option String) → ParamType
  | [], name => .tuple name components
  | length :: lengths, name =>
      .array name (readDigits length.digits)
        (tupleArrays components lengths none)

theorem construct_tupleArrays (components : List ParamType)
    {lengths : List Length} {fuel : Nat} (enough : lengths.length < fuel)
    (name : Option String) :
    ParamType.construct (some components) fuel name
        (tupleWord ++ brackets lengths.reverse) =
      tupleArrays components lengths name := by
  induction lengths generalizing fuel name with
  | nil =>
      cases fuel with
      | zero => nomatch enough
      | succ fuel => rfl
  | cons length lengths inductionHypothesis =>
      cases fuel with
      | zero => nomatch enough
      | succ fuel =>
          have suffix : arraySuffix
              (tupleWord ++ brackets (length :: lengths).reverse) =
                some (tupleWord ++ brackets lengths.reverse,
                  length.digits) := by
            rw [Fragments.brackets_reverse_cons, ← List.append_assoc]
            exact Fragments.arraySuffix_bracket _ length
          have stable : verifyType
              (tupleWord ++ brackets (length :: lengths).reverse) =
                tupleWord ++ brackets (length :: lengths).reverse :=
            Fragments.verifyType_tuple _
          rw [ParamType.construct, stable, suffix]
          simp only [inductionHypothesis (Nat.lt_of_succ_lt_succ enough)]
          rfl

theorem fromObject_tuple (name : String) (lengths : List Length)
    (components : List JsonFragmentType) :
    ParamType.fromObject (.mk name
        (String.ofList (tupleWord ++ brackets lengths))
        (some components)) =
      tupleArrays (ParamType.fromObjects components) lengths.reverse
        (givenName (some name)) := by
  have enough : lengths.reverse.length <
      (String.ofList (tupleWord ++ brackets lengths)).length + 1 := by
    have bound := Fragments.length_le_brackets lengths
    rw [List.length_reverse, String.length_ofList, List.length_append]
    omega
  have built := construct_tupleArrays (ParamType.fromObjects components)
    enough (givenName (some name))
  rw [List.reverse_reverse] at built
  rw [ParamType.fromObject, String.toList_ofList, built]

theorem tupleArrays_inj {components components' : List ParamType}
    {lengths lengths' : List Length} {name name' : Option String} :
    tupleArrays components lengths name =
        tupleArrays components' lengths' name' ↔
      components = components' ∧
        lengths.map (fun length => readDigits length.digits) =
          lengths'.map (fun length => readDigits length.digits) ∧
        name = name' := by
  induction lengths generalizing lengths' name name' with
  | nil =>
      cases lengths' with
      | nil => simp [tupleArrays, and_comm]
      | cons length' lengths' => simp [tupleArrays]
  | cons length lengths inductionHypothesis =>
      cases lengths' with
      | nil => simp [tupleArrays]
      | cons length' lengths' =>
          simp only [tupleArrays, ParamType.array.injEq, inductionHypothesis,
            List.map_cons, List.cons.injEq]
          tauto

/-! ## The two notations -/

/-- The suffix that the brackets of a mapped type stand for. -/
def mappedLengths (key : String) : List Length :=
  if mentionsArray key then [.dynamic] else []

theorem mapStructNameAndType_type (key : String) :
    (mapStructNameAndType key).1 =
      String.ofList (tupleWord ++ brackets (mappedLengths key)) := by
  unfold mapStructNameAndType mappedLengths
  split <;> rfl

/-- No suffix, and no brackets in the name, or the brackets of one dynamic
array. -/
def SimpleSuffix (name : String) (lengths : List Length) : Prop :=
  (lengths = [] ∧ mentionsArray name = false) ∨
    lengths.map Length.digits = [[]]

theorem key_nil (name : String) : Shape.key name [] = name := by
  rw [Shape.key, brackets, List.flatMap_nil, List.append_nil,
    String.ofList_toList]

theorem readDigits_eq_none {digits : List Char} :
    readDigits digits = none ↔ digits = [] := by
  unfold readDigits
  split
  next empty => exact iff_of_true rfl empty
  next given => exact iff_of_false nofun given

theorem toList_key_dynamic (name : String) {length : Length}
    (dynamic : length.digits = []) :
    (Shape.key name [length]).toList = name.toList ++ ['[', ']'] := by
  have closing : brackets [length] = ['[', ']'] := by
    rw [brackets, List.flatMap_singleton, Length.bracket, dynamic]
    rfl
  rw [Shape.key, String.toList_ofList, closing]

theorem mentionsArray_key_dynamic (name : String) {length : Length}
    (dynamic : length.digits = []) :
    mentionsArray (Shape.key name [length]) = true := by
  change decide (['[', ']'] <:+: (Shape.key name [length]).toList) = true
  rw [decide_eq_true_eq, toList_key_dynamic name dynamic]
  exact (List.suffix_append _ _).isInfix

theorem sliceBrackets_key_dynamic (name : String) {length : Length}
    (dynamic : length.digits = []) :
    sliceBrackets (Shape.key name [length]) = name := by
  have apart : name.toList ++ ['[', ']'] = name.toList ++ ['['] ++ [']'] := by
    rw [List.append_assoc]
    rfl
  rw [sliceBrackets, toList_key_dynamic name dynamic, apart,
    List.dropLast_concat, List.dropLast_concat, String.ofList_toList]

/-- The mapped type and name are the given ones just for simple suffixes. -/
theorem mapped_iff (name : String) (lengths : List Length) :
    ((mappedLengths (Shape.key name lengths)).reverse.map
          (fun length => readDigits length.digits) =
        lengths.reverse.map (fun length => readDigits length.digits) ∧
      givenName (some (mapStructNameAndType (Shape.key name lengths)).2) =
        givenName (some name)) ↔ SimpleSuffix name lengths := by
  rw [List.map_reverse, List.map_reverse, List.reverse_inj]
  constructor
  · rintro ⟨same, _⟩
    unfold mappedLengths at same
    split at same
    next array =>
      right
      obtain ⟨length, rfl⟩ : ∃ length, lengths = [length] := by
        rw [← List.length_eq_one_iff, ← List.length_map, ← same]
        rfl
      have dynamic : readDigits length.digits = none :=
        (List.cons.inj same).1.symm
      rw [List.map_singleton, readDigits_eq_none.mp dynamic]
    next array =>
      left
      have none := List.map_eq_nil_iff.mp same.symm
      refine ⟨none, ?_⟩
      rw [none, key_nil] at array
      exact Bool.eq_false_of_not_eq_true array
  · rintro (⟨rfl, plain⟩ | dynamic)
    · rw [key_nil, mappedLengths, mapStructNameAndType, plain]
      exact ⟨rfl, rfl⟩
    · obtain ⟨length, rfl⟩ : ∃ length, lengths = [length] := by
        rw [← List.length_eq_one_iff, ← List.length_map, dynamic]
        rfl
      have dynamic := (List.cons.inj dynamic).1
      rw [mappedLengths, mapStructNameAndType,
        mentionsArray_key_dynamic name dynamic]
      simp only [if_true]
      rw [sliceBrackets_key_dynamic name dynamic, List.map_singleton,
        List.map_singleton, dynamic]
      exact ⟨rfl, rfl⟩

mutual

/-- Every struct has a simple suffix. -/
def Shape.Simple : Shape → Prop
  | .field _ _ => True
  | .struct name lengths members =>
      SimpleSuffix name lengths ∧ Shape.AllSimple members

def Shape.AllSimple : List Shape → Prop
  | [] => True
  | shape :: shapes => Shape.Simple shape ∧ Shape.AllSimple shapes

end

/-- A struct, once mapped, is a tuple in arrays. -/
theorem fromObject_mapped (key : String)
    (members : List (String × StructItem)) :
    ParamType.fromObject (.mk (mapStructNameAndType key).2
        (mapStructNameAndType key).1
        (some (mapStructToCoderFormat members))) =
      tupleArrays (ParamType.fromObjects (mapStructToCoderFormat members))
        (mappedLengths key).reverse
        (givenName (some (mapStructNameAndType key).2)) := by
  rw [mapStructNameAndType_type, fromObject_tuple]

mutual

/-- The two notations give the same type just for simple suffixes. -/
theorem fromObject_simplified_iff : (shape : Shape) →
    (ParamType.fromObject
        (mapStructMember shape.simplified.1 shape.simplified.2) =
      ParamType.fromObject shape.explicit ↔ shape.Simple)
  | .field _ _ => iff_of_true rfl trivial
  | .struct name lengths members => by
      rw [Shape.simplified, mapStructMember, fromObject_mapped, Shape.explicit,
        fromObject_tuple, tupleArrays_inj, mapped_iff, Shape.Simple,
        fromObjects_simplified_iff members, and_comm]

theorem fromObjects_simplified_iff : (shapes : List Shape) →
    (ParamType.fromObjects
        (mapStructToCoderFormat (Shape.simplifiedAll shapes)) =
      ParamType.fromObjects (Shape.explicitAll shapes) ↔
        Shape.AllSimple shapes)
  | [] => iff_of_true rfl trivial
  | shape :: shapes => by
      rw [Shape.simplifiedAll, mapStructToCoderFormat, ParamType.fromObjects,
        Shape.explicitAll, ParamType.fromObjects, List.cons.injEq,
        fromObject_simplified_iff shape, fromObjects_simplified_iff shapes,
        Shape.AllSimple]

end

/-! ## Encoding in either notation -/

section Notations

variable (externals : Externals)

/-- One step of `mapTypes`, in the explicit notation. -/
def mapExplicit : AbiInput → Except String AbiInput
  | .parameter param =>
      if param.type = "function" then
        .error "ABI function type is not supported for 64-byte QRL addresses."
      else .ok (.parameter param)
  | .text type => .ok (.text type)

theorem mapTypes_eq (abi : List AbiInput) :
    mapTypes abi = abi.mapM mapExplicit := by
  rw [mapTypes]
  congr 1
  funext input
  cases input <;> rfl

theorem map_given (input : AbiInput) :
    (TypeInput.given input).map = (mapExplicit input).map .typed := by
  cases input with
  | text type => rfl
  | parameter param =>
      rw [TypeInput.map, mapExplicit]
      split <;> rfl

theorem mapM_given (abi : List AbiInput) :
    (abi.map TypeInput.given).mapM TypeInput.map =
      (mapTypes abi).map (List.map MappedType.typed) := by
  rw [mapTypes_eq]
  induction abi with
  | nil => rfl
  | cons input abi inductionHypothesis =>
      rw [List.map_cons, List.mapM_cons, inductionHypothesis, List.mapM_cons,
        map_given]
      cases mapExplicit input with
      | error problem => rfl
      | ok mapped => cases abi.mapM mapExplicit <;> rfl

theorem mapM_paramType (types : List AbiInput) :
    (types.map MappedType.typed).mapM MappedType.paramType =
      types.mapM ParamType.from :=
  List.mapM_map

/-- Inputs in the explicit notation are encoded as parameters are. -/
theorem encodeInputs_given (abi : List AbiInput) (params : List Value) :
    encodeInputs externals (abi.map .given) params =
      encodeParameters externals abi params := by
  rw [encodeInputs, encodeParameters, mapM_given]
  cases mapTypes abi with
  | error problem => rfl
  | ok types =>
      simp only [Except.map, Outcome.ok_bind, List.getElem?_map, formatParams,
        mapM_paramType]
      congr 3
      funext entry
      cases types[entry.2]? <;> rfl

/-- The types of both notations are the same, and whatever is encoded with one
is encoded alike with the other. -/
def SameNotation (shape : Shape) : Prop :=
  (∃ mapped, (TypeInput.property shape.simplified.1 shape.simplified.2).map =
      .ok mapped ∧
    mapped.paramType = .ok (ParamType.fromObject shape.explicit)) ∧
  ∀ (externals : Externals) (params : List Value),
    encodeInputs externals
        [.property shape.simplified.1 shape.simplified.2] params =
      encodeParameters externals [.parameter shape.explicit] params

theorem tupleType_ne (lengths : List Length) :
    String.ofList (tupleWord ++ brackets lengths) ≠ "function" := by
  intro same
  have heads := congrArg (fun text => text.toList.head?) same
  simp only [String.toList_ofList] at heads
  change some 't' = some 'f' at heads
  exact absurd heads (by decide)

theorem map_struct (key : String) (members : List (String × StructItem)) :
    (TypeInput.property key (.struct members)).map =
      if key = "components" ∨ key = "name" then .ok .untyped
      else .ok (.typed (.parameter (mapStructMember key (.struct members)))) := by
  rw [TypeInput.map, if_neg fun both => nomatch both.2]
  rfl

/-- What is encoded depends on the mapped type alone. -/
theorem encodeInputs_parameter {input : TypeInput} {param : JsonFragmentType}
    (mapped : input.map = .ok (.typed (.parameter param)))
    (params : List Value) :
    encodeInputs externals [input] params =
      Except.mapError (fun _ => "Parameter encoding error") (do
        let modifiedParams ← params.zipIdx.mapM fun (param, index) =>
          (.ok (if index = 0 then param.copy else param) : Except String Value)
        codedMessage (AbiCoder.encode externals [ParamType.fromObject param]
          modifiedParams)) := by
  have inputs : [input].mapM TypeInput.map =
      .ok [.typed (.parameter param)] := by
    rw [List.mapM_cons, mapped]
    rfl
  have formatted : ∀ (index : Nat) (value : Value),
      (match [MappedType.typed (.parameter param)][index]? with
        | some item => item.format externals value
        | none => .ok value) =
      (.ok (if index = 0 then value.copy else value) :
        Except String Value) := by
    intro index value
    cases index <;> rfl
  rw [encodeInputs, inputs]
  change Except.mapError _ (params.zipIdx.mapM _ >>= _) = _
  simp only [formatted]
  rfl

/-- A struct is the same in both notations just where no struct in it has
another suffix than the brackets of one dynamic array, and where its key is not
a property of the explicit notation. -/
theorem sameNotation_iff (name : String) (lengths : List Length)
    (members : List Shape) :
    SameNotation (.struct name lengths members) ↔
      Shape.key name lengths ≠ "components" ∧
        Shape.key name lengths ≠ "name" ∧
          (Shape.struct name lengths members).Simple := by
  have mapped := map_struct (Shape.key name lengths)
    (Shape.simplifiedAll members)
  rw [← and_assoc, ← not_or]
  constructor
  · rintro ⟨⟨input, made, typed⟩, _⟩
    rw [Shape.simplified, mapped] at made
    split at made
    · cases made
      cases typed
    next other =>
      cases made
      injection typed with same
      exact ⟨other, (fromObject_simplified_iff _).mp same⟩
  · rintro ⟨other, simple⟩
    rw [if_neg other] at mapped
    have same := (fromObject_simplified_iff _).mpr simple
    refine ⟨⟨_, mapped, congrArg Except.ok same⟩, fun externals params => ?_⟩
    have given : (TypeInput.given (.parameter
        (Shape.struct name lengths members).explicit)).map =
          .ok (.typed (.parameter
            (Shape.struct name lengths members).explicit)) := by
      rw [map_given, mapExplicit, Shape.explicit, JsonFragmentType.type,
        if_neg (tupleType_ne lengths)]
      rfl
    have explicit := encodeInputs_given externals
      [.parameter (Shape.struct name lengths members).explicit] params
    rw [List.map_singleton] at explicit
    rw [← explicit, encodeInputs_parameter externals given, ← same]
    exact encodeInputs_parameter externals mapped params

/-- `{ 'Foo[3]': { a: 'uint256' } }` is taken for one struct of the name
`Foo[3]`. -/
theorem not_sameNotation :
    ¬ ∀ name lengths members, SameNotation (.struct name lengths members) := by
  intro always
  obtain ⟨⟨mapped, made, typed⟩, _⟩ :=
    always "Foo" [⟨['3'], rfl⟩] [.field "a" "uint256"]
  have key : Shape.key "Foo" [⟨['3'], rfl⟩] = "Foo[3]" := by decide
  rw [Shape.simplified, map_struct, key, if_neg (by decide)] at made
  cases made
  injection typed with same
  rw [← key] at same
  rcases ((fromObject_simplified_iff (.struct "Foo" [⟨['3'], rfl⟩]
    [.field "a" "uint256"])).mp same).1 with plain | dynamic
  · cases plain.1
  · cases dynamic

end Notations

end Web3Js.Abi
