import Web3Js.Contract.Interface
import Web3Js.Fragments.Objects
import Web3Js.Fragments.Parameters

/-!
# Signatures

The selector of a function and the topic of an event are hashes of a name with
types that is printed from the JSON object.  The arguments are encoded with the
types of the fragment that is made from the same object.  Both print the same
name unless the object leaves the width of an integer out or gives the length
of an array with digits that its number does not have.
-/

namespace Web3Js.Fragments

open Contract (AbiParameter flattenType flattenTypes)
open Validator (Elementary)

mutual

/-- The object as it is flattened to its type. -/
def JsonFragmentType.abiParameter : JsonFragmentType → AbiParameter
  | ⟨name, type, _, none⟩ =>
      .mk (String.ofList (name.getD [])) (String.ofList type) none
  | ⟨name, type, _, some components⟩ =>
      .mk (String.ofList (name.getD [])) (String.ofList type)
        (some (abiParameters components))

def abiParameters : List JsonFragmentType → List AbiParameter
  | [] => []
  | value :: values => value.abiParameter :: abiParameters values

end

/-- `jsonInterfaceMethodToString` for functions, events and errors. -/
def JsonFragment.methodName (value : JsonFragment) : Except String String :=
  Contract.jsonInterfaceMethodToString (value.name.map String.ofList)
    (value.inputs.map abiParameters)

/-- A fragment with well formed parameters as an object of the JSON
interface. -/
def FragmentObject.json (value : FragmentObject Parameter) : JsonFragment where
  type := value.type
  name := value.name
  anonymous := value.anonymous
  payable := value.payable
  constant := value.constant
  stateMutability := value.stateMutability
  inputs := value.inputs.map Parameter.jsons
  outputs := value.outputs.map Parameter.jsons
  gas := value.gas

namespace Parameter

mutual

/-- The type as the object spells it. -/
def signature : Parameter → Text
  | .value _ _ type lengths => type.chars ++ brackets lengths
  | .tuple _ _ components lengths =>
      '(' :: [','].intercalate (signatures components) ++
        ')' :: brackets lengths

def signatures : List Parameter → List Text
  | [] => []
  | parameter :: parameters => signature parameter :: signatures parameters

end

theorem signatures_eq_map (parameters : List Parameter) :
    signatures parameters = parameters.map signature := by
  induction parameters with
  | nil => rfl
  | cons parameter parameters induction =>
      rw [signatures, induction, List.map_cons]

/-- Every integer has its width and every length its digits, at any depth. -/
def Spelled (parameter : Parameter) : Prop :=
  ∀ part ∈ parameter.parts,
    part.Explicit ∧ ∀ length ∈ part.lengths, length.Exact

theorem spelled_tuple {name : Option Text} {indexed : Option Bool}
    {components : List Parameter} {lengths : List Length} :
    (Parameter.tuple name indexed components lengths).Spelled ↔
      (∀ component ∈ components, component.Spelled) ∧
        ∀ length ∈ lengths, length.Exact := by
  rw [Spelled, forall_parts_tuple]
  constructor
  · rintro ⟨itself, inner⟩
    exact ⟨inner, itself.2⟩
  · rintro ⟨inner, exact⟩
    exact ⟨⟨trivial, exact⟩, inner⟩

end Parameter

/-! ## The name with types that is hashed -/

theorem flattenTypes_map {parameters : List Parameter}
    (flattened : ∀ parameter ∈ parameters,
      flattenType parameter.json.abiParameter =
        .ok (String.ofList parameter.signature)) :
    flattenTypes (abiParameters (Parameter.jsons parameters)) =
      .ok ((Parameter.signatures parameters).map String.ofList) := by
  induction parameters with
  | nil => rfl
  | cons parameter parameters induction =>
      obtain ⟨first, rest⟩ := List.forall_mem_cons.mp flattened
      rw [Parameter.jsons, abiParameters, flattenTypes, first]
      simp only [Outcome.ok_bind, induction rest]
      rfl

theorem intercalate_ofList (texts : List Text) :
    String.intercalate "," (texts.map String.ofList) =
      String.ofList ([','].intercalate texts) := by
  have same : String.toList ∘ String.ofList = id :=
    funext fun _ => String.toList_ofList
  apply String.toList_inj.mp
  rw [String.toList_intercalate, List.map_map, same, List.map_id]
  exact String.toList_ofList.symm

theorem brackets_of_tuple (lengths : List Length) :
    (tupleWord ++ brackets lengths).dropWhile (· != '[') =
      brackets lengths := by
  cases lengths <;> rfl

theorem flattenType_json (parameter : Parameter) :
    flattenType parameter.json.abiParameter =
      .ok (String.ofList parameter.signature) := by
  induction parameter using Parameter.induction with
  | value name indexed type lengths => rfl
  | tuple name indexed components lengths induction =>
      have isTuple : ['t', 'u', 'p', 'l', 'e'].isPrefixOf
          (tupleWord ++ brackets lengths) = true := rfl
      rw [Parameter.json, JsonFragmentType.abiParameter, flattenType,
        String.toList_ofList, if_pos isTuple, flattenTypes_map induction,
        Outcome.ok_bind, intercalate_ofList, brackets_of_tuple,
        Parameter.signature]
      apply congrArg Except.ok
      apply String.toList_inj.mp
      simp

theorem methodName_json {value : FragmentObject Parameter} {name : Text}
    (named : value.name = some name)
    (identifier : isIdentifier name = true) :
    JsonFragment.methodName value.json =
      .ok (String.ofList (name ++ '(' :: [','].intercalate
        (Parameter.signatures (value.inputs.getD [])) ++ [')'])) := by
  have unparenthesized : ¬(name.contains '(') = true := by
    rw [List.contains_iff_mem]
    exact not_mem_of_isIdentifier identifier (by decide)
  have flattened : flattenTypes
      ((value.inputs.map (abiParameters ∘ Parameter.jsons)).getD []) =
        .ok ((Parameter.signatures (value.inputs.getD [])).map
          String.ofList) := by
    cases value.inputs with
    | none => rfl
    | some inputs =>
        exact flattenTypes_map fun parameter _ => flattenType_json parameter
  rw [JsonFragment.methodName, FragmentObject.json, named,
    Contract.jsonInterfaceMethodToString, Option.map_map]
  simp only [Option.map_some, Option.getD_some, String.toList_ofList,
    unparenthesized, flattened, Outcome.ok_bind, intercalate_ofList]
  apply congrArg Except.ok
  apply String.toList_inj.mp
  simp

/-- The signature without the space behind it. -/
theorem trim_formatCall (kind : FormatType) {name : Text}
    (identifier : isIdentifier name = true) (inputs : List ParamType) :
    trim (formatCall kind name inputs) =
      name ++ '(' :: formatParams kind inputs ++ [')'] := by
  have nonempty := (isNameChar_of_isIdentifier identifier).1
  have closed : Trimmed [')'] := by
    have visible : ∀ char ∈ [')'], isWhiteSpace char = false :=
      List.all_iff_forall_prop.mp (by decide)
    exact ⟨fun char member => visible char (List.mem_of_mem_head? member),
      fun char member => visible char (List.mem_of_mem_getLast? member)⟩
  have spaced : formatCall kind name inputs =
      name ++ '(' :: formatParams kind inputs ++ [')'] ++ [' '] := by
    rw [formatCall]
    simp
  have trimmed := (Trimmed.of_isIdentifier identifier).enclosed closed nonempty
    (List.cons_ne_nil _ _) ('(' :: formatParams kind inputs)
  rw [spaced, trim_append_blank _ isWhiteSpace_blank,
    trimmed.trim_eq]

theorem fromObjects_jsons (parameters : List Parameter) :
    ParamType.fromObjects (Parameter.jsons parameters) =
      Parameter.paramTypes parameters := by
  rw [ParamType.fromObjects_eq_map, Parameter.jsons_eq_map,
    Parameter.paramTypes_eq_map, List.map_map]
  exact List.map_congr_left fun parameter _ => fromObject_json parameter

theorem typed_inputs (value : FragmentObject Parameter) :
    (JsonFragment.typed value.json).inputs.getD [] =
      Parameter.paramTypes (value.inputs.getD []) := by
  rw [JsonFragment.typed, FragmentObject.json]
  cases value.inputs with
  | none => rfl
  | some inputs => exact fromObjects_jsons inputs

theorem formatParams_paramTypes (kind : FormatType)
    (parameters : List Parameter) :
    formatParams kind (Parameter.paramTypes parameters) =
      (ParamType.separator kind).intercalate
        (Parameter.texts kind parameters) := by
  rw [formatParams, ParamType.formatAll_eq_map, Parameter.paramTypes_eq_map,
    Parameter.texts_eq_map, List.map_map]
  congr 1
  exact List.map_congr_left fun parameter _ => format_paramType kind parameter

/-! ## Two spellings of a type -/

/-- A comma or a parenthesis ends a type. -/
def EndsType (rest : Text) : Prop :=
  ∀ char ∈ rest.head?, char = ',' ∨ char = ')'

theorem stops_brackets (lengths : List Length) {rest : Text}
    (ends : EndsType rest) :
    Words.Stops Char.isAlphanum (brackets lengths ++ rest) ∧
      Words.Stops Char.isAlphanum (printedBrackets lengths ++ rest) := by
  cases lengths with
  | cons length lengths =>
      exact ⟨Words.stops_cons (by decide) _, Words.stops_cons (by decide) _⟩
  | nil =>
      have stops : Words.Stops Char.isAlphanum rest := by
        intro char member
        rcases ends char member with rfl | rfl
        · decide
        · decide
      exact ⟨stops, stops⟩

theorem endsType_cons {char : Char} (delimiter : char = ',' ∨ char = ')')
    (rest : Text) : EndsType (char :: rest) := by
  intro first member
  obtain rfl := Option.some.inj member
  exact delimiter

theorem cut_params {parameters : List Parameter} {rest rest' : Text}
    (cut : ∀ parameter ∈ parameters, ∀ rest rest' : Text, EndsType rest →
      EndsType rest' →
      parameter.signature ++ rest = parameter.text .sighash ++ rest' →
        parameter.Spelled ∧ rest = rest')
    (same : [','].intercalate (Parameter.signatures parameters) ++
        ')' :: rest =
      [','].intercalate (Parameter.texts .sighash parameters) ++
        ')' :: rest') :
    (∀ parameter ∈ parameters, parameter.Spelled) ∧ rest = rest' := by
  have closes : ∀ rest : Text, EndsType (')' :: rest) :=
    fun rest => endsType_cons (.inr rfl) rest
  induction parameters with
  | nil => exact ⟨List.forall_mem_nil _, (List.cons.inj same).2⟩
  | cons parameter parameters induction =>
      obtain ⟨cutFirst, cutRest⟩ := List.forall_mem_cons.mp cut
      cases parameters with
      | nil =>
          obtain ⟨spelled, rests⟩ := cutFirst _ _ (closes rest)
            (closes rest') (by simpa [Parameter.signatures,
              Parameter.texts] using same)
          refine ⟨fun other member => ?_, (List.cons.inj rests).2⟩
          obtain rfl := List.mem_singleton.mp member
          exact spelled
      | cons next parameters =>
          have separated : ∀ rest : Text, EndsType (',' :: rest) :=
            fun rest => endsType_cons (.inl rfl) rest
          rw [Parameter.signatures, Parameter.texts, Parameter.signatures,
            Parameter.texts, List.intercalate_cons_cons,
            List.intercalate_cons_cons, ← Parameter.signatures,
            ← Parameter.texts] at same
          simp only [List.append_assoc, List.cons_append, List.nil_append]
            at same
          obtain ⟨spelled, rests⟩ := cutFirst _ _ (separated _)
            (separated _) same
          obtain ⟨spelledRest, ends⟩ :=
            induction cutRest (List.cons.inj rests).2
          exact ⟨List.forall_mem_cons.mpr ⟨spelled, spelledRest⟩, ends⟩

/-- Where both spellings begin two equal texts, they are the same. -/
theorem cut_signature (parameter : Parameter) :
    ∀ rest rest' : Text, EndsType rest → EndsType rest' →
      parameter.signature ++ rest = parameter.text .sighash ++ rest' →
        parameter.Spelled ∧ rest = rest' := by
  induction parameter using Parameter.induction with
  | value name indexed type lengths =>
      intro rest rest' ends ends' same
      rw [Parameter.signature, Parameter.text,
        ParamType.formatSuffix, List.append_nil, List.append_assoc,
        List.append_assoc] at same
      obtain ⟨chars, rests⟩ := Words.cut (isAlphanum_chars type)
        (isAlphanum_chars (canonical type)) (stops_brackets lengths ends).1
        (stops_brackets lengths ends').2 same
      obtain ⟨exact, both⟩ := cut_brackets rests
      refine ⟨Parameter.forall_parts_value.mpr ⟨?_, exact⟩, both⟩
      exact canonical_of_chars chars.symm
  | tuple name indexed components lengths induction =>
      intro rest rest' ends ends' same
      rw [Parameter.signature, Parameter.text,
        ParamType.formatSuffix] at same
      simp only [if_true, List.nil_append, List.append_nil, List.cons_append,
        List.append_assoc] at same
      obtain ⟨spelled, rests⟩ := cut_params induction (List.cons.inj same).2
      obtain ⟨exact, both⟩ := cut_brackets rests
      exact ⟨Parameter.spelled_tuple.mpr ⟨spelled, exact⟩, both⟩

/-- Where every integer has its width and every length its digits, the
spellings are the same. -/
theorem signature_of_spelled {parameter : Parameter}
    (spelled : parameter.Spelled) :
    parameter.text .sighash = parameter.signature := by
  induction parameter using Parameter.induction with
  | value name indexed type lengths =>
      obtain ⟨explicit, exact⟩ := Parameter.forall_parts_value.mp spelled
      have canonicalType : canonical type = type := explicit
      have same : printedBrackets lengths = brackets lengths :=
        printedBrackets_of_exact exact
      rw [Parameter.text, Parameter.signature, same, canonicalType]
      exact List.append_nil _
  | tuple name indexed components lengths induction =>
      obtain ⟨inner, exact⟩ := Parameter.spelled_tuple.mp spelled
      have texts : Parameter.texts .sighash components =
          Parameter.signatures components := by
        rw [Parameter.texts_eq_map, Parameter.signatures_eq_map]
        exact List.map_congr_left fun component member =>
          induction component member (inner component member)
      rw [Parameter.text, Parameter.signature, texts,
        printedBrackets_of_exact exact]
      exact List.append_nil _

section Accepted

variable {bigNumberFrom : Gas → Except Abi.Error Int}

/-- The signature of a fragment that an object is accepted as. -/
theorem format_sighash {value : FragmentObject Parameter}
    {fragment : Fragment}
    (hashed : value.type = "function".toList ∨ value.type = "event".toList ∨
      value.type = "error".toList)
    (accepted : Fragment.fromObject bigNumberFrom value.json =
      .ok (some fragment)) :
    ∃ name, value.name = some name ∧ isIdentifier name = true ∧
      fragment.format .sighash = .ok (name ++ '(' :: [','].intercalate
        (Parameter.texts .sighash (value.inputs.getD [])) ++ [')']) := by
  have typed : value.json.type = value.type := rfl
  have printed : ∀ inputs : List ParamType,
      inputs = (JsonFragment.typed value.json).inputs.getD [] →
        formatParams .sighash inputs = [','].intercalate
          (Parameter.texts .sighash (value.inputs.getD [])) := by
    intro inputs same
    rw [same, typed_inputs, formatParams_paramTypes]
    rfl
  have trimmed : ∀ name inputs, isIdentifier name = true →
      trim ([] ++ formatCall .sighash name inputs ++ []) =
        name ++ '(' :: formatParams .sighash inputs ++ [')'] := by
    intro name inputs identifier
    rw [List.nil_append, List.append_nil]
    exact trim_formatCall .sighash identifier inputs
  rcases hashed with isFunction | isEvent | isError
  · rw [Fragment.fromObject, typed, if_pos isFunction] at accepted
    obtain ⟨function, made, same⟩ := Outcome.map_eq_ok.mp accepted
    obtain rfl := Option.some.inj same
    obtain ⟨-, named, identifier, -, inputs, -⟩ :=
      function_fromObject_eq_ok.mp made
    refine ⟨function.name, named, identifier, ?_⟩
    rw [← printed _ inputs, ← trimmed _ _ identifier]
    rfl
  · rw [Fragment.fromObject, typed, isEvent, if_neg (by decide),
      if_pos rfl] at accepted
    obtain ⟨event, made, same⟩ := Outcome.map_eq_ok.mp accepted
    obtain rfl := Option.some.inj same
    obtain ⟨named, identifier, inputs, -⟩ := event_fromObject_eq_ok.mp made
    refine ⟨event.name, named, identifier, ?_⟩
    rw [← printed _ inputs, ← trimmed _ _ identifier]
    rfl
  · rw [Fragment.fromObject, typed, isError, if_neg (by decide),
      if_neg (by decide), if_neg (by decide), if_pos rfl] at accepted
    obtain ⟨error, made, same⟩ := Outcome.map_eq_ok.mp accepted
    obtain rfl := Option.some.inj same
    obtain ⟨named, identifier, inputs, -⟩ := error_fromObject_eq_ok.mp made
    refine ⟨error.name, named, identifier, ?_⟩
    rw [← printed _ inputs, ← trim_formatCall .sighash identifier]
    rfl

/-- The signature that is hashed is that of the types that are encoded exactly
when every integer has its width and every length its digits. -/
theorem methodName_eq_format_iff {value : FragmentObject Parameter}
    {fragment : Fragment}
    (hashed : value.type = "function".toList ∨ value.type = "event".toList ∨
      value.type = "error".toList)
    (accepted : Fragment.fromObject bigNumberFrom value.json =
      .ok (some fragment)) :
    (∃ signature, JsonFragment.methodName value.json =
        .ok (String.ofList signature) ∧
      fragment.format .sighash = .ok signature) ↔
      ∀ parameter ∈ value.inputs.getD [], parameter.Spelled := by
  obtain ⟨name, named, identifier, formatted⟩ :=
    format_sighash hashed accepted
  have hash := methodName_json named identifier
  constructor
  · rintro ⟨signature, flattened, sighash⟩
    rw [hash] at flattened
    rw [formatted] at sighash
    have same := (String.ofList_injective (Except.ok.inj flattened)).trans
      (Except.ok.inj sighash).symm
    simp only [List.append_assoc, List.cons_append] at same
    have params := (List.cons.inj (List.append_cancel_left same)).2
    exact (cut_params (fun parameter _ => cut_signature parameter) params).1
  · intro spelled
    have texts : Parameter.texts .sighash (value.inputs.getD []) =
        Parameter.signatures (value.inputs.getD []) := by
      rw [Parameter.texts_eq_map, Parameter.signatures_eq_map]
      exact List.map_congr_left fun parameter member =>
        signature_of_spelled (spelled parameter member)
    rw [texts] at formatted
    exact ⟨_, hash, formatted⟩

end Accepted

/-- `[2]` -/
def pairLength : Length := ⟨['2'], by decide⟩

/-- `f((uint8,address[2])[2] pairs)` -/
def pairsFunction : FragmentObject Parameter where
  type := "function".toList
  name := some "f".toList
  stateMutability := some "view".toList
  inputs := some [.tuple (some "pairs".toList) none
    [.value none none (.uint (some .one)) [],
      .value none none .address [pairLength]] [pairLength]]

/-- `f(uint)` -/
def aliasFunction : FragmentObject Parameter where
  type := "function".toList
  name := some "f".toList
  stateMutability := some "nonpayable".toList
  inputs := some [.value none none (.uint none) []]

/-- Gas is not given in these fragments. -/
def noGas : Gas → Except Abi.Error Int :=
  fun _ => .error (Abi.Error.ofArgument "invalid BigNumber value" none)

theorem methodName_eq_format_pairs :
    ∃ fragment signature,
      Fragment.fromObject noGas pairsFunction.json = .ok (some fragment) ∧
        JsonFragment.methodName pairsFunction.json =
          .ok (String.ofList signature) ∧
          fragment.format .sighash = .ok signature := by
  have accepted : Fragment.fromObject noGas pairsFunction.json =
      .ok (some (.function ⟨"f".toList,
        Parameter.paramTypes (pairsFunction.inputs.getD []), [],
        "view".toList, false, true, none⟩)) := rfl
  have spelled : ∀ parameter ∈ pairsFunction.inputs.getD [],
      parameter.Spelled := by
    intro parameter member
    obtain rfl := List.mem_singleton.mp member
    refine Parameter.spelled_tuple.mpr ⟨?_, by decide⟩
    intro component inside
    rcases List.mem_cons.mp inside with rfl | inside
    · exact Parameter.forall_parts_value.mpr ⟨rfl, by decide⟩
    · obtain rfl := List.mem_singleton.mp inside
      exact Parameter.forall_parts_value.mpr ⟨rfl, by decide⟩
  obtain ⟨signature, hashed, formatted⟩ :=
    (methodName_eq_format_iff (.inl rfl) accepted).mpr spelled
  exact ⟨_, signature, accepted, hashed, formatted⟩

/-- The selector of an integer without a width is not that of the type it is
encoded with. -/
theorem not_methodName_eq_format :
    ∃ fragment,
      Fragment.fromObject noGas aliasFunction.json = .ok (some fragment) ∧
        JsonFragment.methodName aliasFunction.json = .ok "f(uint)" ∧
          fragment.format .sighash = .ok "f(uint512)".toList := by
  refine ⟨.function ⟨"f".toList,
    Parameter.paramTypes (aliasFunction.inputs.getD []), [],
    "nonpayable".toList, false, false, none⟩, rfl, ?_, ?_⟩
  · decide
  · exact congrArg Except.ok (by decide)

end Web3Js.Fragments
