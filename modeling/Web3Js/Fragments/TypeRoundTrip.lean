import Web3Js.Fragments.Reading

/-!
# Round trips of parameter types

A parameter type is the same again after its JSON format.  It is the same
after its full format if no name is one that objects inherit, no tuple is
empty and every length is printed with its digits.
-/

namespace Web3Js.Fragments

open Abi (Error verifyType checkModifier hasModifier objectPrototypeNames)
open Validator (Elementary)

/-! ## Names -/

/-- The words that mean something else than a name. -/
def keywords : List String :=
  ["indexed", "memory", "calldata", "storage", "payable", "tuple"]

/-- An identifier other than a keyword or modifier. -/
def PlainName (name : Text) : Prop :=
  isIdentifier name = true ∧ String.ofList name ∉ keywords

instance (name : Text) : Decidable (PlainName name) :=
  inferInstanceAs (Decidable (_ ∧ _))

theorem PlainName.readable {name : Text} (plain : PlainName name) :
    ReadableName name := by
  obtain ⟨nonempty, named⟩ := isNameChar_of_isIdentifier plain.1
  refine ⟨nonempty, ?_, ?_⟩
  · rw [List.all_eq_true] at named ⊢
    exact fun char member => isOrdinary_of_isNameChar (named char member)
  · intro same
    apply plain.2
    rw [same, String.ofList_toList]
    decide

/-- Every object literal has a property of this name. -/
def Inherited (name : Text) : Prop :=
  String.ofList name ∈ objectPrototypeNames

instance (name : Text) : Decidable (Inherited name) :=
  inferInstanceAs (Decidable (_ ∈ _))

theorem hasModifier_of_plain (modifiers : List String) {name : Text}
    (known : ∀ modifier ∈ modifiers, modifier ∈ keywords)
    (plain : PlainName name) :
    hasModifier modifiers (String.ofList name) = true ↔ Inherited name := by
  have other : modifiers.contains (String.ofList name) = false := by
    rw [Bool.eq_false_iff]
    intro member
    exact plain.2 (known _ (List.contains_iff_mem.mp member))
  rw [hasModifier, other, Bool.false_or, List.contains_iff_mem, Inherited]

/-- A plain name is read as one unless objects inherit it. -/
theorem checkModifier_plain (type : Text) {name : Text}
    (plain : PlainName name) :
    checkModifier type name = .ok false ↔ ¬Inherited name := by
  have bytes := hasModifier_of_plain Abi.modifiersBytes (by decide) plain
  have nest := hasModifier_of_plain Abi.modifiersNest (by decide) plain
  have unpayable : String.ofList name ≠ "payable" := by
    intro same
    apply plain.2
    rw [same]
    decide
  have unpaid : (String.ofList name == "payable") = false :=
    beq_eq_false_iff_ne.mpr unpayable
  by_cases inherited : Inherited name
  · have isBytes := bytes.mpr inherited
    have isNest := nest.mpr inherited
    simp only [inherited, not_true_eq_false, iff_false]
    rw [checkModifier]
    simp only [isBytes, isNest, unpaid]
    split
    · simp
    · simp only [if_true, true_or]
      split
      · simp
      · split <;> simp
  · have isBytes := Bool.eq_false_iff.mpr (mt bytes.mp inherited)
    have isNest := Bool.eq_false_iff.mpr (mt nest.mp inherited)
    simp only [inherited, not_false_eq_true, iff_true]
    rw [checkModifier]
    simp only [isBytes, isNest, unpaid]
    simp [unpayable]

/-! ## Flags -/

namespace ParamType

mutual

/-- The type with missing flags read as false. -/
def withFlags : ParamType → ParamType
  | ⟨name, type, baseType, indexed, components, arrayLength, arrayChildren⟩ =>
      ⟨name, type, baseType, some (indexed.getD false),
        withFlagsIn components, arrayLength, withFlagsOf arrayChildren⟩

def withFlagsOf : Option ParamType → Option ParamType
  | some child => some (withFlags child)
  | none => none

def withFlagsIn : Option (List ParamType) → Option (List ParamType)
  | some components => some (withFlagsAll components)
  | none => none

def withFlagsAll : List ParamType → List ParamType
  | [] => []
  | param :: params => withFlags param :: withFlagsAll params

end

theorem withFlagsAll_eq_map (params : List ParamType) :
    withFlagsAll params = params.map withFlags := by
  induction params with
  | nil => rfl
  | cons param params induction =>
      rw [withFlagsAll, induction, List.map_cons]

theorem withFlags_fields {left right : ParamType}
    (same : left.withFlags = right.withFlags) :
    left.name = right.name ∧ left.type = right.type ∧
      withFlagsIn left.components = withFlagsIn right.components := by
  cases left
  cases right
  rw [withFlags, withFlags] at same
  obtain ⟨names, types, -, -, components, -, -⟩ := ParamType.mk.inj same
  exact ⟨names, types, components⟩

end ParamType

theorem withFlags_arrays {components components' : Option (List ParamType)}
    (same : ParamType.withFlagsIn components =
      ParamType.withFlagsIn components') {indexed indexed' : Option Bool}
    (flags : indexed.getD false = indexed'.getD false) (word : Text)
    (lengths : List Length) (name : Option Text) :
    (arrays word components lengths name indexed).withFlags =
      (arrays word components' lengths name indexed').withFlags := by
  have both : components.isSome = components'.isSome := by
    cases components <;> cases components' <;> first | rfl | cases same
  induction lengths generalizing name indexed indexed' with
  | nil =>
      rw [arrays, arrays, ParamType.withFlags, ParamType.withFlags, flags, same,
        both]
  | cons length lengths induction =>
      have children := @induction none none rfl none
      rw [arrays, arrays, ParamType.withFlags, ParamType.withFlags, flags, same,
        ParamType.withFlagsOf, ParamType.withFlagsOf, children]

theorem arrays_fields (word : Text) (components : Option (List ParamType))
    (lengths : List Length) (name : Option Text) (indexed : Option Bool) :
    (arrays word components lengths name indexed).name = name ∧
      (arrays word components lengths name indexed).type =
        word ++ brackets lengths.reverse ∧
      (arrays word components lengths name indexed).components =
        components := by
  cases lengths with
  | nil => exact ⟨rfl, (List.append_nil word).symm, rfl⟩
  | cons length lengths => exact ⟨rfl, rfl, rfl⟩

/-- The fields that a parameter type is constructed with. -/
theorem construct_fields (components : Option (List ParamType))
    (fuel : Nat) (name : Option Text) (type : Text) (indexed : Option Bool) :
    (ParamType.construct components fuel name type indexed).name = name ∧
      (ParamType.construct components fuel name type indexed).type = type ∧
      (ParamType.construct components fuel name type indexed).components =
        components := by
  cases fuel with
  | zero => exact ⟨rfl, rfl, rfl⟩
  | succ fuel =>
      rw [ParamType.construct]
      split <;> exact ⟨rfl, rfl, rfl⟩

theorem fromObject_fields (name : Option Text) (type : Text)
    (indexed : Option Bool)
    (components : Option (List JsonFragmentType)) :
    (ParamType.fromObject ⟨name, type, indexed, components⟩).name =
        ParamType.givenName name ∧
      (ParamType.fromObject ⟨name, type, indexed, components⟩).type =
        verifyType type ∧
      (ParamType.fromObject ⟨name, type, indexed, components⟩).components =
        components.map ParamType.fromObjects := by
  cases components with
  | none =>
      rw [ParamType.fromObject]
      exact construct_fields none _ _ _ _
  | some components =>
      rw [ParamType.fromObject]
      exact construct_fields (some _) _ _ _ _

/-! ## Parameters that are read back -/

namespace Parameter

/-- A tuple has components. -/
def NotEmpty : Parameter → Prop
  | .value _ _ _ _ => True
  | .tuple _ _ components _ => components ≠ []

instance (parameter : Parameter) : Decidable parameter.NotEmpty :=
  match parameter with
  | .value _ _ _ _ => isTrue trivial
  | .tuple _ _ [] _ => isFalse fun notEmpty => notEmpty rfl
  | .tuple _ _ (component :: components) _ =>
      isTrue (List.cons_ne_nil component components)

/-- No tuple without components, no name that objects inherit and no length
that is printed otherwise, at any depth. -/
def Recoverable (parameter : Parameter) : Prop :=
  ∀ part ∈ parameter.parts, part.NotEmpty ∧
    (∀ name ∈ part.name, ¬Inherited name) ∧
      ∀ length ∈ part.lengths, length.Exact

instance (parameter : Parameter) : Decidable parameter.Recoverable :=
  inferInstanceAs (Decidable (∀ part ∈ parameter.parts, _))

def Plain (parameter : Parameter) : Prop :=
  ∀ part ∈ parameter.parts, ∀ name ∈ part.name, PlainName name

instance (parameter : Parameter) : Decidable parameter.Plain :=
  inferInstanceAs (Decidable (∀ part ∈ parameter.parts, _))

/-- Flags are only set where they are allowed. -/
def Permitted (allowIndexed : Bool) (parameter : Parameter) : Prop :=
  ∀ part ∈ parameter.parts, part.indexed = some true → allowIndexed = true

/-- A flag that is set, or the one that a node starts with. -/
def setFlag (start indexed : Option Bool) : Option Bool :=
  if indexed = some true then some true else start

mutual

/-- The parameter that is read back. -/
def rebuilt (allowIndexed : Bool) (start : Option Bool) :
    Parameter → Parameter
  | .value name indexed type lengths =>
      .value (some ((ParamType.givenName name).getD []))
        (setFlag start indexed) (canonical type) lengths
  | .tuple name indexed components lengths =>
      .tuple (some ((ParamType.givenName name).getD []))
        (setFlag start indexed)
        (rebuiltAll allowIndexed components) lengths

def rebuiltAll (allowIndexed : Bool) : List Parameter → List Parameter
  | [] => []
  | parameter :: parameters =>
      rebuilt allowIndexed (startFlag allowIndexed) parameter ::
        rebuiltAll allowIndexed parameters

end

theorem rebuiltAll_eq_map (allowIndexed : Bool)
    (parameters : List Parameter) :
    rebuiltAll allowIndexed parameters =
      parameters.map (rebuilt allowIndexed (startFlag allowIndexed)) := by
  induction parameters with
  | nil => rfl
  | cons parameter parameters induction =>
      rw [rebuiltAll, induction, List.map_cons]

end Parameter

/-- A suffix with a name that is not inherited and a flag that is allowed. -/
theorem readSuffix_recovered {allowIndexed : Bool} {type : Text}
    {start : Option Bool} {components : Option (List JsonFragmentType)}
    {name : Option Text} {indexed : Option Bool}
    (plain : ∀ given ∈ name, PlainName given)
    (recovered : ∀ given ∈ name, ¬Inherited given)
    (permitted : indexed = some true → allowIndexed = true) :
    readSuffix allowIndexed type start components name indexed =
      some ⟨some (name.getD []), type, Parameter.setFlag start indexed,
        components⟩ := by
  have flag : readIndexed allowIndexed start indexed =
      some (Parameter.setFlag start indexed) := by
    rw [readIndexed, Parameter.setFlag]
    split
    · rename_i flagged
      rw [if_pos (permitted flagged)]
    · rfl
  have read : readName type name = some (name.getD []) := by
    cases name with
    | none => rfl
    | some name =>
        have unmodified := (checkModifier_plain type (plain name rfl)).mpr
          (recovered name rfl)
        rw [readName, unmodified]
        rfl
  rw [readSuffix, flag, read]
  rfl

theorem rereadAll_rebuilt {allowIndexed : Bool} {parameters : List Parameter}
    (each : ∀ parameter ∈ parameters,
      parameter.reread allowIndexed (startFlag allowIndexed) =
        some (parameter.rebuilt allowIndexed
          (startFlag allowIndexed)).json) :
    Parameter.rereadAll allowIndexed parameters =
      some (Parameter.jsons (Parameter.rebuiltAll allowIndexed parameters)) := by
  induction parameters with
  | nil => rfl
  | cons parameter parameters induction =>
      obtain ⟨first, rest⟩ := List.forall_mem_cons.mp each
      rw [Parameter.rereadAll, first, Option.bind_some, induction rest]
      rfl

/-- What is read of a recoverable parameter. -/
theorem reread_of_recoverable {allowIndexed : Bool} {parameter : Parameter}
    (plain : parameter.Plain) (recoverable : parameter.Recoverable)
    (permitted : parameter.Permitted allowIndexed) (start : Option Bool) :
    parameter.reread allowIndexed start =
      some (parameter.rebuilt allowIndexed start).json := by
  induction parameter using Parameter.induction generalizing start with
  | value name indexed type lengths =>
      obtain ⟨-, recovered, exact⟩ :=
        Parameter.forall_parts_value.mp recoverable
      have same : printedBrackets lengths = brackets lengths :=
        printedBrackets_of_exact exact
      rw [Parameter.reread, same]
      exact readSuffix_recovered (Parameter.forall_parts_value.mp plain)
        recovered (Parameter.forall_parts_value.mp permitted)
  | tuple name indexed components lengths induction =>
      obtain ⟨⟨notEmpty, recovered, exact⟩, inner⟩ :=
        Parameter.forall_parts_tuple.mp recoverable
      obtain ⟨named, innerNamed⟩ := Parameter.forall_parts_tuple.mp plain
      obtain ⟨flagged, innerFlagged⟩ :=
        Parameter.forall_parts_tuple.mp permitted
      have read := rereadAll_rebuilt fun component member =>
        induction component member (innerNamed component member)
          (inner component member) (innerFlagged component member)
          (startFlag allowIndexed)
      have filled : Parameter.orEmpty (startFlag allowIndexed)
          (Parameter.jsons (Parameter.rebuiltAll allowIndexed components)) =
            Parameter.jsons (Parameter.rebuiltAll allowIndexed components) := by
        cases components with
        | nil => exact absurd rfl notEmpty
        | cons component components => rfl
      have same : printedBrackets lengths = brackets lengths :=
        printedBrackets_of_exact exact
      rw [Parameter.reread, read, Option.bind_some, filled, same]
      exact readSuffix_recovered named recovered flagged

theorem givenName_rebuilt (name : Option Text) :
    ParamType.givenName (some ((ParamType.givenName name).getD [])) =
      ParamType.givenName name := by
  cases name with
  | none => rfl
  | some name =>
      cases name with
      | nil => rfl
      | cons char name => rfl

theorem getD_setFlag {start : Option Bool} (unset : start.getD false = false)
    (indexed : Option Bool) :
    (Parameter.setFlag start indexed).getD false = indexed.getD false := by
  rw [Parameter.setFlag]
  split
  · rename_i flagged
    rw [flagged]
  · rename_i unflagged
    rw [unset]
    cases indexed with
    | none => rfl
    | some flag =>
        cases flag with
        | true => exact absurd rfl unflagged
        | false => rfl

theorem startFlag_unset (allowIndexed : Bool) :
    (startFlag allowIndexed).getD false = false := by
  cases allowIndexed <;> rfl

/-- The parameter that is read back has the same type but for missing
flags. -/
theorem withFlags_rebuilt (allowIndexed : Bool) (parameter : Parameter)
    {start : Option Bool} (unset : start.getD false = false) :
    (parameter.rebuilt allowIndexed start).paramType.withFlags =
      parameter.paramType.withFlags := by
  induction parameter using Parameter.induction generalizing start with
  | value name indexed type lengths =>
      rw [Parameter.rebuilt, Parameter.paramType, Parameter.paramType,
        givenName_rebuilt, canonical_canonical]
      exact withFlags_arrays rfl (getD_setFlag unset indexed) _ _ _
  | tuple name indexed components lengths induction =>
      have same : ParamType.withFlagsIn (some (Parameter.paramTypes
          (Parameter.rebuiltAll allowIndexed components))) =
            ParamType.withFlagsIn (some (Parameter.paramTypes components)) := by
        apply congrArg some
        rw [Parameter.rebuiltAll_eq_map, Parameter.paramTypes_eq_map,
          Parameter.paramTypes_eq_map, ParamType.withFlagsAll_eq_map,
          ParamType.withFlagsAll_eq_map, List.map_map, List.map_map,
          List.map_map]
        exact List.map_congr_left fun component member =>
          induction component member (startFlag_unset allowIndexed)
      rw [Parameter.rebuilt, Parameter.paramType, Parameter.paramType,
        givenName_rebuilt]
      exact withFlags_arrays same (getD_setFlag unset indexed) _ _ _

/-- Without flags the parameter that is read back has the same type. -/
theorem paramType_rebuilt {parameter : Parameter}
    (unflagged : ∀ part ∈ parameter.parts, part.indexed = none) :
    (parameter.rebuilt false none).paramType = parameter.paramType := by
  induction parameter using Parameter.induction with
  | value name indexed type lengths =>
      obtain rfl : indexed = none :=
        Parameter.forall_parts_value.mp unflagged
      rw [Parameter.rebuilt, Parameter.paramType, Parameter.paramType,
        givenName_rebuilt, canonical_canonical]
      rfl
  | tuple name indexed components lengths induction =>
      obtain ⟨missing, inner⟩ := Parameter.forall_parts_tuple.mp unflagged
      obtain rfl : indexed = none := missing
      have same : Parameter.paramTypes
          (Parameter.rebuiltAll false components) =
            Parameter.paramTypes components := by
        rw [Parameter.rebuiltAll_eq_map, Parameter.paramTypes_eq_map,
          Parameter.paramTypes_eq_map, List.map_map]
        exact List.map_congr_left fun component member =>
          induction component member (inner component member)
      rw [Parameter.rebuilt, Parameter.paramType, Parameter.paramType,
        givenName_rebuilt, same]
      rfl

/-! ## What is not read back -/

theorem readSuffix_eq_some {allowIndexed : Bool} {type : Text}
    {start : Option Bool} {components : Option (List JsonFragmentType)}
    {name : Option Text} {indexed : Option Bool} {node : JsonFragmentType}
    (read : readSuffix allowIndexed type start components name indexed =
      some node) :
    (indexed = some true → allowIndexed = true) ∧
      ∃ flag given, readName type name = some given ∧
        node = ⟨some given, type, flag, components⟩ := by
  obtain ⟨flag, flagged, named⟩ := Option.bind_eq_some_iff.mp read
  obtain ⟨given, readGiven, same⟩ := Option.map_eq_some_iff.mp named
  refine ⟨fun set => ?_, flag, given, readGiven, same.symm⟩
  rw [readIndexed, if_pos set] at flagged
  cases allowIndexed with
  | true => rfl
  | false => cases flagged

/-- A name that is kept is not inherited. -/
theorem not_inherited_of_readName {type name given : Text}
    (plain : PlainName name) (read : readName type (some name) = some given)
    (kept : ParamType.givenName (some given) = some name) :
    ¬Inherited name := by
  rw [← checkModifier_plain type plain]
  rw [readName] at read
  cases checked : checkModifier type name with
  | error problem =>
      rw [checked] at read
      cases read
  | ok modifier =>
      cases modifier with
      | false => rfl
      | true =>
          rw [checked] at read
          obtain rfl : [] = given := Option.some.inj read
          cases kept

/-- A name and brackets that are kept are recoverable. -/
theorem recoverable_of_fields {allowIndexed : Bool} {word : Text}
    {start : Option Bool} {components : Option (List JsonFragmentType)}
    {name : Option Text} {indexed : Option Bool} {lengths : List Length}
    {node : JsonFragmentType}
    (plain : ∀ given ∈ ParamType.givenName name, PlainName given)
    (stable : verifyType (word ++ printedBrackets lengths) =
      word ++ printedBrackets lengths)
    (read : readSuffix allowIndexed (word ++ printedBrackets lengths) start
      components (ParamType.givenName name) indexed = some node)
    {original : ParamType} (named : original.name = ParamType.givenName name)
    (typed : original.type = word ++ brackets lengths)
    (same : (ParamType.fromObject node).withFlags = original.withFlags) :
    (∀ given ∈ ParamType.givenName name, ¬Inherited given) ∧
      (∀ length ∈ lengths, length.Exact) ∧
        ParamType.withFlagsIn (components.map ParamType.fromObjects) =
          ParamType.withFlagsIn original.components := by
  obtain ⟨-, flag, given, readGiven, rfl⟩ := readSuffix_eq_some read
  obtain ⟨names, types, parts⟩ := ParamType.withFlags_fields same
  have fields := fromObject_fields (some given)
    (word ++ printedBrackets lengths) flag components
  rw [fields.1, named] at names
  rw [fields.2.1, stable, typed] at types
  rw [fields.2.2] at parts
  refine ⟨?_, ?_, parts⟩
  · intro present member
    have isPresent : ParamType.givenName name = some present := member
    rw [isPresent] at names readGiven
    exact not_inherited_of_readName (plain present member) readGiven names
  · have bracketed : brackets lengths ++ [] = printedBrackets lengths ++ [] := by
      rw [List.append_nil, List.append_nil]
      exact (List.append_cancel_left types).symm
    exact (cut_brackets bracketed).1

theorem rereadAll_eq_some {allowIndexed : Bool} {parameters : List Parameter}
    {nodes : List JsonFragmentType}
    (read : Parameter.rereadAll allowIndexed parameters = some nodes) :
    List.Forall₂ (fun parameter node => parameter.reread allowIndexed
      (startFlag allowIndexed) = some node) parameters nodes := by
  induction parameters generalizing nodes with
  | nil =>
      obtain rfl := Option.some.inj read
      exact .nil
  | cons parameter parameters induction =>
      obtain ⟨node, first, rest⟩ := Option.bind_eq_some_iff.mp read
      obtain ⟨others, readRest, same⟩ := Option.map_eq_some_iff.mp rest
      rw [← same]
      exact .cons first (induction readRest)

theorem withFlagsAll_related {parameters : List Parameter}
    {nodes : List JsonFragmentType} {related : Parameter → JsonFragmentType →
      Prop}
    (all : List.Forall₂ related parameters nodes)
    (same : ParamType.withFlagsAll (ParamType.fromObjects nodes) =
      ParamType.withFlagsAll (Parameter.paramTypes parameters)) :
    ∀ parameter ∈ parameters, ∃ node, related parameter node ∧
      (ParamType.fromObject node).withFlags =
        parameter.paramType.withFlags := by
  induction all with
  | nil => exact List.forall_mem_nil _
  | cons first rest induction =>
      rw [ParamType.fromObjects, ParamType.withFlagsAll,
        Parameter.paramTypes, ParamType.withFlagsAll] at same
      obtain ⟨heads, tails⟩ := List.cons.inj same
      exact List.forall_mem_cons.mpr ⟨⟨_, first, heads⟩, induction tails⟩

/-- Only a recoverable parameter is read back as itself. -/
theorem recoverable_of_reread {allowIndexed : Bool} {parameter : Parameter}
    (plain : parameter.Plain) {start : Option Bool} {node : JsonFragmentType}
    (read : parameter.reread allowIndexed start = some node)
    (same : (ParamType.fromObject node).withFlags =
      parameter.paramType.withFlags) :
    parameter.Recoverable ∧ parameter.Permitted allowIndexed := by
  induction parameter using Parameter.induction generalizing start node with
  | value name indexed type lengths =>
      have named := Parameter.forall_parts_value.mp plain
      have fields := arrays_fields (canonical type).chars none lengths.reverse
        (ParamType.givenName name) indexed
      rw [List.reverse_reverse] at fields
      rw [Parameter.reread] at read
      obtain ⟨recovered, exact, -⟩ := recoverable_of_fields named
        (verifyType_printed type lengths) read fields.1 fields.2.1 same
      exact ⟨Parameter.forall_parts_value.mpr ⟨trivial, recovered, exact⟩,
        Parameter.forall_parts_value.mpr (readSuffix_eq_some read).1⟩
  | tuple name indexed components lengths induction =>
      obtain ⟨named, innerNamed⟩ := Parameter.forall_parts_tuple.mp plain
      have fields := arrays_fields tupleWord
        (some (Parameter.paramTypes components)) lengths.reverse
        (ParamType.givenName name) indexed
      rw [List.reverse_reverse] at fields
      obtain ⟨nodes, readAll, readHere⟩ := Option.bind_eq_some_iff.mp read
      obtain ⟨recovered, exact, parts⟩ := recoverable_of_fields named
        (verifyType_tuple _) readHere fields.1 fields.2.1 same
      have pairs := rereadAll_eq_some readAll
      have children : ParamType.withFlagsAll (ParamType.fromObjects
          (Parameter.orEmpty (startFlag allowIndexed) nodes)) =
            ParamType.withFlagsAll (Parameter.paramTypes components) := by
        rw [fields.2.2] at parts
        exact Option.some.inj parts
      have notEmpty : components ≠ [] := by
        rintro rfl
        cases pairs
        cases children
      have filled : Parameter.orEmpty (startFlag allowIndexed) nodes =
          nodes := by
        cases pairs with
        | nil => exact absurd rfl notEmpty
        | cons first rest => rfl
      rw [filled] at children
      have each := withFlagsAll_related pairs children
      have inner : ∀ component ∈ components,
          component.Recoverable ∧ component.Permitted allowIndexed := by
        intro component member
        obtain ⟨child, readChild, sameChild⟩ := each component member
        exact induction component member (innerNamed component member)
          readChild sameChild
      constructor
      · rw [Parameter.Recoverable, Parameter.forall_parts_tuple]
        exact ⟨⟨notEmpty, recovered, exact⟩,
          fun component member => (inner component member).1⟩
      · rw [Parameter.Permitted, Parameter.forall_parts_tuple]
        exact ⟨(readSuffix_eq_some readHere).1,
          fun component member => (inner component member).2⟩

/-! ## Texts and objects -/

theorem toOption_parseParamType {allowIndexed : Bool} {text : Text}
    {result : Option JsonFragmentType}
    (reads : ReadsAs allowIndexed .root text result) :
    (parseParamType text allowIndexed).toOption = result := by
  have finished := (reads []).2
  rw [parseParamType, Outcome.toOption_bind, toOption_run]
  cases read : advance allowIndexed ⟨.root, []⟩ text with
  | none =>
      rw [read, Option.bind_none] at finished
      exact (Option.map_eq_none_iff.mp finished.symm).symm
  | some parser =>
      obtain ⟨node, parents⟩ := parser
      rw [read, Option.bind_some] at finished
      cases parents with
      | nil =>
          have same : node.finished allowIndexed = result := by
            refine Option.map_injective ?_ finished
            intro left right pairs
            exact (Prod.mk.inj pairs).1
          rw [← same, ParseNode.finished, Option.bind_some]
          change (node.finish allowIndexed (text.length - 7) >>= fun node =>
            .ok node.fragment).toOption = _
          rw [Outcome.toOption_bind, toOption_finish allowIndexed node _ 0]
          cases node.finish allowIndexed 0 <;> rfl
      | cons parent parents =>
          cases result with
          | none => rfl
          | some child =>
              obtain ⟨other, -, pairs⟩ := Option.map_eq_some_iff.mp finished
              cases (Prod.mk.inj pairs).2

theorem Parameter.Plain.readable {parameter : Parameter}
    (plain : parameter.Plain) :
    ∀ part ∈ parameter.parts, ∀ name ∈ part.name, ReadableName name :=
  fun part member name named => (plain part member name named).readable

theorem toOption_fromString {allowIndexed : Bool} {text : Text}
    {result : Option JsonFragmentType}
    (reads : ReadsAs allowIndexed .root text result) :
    (ParamType.fromString text allowIndexed).toOption =
      result.map ParamType.fromObject := by
  rw [ParamType.fromString, Outcome.toOption_bind, toOption_parseParamType reads]
  cases result <;> rfl

theorem json_arrays {word : Text} {components : Option (List ParamType)}
    (isTuple : components.isSome = true → word = tupleWord)
    (lengths : List Length) (name : Option Text) (indexed : Option Bool) :
    (arrays word components lengths name indexed).json =
      ⟨ParamType.givenName name, word ++ brackets lengths.reverse, indexed,
        ParamType.jsonComponents components⟩ := by
  cases lengths with
  | nil =>
      have bare : word ++ brackets [].reverse = word := List.append_nil word
      rw [arrays, ParamType.json, bare]
      cases present : components.isSome with
      | true =>
          rw [isTuple present]
          rfl
      | false =>
          rw [if_neg Bool.false_ne_true]
          split
          · rename_i same
            rw [same]
          · rfl
  | cons length lengths =>
      rw [arrays, ParamType.json, if_neg (by decide)]

theorem givenName_givenName (name : Option Text) :
    ParamType.givenName (ParamType.givenName (ParamType.givenName name)) =
      ParamType.givenName name := by
  cases name with
  | none => rfl
  | some name => cases name <;> rfl

mutual

/-- The parameter that the JSON format describes. -/
def Parameter.normal : Parameter → Parameter
  | .value name indexed type lengths =>
      .value (ParamType.givenName (ParamType.givenName name)) indexed
        (canonical type) lengths
  | .tuple name indexed components lengths =>
      .tuple (ParamType.givenName (ParamType.givenName name)) indexed
        (Parameter.normals components) lengths

def Parameter.normals : List Parameter → List Parameter
  | [] => []
  | parameter :: parameters =>
      parameter.normal :: Parameter.normals parameters

end

theorem Parameter.normals_eq_map (parameters : List Parameter) :
    Parameter.normals parameters = parameters.map Parameter.normal := by
  induction parameters with
  | nil => rfl
  | cons parameter parameters induction =>
      rw [Parameter.normals, induction, List.map_cons]

theorem json_paramType (parameter : Parameter) :
    parameter.paramType.json = parameter.normal.json := by
  induction parameter using Parameter.induction with
  | value name indexed type lengths =>
      rw [Parameter.paramType, json_arrays (by simp), List.reverse_reverse]
      rfl
  | tuple name indexed components lengths induction =>
      have same : ParamType.jsonAll (Parameter.paramTypes components) =
          Parameter.jsons (Parameter.normals components) := by
        rw [ParamType.jsonAll_eq_map, Parameter.paramTypes_eq_map,
          Parameter.jsons_eq_map, Parameter.normals_eq_map, List.map_map,
          List.map_map]
        exact List.map_congr_left induction
      rw [Parameter.paramType, json_arrays (fun _ => rfl),
        List.reverse_reverse, ParamType.jsonComponents, same]
      rfl

theorem paramType_normal (parameter : Parameter) :
    parameter.normal.paramType = parameter.paramType := by
  induction parameter using Parameter.induction with
  | value name indexed type lengths =>
      rw [Parameter.normal, Parameter.paramType, Parameter.paramType,
        givenName_givenName, canonical_canonical]
  | tuple name indexed components lengths induction =>
      have same : Parameter.paramTypes (Parameter.normals components) =
          Parameter.paramTypes components := by
        rw [Parameter.normals_eq_map, Parameter.paramTypes_eq_map,
          Parameter.paramTypes_eq_map, List.map_map]
        exact List.map_congr_left induction
      rw [Parameter.normal, Parameter.paramType, Parameter.paramType,
        givenName_givenName, same]

/-- The JSON format of the type of a parameter describes the same type. -/
theorem fromObject_json_paramType (parameter : Parameter) :
    ParamType.fromObject parameter.paramType.json = parameter.paramType := by
  rw [json_paramType, fromObject_json, paramType_normal]

/-- A type is the same after its two formats exactly when it is recoverable. -/
theorem fromString_format_iff {parameter : Parameter}
    (plain : parameter.Plain)
    (unflagged : ∀ part ∈ parameter.parts, part.indexed = none)
    {param : ParamType} (made : ParamType.fromObject parameter.json = param) :
    (ParamType.fromString (param.format .full) false = .ok param ∧
      ParamType.fromObject param.json = param) ↔ parameter.Recoverable := by
  obtain rfl : parameter.paramType = param :=
    (fromObject_json parameter).symm.trans made
  have read : (ParamType.fromString (parameter.paramType.format .full)
      false).toOption = (parameter.reread false none).map
        ParamType.fromObject := by
    rw [format_paramType, ← Parameter.layout_false]
    exact toOption_fromString
      (readsAs_layout false false plain.readable (by decide))
  rw [← Outcome.toOption_eq_some, read, Option.map_eq_some_iff]
  constructor
  · rintro ⟨⟨node, rereadNode, same⟩, _⟩
    exact (recoverable_of_reread plain rereadNode
      (congrArg ParamType.withFlags same)).1
  · intro recoverable
    have permitted : parameter.Permitted false := by
      intro part member flagged
      rw [unflagged part member] at flagged
      cases flagged
    refine ⟨⟨_, reread_of_recoverable plain recoverable permitted none, ?_⟩,
      fromObject_json_paramType parameter⟩
    rw [fromObject_json]
    exact paramType_rebuilt unflagged

/-- `tuple(uint8 first, address)[2] pair` -/
def pairParameter : Parameter :=
  .tuple (some "pair".toList) none
    [.value (some "first".toList) none (.uint (some .one)) [],
      .value none none .address []] [.two]

theorem fromString_format_pair :
    ∃ param, ParamType.fromObject pairParameter.json = param ∧
      ParamType.fromString (param.format .full) false = .ok param ∧
        ParamType.fromObject param.json = param :=
  ⟨_, rfl, (fromString_format_iff (by decide) (by decide) rfl).mpr
    (by decide)⟩

/-- `bytes constructor` -/
def inheritedName : Parameter :=
  .value (some "constructor".toList) none (.bytes none) []

/-- The name of a parameter is lost where objects inherit it. -/
theorem not_fromString_format :
    inheritedName.Plain ∧
      (∀ part ∈ inheritedName.parts, part.indexed = none) ∧
        ParamType.fromString
            ((ParamType.fromObject inheritedName.json).format .full) false ≠
          .ok (ParamType.fromObject inheritedName.json) := by
  refine ⟨by decide, by decide, ?_⟩
  intro same
  have names := congrArg (fun read => read.toOption.map ParamType.name) same
  revert names
  decide +kernel

end Web3Js.Fragments
