import Web3Js.Abi.Keys
import Web3Js.Validator.Conformance

/-!
# Arguments in the order of their components

Arguments are given as lists or, for tuples, as objects with the names of the
components.  They are transformed to lists throughout.  Below more than one
dimension the tuples are those of the first elements only, so that arrays of
three dimensions lose elements.
-/

namespace Web3Js.Validator

open Format (Data Scalar)

inductive DataError where
  | typeError
deriving DecidableEq

/-- The place of a missing element reads as undefined. -/
def present : Data → Data
  | .scalar .hole => .scalar .undefined
  | value => value

/-- The characters of a text that has one unit for each. -/
def characters (content : String) : List Data :=
  content.toList.map fun char => .scalar (.text (String.ofList [char]))

def byteValues (content : Bytes) : List Data :=
  content.map fun byte => .scalar (.number byte.toNat)

/-- `entries[name]` of the characters of a text or of bytes. -/
def entryOf (entries : List Data) (name : String) : Data :=
  if name = "length" then .scalar (.number entries.length)
  else
    ((Abi.arrayIndex name).bind fun index => entries[index]?).getD
      (.scalar .undefined)

/-- `data[index]` of an array, `data[name]` of anything else. -/
def property (data : Data) (index : Nat) (name : String) :
    Except DataError Data :=
  match data with
  | .array items => .ok (present (items[index]?.getD (.scalar .undefined)))
  | .object entries => .ok ((entries.lookup name).getD (.scalar .undefined))
  | .scalar .undefined | .scalar .null => .error .typeError
  | .scalar (.text content) => .ok (entryOf (characters content) name)
  | .scalar (.bytes content) => .ok (entryOf (byteValues content) name)
  | .scalar _ => .ok (.scalar .undefined)

/-- The values that `for (const item of data)` goes through. -/
def iterate : Data → Except DataError (List Data)
  | .array items => .ok (items.map present)
  | .scalar (.text content) => .ok (characters content)
  | .scalar (.bytes content) => .ok (byteValues content)
  | _ => .error .typeError

/-- `fetchArrayElement`; its level is never below one. -/
def fetchArrayElement : Data → Nat → Except DataError Data
  | _, 0 => .error .typeError
  | data, 1 => .ok data
  | data, level + 2 => do
      let first ← property data 0 "0"
      fetchArrayElement first (level + 1)

/-- The item of an array of tuples with the number of dimensions, and with the
transformation of the components. -/
def transformTupleItem (dimensions : Nat)
    (transformTuple : Data → Except DataError (List Data)) (tupleItem : Data) :
    Except DataError Data :=
  if 1 < dimensions then do
    let nestedItems ← fetchArrayElement tupleItem (dimensions - 1)
    let nested ← iterate nestedItems
    let nestedData ← nested.mapM fun nestedItem =>
      (transformTuple nestedItem).map Data.array
    .ok (.array nestedData)
  else (transformTuple tupleItem).map Data.array

/-- One value of `transformJsonDataToAbiFormat`, of a type and with the
transformation of its components. -/
def transformItem (type : String)
    (transformTuple : Data → Except DataError (List Data)) (dataItem : Data) :
    Except DataError Data :=
  let parsed := parseBaseType type
  if parsed.baseType = some .tuple then
    if parsed.isArray then do
      let tupleItems ← iterate dataItem
      let tupleData ← tupleItems.mapM
        (transformTupleItem parsed.arraySizes.length transformTuple)
      .ok (.array tupleData)
    else (transformTuple dataItem).map Data.array
  else .ok dataItem

/-- The values of `transformJsonDataToAbiFormat` from an index on. -/
def transformItems : List Schema → Nat → Data → Except DataError (List Data)
  | [], _, _ => .ok []
  | .parameter name type (some components) :: abis, index, data => do
      let dataItem ← property data index name
      let item ←
        transformItem type (fun data => transformItems components 0 data)
          dataItem
      let items ← transformItems abis (index + 1) data
      .ok (item :: items)
  | .parameter name type none :: abis, index, data => do
      let dataItem ← property data index name
      let item ← transformItem type (fun _ => .error .typeError) dataItem
      let items ← transformItems abis (index + 1) data
      .ok (item :: items)
  | .text type :: abis, index, data => do
      let dataItem ← property data index "undefined"
      let item ← transformItem type (fun _ => .ok []) dataItem
      let items ← transformItems abis (index + 1) data
      .ok (item :: items)
  | .list (.text type :: .list components :: _) :: abis, index, data => do
      let dataItem ← property data index "undefined"
      let item ←
        transformItem type (fun data => transformItems components 0 data)
          dataItem
      let items ← transformItems abis (index + 1) data
      .ok (item :: items)
  -- The type is not a text.
  | .list (_ :: .list _ :: _) :: _, _, _ => .error .typeError
  | .list components :: abis, index, data => do
      let dataItem ← property data index "undefined"
      let item ←
        transformItem "tuple" (fun data => transformItems components 0 data)
          dataItem
      let items ← transformItems abis (index + 1) data
      .ok (item :: items)

/-- Without an array that the results are added to. -/
def transformJsonDataToAbiFormat (abis : List Schema) (data : Data) :
    Except DataError (List Data) :=
  transformItems abis 0 data

/-! ## Positional values -/

/-- The values of an object for the components, if it has them all. -/
def fields (components : List (String × AbiType))
    (entries : List (String × Data)) : Option (List Data) :=
  components.mapM fun component => entries.lookup component.1

mutual

/-- The value conforms in shape, with tuples as lists or as objects, and the
tree is the value with lists for all of them. -/
def Positional : AbiType → Data → Data → Prop
  | .elementary _, value, tree => value ≠ .scalar .hole ∧ tree = value
  | .array element length, .array values, .array trees =>
      (∀ declared ∈ length, values.length = declared) ∧
        List.Forall₂ (Positional element) values trees
  | .tuple components, .array values, .array trees =>
      PositionalEach components values trees
  | .tuple components, .object entries, .array trees =>
      ∃ values, fields components entries = some values ∧
        PositionalEach components values trees
  | _, _, _ => False

def PositionalEach : List (String × AbiType) → List Data → List Data → Prop
  | [], [], [] => True
  | (_, type) :: rest, value :: values, tree :: trees =>
      Positional type value tree ∧ PositionalEach rest values trees
  | _, _, _ => False

end

namespace AbiType

def IsTuple (type : AbiType) : Prop :=
  ∃ components, type.innermost = .tuple components

/-- Arrays of this element type have three dimensions or more above tuples. -/
def IsDeep (element : AbiType) : Prop :=
  2 ≤ element.dimensions.length ∧ element.IsTuple

end AbiType

mutual

/-- Arrays of tuples of three dimensions or more are empty. -/
def Shallow : AbiType → Data → Prop
  | .array element _, .array values =>
      (element.IsDeep → values = []) ∧ ∀ value ∈ values, Shallow element value
  | .tuple components, .array values => ShallowEach components values
  | .tuple components, .object entries =>
      ∀ values, fields components entries = some values →
        ShallowEach components values
  | _, _ => True

def ShallowEach : List (String × AbiType) → List Data → Prop
  | (_, type) :: rest, value :: values =>
      Shallow type value ∧ ShallowEach rest values
  | _, _ => True

end

theorem Positional.present {type : AbiType} {value tree : Data}
    (positional : Positional type value tree) :
    present value = value := by
  cases value with
  | scalar value =>
      cases value with
      | hole =>
          cases type with
          | elementary type => exact absurd rfl positional.1
          | array element length => exact positional.elim
          | tuple components => exact positional.elim
      | _ => rfl
  | array values => rfl
  | object entries => rfl

/-- Related lists satisfy another relation where their elements do. -/
theorem forall₂_iff_forall {α β : Type} {related target : α → β → Prop}
    {holds : α → Prop} {values : List α} {trees : List β}
    (all : List.Forall₂ related values trees)
    (each : ∀ value tree, related value tree →
      (target value tree ↔ holds value)) :
    List.Forall₂ target values trees ↔ ∀ value ∈ values, holds value := by
  induction all with
  | nil => exact iff_of_true .nil nofun
  | cons first _ induction =>
      rw [List.forall₂_cons, List.forall_mem_cons, each _ _ first, induction]

/-- Without tuples a value is its own tree. -/
theorem Positional.of_elementary : ∀ {type : AbiType} {value tree : Data},
    ¬type.IsTuple → Positional type value tree →
      tree = value ∧ Shallow type value
  | .elementary _, _, _, _, positional => ⟨positional.2, trivial⟩
  | .tuple components, _, _, noTuple, _ => absurd ⟨components, rfl⟩ noTuple
  | .array element _, .array values, .array trees, noTuple, positional => by
      have inner : ¬element.IsTuple := noTuple
      have each : ∀ value tree, Positional element value tree →
          tree = value ∧ Shallow element value :=
        fun _ _ first => first.of_elementary inner
      have same : List.Forall₂ Eq values trees :=
        positional.2.imp fun value tree first => (each value tree first).1.symm
      rw [List.forall₂_eq_eq_eq] at same
      refine ⟨by rw [same], ?_, ?_⟩
      · exact fun deep => absurd deep.2 inner
      · exact (forall₂_iff_forall positional.2 fun value tree first =>
          iff_of_true trivial (each value tree first).2).mp
            (positional.2.imp fun _ _ _ => trivial)
  | .array _ _, .scalar _, _, _, positional => positional.elim
  | .array _ _, .object _, _, _, positional => positional.elim
  | .array _ _, .array _, .scalar _, _, positional => positional.elim
  | .array _ _, .array _, .object _, _, positional => positional.elim

/-! ## Transforming values of a type -/

/-- Values of the type are transformed to trees that are not larger, and to
their own trees exactly if they are shallow. -/
def Transforms (type : AbiType)
    (transform : Data → Except DataError Data) : Prop :=
  ∀ value tree, Positional type value tree →
    (∀ result, transform value = .ok result → sizeOf result ≤ sizeOf tree) ∧
      (transform value = .ok tree ↔ Shallow type value)

theorem Transforms.mapM {type : AbiType}
    {transform : Data → Except DataError Data}
    (transforms : Transforms type transform) {values trees : List Data}
    (related : List.Forall₂ (Positional type) values trees) :
    (∀ results, values.mapM transform = .ok results →
      sizeOf results ≤ sizeOf trees) ∧
      (values.mapM transform = .ok trees ↔
        ∀ value ∈ values, Shallow type value) := by
  constructor
  · intro results mapped
    rw [Outcome.mapM_eq_ok] at mapped
    induction related generalizing results with
    | nil =>
        cases mapped
        exact Nat.le_refl _
    | cons first _ induction =>
        cases mapped with
        | cons done rest =>
            have own := (transforms _ _ first).1 _ done
            have others := induction _ rest
            simp only [List.cons.sizeOf_spec]
            omega
  · rw [Outcome.mapM_eq_ok]
    exact forall₂_iff_forall related fun value tree first =>
      (transforms value tree first).2

theorem iterate_positional {type : AbiType} {values trees : List Data}
    (related : List.Forall₂ (Positional type) values trees) :
    iterate (.array values) = .ok values := by
  refine congrArg Except.ok ?_
  induction related with
  | nil => rfl
  | cons first _ induction =>
      rw [List.map_cons, first.present, induction]

/-- The first elements lead to an array of tuples whose trees are in that of the
value, and in that of its first element if there is a dimension between. -/
theorem fetchArrayElement_spec (components : List (String × AbiType)) :
    ∀ {element : AbiType} {value tree nested : Data} {items : List Data},
      element.innermost = .tuple components → element.dimensions ≠ [] →
        Positional element value tree →
          fetchArrayElement value element.dimensions.length = .ok nested →
            iterate nested = .ok items →
    ∃ trees, List.Forall₂ (Positional (.tuple components)) items trees ∧
      sizeOf (Data.array trees) ≤ sizeOf tree ∧
        (2 ≤ element.dimensions.length →
          sizeOf (Data.array trees) < sizeOf tree)
  | .elementary _, _, _, _, _, _, dimensions, _, _, _ => absurd rfl dimensions
  | .tuple _, _, _, _, _, _, dimensions, _, _, _ => absurd rfl dimensions
  | .array _ _, .scalar _, _, _, _, _, _, positional, _, _ => positional.elim
  | .array _ _, .object _, _, _, _, _, _, positional, _, _ => positional.elim
  | .array _ _, .array _, .scalar _, _, _, _, _, positional, _, _ =>
      positional.elim
  | .array _ _, .array _, .object _, _, _, _, _, positional, _, _ =>
      positional.elim
  | .array (.elementary _) _, .array _, .array _, _, _, root, _, _, _, _ =>
      by cases root
  | .array (.tuple inner) _, .array values, .array trees, _, _, root, _,
      positional, fetched, iterated => by
      obtain rfl : inner = components := by
        simpa [AbiType.innermost] using root
      cases Except.ok.inj fetched
      rw [iterate_positional positional.2] at iterated
      obtain rfl := Except.ok.inj iterated
      refine ⟨trees, positional.2, Nat.le_refl _, ?_⟩
      intro two
      simp [AbiType.dimensions] at two
  | .array (.array inner length) _, .array values, .array trees, _, _, root, _,
      positional, fetched, iterated => by
      have some : (AbiType.array inner length).dimensions ≠ [] := by
        simp [AbiType.dimensions]
      have below := fun value tree =>
        @fetchArrayElement_spec components (.array inner length) value tree
      have positive := List.length_pos_iff.mpr some
      rw [AbiType.dimensions, List.length_append, List.length_singleton]
        at fetched
      generalize (AbiType.array inner length).dimensions.length = level
        at fetched positive below
      obtain ⟨level, rfl⟩ : ∃ below, level = below + 1 :=
        ⟨level - 1, by omega⟩
      rw [fetchArrayElement] at fetched
      obtain ⟨-, related⟩ := positional
      cases related with
      | nil =>
          exfalso
          cases level with
          | zero =>
              cases fetched
              cases iterated
          | succ level => cases fetched
      | @cons first tree _ rest positional _ =>
          have found : (Except.ok (present first) : Except DataError Data) =
              .ok first := congrArg Except.ok positional.present
          change (Except.ok (present first) >>= _) = _ at fetched
          rw [found] at fetched
          obtain ⟨inside, conform, smaller, -⟩ :=
            below first tree root some positional fetched iterated
          have within : sizeOf tree < sizeOf (Data.array (tree :: rest)) := by
            simp only [Data.array.sizeOf_spec, List.cons.sizeOf_spec]
            omega
          exact ⟨inside, conform, by omega, fun _ => by omega⟩

section Tuples

variable {components : List (String × AbiType)}
    {transformTuple : Data → Except DataError (List Data)}

/-- What holds of the items holds of the list of them. -/
theorem array_of_items {step : Except DataError (List Data)}
    {trees : List Data} {holds : Prop}
    (items : (∀ results, step = .ok results →
      sizeOf results ≤ sizeOf trees) ∧ (step = .ok trees ↔ holds)) :
    (∀ result, step.map Data.array = .ok result →
      sizeOf result ≤ sizeOf (Data.array trees)) ∧
      (step.map Data.array = .ok (.array trees) ↔ holds) := by
  obtain ⟨smaller, exact⟩ := items
  rw [← exact]
  cases step with
  | error error => exact ⟨nofun, nofun, nofun⟩
  | ok results =>
      refine ⟨?_, by simp [Except.map]⟩
      intro result done
      obtain rfl := Except.ok.inj done
      have own := smaller results rfl
      simp only [Data.array.sizeOf_spec]
      omega

/-- Elements with at most one dimension of their own. -/
theorem transforms_element
    (transforms : Transforms (.tuple components)
      fun data => (transformTuple data).map .array) {element : AbiType}
    (root : element.innermost = .tuple components)
    (shallow : ¬element.IsDeep) :
    Transforms element
      (transformTupleItem (element.dimensions.length + 1) transformTuple) := by
  have few : ¬2 ≤ element.dimensions.length :=
    fun two => shallow ⟨two, components, root⟩
  cases element with
  | elementary => cases root
  | tuple inner =>
      obtain rfl : inner = components := by
        simpa [AbiType.innermost] using root
      exact transforms
  | array item length =>
      cases item with
      | elementary => cases root
      | array inner => simp [AbiType.dimensions] at few
      | tuple inner =>
          obtain rfl : inner = components := by
            simpa [AbiType.innermost] using root
          intro value tree positional
          cases value with
          | scalar => exact positional.elim
          | object => exact positional.elim
          | array values =>
              cases tree with
              | scalar => exact positional.elim
              | object => exact positional.elim
              | array trees =>
                  have iterated := iterate_positional positional.2
                  have computed : transformTupleItem
                      ((AbiType.array (.tuple inner)
                        length).dimensions.length + 1)
                      transformTuple (.array values) =
                      (values.mapM fun data =>
                        (transformTuple data).map .array).map Data.array := by
                    rw [transformTupleItem, if_pos (by simp [AbiType.dimensions]),
                      show (AbiType.array (.tuple inner) length).dimensions.length +
                        1 - 1 = 1 from rfl, fetchArrayElement, Outcome.ok_bind,
                      iterated, Outcome.ok_bind]
                    rfl
                  have notDeep : ¬(AbiType.tuple inner).IsDeep :=
                    fun deep => by cases deep.1
                  rw [computed, Shallow]
                  obtain ⟨smaller, exact⟩ :=
                    array_of_items (transforms.mapM positional.2)
                  refine ⟨smaller, exact.trans ?_⟩
                  exact ⟨fun each => ⟨fun deep => absurd deep notDeep, each⟩,
                    And.right⟩

/-- Elements with more dimensions lose some. -/
theorem smaller_of_deep
    (transforms : Transforms (.tuple components)
      fun data => (transformTuple data).map .array) {element : AbiType}
    (root : element.innermost = .tuple components) (deep : element.IsDeep)
    {value tree result : Data} (positional : Positional element value tree)
    (transformed : transformTupleItem (element.dimensions.length + 1)
      transformTuple value = .ok result) :
    sizeOf result < sizeOf tree := by
  have some : element.dimensions ≠ [] :=
    List.ne_nil_of_length_pos (by have := deep.1; omega)
  have several : 1 < element.dimensions.length + 1 := by
    have := deep.1
    omega
  rw [transformTupleItem, if_pos several, Nat.add_sub_cancel] at transformed
  obtain ⟨nested, fetched, transformed⟩ := Outcome.bind_eq_ok.mp transformed
  obtain ⟨items, iterated, transformed⟩ := Outcome.bind_eq_ok.mp transformed
  obtain ⟨results, mapped, transformed⟩ := Outcome.bind_eq_ok.mp transformed
  obtain rfl := Except.ok.inj transformed
  obtain ⟨inside, conform, -, smaller⟩ :=
    fetchArrayElement_spec components root some positional fetched iterated
  have bounded := (transforms.mapM conform).1 results mapped
  have strict := smaller deep.1
  simp only [Data.array.sizeOf_spec] at strict ⊢
  omega

theorem transforms_deep
    (transforms : Transforms (.tuple components)
      fun data => (transformTuple data).map .array) {element : AbiType}
    (root : element.innermost = .tuple components) (deep : element.IsDeep)
    {values trees : List Data}
    (related : List.Forall₂ (Positional element) values trees) :
    (∀ results, values.mapM (transformTupleItem
        (element.dimensions.length + 1) transformTuple) = .ok results →
      sizeOf results ≤ sizeOf trees) ∧
      (values.mapM (transformTupleItem (element.dimensions.length + 1)
        transformTuple) = .ok trees ↔ values = []) := by
  simp only [Outcome.mapM_eq_ok]
  constructor
  · intro results mapped
    induction related generalizing results with
    | nil =>
        cases mapped
        exact Nat.le_refl _
    | cons first _ induction =>
        cases mapped with
        | cons done rest =>
            have own := smaller_of_deep transforms root deep first done
            have others := induction _ rest
            simp only [List.cons.sizeOf_spec]
            omega
  · cases related with
    | nil => exact iff_of_true .nil rfl
    | cons first rest =>
        refine iff_of_false ?_ nofun
        intro mapped
        cases mapped with
        | cons done _ =>
            exact Nat.lt_irrefl _
              (smaller_of_deep transforms root deep first done)

theorem transforms_type
    (transforms : Transforms (.tuple components)
      fun data => (transformTuple data).map .array) {type : AbiType}
    (root : type.innermost = .tuple components) :
    Transforms type (transformItem type.text transformTuple) := by
  have chars : type.baseChars = BaseType.tuple.text.toList := by
    rw [AbiType.baseChars, root]
  have parsed := type.parseBaseType_text
  rw [chars] at parsed
  have read : parseBaseType type.text =
      ⟨some .tuple, none, !type.dimensions.isEmpty,
        arraySizes type.dimensions⟩ := parsed
  cases type with
  | elementary => cases root
  | tuple inner =>
      obtain rfl : inner = components := by
        simpa [AbiType.innermost] using root
      have computed : transformItem (AbiType.tuple inner).text transformTuple =
          fun data => (transformTuple data).map .array := by
        funext data
        simp only [transformItem, read, if_true]
        rfl
      rw [computed]
      exact transforms
  | array element length =>
      intro value tree positional
      cases value with
      | scalar => exact positional.elim
      | object => exact positional.elim
      | array values =>
          cases tree with
          | scalar => exact positional.elim
          | object => exact positional.elim
          | array trees =>
              have related := positional.2
              have sizes : (arraySizes
                  (AbiType.array element length).dimensions).length =
                  element.dimensions.length + 1 := by
                simp [arraySizes, AbiType.dimensions]
              have isArray :
                  (!(AbiType.array element length).dimensions.isEmpty) =
                    true := by
                simp [AbiType.dimensions]
              have computed : transformItem
                  (AbiType.array element length).text transformTuple
                    (.array values) =
                  (values.mapM (transformTupleItem
                    (element.dimensions.length + 1) transformTuple)).map
                      Data.array := by
                simp only [transformItem, read, if_true, isArray, sizes,
                  iterate_positional related, Outcome.ok_bind]
                rfl
              rw [computed, Shallow]
              have inner : element.innermost = .tuple components := root
              by_cases deep : element.IsDeep
              · obtain ⟨smaller, exact⟩ := array_of_items
                  (transforms_deep transforms inner deep related)
                refine ⟨smaller, exact.trans ?_⟩
                constructor
                · rintro rfl
                  exact ⟨fun _ => rfl, by rintro _ ⟨⟩⟩
                · exact fun shallow => shallow.1 deep
              · obtain ⟨smaller, exact⟩ := array_of_items
                  ((transforms_element transforms inner deep).mapM related)
                refine ⟨smaller, exact.trans ?_⟩
                exact ⟨fun each => ⟨fun yes => absurd yes deep, each⟩,
                  And.right⟩

end Tuples

theorem transforms_elementary {type : AbiType} (noTuple : ¬type.IsTuple)
    (transformTuple : Data → Except DataError (List Data)) :
    Transforms type (transformItem type.text transformTuple) := by
  have same : ∀ value, transformItem type.text transformTuple value =
      .ok value := by
    intro value
    have parsed := type.parseBaseType_text
    cases root : type.innermost with
    | array element length =>
        exact absurd root (AbiType.innermost_array type _ _)
    | tuple components => exact absurd ⟨components, root⟩ noTuple
    | elementary leaf =>
        have chars : type.baseChars = leaf.chars := by
          rw [AbiType.baseChars, root]
        rw [chars, leaf.readBaseType_chars] at parsed
        have other : some leaf.baseType ≠ some .tuple := by
          cases leaf <;> simp [Elementary.baseType]
        simp only [transformItem, parsed, if_neg other]
  intro value tree positional
  obtain ⟨rfl, shallow⟩ := positional.of_elementary noTuple
  rw [same]
  refine ⟨?_, iff_of_true rfl shallow⟩
  intro result done
  cases done
  exact Nat.le_refl _

/-! ## Transforming the arguments of a list of types -/

/-- The values are what is read for the components from an index on. -/
def Reads (data : Data) : Nat → List (String × AbiType) → List Data → Prop
  | index, (name, _) :: rest, value :: values =>
      property data index name = .ok value ∧ Reads data (index + 1) rest values
  | _, _, _ => True

theorem reads_array (before : List Data) :
    ∀ {components : List (String × AbiType)} {values trees : List Data},
      PositionalEach components values trees →
        Reads (.array (before ++ values)) before.length components values
  | [], _, _, _ => trivial
  | _ :: _, [], _, _ => trivial
  | _ :: _, _ :: _, [], positional => positional.elim
  | (name, type) :: rest, value :: values, tree :: trees, positional => by
      have others := reads_array (before ++ [value]) positional.2
      rw [List.append_assoc, List.length_append] at others
      refine ⟨?_, others⟩
      simp [property, positional.1.present]

theorem reads_object {entries : List (String × Data)} (index : Nat) :
    ∀ {components : List (String × AbiType)} {values : List Data},
      fields components entries = some values →
        Reads (.object entries) index components values
  | [], _, _ => trivial
  | _ :: _, [], _ => trivial
  | (name, type) :: rest, value :: values, found => by
      rw [fields, List.mapM_cons] at found
      obtain ⟨first, own, found⟩ := Option.bind_eq_some_iff.mp found
      obtain ⟨others, below, found⟩ := Option.bind_eq_some_iff.mp found
      cases found
      refine ⟨?_, reads_object (index + 1) below⟩
      rw [property, show entries.lookup name = some value from own]
      rfl

mutual

theorem transforms_components :
    ∀ (type : AbiType) (components : List (String × AbiType)),
    type.innermost = .tuple components →
      type.components = some (AbiType.parameters components) ∧
        Transforms (.tuple components) fun data =>
          (transformItems (AbiType.parameters components) 0 data).map .array
  | .elementary _, _, root => nomatch root
  | .array element _, components, root => by
      rw [AbiType.innermost] at root
      rw [AbiType.components]
      exact transforms_components element components root
  | .tuple inner, components, root => by
      obtain rfl : inner = components := by
        simpa [AbiType.innermost] using root
      refine ⟨rfl, ?_⟩
      intro value tree positional
      cases tree with
      | scalar =>
          cases value with
          | scalar => exact positional.elim
          | array => exact positional.elim
          | object => exact positional.elim
      | object =>
          cases value with
          | scalar => exact positional.elim
          | array => exact positional.elim
          | object => exact positional.elim
      | array trees =>
          cases value with
          | scalar => exact positional.elim
          | array values =>
              rw [Shallow]
              exact array_of_items
                (transforms_each inner positional (reads_array [] positional))
          | object entries =>
              obtain ⟨values, found, each⟩ := positional
              rw [Shallow]
              have items := array_of_items
                (transforms_each inner each (reads_object 0 found))
              simpa [found] using items

theorem transforms_each : ∀ (components : List (String × AbiType))
    {data : Data} {index : Nat} {values trees : List Data},
    PositionalEach components values trees →
      Reads data index components values →
        (∀ results,
          transformItems (AbiType.parameters components) index data =
            .ok results → sizeOf results ≤ sizeOf trees) ∧
          (transformItems (AbiType.parameters components) index data =
            .ok trees ↔ ShallowEach components values)
  | [], _, _, [], [], _, _ => by
      rw [AbiType.parameters, transformItems]
      refine ⟨?_, iff_of_true rfl trivial⟩
      intro results done
      cases done
      exact Nat.le_refl _
  | [], _, _, _ :: _, _, positional, _ => positional.elim
  | [], _, _, [], _ :: _, positional, _ => positional.elim
  | _ :: _, _, _, [], _, positional, _ => positional.elim
  | _ :: _, _, _, _ :: _, [], positional, _ => positional.elim
  | (name, type) :: rest, data, index, value :: values, tree :: trees,
      ⟨own, others⟩, ⟨found, reads⟩ => by
      have remaining := transforms_each rest others reads
      have inner := transforms_components type
      obtain ⟨transform, computed, transforms⟩ : ∃ transform,
          transformItems (AbiType.parameters ((name, type) :: rest)) index
              data = (do
            let item ← transform value
            let items ← transformItems (AbiType.parameters rest) (index + 1)
              data
            .ok (item :: items)) ∧ Transforms type transform := by
        by_cases isTuple : type.IsTuple
        · obtain ⟨components, root⟩ := isTuple
          obtain ⟨given, transforms⟩ := inner components root
          refine ⟨_, ?_, transforms_type transforms root⟩
          rw [AbiType.parameters, given, transformItems, found]
          rfl
        · cases given : type.components with
          | none =>
              refine ⟨_, ?_, transforms_elementary isTuple
                fun _ => .error .typeError⟩
              rw [AbiType.parameters, given, transformItems, found]
              rfl
          | some schemas =>
              refine ⟨_, ?_, transforms_elementary isTuple
                fun data => transformItems schemas 0 data⟩
              rw [AbiType.parameters, given, transformItems, found]
              rfl
      rw [computed, ShallowEach]
      obtain ⟨smaller, exact⟩ := transforms value tree own
      obtain ⟨fewer, same⟩ := remaining
      rw [← exact, ← same]
      constructor
      · intro results done
        obtain ⟨item, first, done⟩ := Outcome.bind_eq_ok.mp done
        obtain ⟨items, below, done⟩ := Outcome.bind_eq_ok.mp done
        obtain rfl := Except.ok.inj done
        have := smaller item first
        have := fewer items below
        simp only [List.cons.sizeOf_spec]
        omega
      · constructor
        · intro done
          obtain ⟨item, first, done⟩ := Outcome.bind_eq_ok.mp done
          obtain ⟨items, below, done⟩ := Outcome.bind_eq_ok.mp done
          cases done
          exact ⟨first, below⟩
        · rintro ⟨first, below⟩
          rw [first, below]
          rfl

end

/-- Conforming arguments are transformed to the lists of their components with
all elements kept exactly if no array of three dimensions or more that holds
tuples has an element. -/
theorem transformJsonDataToAbiFormat_exact_iff
    {types : List (String × AbiType)} {arguments trees : List Data}
    (positional : PositionalEach types arguments trees) :
    transformJsonDataToAbiFormat (AbiType.parameters types)
        (.array arguments) = .ok trees ↔ ShallowEach types arguments :=
  (transforms_each types positional (reads_array [] positional)).2

/-- Two arrays of two pairs, one of them by its names. -/
theorem transformJsonDataToAbiFormat_exact_pairs :
    transformJsonDataToAbiFormat
        (AbiType.parameters [("pairs", .array (.array (.tuple
          [("left", .elementary .bool), ("right", .elementary .string)])
            (some 1)) none)])
        (.array [.array [.array [.object [("right", .scalar (.text "a")),
          ("left", .scalar (.boolean true))]], .array [.array
            [.scalar (.boolean false), .scalar (.text "b")]]]]) =
      .ok [.array [.array [.array [.scalar (.boolean true),
        .scalar (.text "a")]], .array [.array
          [.scalar (.boolean false), .scalar (.text "b")]]]] := by
  refine (transformJsonDataToAbiFormat_exact_iff ?_).mpr ?_
  · simp [PositionalEach, Positional, fields, List.lookup_cons]
  · simp [ShallowEach, Shallow, AbiType.IsDeep, AbiType.dimensions, fields,
      List.lookup_cons]

/-- The second element of the inner array is lost. -/
theorem transformJsonDataToAbiFormat_loses_elements :
    PositionalEach
        [("cube", .array (.array (.array (.tuple
          [("flag", .elementary .bool)]) none) none) none)]
        [.array [.array [.array [.array [.scalar (.boolean true)]],
          .array [.array [.scalar (.boolean false)]]]]]
        [.array [.array [.array [.array [.scalar (.boolean true)]],
          .array [.array [.scalar (.boolean false)]]]]] ∧
      transformJsonDataToAbiFormat
        (AbiType.parameters [("cube", .array (.array (.array (.tuple
          [("flag", .elementary .bool)]) none) none) none)])
        (.array [.array [.array [.array [.array [.scalar (.boolean true)]],
          .array [.array [.scalar (.boolean false)]]]]]) =
      .ok [.array [.array [.array [.scalar (.boolean true)]]]] := by
  constructor
  · simp [PositionalEach, Positional]
  · have cube : parseBaseType (AbiType.text (.array (.array (.array (.tuple
        [("flag", .elementary .bool)]) none) none) none)) =
        ⟨some .tuple, none, true, [-1, -1, -1]⟩ := by
      decide
    have flag : parseBaseType (AbiType.text (.elementary .bool)) =
        ⟨some .bool, none, false, []⟩ := by
      decide
    simp [transformJsonDataToAbiFormat, AbiType.parameters, AbiType.components,
      transformItems, property, present, transformItem, cube, flag, iterate,
      transformTupleItem, fetchArrayElement, Except.map]

end Web3Js.Validator
