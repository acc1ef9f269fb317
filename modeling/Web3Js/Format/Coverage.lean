import Web3Js.Format.Formatter

/-!
# What formatting reaches

A schema built from objects, arrays of one kind of element and scalar formats
assigns a format to every scalar of a value that conforms to it.  The walk
from the root assigns the same one below objects and below arrays of objects
and of scalars.  It loses the elements of an array of objects at the top, it
does not enter the arrays of an array, and the copy that is formatted lacks
what `mergeDeep` leaves out.
-/

namespace Web3Js.Format

/-! ## Schemas and the values that conform to them -/

inductive Built : JsonSchema → Prop
  | scalar (type : Option String) (format : String) :
      Built ⟨type, some format, none, none, none⟩
  | object {type : Option String} {properties : List (String × JsonSchema)} :
      type = none ∨ type = some "object" →
      (∀ entry ∈ properties, Built entry.2) →
      Built ⟨type, none, some properties, none, none⟩
  | array {type : Option String} {items : JsonSchema} :
      type = none ∨ type = some "array" → Built items →
      Built ⟨type, none, none, some (.inl items), none⟩

namespace JsonSchema

/-- The schema of the elements of an array. -/
def element (schema : JsonSchema) : JsonSchema :=
  match schema.items with
  | some (.inl items) => items
  | _ => .empty

/-- The schema of a property of an object. -/
def member (schema : JsonSchema) (key : String) : JsonSchema :=
  ((schema.properties.getD []).lookup key).getD .empty

end JsonSchema

mutual

def Conforms (schema : JsonSchema) : Data → Prop
  | .scalar value => schema.format.isSome ∧ value ≠ .hole
  | .array items =>
      (∃ element, schema.items = some (.inl element)) ∧
        ConformsItems schema.element items
  | .object entries =>
      schema.properties.isSome ∧ ConformsEntries schema entries

def ConformsItems (schema : JsonSchema) : List Data → Prop
  | [] => True
  | value :: values => Conforms schema value ∧ ConformsItems schema values

def ConformsEntries (schema : JsonSchema) : List (String × Data) → Prop
  | [] => True
  | (key, value) :: entries =>
      ((schema.properties.getD []).lookup key).isSome ∧
        Conforms (schema.member key) value ∧ ConformsEntries schema entries

end

section Meaning

variable (format : DataFormat)

mutual

/-- Every scalar replaced by its conversion at the format that the schema
assigns to its position. -/
def converted (schema : JsonSchema) : Data → Data
  | .scalar value =>
      convertScalarValue (.scalar value) schema.format format
  | .array items => .array (convertedItems schema.element items)
  | .object entries => .object (convertedEntries schema entries)

def convertedItems (schema : JsonSchema) : List Data → List Data
  | [] => []
  | value :: values => converted schema value :: convertedItems schema values

def convertedEntries (schema : JsonSchema) :
    List (String × Data) → List (String × Data)
  | [] => []
  | (key, value) :: entries =>
      (key, converted (schema.member key) value) ::
        convertedEntries schema entries

end

mutual

/-- The walk reaches every scalar below the value that its conversion
changes: arrays whose elements are neither scalars nor declared objects hold
none. -/
def Covered (schema : JsonSchema) : Data → Prop
  | .scalar _ => True
  | .array items =>
      if schema.element.format.isSome then True
      else if schema.element.type = some "object" then
        CoveredItems schema.element items
      else convertedItems format schema.element items = items
  | .object entries => CoveredEntries schema entries

def CoveredItems (schema : JsonSchema) : List Data → Prop
  | [] => True
  | value :: values => Covered schema value ∧ CoveredItems schema values

def CoveredEntries (schema : JsonSchema) : List (String × Data) → Prop
  | [] => True
  | (key, value) :: entries =>
      Covered (schema.member key) value ∧ CoveredEntries schema entries

end

end Meaning

mutual

/-- The copy of an object holds all that the object holds. -/
def Merges : List (String × Data) → Prop
  | [] => True
  | (key, value) :: entries =>
      key ∉ forbiddenKeys ∧ MergesValue key value ∧ Merges entries

def MergesValue (key : String) : Data → Prop
  | .scalar value => value ≠ .undefined ∧ value ≠ .null
  | .array _ => True
  | .object entries => key ∉ inheritedKeys ∧ Merges entries

end

/-- Formatting reaches every scalar of a value at the top that its conversion
changes, and leaves nothing out. -/
def Reached (returnFormat : DataFormat) (schema : JsonSchema) : Data → Prop
  | .scalar _ => schema.format ≠ some ""
  | .object entries =>
      Merges entries ∧ CoveredEntries returnFormat schema entries
  | .array items =>
      if schema.element.properties.isSome then items = []
      else CoveredItems returnFormat schema.element items

/-! ## The walk -/

/-- Without choices the walk is a descent by the properties and elements. -/
theorem findSchemaFrom_cons (result : JsonSchema) (previous : Option String)
    (dataPart : String) (dataPath : List String) :
    findSchemaFrom [] result previous (dataPart :: dataPath) =
      if result.properties.isNone && result.items.isNone then .ok none
      else
        match result.descend dataPart with
        | some next =>
            findSchemaFrom [] next
              (if dataPart = "" then previous else some dataPart) dataPath
        | none =>
            if dataPath = [] then .ok none
            else .error
              "Cannot read properties of undefined (reading 'oneOf')" := by
  obtain ⟨type, format, properties, items, oneOf⟩ := result
  cases oneOf with
  | none => rfl
  | some alternatives =>
      cases previous with
      | none => rfl
      | some key => rfl

theorem findSchemaFrom_append {result found : JsonSchema}
    {previous : Option String} {dataPath : List String} {key : String}
    (finds : findSchemaFrom [] result previous dataPath = .ok (some found))
    (container : found.properties.isSome ∨ found.items.isSome) :
    findSchemaFrom [] result previous (dataPath ++ [key]) =
      .ok (found.descend key) := by
  induction dataPath generalizing result previous with
  | nil =>
      obtain rfl : result = found := by
        simpa [findSchemaFrom] using finds
      have inner : (result.properties.isNone && result.items.isNone) =
          false := by
        rw [Bool.and_eq_false_iff, Option.isNone_eq_false_iff,
          Option.isNone_eq_false_iff]
        exact container
      rw [List.nil_append, findSchemaFrom_cons, inner]
      cases result.descend key with
      | none => rfl
      | some next => simp [findSchemaFrom]
  | cons part dataPath induction =>
      rw [findSchemaFrom_cons] at finds
      rw [List.cons_append, findSchemaFrom_cons]
      by_cases leaf : (result.properties.isNone && result.items.isNone) = true
      · simp [leaf] at finds
      · rw [if_neg leaf] at finds ⊢
        cases next : result.descend part with
        | none =>
            rw [next] at finds
            by_cases last : dataPath = []
            · simp [last] at finds
            · simp [last] at finds
        | some schema =>
            rw [next] at finds
            exact induction finds

/-- The walk along a path ends at a schema. -/
def Finds (schema : JsonSchema) (dataPath : List String)
    (found : JsonSchema) : Prop :=
  findSchemaByDataPath schema dataPath [] = .ok (some found)

theorem finds_root (schema : JsonSchema) : Finds schema [] schema := rfl

theorem Finds.step {schema found : JsonSchema} {dataPath : List String}
    (finds : Finds schema dataPath found)
    (container : found.properties.isSome ∨ found.items.isSome)
    (key : String) :
    findSchemaByDataPath schema (dataPath ++ [key]) [] =
      .ok (found.descend key) :=
  findSchemaFrom_append finds container

/-! ## What is built -/

theorem Built.oneOf {schema : JsonSchema} (built : Built schema) :
    schema.oneOf = none := by
  cases built with
  | scalar | object | array => rfl

theorem Built.format_of_items {schema : JsonSchema} (built : Built schema)
    {element : JsonSchema} (items : schema.items = some (.inl element)) :
    schema.format = none ∧ schema.properties = none ∧ Built element := by
  cases built with
  | scalar => cases items
  | object => cases items
  | array _ inner =>
      cases items
      exact ⟨rfl, rfl, inner⟩

theorem Built.format_of_properties {schema : JsonSchema}
    (built : Built schema) (properties : schema.properties.isSome) :
    schema.format = none ∧ schema.items = none := by
  cases built with
  | scalar => cases properties
  | object => exact ⟨rfl, rfl⟩
  | array => cases properties

theorem Built.of_format {schema : JsonSchema} (built : Built schema)
    (format : schema.format.isSome) :
    schema.properties = none ∧ schema.items = none := by
  cases built with
  | scalar => exact ⟨rfl, rfl⟩
  | object => cases format
  | array => cases format

/-- What declares its type to be an object and has no format is one. -/
theorem Built.of_type {schema : JsonSchema} (built : Built schema)
    (format : ¬ schema.format.isSome) (type : schema.type = some "object") :
    schema.properties.isSome ∧ schema.items = none := by
  cases built with
  | scalar => exact absurd rfl format
  | object => exact ⟨rfl, rfl⟩
  | array declared =>
      rcases declared with absent | other
      · rw [absent] at type
        cases type
      · rw [other] at type
        simp at type

theorem Built.member {schema : JsonSchema} (built : Built schema)
    {key : String}
    (known : ((schema.properties.getD []).lookup key).isSome) :
    Built (schema.member key) := by
  obtain ⟨found, lookup⟩ := Option.isSome_iff_exists.mp known
  rw [JsonSchema.member, lookup]
  cases built with
  | scalar => cases lookup
  | object _ inner =>
      obtain ⟨before, after, split, _⟩ := List.lookup_eq_some_iff.mp lookup
      simp only [Option.getD_some] at split
      refine inner (key, found) ?_
      rw [split]
      exact List.mem_append_right before List.mem_cons_self
  | array => cases lookup

/-! ## One value below the root -/

mutual

/-- The arrays and objects are those of the schema. -/
def Fits (schema : JsonSchema) : Data → Prop
  | .scalar _ => True
  | .array items =>
      (∃ element, schema.items = some (.inl element)) ∧
        FitsItems schema.element items
  | .object entries =>
      schema.properties.isSome ∧ FitsEntries schema entries

def FitsItems (schema : JsonSchema) : List Data → Prop
  | [] => True
  | value :: values => Fits schema value ∧ FitsItems schema values

def FitsEntries (schema : JsonSchema) : List (String × Data) → Prop
  | [] => True
  | (key, value) :: entries =>
      ((schema.properties.getD []).lookup key).isSome ∧
        Fits (schema.member key) value ∧ FitsEntries schema entries

end

mutual

theorem Conforms.fits {schema : JsonSchema} :
    ∀ {data : Data}, Conforms schema data → Fits schema data
  | .scalar _, _ => trivial
  | .array _, ⟨items, all⟩ => ⟨items, ConformsItems.fits all⟩
  | .object _, ⟨properties, all⟩ => ⟨properties, ConformsEntries.fits all⟩

theorem ConformsItems.fits {schema : JsonSchema} :
    ∀ {values : List Data}, ConformsItems schema values →
      FitsItems schema values
  | [], _ => trivial
  | _ :: _, ⟨first, rest⟩ => ⟨first.fits, ConformsItems.fits rest⟩

theorem ConformsEntries.fits {schema : JsonSchema} :
    ∀ {entries : List (String × Data)}, ConformsEntries schema entries →
      FitsEntries schema entries
  | [], _ => trivial
  | _ :: _, ⟨known, first, rest⟩ =>
      ⟨known, first.fits, ConformsEntries.fits rest⟩

end

mutual

/-- The number of containers and entries, in which a scalar is less than an
empty container. -/
def Data.size : Data → Nat
  | .scalar _ => 1
  | .array items => 2 + sizeItems items
  | .object entries => 2 + sizeEntries entries

def sizeItems : List Data → Nat
  | [] => 0
  | value :: values => value.size + sizeItems values

def sizeEntries : List (String × Data) → Nat
  | [] => 0
  | (_, value) :: entries => value.size + sizeEntries entries

end

theorem Data.size_pos (data : Data) : 1 ≤ data.size := by
  cases data with
  | scalar => exact Nat.le_refl 1
  | array | object =>
      rw [Data.size]
      omega

theorem convertScalarValue_scalar (value : Scalar) (type : Option String)
    (format : DataFormat) :
    ∃ result, convertScalarValue (.scalar value) type format =
      .scalar result := by
  have number (kind : FMT_NUMBER) : ∃ result,
      (convertNumber (.scalar value) kind).getD (.scalar value) =
        .scalar result := by
    rw [convertNumber]
    cases toBigInt (.scalar value) with
    | none => exact ⟨value, rfl⟩
    | some integer => cases kind <;> exact ⟨_, rfl⟩
  have bytes (size : Option (Option Int)) (kind : FMT_BYTES) : ∃ result,
      (convertBytes (.scalar value) size kind).getD (.scalar value) =
        .scalar result := by
    cases written : convertBytes (.scalar value) size kind with
    | none => exact ⟨value, rfl⟩
    | some result =>
        simp only [convertBytes, Option.bind_eq_bind,
          Option.bind_eq_some_iff] at written
        obtain ⟨padded, _, content, _, last⟩ := written
        cases kind with
        | HEX | UINT8ARRAY =>
            cases last
            exact ⟨_, rfl⟩
  rw [convertScalarValue]
  split
  · exact ⟨value, rfl⟩
  · split
    · exact number _
    · exact number _
    · exact bytes _ _
    · exact ⟨value, rfl⟩

theorem descend_member {schema : JsonSchema} {key : String}
    (properties : schema.properties.isSome)
    (known : ((schema.properties.getD []).lookup key).isSome) :
    schema.descend key = some (schema.member key) := by
  obtain ⟨entries, declared⟩ := Option.isSome_iff_exists.mp properties
  obtain ⟨found, lookup⟩ := Option.isSome_iff_exists.mp known
  rw [JsonSchema.descend, JsonSchema.member, lookup, declared]
  rw [declared, Option.getD_some] at lookup
  simp [JsonSchema.property, lookup]

/-- The properties of the elements are found below the array itself. -/
theorem descend_element_member {found schema : JsonSchema} {key : String}
    (array : found.properties = none)
    (items : found.items = some (.inl schema))
    (properties : schema.properties.isSome)
    (known : ((schema.properties.getD []).lookup key).isSome) :
    found.descend key = some (schema.member key) := by
  obtain ⟨entries, declared⟩ := Option.isSome_iff_exists.mp properties
  obtain ⟨inner, lookup⟩ := Option.isSome_iff_exists.mp known
  rw [JsonSchema.descend, array, items, JsonSchema.member, lookup]
  rw [declared, Option.getD_some] at lookup
  simp [declared, JsonSchema.property, lookup]

theorem selectOneOf_of_none {schema : JsonSchema}
    (single : schema.oneOf = none) (value : List Data) :
    selectOneOf schema value = (schema, []) := by
  rw [selectOneOf, single]
  rfl

/-- Under a schema for scalars all elements are scalars. -/
theorem FitsItems.map (format : DataFormat) {schema : JsonSchema}
    (leaf : schema.properties = none ∧ schema.items = none) :
    ∀ {values : List Data}, FitsItems schema values →
      values.map (fun value => convertScalarValue value schema.format format) =
          convertedItems format schema values ∧
        sizeItems (values.map fun value =>
          convertScalarValue value schema.format format) = sizeItems values
  | [], _ => ⟨rfl, rfl⟩
  | .scalar value :: values, ⟨_, rest⟩ => by
      obtain ⟨same, size⟩ := FitsItems.map format leaf rest
      obtain ⟨result, scalar⟩ :=
        convertScalarValue_scalar value schema.format format
      constructor
      · rw [List.map_cons, same, convertedItems, converted]
      · rw [List.map_cons, sizeItems, size, scalar, sizeItems, Data.size,
          Data.size]
  | .array _ :: _, ⟨⟨⟨_, items⟩, _⟩, _⟩ => by
      rw [leaf.2] at items
      cases items
  | .object _ :: _, ⟨⟨properties, _⟩, _⟩ => by
      rw [leaf.1] at properties
      cases properties

section Below

variable {root : JsonSchema} (format : DataFormat)

mutual

/-- One round of the loop, where the walk finds the schema of the value. -/
theorem convertProperty_spec {dataPath : List String}
    {found schema : JsonSchema} {key : String}
    (finds : Finds root dataPath found)
    (container : found.properties.isSome ∨ found.items.isSome)
    (descends : found.descend key = some schema) (built : Built schema) :
    ∀ value, Fits schema value →
      ∃ result,
        convertProperty root format dataPath [] key value =
            .ok (some result, []) ∧
          (result = converted format schema value ↔
            Covered format schema value) ∧
          result.size = value.size
  | .scalar value, _ => by
      have step := finds.step container key
      rw [descends] at step
      obtain ⟨result, scalar⟩ :=
        convertScalarValue_scalar value schema.format format
      refine ⟨convertScalarValue (.scalar value) schema.format format,
        ?_, ?_, ?_⟩
      · rw [convertProperty, step]
        rfl
      · rw [converted, Covered]
        simp
      · rw [scalar, Data.size, Data.size]
  | .object entries, ⟨properties, fits⟩ => by
      have step := finds.step container key
      rw [descends] at step
      obtain ⟨results, carried, exact, size⟩ :=
        convertEntries_spec step (Or.inl properties)
          (fun key known => descend_member properties known) built entries fits
      refine ⟨.object results, ?_, ?_, ?_⟩
      · simp only [convertProperty, step, bind, Except.bind, carried]
      · rw [converted, Covered, ← exact]
        simp
      · rw [Data.size, Data.size, size]
  | .array items, ⟨⟨element, declared⟩, fits⟩ => by
      have step := finds.step container key
      rw [descends] at step
      obtain ⟨unformatted, plain, builtElement⟩ :=
        built.format_of_items declared
      have same : schema.element = element := by
        rw [JsonSchema.element, declared]
      rw [same] at fits
      have select := selectOneOf_of_none built.oneOf items
      rw [converted, Covered, same]
      simp only [convertProperty, step, select, declared, bind, Except.bind,
        List.map_nil, List.append_nil]
      by_cases leaf : element.format.isSome
      · obtain ⟨all, size⟩ := FitsItems.map format
          (builtElement.of_format leaf) fits
        rw [if_pos leaf, if_pos leaf]
        refine ⟨_, rfl, ?_, ?_⟩
        · simp [all]
        · rw [Data.size, Data.size, size]
      · rw [if_neg leaf, if_neg leaf]
        by_cases objects : element.type = some "object"
        · rw [if_pos objects, if_pos objects]
          obtain ⟨results, carried, exact, size⟩ :=
            convertItems_spec step plain declared
              (builtElement.of_type leaf objects).1 builtElement items fits
          rw [carried]
          refine ⟨_, rfl, ?_, ?_⟩
          · rw [← exact]
            simp
          · rw [Data.size, Data.size, size]
        · rw [if_neg objects, if_neg objects, unformatted,
            convertScalarValue_none]
          refine ⟨_, rfl, ?_, rfl⟩
          rw [Data.array.injEq]
          exact eq_comm

theorem convertEntries_spec {dataPath : List String}
    {found schema : JsonSchema}
    (finds : Finds root dataPath found)
    (container : found.properties.isSome ∨ found.items.isSome)
    (descends : ∀ key, ((schema.properties.getD []).lookup key).isSome →
      found.descend key = some (schema.member key))
    (built : Built schema) :
    ∀ entries, FitsEntries schema entries →
      ∃ results,
        convertEntries root format dataPath [] entries = .ok (results, []) ∧
          (results = convertedEntries format schema entries ↔
            CoveredEntries format schema entries) ∧
          sizeEntries results = sizeEntries entries
  | [], _ => ⟨[], rfl, by simp [convertedEntries, CoveredEntries], rfl⟩
  | (key, value) :: entries, ⟨known, first, rest⟩ => by
      obtain ⟨result, carried, exact, size⟩ :=
        convertProperty_spec finds container (descends key known)
          (built.member known) value first
      obtain ⟨results, others, exactRest, sizeRest⟩ :=
        convertEntries_spec finds container descends built entries rest
      refine ⟨(key, result) :: results, ?_, ?_, ?_⟩
      · simp only [convertEntries, carried, others, bind, Except.bind]
      · rw [convertedEntries, CoveredEntries, ← exact, ← exactRest]
        simp
      · rw [sizeEntries, sizeEntries, size, sizeRest]

theorem convertItems_spec {dataPath : List String}
    {found schema : JsonSchema}
    (finds : Finds root dataPath found) (array : found.properties = none)
    (items : found.items = some (.inl schema))
    (properties : schema.properties.isSome) (built : Built schema) :
    ∀ values, FitsItems schema values →
      ∃ results,
        convertItems root format dataPath [] values = .ok (results, []) ∧
          (results = convertedItems format schema values ↔
            CoveredItems format schema values) ∧
          sizeItems results = sizeItems values
  | [], _ => ⟨[], rfl, by simp [convertedItems, CoveredItems], rfl⟩
  | .scalar value :: values, ⟨_, rest⟩ => by
      obtain ⟨results, others, exact, size⟩ :=
        convertItems_spec finds array items properties built values rest
      refine ⟨.scalar value :: results, ?_, ?_, ?_⟩
      · simp only [convertItems, others, bind, Except.bind]
      · rw [convertedItems, CoveredItems, ← exact, converted, Covered,
          (built.format_of_properties properties).1, convertScalarValue_none]
        simp
      · rw [sizeItems, sizeItems, size]
  | .array _ :: _, ⟨⟨⟨_, declared⟩, _⟩, _⟩ => by
      rw [(built.format_of_properties properties).2] at declared
      cases declared
  | .object entries :: values, ⟨⟨_, fits⟩, rest⟩ => by
      obtain ⟨result, carried, exact, size⟩ :=
        convertEntries_spec finds (Or.inr (by rw [items]; rfl))
          (fun key known =>
            descend_element_member array items properties known)
          built entries fits
      obtain ⟨results, others, exactRest, sizeRest⟩ :=
        convertItems_spec finds array items properties built values rest
      refine ⟨.object result :: results, ?_, ?_, ?_⟩
      · simp only [convertItems, convert, carried, others, bind, Except.bind]
      · rw [convertedItems, CoveredItems, ← exactRest, converted, Covered,
          ← exact]
        simp
      · rw [sizeItems, sizeItems, sizeRest, Data.size, Data.size, size]

end

end Below

/-! ## The copy -/

mutual

theorem mergeDeep_size : ∀ entries : List (String × Data),
    sizeEntries (mergeDeep entries) ≤ sizeEntries entries ∧
      (sizeEntries (mergeDeep entries) = sizeEntries entries →
        Merges entries)
  | [] => by
      rw [mergeDeep]
      exact ⟨Nat.le_refl _, fun _ => trivial⟩
  | (key, value) :: entries => by
      obtain ⟨bound, exact⟩ := mergeDeep_size entries
      have positive : 1 ≤ value.size := Data.size_pos value
      rw [mergeDeep, sizeEntries]
      by_cases forbidden : key ∈ forbiddenKeys
      · rw [if_pos forbidden]
        constructor
        · omega
        · intro same
          omega
      · rw [if_neg forbidden]
        have copied := mergeValue_size key value
        cases copy : mergeValue key value with
        | none =>
            simp only
            constructor
            · omega
            · intro same
              omega
        | some result =>
            obtain ⟨smaller, whole⟩ := copied result copy
            simp only [sizeEntries]
            constructor
            · omega
            · intro same
              exact ⟨forbidden, whole (by omega), exact (by omega)⟩

theorem mergeValue_size (key : String) : ∀ (value result : Data),
    mergeValue key value = some result →
      result.size ≤ value.size ∧
        (result.size = value.size → MergesValue key value)
  | .scalar value, result, copy => by
      rw [mergeValue] at copy
      by_cases nullish : value = .undefined ∨ value = .null
      · rw [if_pos nullish] at copy
        cases copy
      · rw [if_neg nullish] at copy
        cases copy
        exact ⟨Nat.le_refl _, fun _ => not_or.mp nullish⟩
  | .array items, result, copy => by
      rw [mergeValue] at copy
      cases copy
      exact ⟨Nat.le_refl _, fun _ => trivial⟩
  | .object entries, result, copy => by
      obtain ⟨bound, exact⟩ := mergeDeep_size entries
      rw [mergeValue] at copy
      by_cases inherited : key ∈ inheritedKeys
      · rw [if_pos inherited] at copy
        cases copy
        simp only [Data.size]
        constructor
        · omega
        · intro same
          omega
      · rw [if_neg inherited] at copy
        cases copy
        simp only [Data.size]
        constructor
        · omega
        · intro same
          exact ⟨inherited, exact (by omega)⟩

end

mutual

theorem Merges.same : ∀ {entries : List (String × Data)},
    Merges entries → mergeDeep entries = entries
  | [], _ => by rw [mergeDeep]
  | (key, value) :: entries, ⟨allowed, copied, rest⟩ => by
      rw [mergeDeep, if_neg allowed, MergesValue.same copied,
        Merges.same rest]

theorem MergesValue.same {key : String} : ∀ {value : Data},
    MergesValue key value → mergeValue key value = some value
  | .scalar value, whole => by
      rw [mergeValue, if_neg (not_or.mpr whole)]
  | .array items, _ => by rw [mergeValue]
  | .object entries, ⟨own, merges⟩ => by
      rw [mergeValue, if_neg own, Merges.same merges]

end

mutual

theorem mergeDeep_fits {schema : JsonSchema} :
    ∀ {entries : List (String × Data)}, FitsEntries schema entries →
      FitsEntries schema (mergeDeep entries)
  | [], _ => by
      rw [mergeDeep]
      trivial
  | (key, value) :: entries, ⟨known, first, rest⟩ => by
      have others := mergeDeep_fits rest
      rw [mergeDeep]
      by_cases forbidden : key ∈ forbiddenKeys
      · rw [if_pos forbidden]
        exact others
      · rw [if_neg forbidden]
        cases copy : mergeValue key value with
        | none => exact others
        | some result => exact ⟨known, mergeValue_fits first copy, others⟩

theorem mergeValue_fits {schema : JsonSchema} {key : String} :
    ∀ {value result : Data}, Fits schema value →
      mergeValue key value = some result → Fits schema result
  | .scalar value, result, _, copy => by
      rw [mergeValue] at copy
      by_cases nullish : value = .undefined ∨ value = .null
      · rw [if_pos nullish] at copy
        cases copy
      · rw [if_neg nullish] at copy
        cases copy
        trivial
  | .array items, result, fits, copy => by
      rw [mergeValue] at copy
      cases copy
      exact fits
  | .object entries, result, ⟨properties, fits⟩, copy => by
      rw [mergeValue] at copy
      by_cases inherited : key ∈ inheritedKeys
      · rw [if_pos inherited] at copy
        cases copy
        trivial
      · rw [if_neg inherited] at copy
        cases copy
        exact ⟨properties, mergeDeep_fits fits⟩

end

mutual

theorem converted_size (format : DataFormat) (schema : JsonSchema) :
    ∀ data, (converted format schema data).size = data.size
  | .scalar value => by
      obtain ⟨result, scalar⟩ :=
        convertScalarValue_scalar value schema.format format
      rw [converted, scalar, Data.size, Data.size]
  | .array items => by
      rw [converted, Data.size, Data.size, convertedItems_size]
  | .object entries => by
      rw [converted, Data.size, Data.size, convertedEntries_size]

theorem convertedItems_size (format : DataFormat) (schema : JsonSchema) :
    ∀ values, sizeItems (convertedItems format schema values) =
      sizeItems values
  | [] => by rw [convertedItems]
  | value :: values => by
      rw [convertedItems, sizeItems, sizeItems, converted_size,
        convertedItems_size]

theorem convertedEntries_size (format : DataFormat) (schema : JsonSchema) :
    ∀ entries, sizeEntries (convertedEntries format schema entries) =
      sizeEntries entries
  | [] => by rw [convertedEntries]
  | (key, value) :: entries => by
      rw [convertedEntries, sizeEntries, sizeEntries, converted_size,
        convertedEntries_size]

end

/-! ## The root -/

section Root

variable {root : JsonSchema} (returnFormat : DataFormat)

/-- The elements of an array at the top, where the walk takes the index for a
part of the path. -/
theorem convertElements_spec (built : Built root) {element : JsonSchema}
    (items : root.items = some (.inl element))
    (plain : element.properties = none) :
    ∀ (index : Nat) (values : List Data), FitsItems element values →
      ∃ results,
        convertElements root returnFormat [] [] index values =
            .ok (results, []) ∧
          (results = convertedItems returnFormat element values ↔
            CoveredItems returnFormat element values)
  | _, [], _ => ⟨[], rfl, by simp [convertedItems, CoveredItems]⟩
  | index, value :: values, ⟨first, rest⟩ => by
      obtain ⟨_, array, builtElement⟩ := built.format_of_items items
      have descends : root.descend (toString index) = some element := by
        simp only [JsonSchema.descend, array, items, plain]
      obtain ⟨result, carried, exact, _⟩ :=
        convertProperty_spec returnFormat (finds_root root)
          (Or.inr (by rw [items]; rfl)) descends builtElement value first
      obtain ⟨results, others, exactRest⟩ :=
        convertElements_spec built items plain (index + 1) values rest
      refine ⟨result :: results, ?_, ?_⟩
      · simp only [convertElements, carried, others, bind, Except.bind,
          Option.getD_some]
      · rw [convertedItems, CoveredItems, ← exact, ← exactRest]
        simp

theorem format_scalar (built : Built root) {value : Scalar}
    (conforms : Conforms root (.scalar value)) :
    format root (.scalar value) returnFormat =
        .ok (converted returnFormat root (.scalar value)) ↔
      Reached returnFormat root (.scalar value) := by
  obtain ⟨name, named⟩ := Option.isSome_iff_exists.mp conforms.1
  obtain ⟨plain, single⟩ := built.of_format conforms.1
  rw [Reached, named, converted, named]
  simp only [format, plain, single, named, convert, bind, Except.bind]
  by_cases empty : name = ""
  · simp [empty]
  · simp [empty]

theorem format_object (built : Built root) {entries : List (String × Data)}
    (conforms : Conforms root (.object entries)) :
    format root (.object entries) returnFormat =
        .ok (converted returnFormat root (.object entries)) ↔
      Reached returnFormat root (.object entries) := by
  obtain ⟨properties, fits⟩ := conforms.fits
  obtain ⟨results, carried, exact, size⟩ :=
    convertEntries_spec returnFormat (finds_root root)
      (Or.inl properties)
      (fun key known => descend_member properties known) built _
      (mergeDeep_fits fits)
  have inner : root.properties.isNone = false := by
    rw [Option.isNone_eq_false_iff]
    exact properties
  have result : format root (.object entries) returnFormat =
      .ok (.object results) := by
    simp only [format, inner, Bool.false_and, convert, carried, bind,
      Except.bind, Bool.false_eq_true, if_false]
  rw [result, converted, Reached, Except.ok.injEq, Data.object.injEq]
  constructor
  · intro same
    have whole : Merges entries := by
      refine (mergeDeep_size entries).2 ?_
      rw [← size, same, convertedEntries_size]
    rw [whole.same] at exact
    exact ⟨whole, exact.mp same⟩
  · rintro ⟨whole, covered⟩
    rw [whole.same] at exact
    exact exact.mpr covered

/-- A value for which the walk finds no schema is deleted. -/
theorem convertProperty_lost {dataPath : List String} {found : JsonSchema}
    {key : String} (finds : Finds root dataPath found)
    (container : found.properties.isSome ∨ found.items.isSome)
    (lost : found.descend key = none) (value : Data) :
    convertProperty root returnFormat dataPath [] key value =
      .ok (none, []) := by
  have step := finds.step container key
  rw [lost] at step
  cases value with
  | scalar | array | object =>
      simp only [convertProperty, step, bind, Except.bind]

theorem format_array (built : Built root) {items : List Data}
    (conforms : Conforms root (.array items)) :
    (Reached returnFormat root (.array items) →
      format root (.array items) returnFormat =
        .ok (converted returnFormat root (.array items))) ∧
    ((∀ index : Nat, JsonSchema.property
        (root.element.properties.getD []) (toString index) = none) →
      format root (.array items) returnFormat =
        .ok (converted returnFormat root (.array items)) →
      Reached returnFormat root (.array items)) := by
  obtain ⟨⟨element, declared⟩, fits⟩ := conforms.fits
  obtain ⟨_, array, builtElement⟩ := built.format_of_items declared
  have same : root.element = element := by
    rw [JsonSchema.element, declared]
  rw [same] at fits ⊢
  have result : format root (.array items) returnFormat =
      (convertElements root returnFormat [] [] 0 items).map
        fun results => .array results.1 := by
    simp only [format, declared, Option.isNone_some, Bool.and_false,
      Bool.false_and, convert, bind, Except.bind]
    cases convertElements root returnFormat [] [] 0 items <;> rfl
  rw [result, converted, Reached, same]
  by_cases objects : element.properties.isSome
  · rw [if_pos objects]
    constructor
    · rintro rfl
      rfl
    · intro unindexed carried
      cases items with
      | nil => rfl
      | cons value values =>
          exfalso
          obtain ⟨entries, node⟩ := Option.isSome_iff_exists.mp objects
          have lost : root.descend (toString 0) = none := by
            have unnamed := unindexed 0
            rw [node, Option.getD_some] at unnamed
            simp only [JsonSchema.descend, array, declared, node, unnamed]
          have deleted := convertProperty_lost returnFormat (finds_root root)
            (Or.inr (by rw [declared]; rfl)) lost value
          simp only [convertElements, deleted, bind, Except.bind,
            Option.getD_none] at carried
          cases rest : convertElements root returnFormat [] [] (0 + 1) values
            with
          | error message =>
              rw [rest] at carried
              cases carried
          | ok others =>
              rw [rest, convertedItems] at carried
              simp only [Except.map, Except.ok.injEq, Data.array.injEq,
                List.cons.injEq] at carried
              cases value with
              | scalar value =>
                  have leaf := conforms.2.1.1
                  rw [same, (builtElement.format_of_properties objects).1]
                    at leaf
                  cases leaf
              | array | object =>
                  rw [converted] at carried
                  cases carried.1
  · rw [if_neg objects]
    have plain : element.properties = none := by
      simpa using objects
    obtain ⟨results, carried, exact⟩ :=
      convertElements_spec returnFormat built declared plain
        0 items fits
    rw [carried]
    constructor
    · intro covered
      rw [← exact.mpr covered]
      rfl
    · intro _ same
      refine exact.mp ?_
      simpa [Except.map] using same

end Root

/-- Formatting converts every scalar and nothing else when it reaches them
all, and else does not; the second unless the objects of an array at the top
have a property with the name of an index. -/
theorem format_reaches (root : JsonSchema) (built : Built root) (data : Data)
    (conforms : Conforms root data) (returnFormat : DataFormat) :
    (Reached returnFormat root data →
      format root data returnFormat = .ok (converted returnFormat root data)) ∧
    ((∀ index : Nat, JsonSchema.property
        (root.element.properties.getD []) (toString index) = none) →
      format root data returnFormat = .ok (converted returnFormat root data) →
      Reached returnFormat root data) := by
  cases data with
  | scalar value =>
      have exact := format_scalar returnFormat built conforms
      exact ⟨exact.mpr, fun _ => exact.mp⟩
  | object entries =>
      have exact := format_object returnFormat built conforms
      exact ⟨exact.mpr, fun _ => exact.mp⟩
  | array items => exact format_array returnFormat built conforms

/-- Properties of a fee history: an integer, an integer for each block and an
array of integers for each block. -/
def feeHistory : JsonSchema :=
  ⟨some "object", none,
    some
      [("oldestBlock", ⟨none, some "uint", none, none, none⟩),
        ("baseFeePerGas", ⟨some "array", none, none,
          some (.inl ⟨none, some "uint", none, none, none⟩), none⟩),
        ("reward", ⟨some "array", none, none,
          some (.inl ⟨some "array", none, none,
            some (.inl ⟨none, some "uint", none, none, none⟩), none⟩),
          none⟩)],
    none, none⟩

theorem built_feeHistory : Built feeHistory := by
  refine .object (Or.inr rfl) ?_
  intro entry member
  rcases List.mem_cons.mp member with rfl | later
  · exact .scalar none "uint"
  · rcases List.mem_cons.mp later with rfl | last
    · exact .array (Or.inr rfl) (.scalar none "uint")
    · obtain rfl := List.mem_singleton.mp last
      exact .array (Or.inr rfl) (.array (Or.inr rfl) (.scalar none "uint"))

theorem format_reaches_feeHistory :
    format feeHistory
        (.object [("oldestBlock", .scalar (.number 1)),
          ("baseFeePerGas", .array
            [.scalar (.bigint 16), .scalar (.text "0x3")])])
        ⟨.HEX, .HEX⟩ =
      .ok (.object [("oldestBlock", .scalar (.text "0x1")),
        ("baseFeePerGas", .array
          [.scalar (.text "0x10"), .scalar (.text "0x3")])]) :=
  (format_reaches feeHistory built_feeHistory
    (.object [("oldestBlock", .scalar (.number 1)),
      ("baseFeePerGas", .array
        [.scalar (.bigint 16), .scalar (.text "0x3")])])
    ⟨rfl, rfl, ⟨rfl, by simp⟩, rfl, ⟨⟨_, rfl⟩, ⟨rfl, by simp⟩,
      ⟨rfl, by simp⟩, trivial⟩, trivial⟩ ⟨.HEX, .HEX⟩).1
    ⟨⟨by decide, by simp [MergesValue], by decide, trivial, trivial⟩, trivial,
      trivial, trivial⟩

/-- The rewards of a block are the elements of an array of arrays and stay as
they are. -/
theorem not_format_reaches :
    ¬ ∀ root, Built root → ∀ data, Conforms root data → ∀ returnFormat,
      format root data returnFormat =
        .ok (converted returnFormat root data) := by
  intro claim
  have same := claim feeHistory built_feeHistory
    (.object [("reward", .array [.array [.scalar (.number 1)]])])
    ⟨rfl, rfl, ⟨⟨_, rfl⟩, ⟨⟨_, rfl⟩, ⟨rfl, by simp⟩, trivial⟩, trivial⟩,
      trivial⟩
    ⟨.HEX, .HEX⟩
  have left : format feeHistory
      (.object [("reward", .array [.array [.scalar (.number 1)]])])
        ⟨.HEX, .HEX⟩ =
      .ok (.object [("reward", .array [.array [.scalar (.number 1)]])]) :=
    rfl
  have right : converted ⟨.HEX, .HEX⟩ feeHistory
      (.object [("reward", .array [.array [.scalar (.number 1)]])]) =
      .object [("reward", .array [.array [.scalar (.text "0x1")]])] :=
    rfl
  rw [left, right] at same
  simp at same

end Web3Js.Format
