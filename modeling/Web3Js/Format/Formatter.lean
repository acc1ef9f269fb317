import Web3Js.Format.Conversion

/-!
# Formatting by a schema

The sub-schema of a value is found by walking the path of its keys from the
root of the schema.  The elements of an array have no part of the path, except
those of an array at the top, whose indices are the first part.
-/

namespace Web3Js.Format

structure JsonSchema where
  type : Option String
  format : Option String
  properties : Option (List (String × JsonSchema))
  /-- One schema for all elements, or one for each. -/
  items : Option (JsonSchema ⊕ List JsonSchema)
  oneOf : Option (List JsonSchema)

/-- The properties that every object inherits. -/
def inheritedKeys : List String :=
  ["constructor", "__defineGetter__", "__defineSetter__", "hasOwnProperty",
    "__lookupGetter__", "__lookupSetter__", "isPrototypeOf",
    "propertyIsEnumerable", "toString", "valueOf", "__proto__",
    "toLocaleString"]

/-- `FORBIDDEN_KEYS` -/
def forbiddenKeys : List String :=
  ["__proto__", "constructor", "prototype"]

/-- The choices among alternatives, each with the key it was made at. -/
abbrev OneOfPath := List (String × Nat)

namespace JsonSchema

def empty : JsonSchema := ⟨none, none, none, none, none⟩

/-- A property of `properties`; what objects inherit has none of the keys of a
schema. -/
def property (properties : List (String × JsonSchema)) (key : String) :
    Option JsonSchema :=
  match properties.lookup key with
  | some schema => some schema
  | none => if key ∈ inheritedKeys then some empty else none

/-- One part of the path, below a schema that has been chosen. -/
def descend (result : JsonSchema) (dataPart : String) : Option JsonSchema :=
  match result.properties, result.items with
  | some properties, _ => property properties dataPart
  | none, some (.inl items) =>
      match items.properties with
      | some node => property node dataPart
      | none => some items
  | none, some (.inr schemas) =>
      (Validator.parseInt dataPart.toList).bind fun index =>
        if index < 0 then none else schemas[index.toNat]?
  | none, none => none

/-- The alternative that was chosen at the part of the path before. -/
def chosen (result : JsonSchema) (oneOfPath : OneOfPath)
    (previousDataPath : Option String) : Except String JsonSchema :=
  match result.oneOf, previousDataPath with
  | some alternatives, some previous =>
      match oneOfPath.lookup previous with
      | some index =>
          match alternatives[index]? with
          | some alternative => .ok alternative
          -- The choice was made at the same key of another schema.
          | none =>
              .error "Cannot read properties of undefined (reading 'properties')"
      | none => .ok result
  | _, _ => .ok result

end JsonSchema

/-- `findSchemaByDataPath` from a schema on, with the part of the path before
it. -/
def findSchemaFrom (oneOfPath : OneOfPath) :
    (result : JsonSchema) → (previousDataPath : Option String) →
    List String → Except String (Option JsonSchema)
  | result, _, [] => .ok (some result)
  | result, previousDataPath, dataPart :: dataPath => do
      let result ← result.chosen oneOfPath previousDataPath
      if result.properties.isNone && result.items.isNone then .ok none
      else
        match result.descend dataPart with
        | some next =>
            findSchemaFrom oneOfPath next
              (if dataPart = "" then previousDataPath else some dataPart)
              dataPath
        | none =>
            if dataPath = [] then .ok none
            else .error "Cannot read properties of undefined (reading 'oneOf')"

def findSchemaByDataPath (schema : JsonSchema) (dataPath : List String)
    (oneOfPath : OneOfPath) : Except String (Option JsonSchema) :=
  findSchemaFrom oneOfPath schema none dataPath

/-- `typeof value[0]` is `'object'`. -/
def startsWithObject : List Data → Bool
  | .scalar .null :: _ | .scalar (.bytes _) :: _ => true
  | .array _ :: _ | .object _ :: _ => true
  | _ => false

def startsWithString : List Data → Bool
  | .scalar (.text _) :: _ => true
  | _ => false

/-- `(schema?.items as JsonSchema)?.type` is `'object'`. -/
def JsonSchema.hasObjectItems (schema : JsonSchema) : Bool :=
  match schema.items with
  | some (.inl items) => items.type == some "object"
  | _ => false

/-- The last alternative that suits an array, and the indices of all that
do. -/
def selectOneOf (schemaProp : JsonSchema) (value : List Data) :
    JsonSchema × List Nat :=
  let isTuple := match schemaProp.items with
    | some (.inr _) => true
    | _ => false
  (schemaProp.oneOf.getD []).zipIdx.foldl
    (fun selected alternative =>
      if !isTuple &&
          ((startsWithObject value && alternative.1.hasObjectItems) ||
            (startsWithString value && !alternative.1.hasObjectItems)) then
        (alternative.1, selected.2 ++ [alternative.2])
      else selected)
    (schemaProp, [])

/-- The elements of an array under a schema for each. -/
def convertTuple (format : DataFormat) :
    List JsonSchema → List Data → Except String (List Data)
  | _, [] => .ok []
  | [], _ :: _ =>
      .error "Cannot read properties of undefined (reading 'format')"
  | schema :: schemas, value :: values => do
      let values ← convertTuple format schemas values
      .ok (convertScalarValue value schema.format format :: values)

section Convert

variable (schema : JsonSchema) (format : DataFormat)

mutual

/-- `convert`, which also returns the choices it appended to `oneOfPath`. -/
def convert (dataPath : List String) (oneOfPath : OneOfPath) :
    Data → Except String (Data × OneOfPath)
  | .scalar value =>
      .ok (convertScalarValue (.scalar value) schema.format format, oneOfPath)
  | .object entries => do
      let (entries, oneOfPath) ← convertEntries dataPath oneOfPath entries
      .ok (.object entries, oneOfPath)
  | .array items => do
      let (items, oneOfPath) ← convertElements dataPath oneOfPath 0 items
      .ok (.array items, oneOfPath)

/-- The loop over the properties of an object. -/
def convertEntries (dataPath : List String) (oneOfPath : OneOfPath) :
    List (String × Data) → Except String (List (String × Data) × OneOfPath)
  | [] => .ok ([], oneOfPath)
  | (key, value) :: entries => do
      let (value, oneOfPath) ← convertProperty dataPath oneOfPath key value
      let (entries, oneOfPath) ← convertEntries dataPath oneOfPath entries
      match value with
      | some value => .ok ((key, value) :: entries, oneOfPath)
      | none => .ok (entries, oneOfPath)

/-- The loop over the elements of an array, from an index on. -/
def convertElements (dataPath : List String) (oneOfPath : OneOfPath)
    (index : Nat) : List Data → Except String (List Data × OneOfPath)
  | [] => .ok ([], oneOfPath)
  | value :: values => do
      let (value, oneOfPath) ←
        convertProperty dataPath oneOfPath (toString index) value
      let (values, oneOfPath) ←
        convertElements dataPath oneOfPath (index + 1) values
      .ok (value.getD (.scalar .hole) :: values, oneOfPath)

/-- One round of the loop; without a value the property is deleted. -/
def convertProperty (dataPath : List String) (oneOfPath : OneOfPath)
    (key : String) : Data → Except String (Option Data × OneOfPath)
  | .scalar value => do
      match ← findSchemaByDataPath schema (dataPath ++ [key]) oneOfPath with
      | none => .ok (none, oneOfPath)
      | some schemaProp =>
          .ok (some (convertScalarValue (.scalar value) schemaProp.format
            format), oneOfPath)
  | .object entries => do
      match ← findSchemaByDataPath schema (dataPath ++ [key]) oneOfPath with
      | none => .ok (none, oneOfPath)
      | some _ =>
          -- The recursive call starts without the choices made so far.
          let (entries, _) ← convertEntries (dataPath ++ [key]) [] entries
          .ok (some (.object entries), oneOfPath)
  | .array items => do
      match ← findSchemaByDataPath schema (dataPath ++ [key]) oneOfPath with
      | none => .ok (none, oneOfPath)
      | some schemaProp =>
          let selected := selectOneOf schemaProp items
          let oneOfPath := oneOfPath ++ selected.2.map fun index => (key, index)
          match selected.1.items with
          | none => .ok (none, oneOfPath)
          | some (.inr schemas) =>
              let items ← convertTuple format schemas items
              .ok (some (.array items), oneOfPath)
          | some (.inl itemSchema) =>
              if itemSchema.format.isSome then
                .ok (some (.array (items.map fun value =>
                  convertScalarValue value itemSchema.format format)),
                  oneOfPath)
              else if itemSchema.type = some "object" then
                let (items, oneOfPath) ←
                  convertItems (dataPath ++ [key]) oneOfPath items
                .ok (some (.array items), oneOfPath)
              else
                .ok (some (convertScalarValue (.array items) schemaProp.format
                  format), oneOfPath)

/-- The loop over the objects of an array; a value that is neither an object
nor an array cannot be changed. -/
def convertItems (dataPath : List String) (oneOfPath : OneOfPath) :
    List Data → Except String (List Data × OneOfPath)
  | [] => .ok ([], oneOfPath)
  | .scalar value :: values => do
      let (values, oneOfPath) ← convertItems dataPath oneOfPath values
      .ok (.scalar value :: values, oneOfPath)
  | value :: values => do
      let (value, oneOfPath) ← convert dataPath oneOfPath value
      let (values, oneOfPath) ← convertItems dataPath oneOfPath values
      .ok (value :: values, oneOfPath)

end

end Convert

mutual

/-- `mergeDeep({}, entries)` -/
def mergeDeep : List (String × Data) → List (String × Data)
  | [] => []
  | (key, value) :: entries =>
      if key ∈ forbiddenKeys then mergeDeep entries
      else
        match mergeValue key value with
        | some copy => (key, copy) :: mergeDeep entries
        | none => mergeDeep entries

/-- The value of one key of the copy.  What the copy inherits under the key
stands in for an object. -/
def mergeValue (key : String) : Data → Option Data
  | .object entries =>
      if key ∈ inheritedKeys then some (.scalar (.function key))
      else some (.object (mergeDeep entries))
  | .scalar value =>
      if value = .undefined ∨ value = .null then none
      else some (.scalar value)
  | .array items => some (.array items)

end

/-- `format` with a schema that is a JSON schema. -/
def format (schema : JsonSchema) (data : Data) (returnFormat : DataFormat) :
    Except String Data := do
  let dataToParse := match data with
    | .object entries => .object (mergeDeep entries)
    | data => data
  if schema.properties.isNone && schema.items.isNone &&
      (schema.format.getD "").isEmpty then
    .error "Invalid json schema for formatting"
  else
    let (result, _) ← convert schema returnFormat [] [] dataToParse
    .ok result

end Web3Js.Format
