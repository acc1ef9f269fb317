import Web3Js.Format.Formatter
import Web3Js.Lib.Program

/-!
# Formatting in place

Objects and arrays are cells, and values refer to them.  The conversion writes
to the cells that it is given, so it matters which of them are copies: an
object is copied with the objects below it, an array with its places only.
-/

namespace Web3Js.Format

namespace InPlace

inductive Owner where
  | caller
  | copy
deriving DecidableEq

/-- A cell is named by whose it is and by the place that it was made for. -/
structure Address where
  owner : Owner
  path : List String
deriving DecidableEq

inductive Slot where
  | scalar (value : Scalar)
  | ref (address : Address)
deriving DecidableEq

/-- The properties of an object, or an array with the properties at its
indices; there is none at a hole. -/
structure Cell where
  length : Option Nat
  entries : List (String × Slot)
deriving DecidableEq

abbrev Heap := Address → Option Cell

inductive Failure where
  | thrown (message : String)
  | outOfFuel

abbrev Run (α : Type) := Program Failure Heap α

section Cells

def setEntry (key : String) (value : Slot) :
    List (String × Slot) → List (String × Slot)
  | [] => [(key, value)]
  | (other, old) :: entries =>
      if other = key then (key, value) :: entries
      else (other, old) :: setEntry key value entries

/-- The value at an index of an array. -/
def Cell.itemAt (cell : Cell) (index : Nat) : Slot :=
  (cell.entries.lookup (toString index)).getD (.scalar .undefined)

/-- What the conversion of a single value sees of the value in a place. -/
def Slot.view : Slot → Data
  | .scalar value => .scalar value
  | .ref _ => .object []

def Cell.items (cell : Cell) (length : Nat) : List Data :=
  (List.range length).map fun index => (cell.itemAt index).view

def Cell.view (cell : Cell) : Data :=
  match cell.length with
  | some length => .array (cell.items length)
  | none => .object []

/-- The cell of a value; every address in use has one. -/
def Heap.cell (heap : Heap) (address : Address) : Cell :=
  (heap address).getD ⟨none, []⟩

/-- `convertScalarValue`, which returns a new scalar or the value itself. -/
def convertSlot (heap : Heap) (value : Slot) (qrlType : Option String)
    (format : DataFormat) : Slot :=
  let data :=
    match value with
    | .scalar content => .scalar content
    | .ref address => (heap.cell address).view
  match convertScalarValue data qrlType format with
  | .scalar result => .scalar result
  | _ => value

def readCell (address : Address) : Run Cell := do
  return (← get).cell address

def writeCell (address : Address) (cell : Cell) : Run PUnit :=
  modify fun heap => Function.update heap address (some cell)

/-- `object[key] = value` -/
def setProperty (object : Address) (key : String) (value : Slot) :
    Run PUnit := do
  let cell ← readCell object
  writeCell object { cell with entries := setEntry key value cell.entries }

/-- `delete object[key]` -/
def deleteProperty (object : Address) (key : String) : Run PUnit := do
  let cell ← readCell object
  writeCell object
    { cell with entries := cell.entries.filter (·.1 ≠ key) }

end Cells

section Convert

variable (schema : JsonSchema) (format : DataFormat)

/-- The loop that converts the places of an array one by one. -/
def convertPlaces (format : DataFormat) (array : Address)
    (typeAt : Nat → Option (Option String)) : List Nat → Run PUnit
  | [] => pure ()
  | index :: indices => do
      let cell ← readCell array
      match typeAt index with
      | none =>
          throw (.thrown
            "Cannot read properties of undefined (reading 'format')")
      | some qrlType => do
          setProperty array (toString index)
            (convertSlot (← get) (cell.itemAt index) qrlType format)
          convertPlaces format array typeAt indices

/-- The loop over the objects of an array. -/
def convertItems (recurse : OneOfPath → Slot → Run (Slot × OneOfPath))
    (array : Address) : List Nat → OneOfPath → Run OneOfPath
  | [], oneOfPath => pure oneOfPath
  | index :: indices, oneOfPath => do
      let cell ← readCell array
      let result ← recurse oneOfPath (cell.itemAt index)
      convertItems recurse array indices result.2

/-- One round of the loop over the properties of an object. -/
def convertProperty
    (recurse : List String → OneOfPath → Slot → Run (Slot × OneOfPath))
    (dataPath : List String) (oneOfPath : OneOfPath) (object : Address)
    (key : String) (value : Slot) : Run OneOfPath :=
  match findSchemaByDataPath schema (dataPath ++ [key]) oneOfPath with
  | .error message => throw (.thrown message)
  | .ok none => do
      deleteProperty object key
      pure oneOfPath
  | .ok (some schemaProp) =>
      match value with
      | .scalar _ => do
          setProperty object key
            (convertSlot (← get) value schemaProp.format format)
          pure oneOfPath
      | .ref address => do
          let cell ← readCell address
          match cell.length with
          | none => do
              -- The recursive call starts without the choices made so far.
              let _ ← recurse (dataPath ++ [key]) [] value
              pure oneOfPath
          | some length =>
              let selected := selectOneOf schemaProp (cell.items length)
              let oneOfPath :=
                oneOfPath ++ selected.2.map fun index => (key, index)
              match selected.1.items with
              | none => do
                  deleteProperty object key
                  pure oneOfPath
              | some (.inr schemas) => do
                  convertPlaces format address
                    (fun index => schemas[index]?.map (·.format))
                    (List.range length)
                  pure oneOfPath
              | some (.inl itemSchema) =>
                  if itemSchema.format.isSome then do
                    convertPlaces format address
                      (fun _ => some itemSchema.format) (List.range length)
                    pure oneOfPath
                  else if itemSchema.type = some "object" then
                    convertItems (recurse (dataPath ++ [key])) address
                      (List.range length) oneOfPath
                  else do
                    setProperty object key
                      (convertSlot (← get) value schemaProp.format format)
                    pure oneOfPath

/-- The loop over the properties that an object has at its start. -/
def convertEntries
    (recurse : List String → OneOfPath → Slot → Run (Slot × OneOfPath))
    (dataPath : List String) (object : Address) :
    OneOfPath → List (String × Slot) → Run OneOfPath
  | oneOfPath, [] => pure oneOfPath
  | oneOfPath, (key, value) :: entries => do
      let oneOfPath ←
        convertProperty schema format recurse dataPath oneOfPath object key
          value
      convertEntries recurse dataPath object oneOfPath entries

/-- `convert`, which also returns the choices it appended to `oneOfPath`. -/
def convert : (fuel : Nat) → List String → OneOfPath → Slot →
    Run (Slot × OneOfPath)
  | 0, _, _, _ => throw .outOfFuel
  | fuel + 1, dataPath, oneOfPath, data =>
      match data with
      | .scalar _ => do
          return (convertSlot (← get) data schema.format format, oneOfPath)
      | .ref object => do
          let cell ← readCell object
          let oneOfPath ←
            convertEntries schema format (convert fuel) dataPath object
              oneOfPath cell.entries
          return (data, oneOfPath)

end Convert

section Copy

/-- The value of one key of the copy that is made for a place. -/
def mergeValue (recurse : List String → Address → Run Slot)
    (path : List String) (key : String) (value : Slot) :
    Run (Option Slot) :=
  if key ∈ forbiddenKeys then pure none
  else
    match value with
    | .scalar content =>
        if content = .undefined ∨ content = .null then pure none
        else pure (some value)
    | .ref address => do
        let cell ← readCell address
        match cell.length with
        | none =>
            if key ∈ inheritedKeys then
              pure (some (.scalar (.function key)))
            else do
              let copied ← recurse (path ++ [key]) address
              pure (some copied)
        | some _ => do
            -- `slice(0)`
            writeCell ⟨.copy, path ++ [key]⟩ cell
            pure (some (.ref ⟨.copy, path ++ [key]⟩))

def mergeEntries (recurse : List String → Address → Run Slot)
    (path : List String) :
    List (String × Slot) → Run (List (String × Slot))
  | [] => pure []
  | (key, value) :: entries => do
      let copied ← mergeValue recurse path key value
      let others ← mergeEntries recurse path entries
      match copied with
      | some slot => pure ((key, slot) :: others)
      | none => pure others

/-- `mergeDeep({}, source)` -/
def mergeDeep : (fuel : Nat) → List String → Address → Run Slot
  | 0, _, _ => throw .outOfFuel
  | fuel + 1, path, source => do
      let cell ← readCell source
      let entries ← mergeEntries (mergeDeep fuel) path cell.entries
      writeCell ⟨.copy, path⟩ ⟨none, entries⟩
      pure (.ref ⟨.copy, path⟩)

/-- What `format` converts: a copy of an object, of the places of an array, or
the scalar itself. -/
def copyData (fuel : Nat) (data : Slot) : Run Slot :=
  match data with
  | .scalar _ => pure data
  | .ref address => do
      let cell ← readCell address
      match cell.length with
      | none => mergeDeep fuel [] address
      | some length => do
          -- `[...data]`
          writeCell ⟨.copy, []⟩ ⟨some length,
            (List.range length).map fun index =>
              (toString index, cell.itemAt index)⟩
          pure (.ref ⟨.copy, []⟩)

/-- `format` with a schema that is a JSON schema. -/
def format (fuel : Nat) (schema : JsonSchema) (data : Slot)
    (returnFormat : DataFormat) : Run Slot := do
  let dataToParse ← copyData fuel data
  if schema.properties.isNone && schema.items.isNone &&
      (schema.format.getD "").isEmpty then
    throw (.thrown "Invalid json schema for formatting")
  else do
    let result ← convert schema returnFormat fuel [] [] dataToParse
    return result.1

end Copy

end InPlace

section Layout

def Data.isHole : Data → Bool
  | .scalar .hole => true
  | _ => false

/-- The properties of the elements from an index on. -/
def elementEntries : Nat → List Data → List (String × Data)
  | _, [] => []
  | index, item :: items =>
      if item.isHole then elementEntries (index + 1) items
      else (toString index, item) :: elementEntries (index + 1) items

/-- What `Object.entries` lists. -/
def Data.entries : Data → List (String × Data)
  | .scalar _ => []
  | .array items => elementEntries 0 items
  | .object entries => entries

def Data.length : Data → Option Nat
  | .array items => some items.length
  | _ => none

def Data.isComposite : Data → Bool
  | .scalar _ => false
  | _ => true

/-- The value at a place below. -/
def Data.at : Data → List String → Option Data
  | data, [] => some data
  | data, key :: path =>
      match data.entries.lookup key with
      | some value => value.at path
      | none => none

namespace InPlace

def slotOf (owner : Owner) (path : List String) : Data → Slot
  | .scalar value => .scalar value
  | _ => .ref ⟨owner, path⟩

/-- The caller's data in the heap, each object and array under its place. -/
def layout (data : Data) : Heap := fun address =>
  match address.owner, data.at address.path with
  | .caller, some value =>
      if value.isComposite then
        some ⟨value.length, value.entries.map fun entry =>
          (entry.1, slotOf .caller (address.path ++ [entry.1]) entry.2)⟩
      else none
  | _, _ => none

/-- The caller's objects and arrays have the contents that they had. -/
def Unmodified (data : Data) (heap : Heap) : Prop :=
  ∀ path, heap ⟨.caller, path⟩ = layout data ⟨.caller, path⟩

end InPlace

end Layout

end Web3Js.Format
