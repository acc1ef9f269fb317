import Web3Js.Format.InPlace

/-!
# What a conversion leaves alone

A working value is a copy of an object, a copy of the places of an array, or
the caller's own.  Only what is written to the caller's own matters to the
caller.  The condition follows the conversion through the schema and the data,
with the choices among alternatives that the conversion makes on its way.
-/

namespace Web3Js.Format

/-- No object has two properties of one name. -/
inductive Data.Distinct : Data → Prop
  | scalar (value : Scalar) : Distinct (.scalar value)
  | array {items : List Data} (below : ∀ item ∈ items, Distinct item) :
      Distinct (.array items)
  | object {entries : List (String × Data)}
      (keys : (entries.map Prod.fst).Nodup)
      (below : ∀ entry ∈ entries, Distinct entry.2) :
      Distinct (.object entries)

/-- A hole reads as `undefined`. -/
def Data.seen (data : Data) : Data :=
  if data.isHole then .scalar .undefined else data

namespace InPlace

/-- Whose the cells of a working value are: a copy at every depth, a copy of
the places alone, or the caller's. -/
inductive Sharing where
  | deep
  | shallow
  | shared
deriving DecidableEq

namespace Sharing

def owner : Sharing → Owner
  | .shared => .caller
  | _ => .copy

def ofObject : Sharing → Sharing
  | .deep => .deep
  | _ => .shared

def ofArray : Sharing → Sharing
  | .deep => .shallow
  | _ => .shared

/-- Whose a value is in a container. -/
def ofValue (sharing : Sharing) : Data → Sharing
  | .object _ => sharing.ofObject
  | _ => sharing.ofArray

end Sharing

section Choices

variable (schema : JsonSchema)

/-- A loop over places ends where a place has no schema. -/
def choosePlaces (typeAt : Nat → Option (Option String)) :
    List Nat → Except String PUnit
  | [] => .ok ⟨⟩
  | index :: indices =>
      match typeAt index with
      | none => .error "Cannot read properties of undefined (reading 'format')"
      | some _ => choosePlaces typeAt indices

mutual

/-- The choices among alternatives after a conversion, or what it throws. -/
def choose (dataPath : List String) (oneOfPath : OneOfPath) :
    Data → Except String OneOfPath
  | .scalar _ => .ok oneOfPath
  | .object entries => chooseEntries dataPath oneOfPath entries
  | .array items => chooseElements dataPath oneOfPath 0 items

def chooseEntries (dataPath : List String) (oneOfPath : OneOfPath) :
    List (String × Data) → Except String OneOfPath
  | [] => .ok oneOfPath
  | (key, value) :: entries => do
      let oneOfPath ← chooseProperty dataPath oneOfPath key value
      chooseEntries dataPath oneOfPath entries

def chooseElements (dataPath : List String) (oneOfPath : OneOfPath)
    (index : Nat) : List Data → Except String OneOfPath
  | [] => .ok oneOfPath
  | item :: items =>
      if item.isHole then chooseElements dataPath oneOfPath (index + 1) items
      else do
        let oneOfPath ←
          chooseProperty dataPath oneOfPath (toString index) item
        chooseElements dataPath oneOfPath (index + 1) items

def chooseProperty (dataPath : List String) (oneOfPath : OneOfPath)
    (key : String) : Data → Except String OneOfPath
  | .scalar _ => do
      let _ ← findSchemaByDataPath schema (dataPath ++ [key]) oneOfPath
      .ok oneOfPath
  | .object entries => do
      match ← findSchemaByDataPath schema (dataPath ++ [key]) oneOfPath with
      | none => .ok oneOfPath
      | some _ => do
          let _ ← chooseEntries (dataPath ++ [key]) [] entries
          .ok oneOfPath
  | .array items => do
      match ← findSchemaByDataPath schema (dataPath ++ [key]) oneOfPath with
      | none => .ok oneOfPath
      | some schemaProp =>
          let selected := selectOneOf schemaProp items
          let oneOfPath := oneOfPath ++ selected.2.map fun index => (key, index)
          match selected.1.items with
          | none => .ok oneOfPath
          | some (.inr schemas) => do
              choosePlaces (fun index => schemas[index]?.map (·.format))
                (List.range items.length)
              .ok oneOfPath
          | some (.inl itemSchema) =>
              if itemSchema.format.isSome then .ok oneOfPath
              else if itemSchema.type = some "object" then
                chooseItems (dataPath ++ [key]) oneOfPath items
              else .ok oneOfPath

def chooseItems (dataPath : List String) (oneOfPath : OneOfPath) :
    List Data → Except String OneOfPath
  | [] => .ok oneOfPath
  | item :: items => do
      let oneOfPath ← choose dataPath oneOfPath item
      chooseItems dataPath oneOfPath items

end

end Choices

section Condition

variable (schema : JsonSchema) (format : DataFormat)

/-- Every place of an array that has a schema is converted to itself. -/
def SparesPlaces (format : DataFormat)
    (typeAt : Nat → Option (Option String)) : Nat → List Data → Prop
  | _, [] => True
  | index, item :: items =>
      ∀ qrlType, typeAt index = some qrlType →
        convertScalarValue item.seen qrlType format = item ∧
          SparesPlaces format typeAt (index + 1) items

mutual

/-- A conversion leaves the caller's own as they are. -/
def Spares (sharing : Sharing) (dataPath : List String)
    (oneOfPath : OneOfPath) : Data → Prop
  | .scalar _ => True
  | .object entries => SparesEntries sharing dataPath oneOfPath entries
  | .array items => SparesElements sharing dataPath oneOfPath 0 items

def SparesEntries (sharing : Sharing) (dataPath : List String)
    (oneOfPath : OneOfPath) : List (String × Data) → Prop
  | [] => True
  | (key, value) :: entries =>
      SparesProperty sharing dataPath oneOfPath key value ∧
        ∀ next, chooseProperty schema dataPath oneOfPath key value = .ok next →
          SparesEntries sharing dataPath next entries

def SparesElements (sharing : Sharing) (dataPath : List String)
    (oneOfPath : OneOfPath) (index : Nat) : List Data → Prop
  | [] => True
  | item :: items =>
      if item.isHole then
        SparesElements sharing dataPath oneOfPath (index + 1) items
      else
        SparesProperty sharing dataPath oneOfPath (toString index) item ∧
          ∀ next, chooseProperty schema dataPath oneOfPath (toString index)
              item = .ok next →
            SparesElements sharing dataPath next (index + 1) items

/-- A property of the caller's own has a schema and is converted to itself;
what it refers to is left as it is in turn. -/
def SparesProperty (sharing : Sharing) (dataPath : List String)
    (oneOfPath : OneOfPath) (key : String) : Data → Prop
  | .scalar value =>
      match findSchemaByDataPath schema (dataPath ++ [key]) oneOfPath with
      | .error _ => True
      | .ok none => sharing ≠ .shared
      | .ok (some schemaProp) => sharing = .shared →
          convertScalarValue (.scalar value) schemaProp.format format =
            .scalar value
  | .object entries =>
      match findSchemaByDataPath schema (dataPath ++ [key]) oneOfPath with
      | .error _ => True
      | .ok none => sharing ≠ .shared
      | .ok (some _) =>
          SparesEntries sharing.ofObject (dataPath ++ [key]) [] entries
  | .array items =>
      match findSchemaByDataPath schema (dataPath ++ [key]) oneOfPath with
      | .error _ => True
      | .ok none => sharing ≠ .shared
      | .ok (some schemaProp) =>
          let selected := selectOneOf schemaProp items
          let oneOfPath := oneOfPath ++ selected.2.map fun index => (key, index)
          match selected.1.items with
          | none => sharing ≠ .shared
          | some (.inr schemas) => sharing.ofArray = .shared →
              SparesPlaces format
                (fun index => schemas[index]?.map (·.format)) 0 items
          | some (.inl itemSchema) =>
              if itemSchema.format.isSome then
                sharing.ofArray = .shared →
                  SparesPlaces format (fun _ => some itemSchema.format) 0 items
              else if itemSchema.type = some "object" then
                SparesItems (dataPath ++ [key]) oneOfPath items
              else
                sharing = .shared →
                  convertScalarValue (.array items) schemaProp.format format =
                    .array items

/-- The elements of an array are the caller's, also in a copy. -/
def SparesItems (dataPath : List String) (oneOfPath : OneOfPath) :
    List Data → Prop
  | [] => True
  | item :: items =>
      Spares .shared dataPath oneOfPath item ∧
        ∀ next, choose schema dataPath oneOfPath item = .ok next →
          SparesItems dataPath next items

end

/-- What `format` converts, and whose it is. -/
def workingData : Data → Data
  | .object entries => .object (Format.mergeDeep entries)
  | .array items => .array (items.map Data.seen)
  | .scalar value => .scalar value

def workingSharing : Data → Sharing
  | .object _ => .deep
  | _ => .shallow

/-- Every object and array that lies inside an array, and that the conversion
gets to, is left as it is. -/
def SparesData (data : Data) : Prop :=
  (schema.properties.isNone && schema.items.isNone &&
      (schema.format.getD "").isEmpty) = false →
    Spares schema format (workingSharing data) [] [] (workingData data)

end Condition

end InPlace

end Web3Js.Format
