import Web3Js.Abi.Words
import Web3Js.Lib.OrderedMap

/-!
# Logs

The parameters of an event are in the data of a log or, where they are
indexed, in its topics, as a word or as a hash.  The decoder walks both with a
cursor each and puts the values back in the order of the inputs.
-/

namespace Web3Js.Abi

section Decoding

/-- An input of an event, none of which has the name of the count. -/
structure EventInput where
  param : JsonFragmentType
  indexed : Bool
  uncounted : param.name ≠ "__length__"

/-- Whether a topic holds a hash in place of the value. -/
def isIndexedHash (inputType : String) : Bool :=
  inputType == "string" || inputType == "bytes" ||
    inputType == "function" || inputType == "tuple" ||
    (arraySuffix inputType.toList).isSome

/-- The object of the returned values.  Assigning to `__proto__` replaces its
prototype, where the value is an object. -/
structure ReturnValues where
  properties : OrderedMap String (Option DecodedParam) := ∅
  prototype : Option DecodedParam := none
  length : Nat := 0

/-- The keys of a frozen result. -/
def DecodedParam.isReadOnly (param : DecodedParam) (key : String) : Bool :=
  match param with
  | .value (.result elements named) =>
      (arrayIndex key).any (· < elements.length) || key == "length" ||
        named.any fun property => property.1 == key
  | _ => false

/-- The assignment of a property. -/
def ReturnValues.set (values : ReturnValues) (key : String)
    (value : Option DecodedParam) : Except String ReturnValues :=
  if key = "__proto__" then
    match value with
    | some (.object elements named) =>
        .ok { values with prototype := some (.object elements named) }
    | some (.value (.result elements named)) =>
        .ok { values with prototype := some (.value (.result elements named)) }
    | _ => .ok values
  else if values.properties.get? key = none ∧
      values.prototype.any (·.isReadOnly key) then
    .error ("Cannot assign to read only property '" ++ key ++ "'")
  else .ok { values with properties := values.properties.set key value }

/-- The own property of a key, or the prototype that was assigned. -/
def ReturnValues.read (values : ReturnValues) (key : String) :
    Option DecodedParam :=
  if key = "__proto__" then values.prototype
  else (values.properties.get? key).join

variable (externals : Externals)

/-- What an indexed input is decoded to; an absent topic counts as an empty
one, but has no slice. -/
def decodeTopic (type : String) (topic : Option String) :
    Except String (Option DecodedParam) :=
  if isIndexedHash type then
    match topic with
    | some topic =>
        .ok (some (.value (.string (String.ofList (topic.toList.take 66)))))
    | none => .error "Cannot read properties of undefined (reading 'slice')"
  else decodeParameter externals (.text type) (topic.getD "")

/-- `clonedTopics[index]` -/
def topicAt (topics : List String) (index : Int) : Option String :=
  if index < 0 then none else topics[index.toNat]?

def decodeTopics (indexedInputs : List EventInput) (topics : List String)
    (offset : Int) : Except String (List (Option DecodedParam)) :=
  indexedInputs.zipIdx.mapM fun (input, index) =>
    decodeTopic externals input.param.type (topicAt topics (index + offset))

/-- The loop over the inputs, with the counters of the indexed and of the
other ones. -/
def mergeInputs (indexed : List (Option DecodedParam))
    (nonIndexed : DecodedParams) :
    (inputs : List EventInput) →
      (position indexedCounter nonIndexedCounter : Nat) → ReturnValues →
        Except String ReturnValues
  | [], _, _, _, values => .ok values
  | input :: inputs, position, indexedCounter, nonIndexedCounter, values => do
      let decoded :=
        if input.indexed then indexed[indexedCounter]?.join
        else nonIndexed.at nonIndexedCounter
      let values ← values.set (toString position) decoded
      let values ←
        if input.param.name = "" then .ok values
        else values.set input.param.name decoded
      mergeInputs indexed nonIndexed inputs (position + 1)
        (if input.indexed then indexedCounter + 1 else indexedCounter)
        (if input.indexed then nonIndexedCounter else nonIndexedCounter + 1)
        { values with length := values.length + 1 }

def indexedInputs (inputs : List EventInput) : List EventInput :=
  inputs.filter (·.indexed)

def nonIndexedInputs (inputs : List EventInput) : List AbiInput :=
  (inputs.filter (!·.indexed)).map (.parameter ·.param)

/-- More topics than indexed inputs begin with the signature. -/
def decodeLog (inputs : List EventInput) (data : String)
    (topics : List String) : Except String ReturnValues := do
  let decodedNonIndexedInputs ←
    if data = "" then .ok {}
    else decodeParametersWith externals (nonIndexedInputs inputs) data true
  let offset : Int := topics.length - (indexedInputs inputs).length
  let decodedIndexedInputs ←
    decodeTopics externals (indexedInputs inputs) topics offset
  mergeInputs decodedIndexedInputs decodedNonIndexedInputs inputs 0 0 0 {}

end Decoding

end Web3Js.Abi
