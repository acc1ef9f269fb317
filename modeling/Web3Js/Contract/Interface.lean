import Web3Js.Abi.Value
import Web3Js.Tx.Account

/-!
# The interface of a contract

A JSON interface lists functions, events and errors.  A function is called by
its name, by its name with the types of its inputs, or by its selector, which
is the front of the hash of the latter.  Arguments are brought into the shape
of the inputs before they are validated and encoded.
-/

namespace Web3Js.Contract

open Web3Js.Abi (Value)

inductive AbiParameter
  | mk (name type : String) (components : Option (List AbiParameter))

namespace AbiParameter

def name : AbiParameter → String
  | mk name _ _ => name

def type : AbiParameter → String
  | mk _ type _ => type

def components : AbiParameter → Option (List AbiParameter)
  | mk _ _ components => components

end AbiParameter

structure AbiFunctionFragment where
  name : String
  inputs : Option (List AbiParameter)
  outputs : Option (List AbiParameter) := none
  stateMutability : Option String := none
  signature : String := ""

inductive AbiFragment
  | function (abi : AbiFunctionFragment)
  | event (name : Option String) (inputs : Option (List AbiParameter))
  | error (name : Option String) (inputs : Option (List AbiParameter))
  /-- A constructor or one of the unnamed entries. -/
  | other

/-- What the interface uses of the other packages. -/
structure AbiLibrary where
  cryptography : Cryptography
  /-- `validator.validate` -/
  validate : List AbiParameter → List Value → Except String Unit
  encodeParameters : List AbiParameter → List Value → Except String String

section Names

mutual

/-- The type of one input, a tuple written out. -/
def flattenType : AbiParameter → Except String String
  | .mk _ type (some components) =>
      if ['t', 'u', 'p', 'l', 'e'].isPrefixOf type.toList then do
        let result ← flattenTypes components
        .ok ("(" ++ String.intercalate "," result ++ ")" ++
          String.ofList (type.toList.dropWhile (· != '[')))
      else
        .error ("Invalid value given \"" ++ type ++
          "\". Error: components found but type is not tuple.")
  | .mk _ type none => .ok type

/-- `flattenTypes` without the word `tuple`. -/
def flattenTypes : List AbiParameter → Except String (List String)
  | [] => .ok []
  | param :: puts => do
      let type ← flattenType param
      let types ← flattenTypes puts
      .ok (type :: types)

end

def jsonInterfaceMethodToString (name : Option String)
    (inputs : Option (List AbiParameter)) : Except String String :=
  if (name.getD "").toList.contains '(' then .ok (name.getD "")
  else do
    let types ← flattenTypes (inputs.getD [])
    .ok (name.getD "" ++ "(" ++ String.intercalate "," types ++ ")")

def AbiFunctionFragment.methodName (abi : AbiFunctionFragment) :
    Except String String :=
  jsonInterfaceMethodToString (some abi.name) abi.inputs

/-- The first ten characters of the hash. -/
def encodeFunctionSignature (library : AbiLibrary) (name : String) :
    Except String String := do
  let hash ← Tx.sha3Raw library.cryptography name
  .ok (String.ofList (hash.toList.take 10))

def AbiFunctionFragment.selector (library : AbiLibrary)
    (abi : AbiFunctionFragment) : Except String String := do
  let name ← abi.methodName
  encodeFunctionSignature library name

end Names

section Shapes

/-- The number of matches of `/\[(\d*)\]/g`. -/
def countArraySizes : List Char → Nat
  | [] => 0
  | char :: text =>
      (if char = '[' ∧ (text.dropWhile Char.isDigit).head? = some ']' then 1
        else 0) + countArraySizes text

/-- The number of dimensions of a tuple; `none` for another base type. -/
def tupleDimensions (type : String) : Option Nat :=
  -- Only the first space is removed.
  let stripped := type.toList.takeWhile (· != ' ') ++
    (type.toList.dropWhile (· != ' ')).drop 1
  if stripped.takeWhile (· != '[') = ['t', 'u', 'p', 'l', 'e'] then
    some (countArraySizes type.toList)
  else none

/-- `data[index]` of an array and `data[name]` of anything else. -/
def dataItem (index : Nat) (name : String) : Value → Except String Value
  | .undefined | .null =>
      .error "Cannot read properties of undefined"
  | .array elements => .ok (elements[index]?.getD .undefined)
  | .object properties =>
      .ok (((properties.find? (·.1 = name)).map Prod.snd).getD .undefined)
  | _ => .ok .undefined

/-- What a loop over a value visits. -/
def iterate : Value → Except String (List Value)
  | .array elements => .ok elements
  | .string text => .ok (text.toList.map fun char => .string (char.toString))
  | _ => .error "object is not iterable"

def fetchArrayElement (data : Value) : (level : Nat) → Except String Value
  | 0 | 1 => .ok data
  | level + 1 => do
      let first ← dataItem 0 "0" data
      fetchArrayElement first level

/-- An item of a tuple type of some dimensions, by what becomes of a tuple; the
outermost two dimensions are visited. -/
def transformTuples (transform : Value → Except String Value) (item : Value) :
    (dimensions : Nat) → Except String Value
  | 0 => transform item
  | 1 => do
      let items ← iterate item
      let tuples ← items.mapM transform
      .ok (.array tuples)
  | dimensions + 2 => do
      let items ← iterate item
      let nested ← items.mapM fun tupleItem => do
        let nestedItem ← fetchArrayElement tupleItem (dimensions + 1)
        let nestedItems ← iterate nestedItem
        let tuples ← nestedItems.mapM transform
        .ok (.array tuples)
      .ok (.array nested)

mutual

def transformItem : AbiParameter → (data : Value) → (index : Nat) →
    Except String Value
  | .mk name type (some components), data, index => do
      let item ← dataItem index name data
      match tupleDimensions type with
      | none => .ok item
      | some dimensions =>
          transformTuples
            (fun tuple => (transformAll components tuple 0).map .array)
            item dimensions
  | .mk name type none, data, index => do
      let item ← dataItem index name data
      match tupleDimensions type with
      | none => .ok item
      | some dimensions =>
          transformTuples
            (fun _ =>
              .error "Cannot read properties of undefined (reading 'entries')")
            item dimensions

/-- The values of the inputs from an index on. -/
def transformAll : List AbiParameter → (data : Value) → (index : Nat) →
    Except String (List Value)
  | [], _, _ => .ok []
  | abi :: abis, data, index => do
      let value ← transformItem abi data index
      let values ← transformAll abis data (index + 1)
      .ok (value :: values)

end

/-- The arguments in the shape of the inputs: as many as there are inputs,
whatever their number was. -/
def transformJsonDataToAbiFormat (abis : List AbiParameter)
    (data : List Value) : Except String (List Value) :=
  transformAll abis (.array data) 0

end Shapes

end Web3Js.Contract
