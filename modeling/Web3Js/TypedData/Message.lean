import Web3Js.Fragments.Types
import Web3Js.Lib.Fueled
import Web3Js.Abi.Parameters
import Web3Js.Hash

/-!
# Messages of typed data

A document has a table of struct types, a domain and a message of a primary
type.  Its encoding hashes every struct together with the text of its type,
which spells out the types that it depends on.  Both recursions follow the
table and are run on fuel.
-/

namespace Web3Js.TypedData

open Abi (Error Value Externals)
open Fragments (Text)

structure Field where
  name : Text
  type : Text
deriving DecidableEq, Repr

/-- `types`, by its own properties. -/
abbrev TypesTable := List (Text × List Field)

/-- `types[name]`: missing, inherited by every object, or fields. -/
inductive Entry where
  | missing
  | inherited
  | fields (fields : List Field)

def TypesTable.entry (types : TypesTable) (name : Text) : Entry :=
  match types.lookup name with
  | some fields => .fields fields
  | none =>
      if Abi.objectPrototypeNames.contains (String.ofList name) then .inherited
      else .missing

/-- An outcome, or none while the fuel does not suffice. -/
abbrev Computation := ExceptT Error Option

def lift {α : Type} (outcome : Except Error α) : Computation α :=
  some outcome

def typeError (message : String) : Error :=
  { code := .unspecified, message }

/-- `\w` -/
def isWordChar (char : Char) : Bool :=
  char.isAlphanum || char == '_'

/-- `type.match(/^\w+/)`, or nothing. -/
def typeName (type : Text) : Text :=
  type.takeWhile isWordChar

section Dependencies

variable (types : TypesTable)

def getDependencies : (fuel : Nat) → (type : Text) →
    (dependencies : List Text) → Computation (List Text)
  | 0, _, _ => none
  | fuel + 1, type, dependencies =>
      let actualType := typeName type
      if actualType = [] then
        throw (typeError "Cannot read properties of null (reading '0')")
      else if dependencies.contains actualType then pure dependencies
      else
        match types.entry actualType with
        | .missing => pure dependencies
        | .inherited => throw (typeError "reduce is not a function")
        | .fields fields => do
            let reached ← fields.foldlM (fun previous field => do
              let found ← getDependencies fuel field.type previous
              pure (previous ++
                found.filter fun dependency => !previous.contains dependency))
              []
            pure (actualType :: reached)

/-- The text of one struct type; the fields are joined by commas. -/
def definition (name : Text) (fields : List Field) : Text :=
  name ++ '(' :: [','].intercalate
    (fields.map fun field => field.type ++ ' ' :: field.name) ++ [')']

def encodeDependency (dependency : Text) : Except Error Text :=
  match types.entry dependency with
  | .fields fields => .ok (definition dependency fields)
  | .missing => .error (typeError "Cannot read properties of undefined")
  | .inherited => .error (typeError "map is not a function")

/-- Whether a text does not come after another one, character by
character. -/
def precedes : Text → Text → Bool
  | [], _ => true
  | _ :: _, [] => false
  | char :: left, other :: right =>
      decide (char.toNat < other.toNat) ||
        (char == other && precedes left right)

/-- `sort()` of texts. -/
def sorted (texts : List Text) : List Text := texts.mergeSort precedes

/-- The definitions of the primary type, which may be missing, and of the
others in their order. -/
def encodeTypes (dependencies : List Text) : Except Error Text := do
  let primary := dependencies.head?.getD "undefined".toList
  let definitions ←
    (primary :: sorted dependencies.tail).mapM (encodeDependency types)
  pure definitions.flatten

def encodeType (fuel : Nat) (type : Text) : Computation Text := do
  let dependencies ← getDependencies types fuel type []
  lift (encodeTypes types dependencies)

end Dependencies

/-- What the encoding takes from the language besides the coder. -/
structure Runtime extends Externals where
  /-- `String(value)` of what is not text. -/
  toText : Value → Except Error String
  /-- `new Uint8Array(values)` -/
  uint8Array : List Value → Bytes
  /-- A property that is not an object's own: of text, of an array, of a
  prototype. -/
  builtIn : Value → String → Value

section Messages

variable (runtime : Runtime) (types : TypesTable)

/-- `value[name]` -/
def property (value : Value) (name : Text) : Except Error Value :=
  match value with
  | .undefined | .null => .error (typeError "Cannot read properties of null")
  | .object properties =>
      .ok ((properties.lookup (String.ofList name)).getD
        (runtime.builtIn value (String.ofList name)))
  | value => .ok (runtime.builtIn value (String.ofList name))

/-- The bytes that `keccak256Wrapper` hashes. -/
def hashedBytes : Value → Except Error Bytes
  | .string text =>
      if Validator.isHexStrict text then
        (Utils.hexToUint8Array text).mapError typeError
      else .ok (runtime.utf8ToBytes text)
  | .bigint value => .ok (runtime.utf8ToBytes (toString value))
  | .number value => do
      let text ← runtime.toText (.number value)
      pure (runtime.utf8ToBytes text)
  | .notANumber => .ok (runtime.utf8ToBytes "NaN")
  | .infinity negative =>
      .ok (runtime.utf8ToBytes (if negative then "-Infinity" else "Infinity"))
  | .array elements => .ok (runtime.uint8Array elements)
  | .byteArray bytes => .ok bytes
  | _ => .error (typeError "must pass \"bytes\" validation")

def keccak256 (data : Value) : Except Error String := do
  let bytes ← hashedBytes runtime data
  pure (hexlify (runtime.keccak256 bytes))

/-- `ethersAbiCoder.encode` of textual types. -/
def encodeAs (abi : List Text) (values : List Value) : Except Error String := do
  let params ← abi.mapM fun type => Abi.ParamType.fromString (String.ofList type)
  Abi.AbiCoder.encode runtime.toExternals params values

def getTypeHash (fuel : Nat) (type : Text) : Computation String := do
  let text ← encodeType types fuel type
  lift (keccak256 runtime (.string (String.ofList text)))

/-- The bytes of a text in UTF-8, or of the text of something else. -/
def encodeText : Value → Except Error Bytes
  | .string text => .ok (runtime.utf8ToBytes text)
  | .undefined => .ok []
  | value => do
      let text ← runtime.toText value
      pure (runtime.utf8ToBytes text)

/-- A line ends at these, and `.` does not match them. -/
def isLineTerminator (char : Char) : Bool :=
  char == '\n' || char == '\r' || char.toNat == 0x2028 || char.toNat == 0x2029

/-- `/^(.*)\[([0-9]*?)]$/` -/
def arrayType (type : Text) : Option (Text × Text) :=
  (Abi.arraySuffix type).filter fun suffix => !suffix.1.any isLineTerminator

/-- `Number(match[2]) || undefined` -/
def expectedLength (digits : Text) : Option Nat :=
  if Abi.Reader.parseInt digits = 0 then none
  else some (Abi.Reader.parseInt digits)

def isNullish : Value → Bool
  | .undefined | .null => true
  | _ => false

mutual

def encodeValue : (fuel : Nat) → (type : Text) → (data : Value) →
    Computation (Text × Value)
  | 0, _, _ => none
  | fuel + 1, type, data =>
      match arrayType type with
      | some (element, digits) =>
          match data with
          | .array items =>
              if (expectedLength digits).all (· = items.length) then do
                let encoded ← items.mapM (encodeValue fuel element)
                let text ← lift (encodeAs runtime
                  (encoded.map Prod.fst) (encoded.map Prod.snd))
                let hash ← lift
                  (keccak256 runtime (.string text))
                pure ("bytes32".toList, .string hash)
              else
                throw (typeError "Cannot encode data: expected length")
          | _ =>
              throw (typeError
                "Cannot encode data: value is not of array type")
      | none =>
          match types.entry type with
          | .missing =>
              if type = "string".toList then do
                let bytes ← lift (encodeText runtime data)
                let hash ← lift
                  (keccak256 runtime (.byteArray bytes))
                pure ("bytes32".toList, .string hash)
              else if type = "bytes".toList then do
                let hash ← lift (keccak256 runtime data)
                pure ("bytes32".toList, .string hash)
              else pure (type, data)
          | _ => do
              let text ← encodeData fuel type data
              let hash ← lift
                (keccak256 runtime (.string text))
              pure ("bytes32".toList, .string hash)

def encodeData : (fuel : Nat) → (type : Text) → (data : Value) →
    Computation String
  | 0, _, _ => none
  | fuel + 1, type, data =>
      match types.entry type with
      | .missing => throw (typeError "Cannot read properties of undefined")
      | .inherited => throw (typeError "reduce is not a function")
      | .fields fields => do
          let typeHash ← getTypeHash runtime types fuel type
          let encoded ← fields.foldlM (fun encoded field => do
            let value ← lift (property runtime data field.name)
            if isNullish value then
              throw (typeError "Cannot encode data: missing data")
            else do
              let item ← encodeValue fuel field.type value
              pure (encoded ++ [item]))
            [("bytes32".toList, .string typeHash)]
          lift (encodeAs runtime
            (encoded.map Prod.fst) (encoded.map Prod.snd))

end

def getStructHash (fuel : Nat) (type : Text) (data : Value) :
    Computation String := do
  let text ← encodeData runtime types fuel type data
  lift (keccak256 runtime (.string text))

end Messages

/-- A document of typed data. -/
structure Document where
  types : TypesTable
  primaryType : Text
  domain : Value
  message : Value

def domainType : Text := "QRLTypedDataDomain".toList

/-- `text.substring(2)` -/
def withoutPrefix (text : String) : String :=
  String.ofList (text.toList.drop 2)

def getMessage (runtime : Runtime) (fuel : Nat) (typedData : Document)
    (hash : Bool) : Computation String := do
  let domain ←
    getStructHash runtime typedData.types fuel domainType typedData.domain
  let struct ← getStructHash runtime typedData.types fuel
    typedData.primaryType typedData.message
  let message := "0x1901" ++ withoutPrefix domain ++ withoutPrefix struct
  if hash then lift (keccak256 runtime (.string message))
  else pure message

end Web3Js.TypedData
