import Mathlib.Data.Rat.Defs

/-!
# Responses of a provider

A provider may answer with any JavaScript value.  The predicates of the
JSON-RPC helpers read properties of it; where they read a property of `null`
or `undefined` they have no value, as the source throws there.
-/

namespace Web3Js.Core

inductive Number
  | finite (value : ℚ)
  | notANumber
  | infinity (negative : Bool)
  deriving DecidableEq

/-- A JavaScript value.  An object is known by its properties and by whether
it is an instance of `Error`. -/
inductive Value
  | undefined
  | null
  | boolean (value : Bool)
  | number (value : Number)
  | string (value : String)
  /-- A value of another type, which has none of the properties read here. -/
  | other
  | array (elements : List Value)
  | object (isError : Bool) (properties : List (String × Value))

/-- What the language leaves to the engine or to long tables: `Number(value)`
and sorting by `(a, b) => a - b`, which `NaN` makes inconsistent. -/
structure Language where
  number : Value → Number
  sort : List Number → List Number

/-- An id that a JSON-RPC message can have. -/
inductive Id
  | number (value : Number)
  | string (value : String)
  deriving DecidableEq

namespace Value

def isNullish : Value → Bool
  | .undefined | .null => true
  | _ => false

def isArray : Value → Bool
  | .array _ => true
  | _ => false

def isErrorInstance : Value → Bool
  | .object isError _ => isError
  | _ => false

def truthy : Value → Bool
  | .undefined | .null | .number .notANumber => false
  | .boolean value => value
  | .number (.finite value) => value ≠ 0
  | .string value => value ≠ ""
  | .number (.infinity _) | .other | .array _ | .object .. => true

/-- `name in value`, for an object. -/
def hasProperty (name : String) : Value → Bool
  | .object _ properties => (properties.lookup name).isSome
  | _ => false

/-- A property, `undefined` where there is none. -/
def property (name : String) : Value → Value
  | .object _ properties => (properties.lookup name).getD .undefined
  | _ => .undefined

/-- An id that is a number or a string. -/
def toId : Value → Option Id
  | .number value => some (.number value)
  | .string value => some (.string value)
  | _ => none

def responseId (response : Value) : Option Id :=
  (response.property "id").toId

def isVersion2 : Value → Bool
  | .string version => version = "2.0"
  | _ => false

def isResponseWithResult (response : Value) : Bool :=
  !response.isArray && response.truthy &&
    isVersion2 (response.property "jsonrpc") &&
    response.hasProperty "result" &&
    (response.property "error").isNullish && response.responseId.isSome

/-- Reads a property before it checks for `null`. -/
def isResponseWithError (response : Value) : Option Bool :=
  if response.isNullish then none
  else
    some (!response.isArray && isVersion2 (response.property "jsonrpc") &&
      response.truthy && (response.property "result").isNullish &&
      response.hasProperty "error" && response.responseId.isSome)

def validateResponse (response : Value) : Option Bool :=
  if response.isResponseWithResult then some true
  else response.isResponseWithError

/-- `response.every(validateResponse)` -/
def everyValid : List Value → Option Bool
  | [] => some true
  | response :: responses =>
      match response.validateResponse with
      | some true => everyValid responses
      | some false => some false
      | none => none

def isBatchResponse : Value → Option Bool
  | .array [] => some false
  | .array responses => everyValid responses
  | _ => some false

end Value

end Web3Js.Core
