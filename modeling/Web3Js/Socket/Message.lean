import Mathlib.Data.Rat.Defs

/-!
# Messages of a socket

A decoded message is a JSON value.  The predicates of the JSON-RPC helpers
tell results, errors, notifications and batches apart; where the source reads
a property of `null` they have no value.
-/

namespace Web3Js.Socket

inductive Json
  | null
  | boolean (value : Bool)
  | number (value : ℚ)
  | string (value : String)
  | array (elements : List Json)
  | object (properties : List (String × Json))

inductive RequestId
  | number (value : ℚ)
  | string (value : String)
  deriving DecidableEq

namespace Json

/-- Whether `JSON.parse` gave a value that the parser keeps. -/
def truthy : Json → Bool
  | .null => false
  | .boolean value => value
  | .number value => value ≠ 0
  | .string value => value ≠ ""
  | .array _ | .object _ => true

/-- A property of an object; other values have none of those read here. -/
def property (name : String) : Json → Option Json
  | .object properties => properties.lookup name
  | _ => none

def isArray : Json → Bool
  | .array _ => true
  | _ => false

def isVersion2 : Option Json → Bool
  | some (.string version) => version == "2.0"
  | _ => false

def isNullish : Option Json → Bool
  | none | some .null => true
  | _ => false

/-- An id that a request can have, a number or a string. -/
def toRequestId : Option Json → Option RequestId
  | some (.number value) => some (.number value)
  | some (.string value) => some (.string value)
  | _ => none

def isResponseWithResult (response : Json) : Bool :=
  !response.isArray && response.truthy &&
    isVersion2 (response.property "jsonrpc") &&
    (response.property "result").isSome &&
    isNullish (response.property "error") &&
    (toRequestId (response.property "id")).isSome

/-- Reads a property before it checks for `null`. -/
def isResponseWithError (response : Json) : Option Bool :=
  match response with
  | .null => none
  | _ =>
      some (!response.isArray && isVersion2 (response.property "jsonrpc") &&
        response.truthy && isNullish (response.property "result") &&
        (response.property "error").isSome &&
        (toRequestId (response.property "id")).isSome)

def isResponseWithNotification (response : Json) : Bool :=
  !response.isArray && response.truthy &&
    isVersion2 (response.property "jsonrpc") &&
    !isNullish (response.property "params") &&
    !isNullish (response.property "method")

def validateResponse (response : Json) : Option Bool :=
  if response.isResponseWithResult then some true
  else response.isResponseWithError

/-- `response.every(validateResponse)` -/
def everyValid : List Json → Option Bool
  | [] => some true
  | response :: responses =>
      match response.validateResponse with
      | some true => everyValid responses
      | other => other

def isBatchResponse : Json → Option Bool
  | .array [] => some false
  | .array responses => everyValid responses
  | _ => some false

/-- A single result or error object. -/
def isSingleResponse (response : Json) : Bool :=
  response.validateResponse == some true

/-- The id that a single response carries. -/
def responseId (response : Json) : Option RequestId :=
  toRequestId (response.property "id")

end Json

end Web3Js.Socket
