import Web3Js.Core.RequestManager
import Web3Js.Lib.OrderedMap

/-!
# Batch requests

A batch keeps the promise of a request under the request's id.  Executing it
sends the requests once and waits for the answer or for the deadline,
whichever comes first.  The answer is compared with the batch by its length
and by its ids as numbers, and then each response settles the promise under
its own id.
-/

namespace Web3Js.Core

/-- Why the promise of a request is rejected. -/
inductive Rejection
  /-- An `OperationAbortError`. -/
  | aborted (message : String)
  /-- The error of the response. -/
  | responded (error : Value)

inductive Settlement
  | resolved (result : Value)
  | rejected (reason : Rejection)

/-- How `execute` settles. -/
inductive Execution
  | fulfilled (response : List Value)
  | timedOut
  | sendingFailed
  | typeError
  | sizeMismatch (requests responses : Nat)
  | idsMismatch (requestIds responseIds : List Number)

/-- A request as it is given to `add`, with the id that `toPayload` takes from
the seed or makes up where the request has none. -/
structure AddedRequest where
  id : Option Id
  generated : Id

def AddedRequest.payloadId (request : AddedRequest) : Id :=
  request.id.getD request.generated

structure BatchRequest where
  /-- `_requests`, by the position of the promise. -/
  requests : OrderedMap Id Nat := ∅
  /-- The promises that `add` returned, in order. -/
  promises : List (Option Settlement) := []
  /-- `sendBatch` has settled. -/
  answered : Bool := false
  execution : Option Execution := none

namespace BatchRequest

def add (batch : BatchRequest) (request : AddedRequest) : BatchRequest :=
  { batch with
    requests := batch.requests.set request.payloadId batch.promises.length
    promises := batch.promises ++ [none] }

def addAll (batch : BatchRequest) (requests : List AddedRequest) :
    BatchRequest :=
  requests.foldl add batch

/-- The first call of `resolve` or `reject` settles a promise. -/
def settle (promises : List (Option Settlement)) (position : Nat)
    (settlement : Settlement) : List (Option Settlement) :=
  promises.modify position fun promise => promise.or (some settlement)

def settleAll (promises : List (Option Settlement))
    (settlements : List (Nat × Settlement)) : List (Option Settlement) :=
  settlements.foldl
    (fun promises entry => settle promises entry.1 entry.2) promises

/-- The promise of the execution settles once. -/
def finish (batch : BatchRequest) (execution : Execution) : BatchRequest :=
  { batch with execution := batch.execution.or (some execution) }

def abortAllRequests (batch : BatchRequest) (message : String) :
    BatchRequest :=
  { batch with
    promises := settleAll batch.promises
      (batch.requests.entries.map fun entry =>
        (entry.2, .rejected (.aborted message))) }

section Responses

variable (language : Language)

/-- A number in a JSON text, which has `null` for the others. -/
def jsonNumber : Number → Option ℚ
  | .finite value => some value
  | .notANumber | .infinity _ => none

def idValue : Id → Value
  | .number value => .number value
  | .string value => .string value

/-- The ids as numbers, sorted. -/
def numericIds (ids : List Value) : List Number :=
  language.sort (ids.map language.number)

/-- The JSON texts of two lists of numbers are the same. -/
def sameText (left right : List Number) : Bool :=
  left.map jsonNumber = right.map jsonNumber

/-- What one response does to the promise under its id. -/
def responseSettlement (requests : OrderedMap Id Nat) (response : Value) :
    Option (Nat × Settlement) := do
  let id ← response.responseId
  let position ← requests.get? id
  if response.isResponseWithResult then
    some (position, .resolved (response.property "result"))
  else if response.isResponseWithError = some true then
    some (position, .rejected (.responded (response.property "error")))
  else none

/-- The error for a response of another length, which cannot be made of
`null`. -/
def sizeMismatch (batch : BatchRequest) (response : List Value) : Execution :=
  if response.any Value.isNullish then .typeError
  else .sizeMismatch batch.requests.size response.length

/-- `_processBatchRequest`, once `sendBatch` has given an array. -/
def processResponse (batch : BatchRequest) (response : List Value) :
    BatchRequest :=
  if response.length ≠ batch.requests.size then
    (batch.abortAllRequests "Invalid batch response").finish
      (batch.sizeMismatch response)
  else if response.any Value.isNullish then batch.finish .typeError
  else
    let requestIds := numericIds language (batch.requests.keys.map idValue)
    let responseIds := numericIds language (response.map (·.property "id"))
    if sameText requestIds responseIds then
      { batch with
        promises := settleAll batch.promises
          (response.filterMap (responseSettlement batch.requests)) }.finish
        (.fulfilled response)
    else
      (batch.abortAllRequests "Invalid batch response").finish
        (.idsMismatch requestIds responseIds)

/-- What `execute` waits for. -/
inductive Event
  | response (elements : List Value)
  /-- `sendBatch` rejects, possibly with an `OperationTimeoutError`. -/
  | rejection (isOperationTimeout : Bool)
  | timeout

/-- An event; `sendBatch` settles once, and the deadline is dropped when the
execution is settled. -/
def step (batch : BatchRequest) : Event → BatchRequest
  | .response elements =>
      if batch.answered then batch
      else processResponse language { batch with answered := true } elements
  | .rejection isOperationTimeout =>
      if batch.answered ∨ batch.execution.isSome then
        { batch with answered := true }
      else
        let batch := { batch with answered := true }.finish .sendingFailed
        if isOperationTimeout then
          batch.abortAllRequests "Batch request timeout"
        else batch
  | .timeout =>
      if batch.execution.isSome then batch
      else
        (batch.finish .timedOut).abortAllRequests "Batch request timeout"

/-- `execute`, after the events. -/
def execute (batch : BatchRequest) (events : List Event) : BatchRequest :=
  if batch.requests.size = 0 then batch.finish (.fulfilled [])
  else events.foldl (step language) batch

end Responses

end BatchRequest

end Web3Js.Core
