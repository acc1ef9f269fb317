import Web3Js.Core.Response
import Web3Js.Lib.Outcome

/-!
# The request manager

`_processJsonRpcResponse` decides what becomes of the response to a payload.
Its branches are tried in order, and a result response is returned by the
second one, before the kind and the id of the payload are looked at.
-/

namespace Web3Js.Core

/-- A payload, by the fields that the request manager reads. -/
inductive Payload
  | single (id : Option Id)
  | batch (ids : List (Option Id))

namespace Payload

/-- An empty array is no batch request. -/
def isBatchRequest : Payload → Bool
  | .single _ | .batch [] => false
  | .batch (_ :: _) => true

/-- The id that a response built for the payload gets. -/
def builtId : Payload → Value
  | .single id =>
      match id with
      | some (.number value) => .number value
      | some (.string value) => .string value
      | none => .undefined
  | .batch (id :: _) => builtId (.single id)
  | .batch [] => .null

/-- `payload.id`, which an array does not have. -/
def id : Payload → Option Id
  | .single id => id
  | .batch _ => none

end Payload

/-- What `_processJsonRpcResponse` throws. -/
inductive Thrown
  /-- A property of `null` or `undefined` is read. -/
  | typeError
  /-- An error of the table of standard errors, by its code. -/
  | standardRpcError (code : Value)
  | rpcError (response : Value)
  | contractExecutionError (error : Value)
  | invalidResponseError (response : Value)
  | responseError (response : Value) (message : String)
  /-- The response itself. -/
  | thrown (response : Value)

/-- The codes of `rpcErrorsMap`. -/
def rpcErrorCodes : List ℚ :=
  [-32700, -32600, -32601, -32602, -32603, -32000, -32004, -32002, -32003,
    -32001, -32006, -32005]

def hasRpcErrorCode : Value → Bool
  | .number (.finite code) => rpcErrorCodes.contains code
  | _ => false

/-- The comparisons of `errorCode >= -32099 && errorCode <= -32000`. -/
def inServerErrorRange : Number → Bool
  | .finite code => -32099 ≤ code && code ≤ -32000
  | .notANumber | .infinity _ => false

section Process

variable (language : Language)

/-- `isResponseRpcError`; the error of a response may be `null`. -/
def isResponseRpcError (response : Value) : Except Thrown Bool :=
  if (response.property "error").isNullish then .error .typeError
  else
    let errorCode := (response.property "error").property "code"
    .ok (hasRpcErrorCode errorCode ||
      inServerErrorRange (language.number errorCode))

/-- Whether a text occurs in another one. -/
def includes (text part : List Char) : Bool :=
  text.tails.any part.isPrefixOf

/-- The error that `_isReverted` looks at. -/
def revertedError (response : Value) : Value :=
  if response.isResponseWithError = some true then response.property "error"
  else if response.isErrorInstance then response
  else .undefined

/-- `_isReverted`, which is never true. -/
def isReverted (response : Value) : Except Thrown Bool :=
  match (revertedError response).property "message" with
  | .string message =>
      if includes message.toList "revert".toList then
        .error (.contractExecutionError (revertedError response))
      else .ok false
  | _ => .ok false

/-- The response is looked up among the RPC errors. -/
def isSpecifiedError (useRpcCallSpecification : Bool) (response : Value) :
    Except Thrown Bool :=
  if useRpcCallSpecification then isResponseRpcError language response
  else .ok false

/-- What `new InvalidResponseError(response)` gives for a response with an
error, whose message it reads. -/
def invalidResponse (response : Value) : Thrown :=
  if (response.property "error").isNullish then .typeError
  else .invalidResponseError response

/-- The first branch: the response has an error. -/
def refuseError (useRpcCallSpecification : Bool) (response : Value) :
    Except Thrown Unit := do
  let isRpcError ←
    isSpecifiedError language useRpcCallSpecification response
  if isRpcError then
    let code := (response.property "error").property "code"
    if hasRpcErrorCode code then .error (.standardRpcError code)
    else .error (.rpcError response)
  else do
    let reverted ← isReverted response
    if reverted then .ok () else .error (invalidResponse response)

/-- `_buildResponse` -/
def buildResponse (payload : Payload) (response : Value) (error : Bool) :
    Value :=
  .object false
    [("jsonrpc", .string "2.0"), ("id", payload.builtId),
      (if error then "error" else "result", response)]

/-- What an error of a response gives, which looks for its `error`, or for those
of its elements. -/
def errorOf (response : Value) (problem : Thrown) : Thrown :=
  match response with
  | .boolean _ | .number _ | .string _ => .typeError
  | .array elements =>
      if elements.any Value.isNullish then .typeError else problem
  | _ => problem

/-- The checks of the kind and of the id, all of which throw. -/
def throwInvalid (payload : Payload) (response : Value)
    (isWithError : Bool) : Thrown :=
  errorOf response <|
  if payload.isBatchRequest && !response.isArray then
    .responseError response "Got normal response for a batch request."
  else if !payload.isBatchRequest && response.isArray then
    .responseError response "Got batch response for a normal request."
  else if (isWithError || response.isResponseWithResult) &&
      !payload.isBatchRequest && (response.property "id").truthy &&
      response.responseId ≠ payload.id then
    .invalidResponseError response
  else .responseError response "Invalid response"

/-- `!legacy && isBatchRequest(payload) && isBatchResponse(response)` -/
def isExpectedBatch (payload : Payload) (response : Value) (legacy : Bool) :
    Except Thrown Bool :=
  if !legacy && payload.isBatchRequest then
    match response.isBatchResponse with
    | some isBatch => .ok isBatch
    | none => .error .typeError
  else .ok false

/-- The branches after those of error and result responses and of errors. -/
def processOther (payload : Payload) (response : Value)
    (isWithError legacy error : Bool) : Except Thrown Value := do
  let isBatch ← isExpectedBatch payload response legacy
  if isBatch then .ok response
  else if legacy && !error && payload.isBatchRequest then .ok response
  else if legacy && error && payload.isBatchRequest then
    .error (.thrown response)
  else if legacy && !isWithError && !response.isResponseWithResult then
    .ok (buildResponse payload response error)
  else .error (throwInvalid payload response isWithError)

/-- The branches after the first one. -/
def processAccepted (payload : Payload) (response : Value)
    (isWithError legacy error : Bool) : Except Thrown Value :=
  if response.isResponseWithResult then .ok response
  else if response.isErrorInstance then do
    let _ ← isReverted response
    .error (.thrown response)
  else processOther payload response isWithError legacy error

/-- `_processJsonRpcResponse` -/
def processJsonRpcResponse (useRpcCallSpecification : Bool)
    (payload : Payload) (response : Value) (legacy error : Bool) :
    Except Thrown Value :=
  match response.isResponseWithError with
  | none => .ok (buildResponse payload .null error)
  | some true => do
      refuseError language useRpcCallSpecification response
      processAccepted payload response true legacy error
  | some false => processAccepted payload response false legacy error

end Process

section Acceptance

variable {language : Language} {useRpcCallSpecification error : Bool}
  {payload : Payload} {response result : Value}

theorem isReverted_eq_ok {reverted : Bool}
    (done : isReverted response = .ok reverted) : reverted = false := by
  rw [isReverted] at done
  split at done
  · split at done
    · cases done
    · cases done
      rfl
  · cases done
    rfl

/-- A response with an error is always refused. -/
theorem refuseError_ne_ok :
    refuseError language useRpcCallSpecification response ≠ .ok () := by
  intro done
  obtain ⟨isRpcError, -, decided⟩ := Outcome.bind_eq_ok.mp done
  cases isRpcError with
  | true =>
      simp only [if_true] at decided
      split at decided
      · cases decided
      · cases decided
  | false =>
      obtain ⟨reverted, checked, rest⟩ := Outcome.bind_eq_ok.mp decided
      cases isReverted_eq_ok checked
      cases rest

/-- Of the later branches only the one for batches returns. -/
theorem processOther_eq_ok {isWithError : Bool} :
    processOther payload response isWithError false error = .ok result ↔
      payload.isBatchRequest = true ∧
        response.isBatchResponse = some true ∧ result = response := by
  rw [processOther, isExpectedBatch]
  cases payload.isBatchRequest with
  | false => simp
  | true =>
      cases response.isBatchResponse with
      | none => simp
      | some isBatch =>
          cases isBatch with
          | false => simp
          | true => simp [eq_comm]

theorem processAccepted_eq_ok {isWithError : Bool} :
    processAccepted payload response isWithError false error = .ok result ↔
      result = response ∧ (response.isResponseWithResult = true ∨
        response.isErrorInstance = false ∧ payload.isBatchRequest = true ∧
          response.isBatchResponse = some true) := by
  rw [processAccepted]
  by_cases isResult : response.isResponseWithResult = true
  · rw [if_pos isResult]
    constructor
    · intro done
      cases done
      exact ⟨rfl, .inl isResult⟩
    · rintro ⟨rfl, -⟩
      rfl
  · rw [if_neg isResult]
    cases isError : response.isErrorInstance with
    | true =>
        rw [if_pos rfl]
        constructor
        · intro done
          obtain ⟨reverted, -, rest⟩ := Outcome.bind_eq_ok.mp done
          cases rest
        · rintro ⟨-, now | ⟨other, -⟩⟩
          · exact absurd now isResult
          · cases other
    | false =>
        rw [if_neg Bool.false_ne_true, processOther_eq_ok]
        constructor
        · rintro ⟨batch, valid, same⟩
          exact ⟨same, .inr ⟨rfl, batch, valid⟩⟩
        · rintro ⟨same, now | ⟨-, batch, valid⟩⟩
          · exact absurd now isResult
          · exact ⟨batch, valid, same⟩

/-- What is returned without the legacy flag: a response without an error that
is a result, or a batch response to a batch. -/
theorem processJsonRpcResponse_eq_ok (present : response.isNullish = false) :
    processJsonRpcResponse language useRpcCallSpecification payload response
        false error = .ok result ↔
      response.isResponseWithError = some false ∧ result = response ∧
        (response.isResponseWithResult = true ∨
          response.isErrorInstance = false ∧ payload.isBatchRequest = true ∧
            response.isBatchResponse = some true) := by
  rw [processJsonRpcResponse]
  cases isError : response.isResponseWithError with
  | none =>
      rw [Value.isResponseWithError, present] at isError
      cases isError
  | some isWithError =>
      cases isWithError with
      | true =>
          constructor
          · intro done
            obtain ⟨⟨⟩, refused, -⟩ := Outcome.bind_eq_ok.mp done
            exact absurd refused refuseError_ne_ok
          · rintro ⟨⟨⟩, -⟩
      | false =>
          rw [processAccepted_eq_ok]
          constructor
          · rintro ⟨same, accepted⟩
            exact ⟨rfl, same, accepted⟩
          · rintro ⟨-, same, accepted⟩
            exact ⟨same, accepted⟩

/-- What the request manager may return without the legacy flag. -/
def Acceptable (payload : Payload) (response : Value) : Prop :=
  (payload.isBatchRequest = false ∧ response.isResponseWithResult = true ∧
      response.responseId = payload.id) ∨
    (payload.isBatchRequest = true ∧ response.isBatchResponse = some true)

/-- Only acceptable responses are returned, exactly where no result response
without an error answers a batch or carries another id. -/
theorem processJsonRpcResponse_acceptable (language : Language)
    (useRpcCallSpecification : Bool) (payload : Payload) (response : Value)
    (error : Bool) (present : response.isNullish = false) :
    (∀ result, processJsonRpcResponse language useRpcCallSpecification payload
        response false error = .ok result → Acceptable payload response) ↔
      (response.isResponseWithResult = true →
        response.isResponseWithError = some false →
        payload.isBatchRequest = false ∧
          response.responseId = payload.id) := by
  constructor
  · intro holds isResult isError
    have accepted := holds response
      ((processJsonRpcResponse_eq_ok present).mpr
        ⟨isError, rfl, .inl isResult⟩)
    rcases accepted with ⟨single, -, same⟩ | ⟨-, batch⟩
    · exact ⟨single, same⟩
    · cases response with
      | array => cases isResult
      | _ => cases batch
  · intro holds result returned
    obtain ⟨isError, -, isResult | ⟨-, batch, valid⟩⟩ :=
      (processJsonRpcResponse_eq_ok present).mp returned
    · obtain ⟨single, same⟩ := holds isResult isError
      exact .inl ⟨single, isResult, same⟩
    · exact .inr ⟨batch, valid⟩

/-- Conversions and sorting that the responses below never reach. -/
def Language.trivial : Language where
  number _ := .notANumber
  sort numbers := numbers

/-- The result `7` of the request with the id `2`. -/
def foreignResult : Value :=
  .object false
    [("jsonrpc", .string "2.0"), ("id", .number (.finite 2)),
      ("result", .number (.finite 7))]

/-- The result of another request is returned, and so is a single result for a
batch. -/
theorem processJsonRpcResponse_violated :
    processJsonRpcResponse .trivial false (.single (some (.number (.finite 1))))
        foreignResult false false = .ok foreignResult ∧
      ¬Acceptable (.single (some (.number (.finite 1)))) foreignResult ∧
    processJsonRpcResponse .trivial false
        (.batch [some (.number (.finite 1)), some (.number (.finite 2))])
        foreignResult false false = .ok foreignResult ∧
      ¬Acceptable (.batch [some (.number (.finite 1)),
        some (.number (.finite 2))]) foreignResult := by
  refine ⟨rfl, ?_, rfl, ?_⟩
  · rintro (⟨-, -, same⟩ | ⟨batch, -⟩)
    · have ids : Id.number (.finite 2) = Id.number (.finite 1) :=
        Option.some.inj same
      exact absurd ids (by decide)
    · cases batch
  · rintro (⟨single, -⟩ | ⟨-, batch⟩)
    · cases single
    · cases batch

/-- The result of the request itself is acceptable. -/
theorem processJsonRpcResponse_acceptable_own :
    foreignResult.isNullish = false ∧
      processJsonRpcResponse .trivial false
        (.single (some (.number (.finite 2)))) foreignResult false false =
          .ok foreignResult ∧
      Acceptable (.single (some (.number (.finite 2)))) foreignResult := by
  have own := (processJsonRpcResponse_acceptable .trivial false
    (.single (some (.number (.finite 2)))) foreignResult false rfl).mpr
      fun _ _ => ⟨rfl, rfl⟩
  exact ⟨rfl, rfl, own foreignResult rfl⟩

end Acceptance

end Web3Js.Core
