import Web3Js.Core.RequestManager

/-!
# Sending a request

`_sendRequest` hands the payload to the provider in the first way that the
provider offers, and its promise is settled by what the provider reports:
a promise, a callback or a throw.  An error that a callback throws reaches
nobody but the provider, so that such a report settles nothing.
-/

namespace Web3Js.Core

/-- A provider, by what the predicates of the ways read of it. -/
structure SupportedProvider where
  isWeb3Provider : Bool
  /-- `provider.request.constructor.name`, where there is a `request` -/
  request : Option String
  send : Bool
  sendAsync : Bool

inductive Way
  | web3
  | eip1193
  | legacyRequest
  | legacySend
  | legacySendAsync

namespace SupportedProvider

def isEIP1193Provider (provider : SupportedProvider) : Bool :=
  provider.request == some "AsyncFunction"

def isLegacyRequestProvider (provider : SupportedProvider) : Bool :=
  provider.request == some "Function"

/-- The first way that the provider offers. -/
def way (provider : SupportedProvider) : Option Way :=
  if provider.isWeb3Provider then some .web3
  else if provider.isEIP1193Provider then some .eip1193
  else if provider.isLegacyRequestProvider then some .legacyRequest
  else if provider.send then some .legacySend
  else if provider.sendAsync then some .legacySendAsync
  else none

end SupportedProvider

/-- What a provider does about a request. -/
inductive Report
  /-- The promise that it returned is fulfilled. -/
  | resolved (response : Value)
  | rejected (error : Value)
  | called (error response : Value)
  /-- The call of the provider throws, maybe what a callback threw in it. -/
  | threw (error : Thrown)

/-- What a promise is rejected with. -/
inductive Reason
  | thrown (error : Thrown)
  | providerError (message : String) (innerError : Option Value)

/-- The texts that the engine and the error classes make. -/
structure Texts where
  /-- The message of an error -/
  message : Thrown → String
  /-- `convertToString`, or the type where it throws -/
  describe : Value → String
  /-- The text of a value in a template -/
  template : Value → String

/-- A thrown value; of an error only the message is looked at. -/
def Thrown.asValue (texts : Texts) (error : Thrown) : Value :=
  match error with
  | .thrown value => value
  | other => .object true [("message", .string (texts.message other))]

/-- `_isJsonRpcResponse`, which reads the elements of an array. -/
def isJsonRpcResponse (value : Value) : Except Thrown Bool :=
  if value.isNullish then .ok true
  else
    match value.isBatchResponse with
    | none => .error .typeError
    | some isBatch =>
        .ok (isBatch || value.isResponseWithError == some true ||
          value.isResponseWithResult)

/-- `_buildNonJsonRpcError` -/
def buildNonJsonRpcError (texts : Texts) (error : Thrown) : Reason :=
  let value := error.asValue texts
  if value.isErrorInstance then
    match isReverted value with
    | .error revertError => .thrown revertError
    | .ok _ => .thrown error
  else
    .providerError ("Provider returned a value that is not a valid JSON-RPC " ++
      "response: " ++ texts.describe value) (some value)

section Sending

variable (language : Language) (texts : Texts)
  (useRpcCallSpecification : Bool) (id : Id)

/-- The response is processed for the payload of one request. -/
def process (response : Value) (legacy error : Bool) : Except Thrown Value :=
  processJsonRpcResponse language useRpcCallSpecification (.single (some id))
    response legacy error

/-- The processing in a promise, which what is thrown rejects. -/
def processInPromise (response : Value) (legacy error : Bool) :
    Except Reason Value :=
  match process language useRpcCallSpecification id response legacy error with
  | .ok processed => .ok processed
  | .error problem => .error (.thrown problem)

/-- A `catch` whose throws reject the promise that it returns. -/
def onCaught (error : Thrown) (legacy asError : Bool) :
    Except Reason Value :=
  match isJsonRpcResponse (error.asValue texts) with
  | .error problem => .error (.thrown problem)
  | .ok false => .error (buildNonJsonRpcError texts error)
  | .ok true =>
      processInPromise language useRpcCallSpecification id
        (error.asValue texts) legacy asError

/-- A `then` followed by a `catch`, which gets what the `then` throws. -/
def onThen (response : Value) : Except Reason Value :=
  match process language useRpcCallSpecification id response true false with
  | .ok processed => .ok processed
  | .error error =>
      onCaught language texts useRpcCallSpecification id error true true

/-- The error of a callback. -/
def rejectWithError (error : Value) : Option (Except Reason Value) :=
  match isJsonRpcResponse error with
  | .error _ => none
  | .ok false => some (.error (buildNonJsonRpcError texts (.thrown error)))
  | .ok true =>
      match process language useRpcCallSpecification id error true true with
      | .error _ => none
      | .ok processed => some (.error (.thrown (.thrown processed)))

/-- The response of a callback. -/
def resolveWithResponse (response : Value) : Option (Except Reason Value) :=
  match process language useRpcCallSpecification id response true false with
  | .error _ => none
  | .ok processed => some (.ok processed)

/-- The `catch` of a promise of a legacy `request`: what it throws itself is
lost, and what the processing throws is not. -/
def rejectCaught (error : Thrown) : Option (Except Reason Value) :=
  match isJsonRpcResponse (error.asValue texts) with
  | .error _ => none
  | .ok false => some (.error (buildNonJsonRpcError texts error))
  | .ok true =>
      match process language useRpcCallSpecification id (error.asValue texts)
          true true with
      | .error problem => some (.error (.thrown problem))
      | .ok processed => some (.error (.thrown (.thrown processed)))

/-- The request of a provider of this library is awaited in a `try`. -/
def settleWeb3 : Report → Option (Except Reason Value)
  | .resolved response =>
      some (processInPromise language useRpcCallSpecification id response
        false false)
  | .rejected error =>
      some (onCaught language texts useRpcCallSpecification id
        (.thrown error) false false)
  | .threw error =>
      some (onCaught language texts useRpcCallSpecification id error
        false false)
  | .called _ _ => none

/-- The promises of `request` and of `sendAsync` are chained. -/
def settleChained : Report → Option (Except Reason Value)
  | .resolved response =>
      some (onThen language texts useRpcCallSpecification id response)
  | .rejected error =>
      some (onCaught language texts useRpcCallSpecification id
        (.thrown error) true true)
  | .threw error => some (.error (.thrown error))
  | .called _ _ => none

/-- A legacy `request` may call back and may return a promise. -/
def settleLegacyRequest : Report → Option (Except Reason Value)
  | .resolved response =>
      match process language useRpcCallSpecification id response true false with
      | .ok processed => some (.ok processed)
      | .error error =>
          rejectCaught language texts useRpcCallSpecification id error
  | .rejected error =>
      rejectCaught language texts useRpcCallSpecification id (.thrown error)
  | .called error response =>
      if error.truthy then
        rejectWithError language texts useRpcCallSpecification id error
      else resolveWithResponse language useRpcCallSpecification id response
  | .threw error => some (.error (.thrown error))

/-- A legacy `send` only calls back, and is refused an empty response. -/
def settleLegacySend : Report → Option (Except Reason Value)
  | .called error response =>
      if error.truthy then
        rejectWithError language texts useRpcCallSpecification id error
      else if response.isNullish then
        some (.error (.thrown (.responseError (.object false [])
          "Got a \"nullish\" response from provider.")))
      else resolveWithResponse language useRpcCallSpecification id response
  | .threw error => some (.error (.thrown error))
  | .resolved _ | .rejected _ => none

def settleReport : Way → Report → Option (Except Reason Value)
  | .web3 => settleWeb3 language texts useRpcCallSpecification id
  | .eip1193 | .legacySendAsync =>
      settleChained language texts useRpcCallSpecification id
  | .legacyRequest =>
      settleLegacyRequest language texts useRpcCallSpecification id
  | .legacySend => settleLegacySend language texts useRpcCallSpecification id

/-- `_sendRequest`: the first report that settles the promise counts, and
without one the promise stays pending. -/
def sendRequest (provider : Option SupportedProvider)
    (reports : List Report) : Option (Except Reason Value) :=
  match provider with
  | none =>
      some (.error (.providerError ("Provider not available. Use " ++
        "`.setProvider` or `.provider=` to initialize the provider.") none))
  | some provider =>
      match provider.way with
      | none =>
          some (.error (.providerError
            "Provider does not have a request method to use." none))
      | some way =>
          reports.findSome?
            (settleReport language texts useRpcCallSpecification id way)

/-- `new ResponseError(response)` of a response that is no array. -/
def newResponseError (response : Value) : Thrown :=
  match response.isResponseWithError with
  | none => .typeError
  | some false => .responseError response "Returned error: "
  | some true =>
      if (response.property "error").isNullish then .typeError
      else
        .responseError response ("Returned error: " ++
          texts.template ((response.property "error").property "message"))

/-- What `send` makes of the response to the request. -/
def received (response : Value) : Except Reason Value :=
  if response.isResponseWithResult then .ok (response.property "result")
  else .error (.thrown (newResponseError texts response))

/-- `Web3RequestManager.send` -/
def send (provider : Option SupportedProvider) (reports : List Report) :
    Option (Except Reason Value) :=
  (sendRequest language texts useRpcCallSpecification id provider
    reports).map fun settled => settled.bind (received texts)

end Sending

section Processing

variable {language : Language} {texts : Texts}
  {useRpcCallSpecification : Bool} {id : Id} {response value result : Value}

theorem isResponseWithError_eq_none :
    response.isResponseWithError = none ↔ response.isNullish = true := by
  rw [Value.isResponseWithError]
  by_cases empty : response.isNullish = true
  · rw [if_pos empty]
    exact iff_of_true rfl empty
  · rw [if_neg empty]
    exact iff_of_false (Option.some_ne_none _) empty

/-- Only an array is read as a batch. -/
theorem isBatchResponse_of_single
    (single : response.isNullish = true ∨ response.isErrorInstance = true ∨
      response.isResponseWithResult = true ∨
      response.isResponseWithError = some true) :
    response.isBatchResponse = some false := by
  cases response with
  | array elements =>
      rcases single with empty | isError | isResult | withError
      · cases empty
      · cases isError
      · cases isResult
      · cases withError
  | _ => rfl

/-- A single response that is neither an error, nor a result, nor an instance
of `Error` is wrapped for a legacy provider and refused for another one. -/
theorem processOther_single {legacy error : Bool} :
    processOther (.single (some id)) response false legacy error =
      if legacy && !response.isResponseWithResult then
        .ok (buildResponse (.single (some id)) response error)
      else
        .error (throwInvalid (.single (some id)) response false) := by
  cases legacy <;> cases error <;> rfl

/-- What the processing of a response to one request returns. -/
def Processed (id : Id) (legacy error : Bool) (response result : Value) :
    Prop :=
  response.isNullish = true ∧
      result = buildResponse (.single (some id)) .null error ∨
    response.isResponseWithError = some false ∧
      (response.isResponseWithResult = true ∧ result = response ∨
        legacy = true ∧ response.isResponseWithResult = false ∧
          response.isErrorInstance = false ∧
          result = buildResponse (.single (some id)) response error)

theorem process_eq_ok {legacy error : Bool} :
    process language useRpcCallSpecification id response legacy error =
        .ok result ↔
      Processed id legacy error response result := by
  rw [process, processJsonRpcResponse, Processed]
  cases withError : response.isResponseWithError with
  | none =>
      constructor
      · intro done
        cases done
        exact .inl ⟨isResponseWithError_eq_none.mp withError, rfl⟩
      · rintro (⟨-, rfl⟩ | ⟨⟨⟩, -⟩)
        rfl
  | some isWithError =>
      have present : response.isNullish = false := by
        rw [← Bool.not_eq_true, ← isResponseWithError_eq_none, withError]
        exact Option.some_ne_none _
      cases isWithError with
      | true =>
          apply iff_of_false
          · intro done
            obtain ⟨⟨⟩, refused, -⟩ := Outcome.bind_eq_ok.mp done
            exact refuseError_ne_ok refused
          · simp [present]
      | false =>
          simp only [processAccepted]
          by_cases isResult : response.isResponseWithResult = true
          · rw [if_pos isResult]
            constructor
            · intro done
              cases done
              exact .inr ⟨trivial, .inl ⟨isResult, rfl⟩⟩
            · rintro (⟨empty, -⟩ | ⟨-, ⟨-, rfl⟩ | ⟨-, noResult, -⟩⟩)
              · rw [present] at empty
                cases empty
              · rfl
              · rw [isResult] at noResult
                cases noResult
          · rw [if_neg isResult]
            rw [Bool.not_eq_true] at isResult
            cases isError : response.isErrorInstance with
            | true =>
                rw [if_pos rfl]
                apply iff_of_false
                · intro done
                  obtain ⟨reverted, -, rest⟩ := Outcome.bind_eq_ok.mp done
                  cases rest
                · simp [present, isResult]
            | false =>
                rw [if_neg Bool.false_ne_true, processOther_single]
                cases legacy with
                | false => simp [present, isResult]
                | true =>
                    constructor
                    · intro done
                      rw [isResult] at done
                      cases done
                      exact .inr ⟨trivial, .inr ⟨rfl, isResult, rfl, rfl⟩⟩
                    · rintro (⟨empty, -⟩ | ⟨-, ⟨now, -⟩ | ⟨-, -, -, rfl⟩⟩)
                      · rw [present] at empty
                        cases empty
                      · rw [isResult] at now
                        cases now
                      · rw [isResult]
                        rfl

/-- The responses that a legacy provider is refused. -/
def Refused (response : Value) : Prop :=
  response.isResponseWithError = some true ∨
    response.isResponseWithResult = false ∧ response.isErrorInstance = true

theorem process_refused {error : Bool} :
    (∀ result, process language useRpcCallSpecification id response true
        error ≠ .ok result) ↔ Refused response := by
  simp only [ne_eq, process_eq_ok, Processed, Refused]
  cases withError : response.isResponseWithError with
  | none =>
      have empty := isResponseWithError_eq_none.mp withError
      have noError : response.isErrorInstance = false := by
        cases response with
        | object isError properties => cases empty
        | _ => rfl
      simp [empty, noError]
  | some isWithError =>
      have present : response.isNullish = false := by
        rw [← Bool.not_eq_true, ← isResponseWithError_eq_none, withError]
        exact Option.some_ne_none _
      cases isWithError with
      | true => simp [present]
      | false =>
          cases response.isResponseWithResult <;>
            cases response.isErrorInstance <;> simp [present]

end Processing

section Receiving

variable {language : Language} {texts : Texts}
  {useRpcCallSpecification : Bool} {id : Id} {response value result : Value}

theorem received_result (isResult : response.isResponseWithResult = true) :
    received texts response = .ok value ↔
      value = response.property "result" := by
  rw [received, if_pos isResult]
  simp [eq_comm]

/-- A response that was built for the request carries what it was built of,
unless it was built as an error. -/
theorem received_buildResponse {error : Bool} :
    received texts (buildResponse (.single (some id)) response error) =
        .ok value ↔ error = false ∧ value = response := by
  cases error with
  | false =>
      have isResult : (buildResponse (.single (some id)) response
          false).isResponseWithResult = true := by
        cases id <;>
          simp [buildResponse, Payload.builtId, Value.isResponseWithResult,
            Value.property, Value.hasProperty, Value.isArray, Value.truthy,
            Value.isVersion2, Value.isNullish, Value.responseId, Value.toId,
            List.lookup_cons]
      rw [received_result isResult]
      exact (and_iff_right rfl).symm
  | true =>
      have noResult : (buildResponse (.single (some id)) response
          true).isResponseWithResult = false := by
        cases id <;> cases response <;> rfl
      rw [received, noResult]
      simp

/-- The value that a response gives: nothing, its result, or, from a legacy
provider, whatever is not an error. -/
def Fulfils (legacy : Bool) (response value : Value) : Prop :=
  response.isNullish = true ∧ value = .null ∨
    response.isResponseWithError = some false ∧
      (response.isResponseWithResult = true ∧
          value = response.property "result" ∨
        legacy = true ∧ response.isResponseWithResult = false ∧
          response.isErrorInstance = false ∧ value = response)

/-- The result of a response that a provider rejects with. -/
def Recovers (response value : Value) : Prop :=
  response.isResponseWithError = some false ∧
    response.isResponseWithResult = true ∧ value = response.property "result"

theorem process_fulfils {legacy : Bool} :
    (∃ result, process language useRpcCallSpecification id response legacy
        false = .ok result ∧ received texts result = .ok value) ↔
      Fulfils legacy response value := by
  simp only [process_eq_ok]
  constructor
  · rintro ⟨result, ⟨empty, rfl⟩ | ⟨noError, ⟨isResult, rfl⟩ |
      ⟨isLegacy, noResult, notThrown, rfl⟩⟩, isValue⟩
    · exact .inl ⟨empty, (received_buildResponse.mp isValue).2⟩
    · exact .inr ⟨noError, .inl
        ⟨isResult, (received_result isResult).mp isValue⟩⟩
    · exact .inr ⟨noError, .inr ⟨isLegacy, noResult, notThrown,
        (received_buildResponse.mp isValue).2⟩⟩
  · rintro (⟨empty, rfl⟩ | ⟨noError, ⟨isResult, rfl⟩ |
      ⟨isLegacy, noResult, notThrown, rfl⟩⟩)
    · exact ⟨_, .inl ⟨empty, rfl⟩, received_buildResponse.mpr ⟨rfl, rfl⟩⟩
    · exact ⟨response, .inr ⟨noError, .inl ⟨isResult, rfl⟩⟩,
        (received_result isResult).mpr rfl⟩
    · exact ⟨_, .inr ⟨noError, .inr ⟨isLegacy, noResult, notThrown, rfl⟩⟩,
        received_buildResponse.mpr ⟨rfl, rfl⟩⟩

theorem process_recovers :
    (∃ result, process language useRpcCallSpecification id response true true =
        .ok result ∧ received texts result = .ok value) ↔
      Recovers response value := by
  simp only [process_eq_ok]
  constructor
  · rintro ⟨result, ⟨empty, rfl⟩ | ⟨noError, ⟨isResult, rfl⟩ |
      ⟨-, -, -, rfl⟩⟩, isValue⟩
    · cases (received_buildResponse.mp isValue).1
    · exact ⟨noError, isResult, (received_result isResult).mp isValue⟩
    · cases (received_buildResponse.mp isValue).1
  · rintro ⟨noError, isResult, rfl⟩
    exact ⟨response, .inr ⟨noError, .inl ⟨isResult, rfl⟩⟩,
      (received_result isResult).mpr rfl⟩

/-- What gives a value is taken for a JSON-RPC response. -/
theorem Fulfils.isJsonRpcResponse {response value : Value}
    (fulfils : Fulfils false response value) :
    isJsonRpcResponse response = .ok true := by
  rw [Core.isJsonRpcResponse]
  rcases fulfils with ⟨empty, -⟩ | ⟨noError, ⟨isResult, -⟩ | ⟨⟨⟩, -⟩⟩
  · rw [if_pos empty]
  · split
    · rfl
    · rw [isBatchResponse_of_single (.inr (.inr (.inl isResult))), isResult]
      simp

theorem Recovers.fulfils {response value : Value}
    (recovers : Recovers response value) : Fulfils false response value :=
  .inr ⟨recovers.1, .inl recovers.2⟩

end Receiving

end Web3Js.Core
