import Web3Js.Core.Response
import Web3Js.Lib.BigEndian
import Web3Js.Lib.Invariant

/-!
# The HTTP provider

A request waits for the headers of a response and reads the body, counting its
bytes as they arrive.  Two deadlines bound it: one until the headers are there,
one for the whole request, which also listens to the signal of the caller.

A step is what one answer from outside sets off: the fetch that settles, a read
of the body, a timer, the caller.  What a body contains is fixed with its
response; how its reads are ordered with everything else is not.
-/

namespace Web3Js.Http

open Web3Js.Core (Value Number)

/-- What a request can be rejected with. -/
inductive Problem
  | provider (message : String)
  | responseTooLarge (maxResponseBytes receivedBytes : Nat)
  | capability (capability reason : String)
  | connectionTimeout (duration : ℚ)
  | requestTimeout (duration : ℚ) (method : Option String)
  /-- A `ResponseError` that carries the parsed body. -/
  | response (response : Value)
  | unparsable (message : String)
  | typeError
  /-- The reason of the caller, or an error of the fetch implementation. -/
  | foreign (thrown : Value)

/-- What the language does: `Number(text)`, `String(value)`, the decoder of
UTF-8 and `JSON.parse`, which throws with a message. -/
structure Platform where
  number : String → Number
  shown : Value → String
  decode : Bytes → String
  parse : String → Except String Value

/-! ## Bounds -/

section Bounds

variable (platform : Platform)

abbrev Timeout := { duration : ℚ // 0 < duration }

abbrev PositiveInteger := { count : Nat // 0 < count }

/-- The defaults are bounds. -/
theorem connectionTimeout_pos : (0 : ℚ) < 30000 := by
  decide

theorem requestTimeout_pos : (0 : ℚ) < 120000 := by
  decide

theorem maxInFlightRequests_pos : 0 < 256 := by
  decide

def validateTimeout (value : Value) (optionName : String) :
    Except Problem Timeout :=
  let problem := Problem.provider ("Invalid " ++ optionName ++
    ": expected a finite number of milliseconds greater than 0, got " ++
    platform.shown value ++ ". Timeouts cannot be disabled or infinite.")
  match value with
  | .number (.finite duration) =>
      if positive : 0 < duration then .ok ⟨duration, positive⟩
      else .error problem
  | _ => .error problem

def validatePositiveInteger (value : Value) (optionName : String) :
    Except Problem PositiveInteger :=
  let problem := Problem.provider ("Invalid " ++ optionName ++
    ": expected a positive integer, got " ++ platform.shown value ++ ".")
  match value with
  | .number (.finite count) =>
      if positive : count.den = 1 ∧ 0 < count.num.toNat then
        .ok ⟨count.num.toNat, positive.2⟩
      else .error problem
  | _ => .error problem

structure ProviderBoundsOptions where
  connectionTimeout : Value := .undefined
  requestTimeout : Value := .undefined
  maxResponseBytes : Value := .undefined
  maxInFlightRequests : Value := .undefined

structure ProviderBounds where
  connectionTimeout : Timeout
  requestTimeout : Timeout
  maxResponseBytes : PositiveInteger
  maxInFlightRequests : PositiveInteger

/-- `value ?? otherwise` -/
def orElse (value : Value) (otherwise : ℚ) : Value :=
  if value.isNullish then .number (.finite otherwise) else value

def resolveProviderBounds (options : ProviderBoundsOptions) :
    Except Problem ProviderBounds := do
  let connectionTimeout ← validateTimeout platform
    (orElse options.connectionTimeout 30000) "connectionTimeout"
  let requestTimeout ← validateTimeout platform
    (orElse options.requestTimeout 120000) "requestTimeout"
  let maxResponseBytes ← validatePositiveInteger platform
    (orElse options.maxResponseBytes (10 * 1024 * 1024)) "maxResponseBytes"
  let maxInFlightRequests ← validatePositiveInteger platform
    (orElse options.maxInFlightRequests 256) "maxInFlightRequests"
  .ok { connectionTimeout, requestTimeout, maxResponseBytes,
        maxInFlightRequests }

end Bounds

/-! ## Abort signals -/

/-- A deadline composed with a signal. -/
structure AbortComposition where
  timerArmed : Bool
  /-- The listener on the signal that it is composed from. -/
  listening : Bool
  aborted : Option Problem := none
  timedOut : Bool := false
  disposed : Bool := false

namespace AbortComposition

def dispose (composition : AbortComposition) : AbortComposition :=
  { composition with timerArmed := false, listening := false, disposed := true }

/-- `abort` of a controller, which keeps its first reason. -/
def abort (composition : AbortComposition) (reason : Problem) :
    AbortComposition :=
  { composition with aborted := composition.aborted.or (some reason) }

end AbortComposition

/-- The signal that is composed, if there is one, is given by the reason it has
been aborted with. -/
def composeAbortSignal : Option (Option Problem) → AbortComposition
  | none => { timerArmed := true, listening := false }
  | some none => { timerArmed := true, listening := true }
  | some (some reason) =>
      AbortComposition.dispose
        { timerArmed := true, listening := false, aborted := some reason }

/-! ## Responses -/

/-- What a read of a body yields. -/
inductive Item
  | binary (bytes : Bytes)
  | undefined
  | other (type : String)

inductive Body
  | absent
  | bytes (content : Bytes)
  /-- A stream with a reader. -/
  | stream (items : List Item)
  /-- An asynchronous iterable, and whether its iterator has a `return`. -/
  | iterable (items : List Item) (returns : Bool)
  | unsupported (type : String)

structure Response where
  ok : Bool
  status : Nat
  contentLength : Option String
  body : Body

def emptyBodyStatuses : List Nat := [204, 205, 304]

def declaredContentLength (platform : Platform) (response : Response) :
    Option Nat :=
  let raw := response.contentLength.getD ""
  if raw = "" then none
  else
    match platform.number raw with
    | .finite declared =>
        if declared.den = 1 ∧ 0 ≤ declared then some declared.num.toNat
        else none
    | _ => none

/-- `merged.set(chunk, offset)` -/
def setChunk (merged : Bytes × Nat) (chunk : Bytes) : Bytes × Nat :=
  (merged.1.take merged.2 ++ chunk ++ merged.1.drop (merged.2 + chunk.length),
    merged.2 + chunk.length)

/-- The chunks one after another in an array of the given size. -/
def mergeChunks (chunks : List Bytes) (totalBytes : Nat) : Bytes :=
  (chunks.foldl setChunk (List.replicate totalBytes 0, 0)).1

def nonBinaryChunk (type : String) : Problem :=
  .capability "binary response chunks"
    ("the response body yielded a non-binary chunk (" ++ type ++
      "), so response bytes cannot be counted")

def withheldBody : Problem :=
  .capability "readable response body"
    ("the fetch implementation returned a non-empty response with no" ++
      " readable body, so maxResponseBytes cannot be enforced")

def unsupportedBody (type : String) : Problem :=
  .capability "readable response body"
    ("the fetch implementation returned a response body of an unsupported" ++
      " type (" ++ type ++ "), so maxResponseBytes cannot be enforced")

/-- Whether `buildErrorMessage` returns. -/
def messageReadable (response : Value) : Bool :=
  match response.isResponseWithError with
  | some true => !(response.property "error").isNullish
  | some false => true
  | none => false

/-- What `new ResponseError(response)` gives, or throws for a value that has no
properties to look for. -/
def responseError (response : Value) : Problem :=
  match response with
  | .array elements =>
      if elements.all messageReadable then .response response else .typeError
  | .object _ _ =>
      if messageReadable response then .response response else .typeError
  | _ => .typeError

/-! ## Requests -/

/-- What a request is made with, its bounds resolved. -/
structure Request where
  platform : Platform
  connectionTimeout : Timeout
  requestTimeout : Timeout
  maxResponseBytes : PositiveInteger
  method : Option String

/-- How far a body has been read. -/
structure Progress where
  chunks : List Bytes := []
  totalBytes : Nat := 0
  remaining : List Item

/-- What the request waits for. -/
inductive Phase
  | fetching
  | reading (response : Response) (progress : Progress)
  /-- The reader is being cancelled. -/
  | cancelling (response : Response) (totalBytes : Nat)
  | iterating (response : Response) (returns : Bool) (progress : Progress)
  /-- The iterator is being closed. -/
  | returning (response : Response) (problem : Problem)
  | settled (response : Option Response) (outcome : Except Problem Value)

structure State where
  requestComposition : AbortComposition
  headerComposition : AbortComposition
  phase : Phase := .fetching
  /-- `onAbort` is attached to the signal of the request. -/
  onAbort : Bool := false
  /-- The body has been told to stop. -/
  stopped : Bool := false

inductive Label
  | fetched (response : Response)
  | fetchFailed (thrown : Value)
  /-- The next item of the body. -/
  | read
  /-- The end of the body, or of one that has been told to stop. -/
  | ended
  | readFailed (thrown : Value)
  | cancelled (failure : Option Value)
  | returned
  | connectionDeadline
  | requestDeadline
  | callerAbort (reason : Value)

/-- The request with an override of its deadline and the signal of a caller,
which is given by its reason where it has been aborted already. -/
def HttpProvider.request (platform : Platform) (bounds : ProviderBounds)
    (requestTimeout : Value) (method : Option String) :
    Except Problem Request := do
  let requestTimeout ←
    match requestTimeout with
    | .undefined => .ok bounds.requestTimeout
    | value => validateTimeout platform value "requestTimeout"
  .ok { platform, requestTimeout, method,
        connectionTimeout := bounds.connectionTimeout
        maxResponseBytes := bounds.maxResponseBytes }

/-- Before the fetch has answered. -/
def start (signal : Option (Option Value)) : State :=
  let requestComposition := composeAbortSignal
    (signal.map fun aborted => aborted.map .foreign)
  { requestComposition
    headerComposition := composeAbortSignal
      (some requestComposition.aborted) }

namespace State

variable (request : Request) (state : State)

/-- The `catch` of `request`. -/
def caught (problem : Problem) : Problem :=
  match problem with
  | .responseTooLarge _ _ | .capability _ _ => problem
  | _ =>
      if state.headerComposition.timedOut then
        .connectionTimeout request.connectionTimeout
      else if state.requestComposition.timedOut then
        .requestTimeout request.requestTimeout request.method
      else problem

/-- The `finally` of the read and that of `request`. -/
def settle (response : Option Response) (outcome : Except Problem Value) :
    State :=
  { state with
    phase := .settled response outcome
    onAbort := false
    headerComposition := state.headerComposition.dispose
    requestComposition := state.requestComposition.dispose }

def fail (response : Option Response) (problem : Problem) : State :=
  state.settle response (.error (state.caught request problem))

/-- `parseBoundedJson` once the text has been read, and what `request` makes of
its value. -/
def finish (response : Response) (text : String) : State :=
  match request.platform.parse text with
  | .error problem =>
      state.fail request (some response)
        (.unparsable ("Failed to parse HTTP response: " ++ problem))
  | .ok value =>
      if response.ok then state.settle (some response) (.ok value)
      else state.fail request (some response) (responseError value)

/-- The body has come to its end, unless it was made to. -/
def complete (response : Response) (progress : Progress) : State :=
  match state.requestComposition.aborted with
  | some reason => state.fail request (some response) reason
  | none =>
      state.finish request response (request.platform.decode
        (mergeChunks progress.chunks progress.totalBytes))

/-- The head of the loop of `readFromReader`. -/
def readOn (response : Response) (progress : Progress) : State :=
  match state.requestComposition.aborted with
  | some reason => state.fail request (some response) reason
  | none => { state with phase := .reading response progress }

/-- One pass of the loop of `readFromReader`. -/
def onReaderRead (response : Response) (progress : Progress) : State :=
  match progress.remaining with
  | [] => state
  | .undefined :: remaining =>
      state.readOn request response { progress with remaining }
  | .other type :: _ =>
      state.fail request (some response) (nonBinaryChunk type)
  | .binary chunk :: remaining =>
      let totalBytes := progress.totalBytes + chunk.length
      if request.maxResponseBytes.val < totalBytes then
        { state with
          phase := .cancelling response totalBytes, stopped := true }
      else
        state.readOn request response
          { chunks := progress.chunks ++ [chunk], totalBytes, remaining }

/-- A throw out of the loop of `readFromAsyncIterable` closes the iterator. -/
def throwFrom (response : Response) (returns : Bool) (problem : Problem) :
    State :=
  if returns then
    { state with phase := .returning response problem, stopped := true }
  else state.fail request (some response) problem

/-- One pass of the loop of `readFromAsyncIterable`. -/
def onIterated (response : Response) (returns : Bool) (progress : Progress) :
    State :=
  match progress.remaining with
  | [] => state
  | item :: remaining =>
      match state.requestComposition.aborted with
      | some reason => state.throwFrom request response returns reason
      | none =>
          match item with
          | .undefined =>
              state.throwFrom request response returns
                (nonBinaryChunk "undefined")
          | .other type =>
              state.throwFrom request response returns (nonBinaryChunk type)
          | .binary chunk =>
              let totalBytes := progress.totalBytes + chunk.length
              if request.maxResponseBytes.val < totalBytes then
                let destroyed := { state with stopped := true }
                destroyed.throwFrom request response returns
                  (.responseTooLarge request.maxResponseBytes totalBytes)
              else
                let next : Progress := {
                  chunks := progress.chunks ++ [chunk], totalBytes, remaining }
                { state with phase := .iterating response returns next }

/-- `readBoundedText` up to the first read of a body that has to be read. -/
def readBoundedText (response : Response) : State :=
  let declared := declaredContentLength request.platform response
  if request.maxResponseBytes.val < declared.getD 0 then
    state.fail request (some response)
      (.responseTooLarge request.maxResponseBytes (declared.getD 0))
  else
    match response.body with
    | .absent =>
        if declared = some 0 ∨ response.status ∈ emptyBodyStatuses then
          state.finish request response ""
        else state.fail request (some response) withheldBody
    | .bytes content =>
        if request.maxResponseBytes.val < content.length then
          state.fail request (some response)
            (.responseTooLarge request.maxResponseBytes content.length)
        else
          state.finish request response (request.platform.decode
            (mergeChunks [content] content.length))
    | .stream items =>
        let attached := { state with onAbort := true }
        attached.readOn request response { remaining := items }
    | .iterable items returns =>
        { state with
          onAbort := true
          phase := .iterating response returns { remaining := items } }
    | .unsupported type =>
        state.fail request (some response) (unsupportedBody type)

/-- The listeners on the signal of the request, each of which listens once. -/
def onRequestAbort (reason : Problem) : State :=
  { state with
    headerComposition :=
      if state.headerComposition.listening then
        (state.headerComposition.abort reason).dispose
      else state.headerComposition
    stopped := state.stopped || state.onAbort
    onAbort := false }

/-- The signal of the request aborts. -/
def abortRequest (reason : Problem) : State :=
  let aborted := { state with
    requestComposition := state.requestComposition.abort reason }
  let notified := aborted.onRequestAbort reason
  { notified with requestComposition := notified.requestComposition.dispose }

def connectionDeadline : State :=
  if state.headerComposition.timerArmed then
    let composition := { state.headerComposition with
      timerArmed := false, timedOut := true }
    { state with headerComposition :=
        (composition.abort
          (.connectionTimeout request.connectionTimeout)).dispose }
  else state

def requestDeadline : State :=
  if state.requestComposition.timerArmed then
    let composition := { state.requestComposition with
      timerArmed := false, timedOut := true }
    let expired := { state with requestComposition := composition }
    expired.abortRequest (.requestTimeout request.requestTimeout request.method)
  else state

def callerAbort (reason : Value) : State :=
  if state.requestComposition.listening then
    state.abortRequest (.foreign reason)
  else state

def fetched (response : Response) : State :=
  let disposed := { state with
    headerComposition := state.headerComposition.dispose }
  disposed.readBoundedText request response

/-- The step of a label, which is one that the request waits for or that can
come at any time; another leaves the state alone. -/
def step : Label → State
  | .connectionDeadline => state.connectionDeadline request
  | .requestDeadline => state.requestDeadline request
  | .callerAbort reason => state.callerAbort reason
  | .fetched response =>
      match state.phase with
      | .fetching => state.fetched request response
      | _ => state
  | .fetchFailed thrown =>
      match state.phase with
      | .fetching => state.fail request none (.foreign thrown)
      | _ => state
  | .read =>
      match state.phase with
      | .reading response progress =>
          state.onReaderRead request response progress
      | .iterating response returns progress =>
          state.onIterated request response returns progress
      | _ => state
  | .ended =>
      match state.phase with
      | .reading response progress | .iterating response _ progress =>
          if progress.remaining.isEmpty || state.stopped then
            state.complete request response progress
          else state
      | _ => state
  | .readFailed thrown =>
      match state.phase with
      | .reading response _ | .iterating response _ _ =>
          state.fail request (some response) (.foreign thrown)
      | _ => state
  | .cancelled failure =>
      match state.phase, failure with
      | .cancelling response totalBytes, none =>
          state.fail request (some response)
            (.responseTooLarge request.maxResponseBytes totalBytes)
      | .cancelling response _, some thrown =>
          state.fail request (some response) (.foreign thrown)
      | _, _ => state
  | .returned =>
      match state.phase with
      | .returning response problem =>
          state.fail request (some response) problem
      | _ => state

end State

/-- What has happened to the request after the labels of a run. -/
def after (request : Request) (signal : Option (Option Value))
    (labels : List Label) : State :=
  run (State.step request) (start signal) labels

end Web3Js.Http
