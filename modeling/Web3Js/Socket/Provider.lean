import Web3Js.Lib.Invariant
import Web3Js.Lib.OrderedMap
import Web3Js.Socket.Message

/-!
# The socket provider

The state of a provider is its bookkeeping: the two queues, from request ids
to the items that own them, and the items themselves, each with its
lifecycle, its composed abort signal and the settlements of its deferred
promise.  An item is identified by its position in the list of admitted
requests.

Every entry point runs to completion before another one starts.  What the
transport answers during an entry point (the status of the socket, a failing
send) is part of the label of the step, so runs range over all transports.
-/

namespace Web3Js.Socket

inductive Status
  | connecting
  | connected
  | disconnected
  deriving DecidableEq, Repr

/-- What a deferred promise is rejected with. -/
inductive Reason
  | requestTimeout (timeout : ℚ) (method : Option String)
  /-- The reason of the caller, or the provider's own. -/
  | aborted (reason : Option String)
  | connectionNotOpen
  | connectionTimeout (timeout : ℚ)
  | reset
  | pendingRequestsOnReconnecting
  | sendFailure (message : String)
  | invalidResponse (response : Json)

inductive Settlement
  | resolve (response : Json)
  | reject (reason : Reason)

/-- One entry of a payload, by the fields that the provider reads. -/
structure RequestEntry where
  id : Option RequestId
  method : Option String

inductive Payload
  | single (entry : RequestEntry)
  | batch (entries : List RequestEntry)

/-- The options of the constructor after validation. -/
structure Config where
  connectionTimeout : ℚ
  requestTimeout : ℚ
  maxInFlightRequests : Nat
  autoReconnect : Bool
  maxAttempts : Nat

section Abort

/-- The signal of a caller, as it is when the request is made. -/
structure CallerSignal where
  aborted : Bool
  reason : Option String

/-- A composed deadline and caller signal. -/
structure AbortComposition where
  timerArmed : Bool
  callerListening : Bool
  aborted : Option Reason := none
  timedOut : Bool := false
  disposed : Bool := false

namespace AbortComposition

/-- Run the clean-ups once: clear the timer, detach from the caller. -/
def dispose (composition : AbortComposition) : AbortComposition :=
  { composition with
    timerArmed := false, callerListening := false, disposed := true }

end AbortComposition

def composeAbortSignal (signal : Option CallerSignal) : AbortComposition :=
  let armed : AbortComposition := { timerArmed := true, callerListening := false }
  match signal with
  | none => armed
  | some signal =>
      if signal.aborted then
        AbortComposition.dispose
          { armed with aborted := some (.aborted signal.reason) }
      else
        { armed with callerListening := true }

end Abort

/-- A request item with its lifecycle. -/
structure Item where
  payload : Payload
  ids : List RequestId
  timeout : ℚ
  method : Option String
  abort : AbortComposition
  /-- The lifecycle is in the table of lifecycles. -/
  tracked : Bool := true
  /-- The `settled` flag of the lifecycle. -/
  settled : Bool := false
  /-- The `onAbort` listener is attached to the composed signal. -/
  listening : Bool := true
  /-- The calls of `resolve` and `reject` on the deferred promise. -/
  settlements : List Settlement := []

structure Provider where
  connectionStatus : Status
  isReconnecting : Bool := false
  reconnectAttempts : Nat := 0
  connectionTimer : Bool
  /-- Calls of `_reconnect` scheduled with `setImmediate`. -/
  immediates : Nat := 0
  /-- Running timers of `_reconnect`. -/
  reconnectTimers : Nat := 0
  pendingRequestsQueue : OrderedMap RequestId Nat := ∅
  sentRequestsQueue : OrderedMap RequestId Nat := ∅
  items : List Item := []
  peakInFlight : Nat := 0

namespace Item

/-- Steps 2 and 3 of `_settleRequest`. -/
def settle (item : Item) (outcome : Settlement) : Item :=
  if item.tracked then
    let item := { item with
      listening := false, abort := item.abort.dispose, tracked := false }
    if item.settled then item
    else
      { item with
        settled := true, settlements := item.settlements ++ [outcome] }
  else
    { item with settlements := item.settlements ++ [outcome] }

end Item

namespace Provider

def inFlightCount (provider : Provider) : Nat :=
  provider.pendingRequestsQueue.size + provider.sentRequestsQueue.size

def notifyDiagnostics (provider : Provider) : Provider :=
  { provider with
    peakInFlight := max provider.peakInFlight provider.inFlightCount }

section Settling

/-- The ids that settling an item under one of them releases. -/
def ownedIds (item : Item) (requestId : RequestId) : List RequestId :=
  if item.tracked then item.ids else [requestId]

/-- `this._sentRequestsQueue.get(id) ?? this._pendingRequestsQueue.get(id)` -/
def owner (provider : Provider) (requestId : RequestId) : Option Nat :=
  (provider.sentRequestsQueue.get? requestId).or
    (provider.pendingRequestsQueue.get? requestId)

/-- Release the slots of an item and settle it. -/
def release (provider : Provider) (key : Nat) (item : Item)
    (requestId : RequestId) (outcome : Settlement) : Provider :=
  notifyDiagnostics
    { provider with
      pendingRequestsQueue :=
        provider.pendingRequestsQueue.eraseAll (ownedIds item requestId)
      sentRequestsQueue :=
        provider.sentRequestsQueue.eraseAll (ownedIds item requestId)
      items := provider.items.set key (item.settle outcome) }

def settleRequest (provider : Provider) (requestId : RequestId)
    (outcome : Settlement) : Provider :=
  match provider.owner requestId with
  | none => provider
  | some key =>
      match provider.items[key]? with
      | none => provider
      | some item => provider.release key item requestId outcome

/-- Settle a snapshot of ids with one reason. -/
def rejectAll (provider : Provider) (ids : List RequestId)
    (reason : Reason) : Provider :=
  ids.foldl (fun provider id => provider.settleRequest id (.reject reason))
    provider

def rejectAllRequests (provider : Provider) (reason : Reason) : Provider :=
  provider.rejectAll
    (provider.pendingRequestsQueue.keys ++ provider.sentRequestsQueue.keys)
    reason

def clearQueues (provider : Provider) : Provider :=
  { provider with connectionTimer := false }.rejectAllRequests
    .connectionNotOpen

end Settling

section Requests

/-- Why a request is refused before it is admitted. -/
inductive Refusal
  | connectionUndefined
  | connection (message : String)
  | requestIdNotDefined
  | duplicateIds
  | alreadySent (id : RequestId)
  | queueFull (limit : Nat)
  | aborted (reason : Option String)
  | invalidTimeout

/-- What the transport answers while a request is made. -/
structure RequestAnswers where
  /-- `_socketConnection` is neither `null` nor `undefined`. -/
  connectionDefined : Bool
  status : Status
  /-- The error of opening the socket, when it throws. -/
  opening : Option String
  queueStatus : Status
  /-- The error of writing to the socket, when it throws. -/
  sending : Option String

structure RequestOptions where
  /-- `none` for the default; `some none` for a value that is refused. -/
  requestTimeout : Option (Option ℚ) := none
  signal : Option CallerSignal := none

/-- `connect`, with the error of opening the socket. -/
def connect (provider : Provider) (opening : Option String) :
    Provider × Option Refusal :=
  match opening with
  | none =>
      ({ provider with
         connectionStatus := .connecting, connectionTimer := true }, none)
  | some message =>
      let provider := { provider with connectionTimer := false }
      if provider.isReconnecting then
        ({ provider with immediates := provider.immediates + 1 }, none)
      else
        ({ provider with connectionStatus := .disconnected },
          some (.connection message))

/-- `!id` is false. -/
def isDefinedId : RequestId → Bool
  | .number value => value ≠ 0
  | .string value => value ≠ ""

def definedId (id : Option RequestId) : Option RequestId :=
  id.filter isDefinedId

/-- `_extractRequestIds`; an empty array is no batch and has no id. -/
def extractRequestIds : Payload → Except Refusal (List RequestId)
  | .single entry =>
      match definedId entry.id with
      | some id => .ok [id]
      | none => .error .requestIdNotDefined
  | .batch entries =>
      match entries.mapM fun entry => definedId entry.id with
      | none | some [] => .error .requestIdNotDefined
      | some ids =>
          if ids.Nodup then .ok ids else .error .duplicateIds

def payloadMethod : Payload → Option String
  | .single entry => entry.method
  | .batch [] => none
  | .batch _ => none

/-- The checks between the connection and the bookkeeping of a request. -/
def admission (config : Config) (provider : Provider) (payload : Payload)
    (options : RequestOptions) : Except Refusal (List RequestId × ℚ) := do
  let requestIds ← extractRequestIds payload
  match requestIds.find? fun id => provider.sentRequestsQueue.contains id ||
      provider.pendingRequestsQueue.contains id with
  | some id => .error (.alreadySent id)
  | none =>
      if config.maxInFlightRequests <
          provider.inFlightCount + requestIds.length then
        .error (.queueFull config.maxInFlightRequests)
      else
        match options.signal with
        | some { aborted := true, reason } => .error (.aborted reason)
        | _ =>
            match options.requestTimeout with
            | none => .ok (requestIds, config.requestTimeout)
            | some (some timeout) => .ok (requestIds, timeout)
            | some none => .error .invalidTimeout

/-- Enter an admitted request into one of the queues. -/
def enqueue (provider : Provider) (item : Item) (queueStatus : Status) :
    Provider :=
  let key := provider.items.length
  let provider := { provider with items := provider.items ++ [item] }
  notifyDiagnostics
    (if queueStatus = .connecting then
      { provider with
        pendingRequestsQueue :=
          provider.pendingRequestsQueue.setAll item.ids key }
    else
      { provider with
        sentRequestsQueue := provider.sentRequestsQueue.setAll item.ids key })

/-- Write an admitted request to the socket unless it waits for it. -/
def sendOrWait (provider : Provider) (ids : List RequestId)
    (answers : RequestAnswers) : Provider :=
  if answers.queueStatus = .connecting then provider
  else
    match answers.sending, ids with
    | some message, primaryId :: _ =>
        provider.settleRequest primaryId (.reject (.sendFailure message))
    | _, _ => provider

/-- `request`; admitted requests have a position among the items. -/
def request (config : Config) (provider : Provider) (payload : Payload)
    (options : RequestOptions) (answers : RequestAnswers) :
    Provider × Except Refusal Nat :=
  if answers.connectionDefined then
    let (provider, refusal) :=
      if answers.status = .disconnected then provider.connect answers.opening
      else (provider, none)
    match refusal with
    | some refusal => (provider, .error refusal)
    | none =>
        match provider.admission config payload options with
        | .error refusal => (provider, .error refusal)
        | .ok (ids, timeout) =>
            let item : Item :=
              { payload, ids, timeout
                method := payloadMethod payload
                abort := composeAbortSignal options.signal }
            ((provider.enqueue item answers.queueStatus).sendOrWait ids answers,
              .ok provider.items.length)
  else
    (provider, .error .connectionUndefined)

end Requests

section Events

/-- Move the ids of an item that are still pending to the sent queue. -/
def promote (provider : Provider) (key : Nat) (ids : List RequestId) :
    Provider :=
  ids.foldl
    (fun provider id =>
      if provider.pendingRequestsQueue.contains id then
        { provider with
          pendingRequestsQueue := provider.pendingRequestsQueue.erase id
          sentRequestsQueue := provider.sentRequestsQueue.set id key }
      else provider)
    provider

/-- One entry of the snapshot of `_sendPendingRequests`; `sent` are the items
seen before, and `sending` says which writes throw. -/
def sendPendingEntry (sending : Nat → Option String)
    (progress : Provider × List Nat) (entry : RequestId × Nat) :
    Provider × List Nat :=
  let (provider, sent) := progress
  let (id, key) := entry
  if key ∈ sent then progress
  else
    let owned := (provider.items[key]?.map (ownedIds · id)).getD [id]
    let provider := provider.promote key owned
    let provider :=
      match sending key with
      | some message =>
          provider.settleRequest id (.reject (.sendFailure message))
      | none => provider
    (provider, key :: sent)

def sendPendingRequests (provider : Provider)
    (sending : Nat → Option String) : Provider :=
  (provider.pendingRequestsQueue.entries.foldl (sendPendingEntry sending)
    (provider, [])).1

/-- A request that the provider makes itself once it is connected. -/
structure OwnRequest where
  id : RequestId
  answers : RequestAnswers

/-- `_onConnect`, whose base class asks for the chain id and the accounts. -/
def onConnect (config : Config) (provider : Provider)
    (chainId accounts : OwnRequest) (sending : Nat → Option String) :
    Provider :=
  let provider := { provider with
    connectionTimer := false, connectionStatus := .connected,
    reconnectAttempts := 0 }
  let (provider, _) := provider.request config
    (.single { id := some chainId.id, method := some "qrl_chainId" }) {}
    chainId.answers
  let (provider, _) := provider.request config
    (.single { id := some accounts.id, method := some "qrl_accounts" }) {}
    accounts.answers
  provider.sendPendingRequests sending

def reconnect (config : Config) (provider : Provider) : Provider :=
  if provider.isReconnecting then provider
  else
    let provider := { provider with isReconnecting := true }
    let provider := provider.rejectAll provider.sentRequestsQueue.keys
      .pendingRequestsOnReconnecting
    if provider.reconnectAttempts < config.maxAttempts then
      { provider with
        reconnectAttempts := provider.reconnectAttempts + 1
        reconnectTimers := provider.reconnectTimers + 1 }
    else
      { provider with isReconnecting := false }.clearQueues

/-- The timer of `_reconnect` fires. -/
def reconnectTimer (provider : Provider) (opening : Option String) :
    Provider :=
  let (provider, refusal) := connect
    { provider with reconnectTimers := provider.reconnectTimers - 1 } opening
  match refusal with
  | some _ => provider
  | none => { provider with isReconnecting := false }

/-- The connection deadline fires. -/
def connectionTimeout (config : Config) (provider : Provider)
    (status : Status) : Provider :=
  let provider := { provider with connectionTimer := false }
  if status = .connected then provider
  else
    { provider with connectionStatus := .disconnected }.rejectAllRequests
      (.connectionTimeout config.connectionTimeout)

/-- The `onAbort` listener settles by the primary id. -/
def onAbort (provider : Provider) (ids : List RequestId)
    (reason : Reason) : Provider :=
  match ids with
  | primaryId :: _ => provider.settleRequest primaryId (.reject reason)
  | [] => provider

/-- The composed signal of an item aborts: `onAbort`, which listens once, runs
and then the clean-ups. -/
def abortItem (provider : Provider) (key : Nat) (item : Item)
    (abort : AbortComposition) (reason : Reason) : Provider :=
  let provider := { provider with
    items := provider.items.set key
      { item with
        abort := { abort with aborted := some reason }, listening := false } }
  let provider :=
    if item.listening then provider.onAbort item.ids reason else provider
  { provider with
    items := provider.items.modify key fun item =>
      { item with abort := item.abort.dispose } }

/-- The deadline of an item fires, if its timer is armed. -/
def requestDeadline (provider : Provider) (key : Nat) : Provider :=
  match provider.items[key]? with
  | some item =>
      if item.abort.timerArmed then
        provider.abortItem key item
          { item.abort with timerArmed := false, timedOut := true }
          (.requestTimeout item.timeout item.method)
      else provider
  | none => provider

/-- The signal of a caller aborts, if the item listens to it. -/
def callerAbort (provider : Provider) (key : Nat)
    (reason : Option String) : Provider :=
  match provider.items[key]? with
  | some item =>
      if item.abort.callerListening then
        provider.abortItem key item item.abort (.aborted reason)
      else provider
  | none => provider

def disconnect (provider : Provider) (status : Status)
    (closingThrows : Bool) : Provider :=
  let provider := { provider with connectionTimer := false }
  if status ≠ .disconnected ∧ closingThrows then provider
  else
    { provider.rejectAllRequests .connectionNotOpen with
      connectionStatus := .disconnected }

def reset (provider : Provider) : Provider :=
  { { provider with connectionTimer := false }.rejectAllRequests .reset with
    reconnectAttempts := 0 }

end Events

section Messages

/-- Where `_onMessage` takes one response. -/
inductive Route
  /-- An exception leaves the handler. -/
  | thrown
  /-- A subscription, or a response without an id of a request. -/
  | skipped
  | addressed (id : RequestId) (isBatch : Bool)

def isSubscription (response : Json) : Option Bool :=
  if response.isResponseWithNotification then
    match response.property "method" with
    | some (.string method) =>
        some ("_subscription".toList.isSuffixOf method.toList)
    | _ => none
  else some false

/-- The id that is looked up: that of the first element of a batch, or the
response's own. -/
def addressedId (response : Json) (isBatch : Bool) : Option RequestId :=
  match response, isBatch with
  | .array (first :: _), true => first.responseId
  | _, _ => response.responseId

def route (response : Json) : Route :=
  match isSubscription response with
  | none => .thrown
  | some true => .skipped
  | some false =>
      match response.isBatchResponse with
      | none => .thrown
      | some isBatch =>
          match addressedId response isBatch with
          | none => .skipped
          | some id => .addressed id isBatch

/-- How the request that a response addresses is settled. -/
def responseOutcome (response : Json) (isBatch : Bool) : Settlement :=
  if isBatch || response.isResponseWithResult ||
      response.isResponseWithError == some true then
    .resolve response
  else
    .reject (.invalidResponse response)

def handleResponses : Provider → List Json → Provider
  | provider, [] => provider
  | provider, response :: responses =>
      match route response with
      | .thrown => provider
      | .skipped => handleResponses provider responses
      | .addressed id isBatch =>
          if provider.sentRequestsQueue.contains id then
            handleResponses
              (provider.settleRequest id (responseOutcome response isBatch))
              responses
          else
            handleResponses provider responses

/-- `_onMessage`, on the values that the parser found in the event. -/
def onMessage (config : Config) (provider : Provider) (parsed : List Json) :
    Provider :=
  match parsed.filter Json.truthy with
  | [] => if config.autoReconnect then provider.reconnect config else provider
  | responses => provider.handleResponses responses

end Messages

/-- An entry point of the provider with what the transport answers. -/
inductive Action
  | request (payload : Payload) (options : RequestOptions)
      (answers : RequestAnswers)
  | connect (opening : Option String)
  | disconnect (status : Status) (closingThrows : Bool)
  | reset
  | message (parsed : List Json)
  /-- The chunk parser gives up on what it received. -/
  | parserError
  | opened (chainId accounts : OwnRequest) (sending : Nat → Option String)
  | errorEvent
  /-- `_onCloseEvent` of the web socket provider. -/
  | webSocketClosed (code : Nat) (wasClean : Bool)
  /-- `_onCloseEvent` of the IPC provider, with or without an event. -/
  | ipcEnded (event : Bool)
  /-- `_onClose` of the IPC provider. -/
  | ipcClosed
  /-- The IPC provider's callback of closing the socket. -/
  | ipcCloseCallback
  | requestDeadline (key : Nat)
  | callerAbort (key : Nat) (reason : Option String)
  | connectionTimeout (status : Status)
  | reconnectTimer (opening : Option String)
  | immediate

/-- One entry point.  A timer or a scheduled call that is not there does
nothing. -/
def step (config : Config) (provider : Provider) : Action → Provider
  | .request payload options answers =>
      (provider.request config payload options answers).1
  | .connect opening => (provider.connect opening).1
  | .disconnect status closingThrows =>
      provider.disconnect status closingThrows
  | .reset => provider.reset
  | .message parsed => provider.onMessage config parsed
  | .parserError => provider.clearQueues
  | .opened chainId accounts sending =>
      provider.onConnect config chainId accounts sending
  | .errorEvent =>
      if provider.isReconnecting then provider.reconnect config else provider
  | .webSocketClosed code wasClean =>
      if config.autoReconnect ∧ (code ∉ [1000, 1001] ∨ !wasClean) then
        provider.reconnect config
      else
        { provider.clearQueues with connectionStatus := .disconnected }
  | .ipcEnded event =>
      if !event ∧ config.autoReconnect then
        { provider with connectionStatus := .disconnected }.reconnect config
      else
        { provider.clearQueues with connectionStatus := .disconnected }
  | .ipcClosed => provider.clearQueues
  | .ipcCloseCallback => { provider with connectionStatus := .disconnected }
  | .requestDeadline key => provider.requestDeadline key
  | .callerAbort key reason => provider.callerAbort key reason
  | .connectionTimeout status =>
      if provider.connectionTimer then provider.connectionTimeout config status
      else provider
  | .reconnectTimer opening =>
      if provider.reconnectTimers = 0 then provider
      else provider.reconnectTimer opening
  | .immediate =>
      if provider.immediates = 0 then provider
      else
        { provider with
          immediates := provider.immediates - 1 }.reconnect config

/-- The state that the constructor leaves once it has opened the socket. -/
def initial : Provider where
  connectionStatus := .connecting
  connectionTimer := true

def Reachable (config : Config) (provider : Provider) : Prop :=
  ∃ actions, provider = run (step config) initial actions

end Provider

end Web3Js.Socket
