import Web3Js.Socket.Provider

/-!
# The web socket provider

A web socket provider has a current socket and the ones that it replaced.  A
socket keeps the listeners that were added to it until they are removed while
it is the current one.  The state records to which socket the payload of each
item was written.

Sockets are numbered in the order of their creation, so the current one has
the number of its predecessors.
-/

namespace Web3Js.Socket

inductive ReadyState
  | connecting
  | opened
  | closing
  | closed
  deriving DecidableEq, Repr

structure WebSocket where
  readyState : ReadyState := .connecting
  /-- The listeners of messages, opening and closing, which are added and
  removed together. -/
  listening : Bool := true
  errorListening : Bool := true

/-- `getStatus` -/
def WebSocket.status (socket : WebSocket) : Status :=
  match socket.readyState with
  | .connecting => .connecting
  | .opened => .connected
  | .closing | .closed => .disconnected

structure WebSocketProvider where
  provider : Provider := Provider.initial
  current : WebSocket := {}
  replaced : List WebSocket := []
  /-- The items that were written, with the number of the socket. -/
  written : List (Nat × Nat) := []

namespace WebSocketProvider

/-- The number of the current socket. -/
def number (link : WebSocketProvider) : Nat := link.replaced.length

def removeSocketListeners (link : WebSocketProvider) : WebSocketProvider :=
  { link with current := { link.current with listening := false } }

def addSocketListeners (link : WebSocketProvider) : WebSocketProvider :=
  { link with
    current := { link.current with
      listening := true, errorListening := true } }

/-- `_openSocketConnection`, with the listeners of the new socket. -/
def openSocket (link : WebSocketProvider) : WebSocketProvider :=
  { link with current := {}, replaced := link.replaced ++ [link.current] }

/-- `connect`; opening a socket may throw. -/
def connect (link : WebSocketProvider) (opening : Option String) :
    WebSocketProvider :=
  { (if opening = none then link.openSocket else link) with
    provider := (link.provider.connect opening).1 }

/-- `_sendToSocket` throws unless the socket is open. -/
def sending (link : WebSocketProvider) (error : Option String) :
    Option String :=
  if link.current.readyState = .opened then error
  else some "Connection not open"

section Requests

variable (config : Config) (payload : Payload)

/-- The socket part of `request` before the payload is looked at. -/
def reopen (link : WebSocketProvider) (opening : Option String) :
    WebSocketProvider :=
  if link.current.status = .disconnected ∧ opening = none then
    link.openSocket
  else link

/-- What the socket answers during a request. -/
def answers (link : WebSocketProvider) (opening error : Option String) :
    Provider.RequestAnswers where
  connectionDefined := true
  status := link.current.status
  opening
  queueStatus := (link.reopen opening).current.status
  sending := (link.reopen opening).sending error

/-- The item that a request writes to the socket. -/
def requestWrites (answers : Provider.RequestAnswers) :
    Except Provider.Refusal Nat → List Nat
  | .ok key =>
      if answers.queueStatus ≠ .connecting ∧ answers.sending = none then [key]
      else []
  | .error _ => []

def record (link : WebSocketProvider) (keys : List Nat) : WebSocketProvider :=
  { link with written := link.written ++ keys.map (·, link.number) }

/-- `request` -/
def request (link : WebSocketProvider) (options : Provider.RequestOptions)
    (opening error : Option String) : WebSocketProvider :=
  let answers := link.answers opening error
  let outcome := link.provider.request config payload options answers
  ({ link.reopen opening with provider := outcome.1 } :
    WebSocketProvider).record (requestWrites answers outcome.2)

end Requests

section Events

variable (config : Config)

/-- The items that `_sendPendingRequests` writes. -/
def pendingWrites (provider : Provider) (sending : Nat → Option String) :
    List Nat :=
  (provider.pendingRequestsQueue.entries.map Prod.snd).filter
    (sending · = none)

def sendPendingRequests (link : WebSocketProvider)
    (errors : Nat → Option String) : WebSocketProvider :=
  let sending := fun key => link.sending (errors key)
  ({ link with
    provider := link.provider.sendPendingRequests sending } :
    WebSocketProvider).record (pendingWrites link.provider sending)

/-- A request that the provider makes itself, with what can go wrong. -/
structure OwnRequest where
  id : RequestId
  opening : Option String
  error : Option String

def ownRequest (link : WebSocketProvider) (own : OwnRequest)
    (method : String) : WebSocketProvider :=
  link.request config (.single { id := some own.id, method := some method })
    {} own.opening own.error

/-- `_onConnect` -/
def onConnect (link : WebSocketProvider) (chainId accounts : OwnRequest)
    (errors : Nat → Option String) : WebSocketProvider :=
  let link : WebSocketProvider :=
    { link with
      provider := { link.provider with
        connectionTimer := false, connectionStatus := .connected,
        reconnectAttempts := 0 } }
  let link := link.ownRequest config chainId "qrl_chainId"
  let link := link.ownRequest config accounts "qrl_accounts"
  link.sendPendingRequests errors

/-- `_reconnect` removes the listeners where it gives up. -/
def reconnect (link : WebSocketProvider) : WebSocketProvider :=
  let givesUp := !link.provider.isReconnecting &&
    config.maxAttempts ≤ link.provider.reconnectAttempts
  { (if givesUp then link.removeSocketListeners else link) with
    provider := link.provider.reconnect config }

def clearQueues (link : WebSocketProvider) : WebSocketProvider :=
  { link.removeSocketListeners with provider := link.provider.clearQueues }

/-- The timer of `_reconnect` fires. -/
def reconnectTimer (link : WebSocketProvider) (opening : Option String) :
    WebSocketProvider :=
  { link.removeSocketListeners.connect opening with
    provider := link.provider.reconnectTimer opening }

/-- `disconnect` closes the socket, which may throw. -/
def disconnect (link : WebSocketProvider) (closing : Option String) :
    WebSocketProvider :=
  let link : WebSocketProvider :=
    { link.removeSocketListeners with
      provider := link.provider.disconnect link.current.status
        closing.isSome }
  if link.current.status ≠ .disconnected ∧ closing = none then
    { link with current := { link.current with readyState := .closing } }
  else link

def reset (link : WebSocketProvider) : WebSocketProvider :=
  { link.addSocketListeners with provider := link.provider.reset }

/-- `_onMessage`, on the values that the parser found. -/
def onMessage (link : WebSocketProvider) (parsed : List Json) :
    WebSocketProvider :=
  match parsed.filter Json.truthy with
  | [] => if config.autoReconnect then link.reconnect config else link
  | _ :: _ =>
      { link with provider := link.provider.onMessage config parsed }

/-- `_onCloseEvent` -/
def onCloseEvent (link : WebSocketProvider) (code : Nat) (wasClean : Bool) :
    WebSocketProvider :=
  if config.autoReconnect ∧ (code ∉ [1000, 1001] ∨ !wasClean) then
    link.reconnect config
  else
    let link := link.clearQueues
    { link with
      provider := { link.provider with connectionStatus := .disconnected }
      current := { link.current with errorListening := false } }

end Events

section System

/-- The socket with a number. -/
def socket? (link : WebSocketProvider) (number : Nat) : Option WebSocket :=
  (link.replaced ++ [link.current])[number]?

/-- The transport changes the state of a socket. -/
def setReadyState (link : WebSocketProvider) (number : Nat)
    (readyState : ReadyState) : WebSocketProvider :=
  if number = link.number then
    { link with current := { link.current with readyState } }
  else
    { link with
      replaced := link.replaced.modify number fun socket =>
        { socket with readyState } }

/-- The listeners of a socket's messages, opening and closing are attached. -/
def listensTo (link : WebSocketProvider) (number : Nat) : Bool :=
  (link.socket? number).any WebSocket.listening

inductive LinkAction
  | request (payload : Payload) (options : Provider.RequestOptions)
      (opening error : Option String)
  | connect (opening : Option String)
  | disconnect (closing : Option String)
  | reset
  /-- Events of the socket with a number. -/
  | opened (number : Nat) (chainId accounts : OwnRequest)
      (errors : Nat → Option String)
  | message (number : Nat) (parsed : List Json)
  | error (number : Nat)
  | closing (number : Nat)
  | closed (number code : Nat) (wasClean : Bool)
  /-- The chunk parser gives up on what it received. -/
  | parserError
  | requestDeadline (key : Nat)
  | callerAbort (key : Nat) (reason : Option String)
  | connectionTimeout
  | reconnectTimer (opening : Option String)
  | immediate

variable (config : Config)

/-- The provider alone takes a step. -/
def internal (link : WebSocketProvider) (action : Provider.Action) :
    WebSocketProvider :=
  { link with provider := link.provider.step config action }

def step (link : WebSocketProvider) : LinkAction → WebSocketProvider
  | .request payload options opening error =>
      link.request config payload options opening error
  | .connect opening => link.connect opening
  | .disconnect closing => link.disconnect closing
  | .reset => link.reset
  | .opened number chainId accounts errors =>
      let link := link.setReadyState number .opened
      if link.listensTo number then
        link.onConnect config chainId accounts errors
      else link
  | .message number parsed =>
      if link.listensTo number then link.onMessage config parsed else link
  | .error number =>
      if (link.socket? number).any WebSocket.errorListening &&
          link.provider.isReconnecting then
        link.reconnect config
      else link
  | .closing number => link.setReadyState number .closing
  | .closed number code wasClean =>
      let link := link.setReadyState number .closed
      if link.listensTo number then link.onCloseEvent config code wasClean
      else link
  | .parserError => link.clearQueues
  | .requestDeadline key => link.internal config (.requestDeadline key)
  | .callerAbort key reason => link.internal config (.callerAbort key reason)
  | .connectionTimeout =>
      link.internal config (.connectionTimeout link.current.status)
  | .reconnectTimer opening =>
      if link.provider.reconnectTimers = 0 then link
      else link.reconnectTimer opening
  | .immediate =>
      if link.provider.immediates = 0 then link
      else
        ({ link with
          provider := { link.provider with
            immediates := link.provider.immediates - 1 } } :
          WebSocketProvider).reconnect config

end System

end WebSocketProvider

end Web3Js.Socket
