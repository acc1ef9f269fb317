import Web3Js.Socket.WebSocket

/-!
# The IPC provider

The status of an IPC provider is a flag of its own, unless its socket is
connecting.  Opening a connection makes a new socket only when the status is
disconnected; otherwise the same socket connects again.  Every time the
listeners are added they are added once more, so an event calls its handler as
often as it was added.  The listeners of errors are kept when the others are
removed.
-/

namespace Web3Js.Socket

structure IpcSocket where
  connecting : Bool := true
  /-- It has connected, and has neither ended nor closed since. -/
  live : Bool := false
  /-- How often each of the handlers of data, connecting, ending and closing
  was added. -/
  listeners : Nat := 0
  errorListeners : Nat := 0

structure IpcProvider where
  provider : Provider := Provider.initial
  current : IpcSocket := { listeners := 1, errorListeners := 1 }
  replaced : List IpcSocket := []
  /-- Callbacks of `end` that have not been called yet. -/
  endCallbacks : Nat := 0

namespace IpcProvider

open WebSocketProvider (OwnRequest)

/-- The number of the current socket. -/
def number (ipc : IpcProvider) : Nat := ipc.replaced.length

/-- `getStatus` -/
def status (ipc : IpcProvider) : Status :=
  if ipc.current.connecting then .connecting
  else ipc.provider.connectionStatus

def addSocketListeners (ipc : IpcProvider) : IpcProvider :=
  { ipc with
    current := { ipc.current with
      listeners := ipc.current.listeners + 1
      errorListeners := ipc.current.errorListeners + 1 } }

def removeSocketListeners (ipc : IpcProvider) : IpcProvider :=
  { ipc with current := { ipc.current with listeners := 0 } }

/-- `_openSocketConnection`, with the listeners that `connect` adds. -/
def openSocket (ipc : IpcProvider) : IpcProvider :=
  let ipc : IpcProvider :=
    if ipc.status = .disconnected then
      { ipc with current := {}, replaced := ipc.replaced ++ [ipc.current] }
    else
      { ipc with current := { ipc.current with connecting := true } }
  ipc.addSocketListeners

/-- `connect`; opening throws when nothing exists at the path. -/
def connect (ipc : IpcProvider) (opening : Option String) : IpcProvider :=
  { (if opening = none then ipc.openSocket else ipc) with
    provider := (ipc.provider.connect opening).1 }

section Requests

variable (config : Config) (payload : Payload)

/-- `request` up to the point where the payload is looked at. -/
def reopen (ipc : IpcProvider) (opening : Option String) : IpcProvider :=
  if ipc.status = .disconnected then ipc.connect opening else ipc

/-- What the socket answers during a request; `_sendToSocket` throws when the
status is disconnected. -/
def answers (ipc : IpcProvider) (opening error : Option String) :
    Provider.RequestAnswers where
  connectionDefined := true
  status := ipc.status
  opening
  queueStatus := (ipc.reopen opening).status
  sending :=
    if (ipc.reopen opening).status = .disconnected then
      some "Connection not open"
    else error

/-- `request` -/
def request (ipc : IpcProvider) (options : Provider.RequestOptions)
    (opening error : Option String) : IpcProvider :=
  { ipc.reopen opening with
    provider := (ipc.provider.request config payload options
      (ipc.answers opening error)).1 }

end Requests

section Events

variable (config : Config)

/-- What the provider asks for by itself once it is connected, and which of
the waiting requests cannot be written. -/
structure Handshake where
  chainId : OwnRequest
  accounts : OwnRequest
  errors : Nat → Option String

def ownRequest (ipc : IpcProvider) (own : OwnRequest) (method : String) :
    IpcProvider :=
  ipc.request config (.single { id := some own.id, method := some method })
    {} own.opening own.error

/-- `_onConnect` -/
def onConnect (handshake : Handshake) (ipc : IpcProvider) : IpcProvider :=
  let ipc : IpcProvider :=
    { ipc with
      provider := { ipc.provider with
        connectionTimer := false, connectionStatus := .connected,
        reconnectAttempts := 0 } }
  let ipc := ipc.ownRequest config handshake.chainId "qrl_chainId"
  let ipc := ipc.ownRequest config handshake.accounts "qrl_accounts"
  { ipc with
    provider := ipc.provider.sendPendingRequests fun key =>
      if ipc.status = .disconnected then some "Connection not open"
      else handshake.errors key }

/-- `_reconnect` removes the listeners where it gives up. -/
def reconnect (ipc : IpcProvider) : IpcProvider :=
  let givesUp := !ipc.provider.isReconnecting &&
    config.maxAttempts ≤ ipc.provider.reconnectAttempts
  { (if givesUp then ipc.removeSocketListeners else ipc) with
    provider := ipc.provider.reconnect config }

def clearQueues (ipc : IpcProvider) : IpcProvider :=
  { ipc.removeSocketListeners with provider := ipc.provider.clearQueues }

/-- `_onMessage`, on the values that the parser found. -/
def onMessage (parsed : List Json) (ipc : IpcProvider) : IpcProvider :=
  match parsed.filter Json.truthy with
  | [] => if config.autoReconnect then ipc.reconnect config else ipc
  | _ :: _ =>
      { ipc with provider := ipc.provider.onMessage config parsed }

/-- The status flag is set, as in `_onDisconnect`. -/
def setDisconnected (ipc : IpcProvider) : IpcProvider :=
  { ipc with
    provider := { ipc.provider with connectionStatus := .disconnected } }

/-- `_onCloseEvent`, which handles the end and gets no event. -/
def onCloseEvent (ipc : IpcProvider) : IpcProvider :=
  if config.autoReconnect then ipc.setDisconnected.reconnect config
  else
    let ipc := ipc.clearQueues.removeSocketListeners.setDisconnected
    { ipc with current := { ipc.current with errorListeners := 0 } }

/-- `_onClose` -/
def onClose (ipc : IpcProvider) : IpcProvider :=
  ipc.clearQueues.removeSocketListeners

/-- `_onError` -/
def onError (ipc : IpcProvider) : IpcProvider :=
  if ipc.provider.isReconnecting then ipc.reconnect config else ipc

/-- The timer of `_reconnect` fires. -/
def reconnectTimer (ipc : IpcProvider) (opening : Option String) :
    IpcProvider :=
  { ipc.removeSocketListeners.connect opening with
    provider := ipc.provider.reconnectTimer opening }

/-- `disconnect` -/
def disconnect (ipc : IpcProvider) : IpcProvider :=
  let status := ipc.status
  { ipc.removeSocketListeners with
    provider := ipc.provider.disconnect status false
    endCallbacks :=
      if status = .disconnected then ipc.endCallbacks
      else ipc.endCallbacks + 1 }

/-- `reset` -/
def reset (ipc : IpcProvider) : IpcProvider :=
  { ipc.removeSocketListeners.addSocketListeners with
    provider := ipc.provider.reset }

end Events

section System

/-- The socket with a number. -/
def socket? (ipc : IpcProvider) (number : Nat) : Option IpcSocket :=
  (ipc.replaced ++ [ipc.current])[number]?

/-- The transport changes a socket. -/
def modifySocket (ipc : IpcProvider) (number : Nat)
    (change : IpcSocket → IpcSocket) : IpcProvider :=
  if number = ipc.number then { ipc with current := change ipc.current }
  else { ipc with replaced := ipc.replaced.modify number change }

/-- How often the handlers were added to a socket. -/
def listeners (ipc : IpcProvider) (number : Nat) : Nat :=
  ((ipc.socket? number).map IpcSocket.listeners).getD 0

def errorListeners (ipc : IpcProvider) (number : Nat) : Nat :=
  ((ipc.socket? number).map IpcSocket.errorListeners).getD 0

/-- An event calls its handler a number of times. -/
def emit (ipc : IpcProvider) (calls : Nat)
    (handler : Nat → IpcProvider → IpcProvider) : IpcProvider :=
  (List.range calls).foldl (fun ipc call => handler call ipc) ipc

inductive IpcAction
  | request (payload : Payload) (options : Provider.RequestOptions)
      (opening error : Option String)
  | connect (opening : Option String)
  | disconnect
  | reset
  /-- Events of the socket with a number. -/
  | connected (number : Nat) (handshakes : Nat → Handshake)
  /-- What each call of the handler found.  An exception that leaves one of
  them keeps the later ones from being made. -/
  | data (number : Nat) (parsed : List (List Json))
  | ended (number : Nat)
  | closed (number : Nat)
  | error (number : Nat)
  /-- A socket stops connecting before it tells so. -/
  | destroyed (number : Nat)
  /-- The chunk parser gives up on what it received. -/
  | parserError
  | endCallback
  | requestDeadline (key : Nat)
  | callerAbort (key : Nat) (reason : Option String)
  | connectionTimeout
  | reconnectTimer (opening : Option String)
  | immediate

variable (config : Config)

/-- The provider alone takes a step. -/
def internal (ipc : IpcProvider) (action : Provider.Action) : IpcProvider :=
  { ipc with provider := ipc.provider.step config action }

def step (ipc : IpcProvider) : IpcAction → IpcProvider
  | .request payload options opening error =>
      ipc.request config payload options opening error
  | .connect opening => ipc.connect opening
  | .disconnect => ipc.disconnect
  | .reset => ipc.reset
  | .connected number handshakes =>
      let ipc := ipc.modifySocket number fun socket =>
        { socket with connecting := false, live := true }
      ipc.emit (ipc.listeners number) fun call =>
        onConnect config (handshakes call)
  | .data number parsed =>
      (parsed.take (ipc.listeners number)).foldl
        (fun ipc parsed => ipc.onMessage config parsed) ipc
  | .ended number =>
      let ipc := ipc.modifySocket number fun socket =>
        { socket with live := false }
      ipc.emit (ipc.listeners number) fun _ => onCloseEvent config
  | .closed number =>
      let ipc := ipc.modifySocket number fun socket =>
        { socket with live := false }
      ipc.emit (ipc.listeners number) fun _ => onClose
  | .error number =>
      ipc.emit (ipc.errorListeners number) fun _ => onError config
  | .destroyed number =>
      ipc.modifySocket number fun socket => { socket with connecting := false }
  | .parserError => ipc.clearQueues
  | .endCallback =>
      if ipc.endCallbacks = 0 then ipc
      else { ipc.setDisconnected with endCallbacks := ipc.endCallbacks - 1 }
  | .requestDeadline key => ipc.internal config (.requestDeadline key)
  | .callerAbort key reason => ipc.internal config (.callerAbort key reason)
  | .connectionTimeout =>
      ipc.internal config (.connectionTimeout ipc.status)
  | .reconnectTimer opening =>
      if ipc.provider.reconnectTimers = 0 then ipc
      else ipc.reconnectTimer opening
  | .immediate =>
      if ipc.provider.immediates = 0 then ipc
      else
        ({ ipc with
          provider := { ipc.provider with
            immediates := ipc.provider.immediates - 1 } } :
          IpcProvider).reconnect config

end System

end IpcProvider

end Web3Js.Socket
