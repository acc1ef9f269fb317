import Web3Js.Lib.Invariant
import Web3Js.Socket.LiveSocket
import Web3Js.Socket.IpcStatus

/-!
# What disconnecting leaves behind

Disconnecting clears the connection timer and takes the listeners from the
current socket.  The timer and the callback of a reconnection stay scheduled,
and sockets that were replaced keep the listeners they still have.  Nothing
connects afterwards exactly when none of these can lead to a reconnection,
however the transport goes on.
-/

namespace Web3Js.Socket

namespace Provider

/-- A provider that reconnects has its timer running, and without automatic
reconnection nothing is scheduled. -/
structure Scheduled (config : Config) (provider : Provider) : Prop where
  timed : provider.isReconnecting = true → provider.reconnectTimers ≠ 0
  manual : config.autoReconnect = false →
    provider.isReconnecting = false ∧ provider.reconnectTimers = 0 ∧
      provider.immediates = 0

/-- Nothing that is scheduled will make the provider connect. -/
structure Idle (config : Config) (provider : Provider) : Prop where
  noTimer : provider.reconnectTimers = 0
  immediates : provider.immediates = 0 ∨
    config.maxAttempts ≤ provider.reconnectAttempts

/-- The bookkeeping of reconnecting does not differ. -/
structure SameSchedule (provider other : Provider) : Prop where
  reconnecting : other.isReconnecting = provider.isReconnecting
  attempts : other.reconnectAttempts = provider.reconnectAttempts
  timers : other.reconnectTimers = provider.reconnectTimers
  immediates : other.immediates = provider.immediates

section Scheduling

variable {config : Config} {provider other : Provider}

theorem SameSchedule.refl (provider : Provider) :
    SameSchedule provider provider := ⟨rfl, rfl, rfl, rfl⟩

theorem SameConnection.schedule (same : SameConnection provider other) :
    SameSchedule provider other :=
  ⟨same.reconnecting, same.attempts, same.timers, same.immediates⟩

theorem SameSchedule.trans {last : Provider}
    (first : SameSchedule provider other) (second : SameSchedule other last) :
    SameSchedule provider last where
  reconnecting := second.reconnecting.trans first.reconnecting
  attempts := second.attempts.trans first.attempts
  timers := second.timers.trans first.timers
  immediates := second.immediates.trans first.immediates

theorem Scheduled.congr (scheduled : provider.Scheduled config)
    (same : SameSchedule provider other) : other.Scheduled config where
  timed reconnecting := by
    rw [same.timers]
    exact scheduled.timed (same.reconnecting ▸ reconnecting)
  manual disabled := by
    rw [same.reconnecting, same.timers, same.immediates]
    exact scheduled.manual disabled

theorem Idle.congr (idle : provider.Idle config)
    (same : SameSchedule provider other) : other.Idle config where
  noTimer := same.timers.trans idle.noTimer
  immediates := by
    rw [same.immediates, same.attempts]
    exact idle.immediates

theorem Scheduled.calm (scheduled : provider.Scheduled config)
    (idle : provider.Idle config) : provider.isReconnecting = false := by
  rw [Bool.eq_false_iff]
  intro reconnecting
  exact scheduled.timed reconnecting idle.noTimer

/-- Reconnecting starts a timer while attempts are left, and otherwise only
rejects what is in the queues. -/
theorem reconnect_spec (config : Config)
    (calm : provider.isReconnecting = false) :
    (provider.reconnectAttempts < config.maxAttempts ∧
      (provider.reconnect config).isReconnecting = true ∧
      (provider.reconnect config).reconnectTimers =
        provider.reconnectTimers + 1 ∧
      (provider.reconnect config).immediates = provider.immediates) ∨
    (config.maxAttempts ≤ provider.reconnectAttempts ∧
      SameSchedule provider (provider.reconnect config)) := by
  have rejected := sameConnection_rejectAll
    { provider with isReconnecting := true } provider.sentRequestsQueue.keys
    .pendingRequestsOnReconnecting
  unfold reconnect
  rw [if_neg (by rw [calm]; exact Bool.false_ne_true)]
  dsimp only
  split
  · rename_i left
    rw [rejected.attempts] at left
    exact .inl ⟨left, rejected.reconnecting,
      congrArg (· + 1) rejected.timers, rejected.immediates⟩
  · rename_i exhausted
    rw [rejected.attempts] at exhausted
    have cleared := sameConnection_clearQueues
      { (Provider.rejectAll { provider with isReconnecting := true }
          provider.sentRequestsQueue.keys .pendingRequestsOnReconnecting) with
        isReconnecting := false }
    refine .inr ⟨Nat.le_of_not_lt exhausted, ?_⟩
    exact {
      reconnecting := cleared.reconnecting.trans calm.symm
      attempts := cleared.attempts.trans rejected.attempts
      timers := cleared.timers.trans rejected.timers
      immediates := cleared.immediates.trans rejected.immediates }

theorem Scheduled.reconnect (scheduled : provider.Scheduled config)
    (enabled : config.autoReconnect = true) :
    (provider.reconnect config).Scheduled config := by
  cases reconnecting : provider.isReconnecting with
  | true =>
      rw [Provider.reconnect, if_pos reconnecting]
      exact scheduled
  | false =>
      obtain ⟨-, -, timers, -⟩ | ⟨-, same⟩ :=
        reconnect_spec config reconnecting
      · refine ⟨fun _ => ?_, fun disabled => ?_⟩
        · rw [timers]
          exact Nat.succ_ne_zero _
        · rw [enabled] at disabled
          cases disabled
      · exact scheduled.congr same

theorem Idle.reconnect (idle : provider.Idle config)
    (scheduled : provider.Scheduled config)
    (exhausted : config.maxAttempts ≤ provider.reconnectAttempts) :
    SameSchedule provider (provider.reconnect config) := by
  obtain ⟨left, -⟩ | ⟨-, same⟩ :=
    reconnect_spec config (scheduled.calm idle)
  · omega
  · exact same

theorem sameSchedule_rejectAllRequests (provider : Provider)
    (reason : Reason) :
    SameSchedule provider (provider.rejectAllRequests reason) :=
  (sameConnection_rejectAll _ _ _).schedule

theorem sameSchedule_connectionTimeout (provider : Provider)
    (status : Status) :
    SameSchedule provider (provider.connectionTimeout config status) := by
  unfold connectionTimeout
  dsimp only
  split
  · exact ⟨rfl, rfl, rfl, rfl⟩
  · have rejected := sameSchedule_rejectAllRequests
      { provider with
        connectionTimer := false, connectionStatus := .disconnected }
      (.connectionTimeout config.connectionTimeout)
    exact ⟨rejected.reconnecting, rejected.attempts, rejected.timers,
      rejected.immediates⟩

theorem sameSchedule_connectionTimeout_step (provider : Provider)
    (status : Status) :
    SameSchedule provider (provider.step config (.connectionTimeout status)) := by
  rw [step]
  split
  · exact sameSchedule_connectionTimeout provider status
  · exact .refl provider

theorem sameSchedule_disconnect (provider : Provider) (status : Status)
    (closingThrows : Bool) :
    SameSchedule provider (provider.disconnect status closingThrows) := by
  unfold disconnect
  dsimp only
  split
  · exact ⟨rfl, rfl, rfl, rfl⟩
  · have rejected := sameSchedule_rejectAllRequests
      { provider with connectionTimer := false } .connectionNotOpen
    exact ⟨rejected.reconnecting, rejected.attempts, rejected.timers,
      rejected.immediates⟩

theorem Scheduled.connect (scheduled : provider.Scheduled config)
    (opening : Option String) :
    (provider.connect opening).1.Scheduled config := by
  unfold Provider.connect
  cases opening with
  | none => exact scheduled.congr ⟨rfl, rfl, rfl, rfl⟩
  | some message =>
      dsimp only
      split
      · rename_i reconnecting
        refine ⟨scheduled.timed, fun disabled => ?_⟩
        rw [(scheduled.manual disabled).1] at reconnecting
        cases reconnecting
      · exact scheduled.congr ⟨rfl, rfl, rfl, rfl⟩

theorem Scheduled.request (scheduled : provider.Scheduled config)
    (payload : Payload) (options : RequestOptions) (answers : RequestAnswers)
    (defined : answers.connectionDefined = true) :
    (provider.request config payload options answers).1.Scheduled config := by
  have same := sameConnection_request config provider payload options answers
    defined
  refine Scheduled.congr ?_ same.schedule
  split
  · exact scheduled.connect answers.opening
  · exact scheduled

/-- The timer has run, so automatic reconnection is on. -/
theorem Scheduled.reconnectTimer (scheduled : provider.Scheduled config)
    (running : provider.reconnectTimers ≠ 0) (opening : Option String) :
    (provider.reconnectTimer opening).Scheduled config := by
  have enabled : config.autoReconnect ≠ false := by
    intro disabled
    exact running (scheduled.manual disabled).2.1
  have calm : (provider.reconnectTimer opening).isReconnecting = false := by
    unfold Provider.reconnectTimer Provider.connect
    cases opening with
    | none => rfl
    | some message =>
        cases reconnecting : provider.isReconnecting with
        | true => rfl
        | false => rfl
  refine ⟨fun reconnecting => ?_, fun disabled => absurd disabled enabled⟩
  rw [calm] at reconnecting
  cases reconnecting

/-- Taking one callback of reconnecting. -/
theorem Scheduled.dropImmediate (scheduled : provider.Scheduled config) :
    ({ provider with immediates := provider.immediates - 1 } :
      Provider).Scheduled config := by
  refine ⟨scheduled.timed, fun disabled => ?_⟩
  obtain ⟨calm, noTimer, noImmediate⟩ := scheduled.manual disabled
  exact ⟨calm, noTimer, congrArg (· - 1) noImmediate⟩

theorem Scheduled.enabled (scheduled : provider.Scheduled config)
    (waiting : provider.immediates ≠ 0) : config.autoReconnect = true := by
  rw [← Bool.not_eq_false]
  intro disabled
  exact waiting (scheduled.manual disabled).2.2

theorem Scheduled.reset (scheduled : provider.Scheduled config) :
    provider.reset.Scheduled config := by
  have rejected := sameSchedule_rejectAllRequests
    { provider with connectionTimer := false } .reset
  refine ⟨fun reconnecting => ?_, fun disabled => ?_⟩
  · change (Provider.rejectAllRequests _ _).isReconnecting = true
      at reconnecting
    rw [rejected.reconnecting] at reconnecting
    change (Provider.rejectAllRequests _ _).reconnectTimers ≠ 0
    rw [rejected.timers]
    exact scheduled.timed reconnecting
  · obtain ⟨calm, noTimer, noImmediate⟩ := scheduled.manual disabled
    exact ⟨rejected.reconnecting.trans calm, rejected.timers.trans noTimer,
      rejected.immediates.trans noImmediate⟩

theorem scheduled_initial (config : Config) :
    Provider.initial.Scheduled config :=
  ⟨nofun, fun _ => ⟨rfl, rfl, rfl⟩⟩

/-- Once it is connected, a provider starts counting its attempts again. -/
theorem Scheduled.connected (scheduled : provider.Scheduled config) :
    ({ provider with
        connectionTimer := false, connectionStatus := .connected,
        reconnectAttempts := 0 } : Provider).Scheduled config :=
  ⟨scheduled.timed, scheduled.manual⟩

theorem Scheduled.onMessage (scheduled : provider.Scheduled config)
    (parsed : List Json) :
    (provider.onMessage config parsed).Scheduled config := by
  unfold Provider.onMessage
  split
  · split
    · rename_i enabled
      exact scheduled.reconnect enabled
    · exact scheduled
  · exact scheduled.congr (sameConnection_handleResponses _ _).schedule

end Scheduling

end Provider

namespace WebSocketProvider

open Provider (SameConnection SameSchedule Scheduled Idle)

/-- A call with which the user asks for a connection. -/
def LinkAction.Reopens : LinkAction → Prop
  | .request .. | .connect _ | .reset => True
  | _ => False

/-- The events that the transport can report, by the state of the socket. -/
def Possible (link : WebSocketProvider) : LinkAction → Prop
  | .opened number .. =>
      ∀ socket ∈ link.socket? number, socket.readyState = .connecting
  | .message number _ => ∀ socket ∈ link.socket? number,
      socket.readyState = .opened ∨ socket.readyState = .closing
  | .closing number => ∀ socket ∈ link.socket? number,
      socket.readyState = .connecting ∨ socket.readyState = .opened
  | .closed number .. =>
      ∀ socket ∈ link.socket? number, socket.readyState ≠ .closed
  | _ => True

/-- The user leaves the provider alone and the transport does what it can. -/
def Unattended (config : Config) (link : WebSocketProvider)
    (later : List LinkAction) : Prop :=
  (∀ action ∈ later, ¬ action.Reopens) ∧
    Run.Meets (step config) Possible link later

/-- No socket was opened and no listeners were attached in between. -/
def Untouched (link later : WebSocketProvider) : Prop :=
  later.number = link.number ∧
    ∀ number, later.listensTo number = true → link.listensTo number = true

/-- A replaced socket that is listened to tells nothing that makes the
provider connect. -/
def Harmless (config : Config) (provider : Provider) (socket : WebSocket) :
    Prop :=
  socket.listening = true → socket.readyState = .closed ∨
    (socket.readyState ≠ .connecting ∧ (config.autoReconnect = false ∨
      config.maxAttempts ≤ provider.reconnectAttempts))

/-- Nothing is left that leads to a reconnection. -/
structure Quiet (config : Config) (link : WebSocketProvider) : Prop where
  idle : link.provider.Idle config
  replaced : ∀ socket ∈ link.replaced, Harmless config link.provider socket

/-- What holds at all times after disconnecting quietly. -/
structure Final (config : Config) (start link : WebSocketProvider) :
    Prop where
  scheduled : link.provider.Scheduled config
  quiet : Quiet config link
  unheard : link.current.listening = false
  untouched : Untouched start link

section Steps

variable {config : Config} {start link other : WebSocketProvider}

theorem Harmless.congr {provider other : Provider} {socket : WebSocket}
    (harmless : Harmless config provider socket)
    (same : SameSchedule provider other) :
    Harmless config other socket := by
  intro listening
  rw [same.attempts]
  exact harmless listening

/-- A step that leaves the sockets and what is scheduled alone. -/
theorem Final.frame (final : Final config start link)
    (same : SameSchedule link.provider other.provider)
    (replaced : other.replaced = link.replaced)
    (unheard : other.current.listening = false) :
    Final config start other := by
  have listens : ∀ number, other.listensTo number = link.listensTo number := by
    intro number
    unfold listensTo socket?
    rw [replaced]
    rcases Nat.lt_trichotomy number link.replaced.length with
      before | here | behind
    · rw [List.getElem?_append_left before, List.getElem?_append_left before]
    · subst here
      rw [List.getElem?_concat_length, List.getElem?_concat_length,
        Option.any_some, Option.any_some, unheard, final.unheard]
    · rw [List.getElem?_eq_none, List.getElem?_eq_none]
      · rw [List.length_append, List.length_singleton]
        omega
      · rw [List.length_append, List.length_singleton]
        omega
  refine ⟨final.scheduled.congr same, ⟨final.quiet.idle.congr same, ?_⟩,
    unheard, ?_, ?_⟩
  · intro socket member
    rw [replaced] at member
    exact (final.quiet.replaced socket member).congr same
  · rw [number, replaced]
    exact final.untouched.1
  · intro number heard
    rw [listens] at heard
    exact final.untouched.2 number heard

/-- The state of a socket says nothing about its listeners. -/
theorem listensTo_setReadyState (link : WebSocketProvider)
    (number position : Nat) (readyState : ReadyState) :
    (link.setReadyState number readyState).listensTo position =
      link.listensTo position := by
  have read : ∀ link : WebSocketProvider, link.listensTo position =
      (((link.replaced ++ [link.current]).map
        WebSocket.listening)[position]?).getD false := by
    intro link
    rw [listensTo, socket?, List.getElem?_map]
    cases (link.replaced ++ [link.current])[position]? with
    | none => rfl
    | some socket => rfl
  have modified : ∀ sockets : List WebSocket,
      (sockets.modify number fun socket => { socket with readyState }).map
        WebSocket.listening = sockets.map WebSocket.listening := by
    intro sockets
    apply List.ext_getElem?
    intro index
    rw [List.getElem?_map, List.getElem?_map, List.getElem?_modify]
    cases sockets[index]? with
    | none => rfl
    | some socket =>
        simp only [Option.map_eq_map, Option.map_some]
        split <;> rfl
  rw [read, read, List.map_append, List.map_append]
  unfold WebSocketProvider.setReadyState
  split
  · rfl
  · rw [modified]

/-- The transport changes the state of a socket, which stays harmless. -/
theorem Final.setReadyState (final : Final config start link)
    (number : Nat) (readyState : ReadyState)
    (harmless : ∀ socket ∈ link.replaced[number]?,
      Harmless config link.provider { socket with readyState }) :
    Final config start (link.setReadyState number readyState) := by
  unfold WebSocketProvider.setReadyState
  split
  · exact final.frame (SameSchedule.refl _) rfl final.unheard
  · refine ⟨final.scheduled, ⟨final.quiet.idle, ?_⟩, final.unheard, ?_, ?_⟩
    · intro socket member
      obtain ⟨position, found⟩ := List.getElem?_of_mem member
      change (link.replaced.modify number _)[position]? = _ at found
      rw [List.getElem?_modify] at found
      obtain ⟨old, oldFound, same⟩ := Option.map_eq_some_iff.mp found
      by_cases here : number = position
      · rw [if_pos here] at same
        subst here
        rw [← same]
        exact harmless old oldFound
      · rw [if_neg here] at same
        rw [← same]
        exact final.quiet.replaced old (List.mem_of_getElem? oldFound)
    · change (link.replaced.modify number _).length = _
      rw [List.length_modify]
      exact final.untouched.1
    · intro position heard
      apply final.untouched.2
      rename_i notCurrent
      have same := listensTo_setReadyState link number position readyState
      rw [WebSocketProvider.setReadyState, if_neg notCurrent] at same
      rw [← same]
      exact heard

/-- A reconnection that is tried without attempts left. -/
theorem Final.reconnect (final : Final config start link)
    (exhausted : config.maxAttempts ≤ link.provider.reconnectAttempts) :
    Final config start (link.reconnect config) := by
  have same := final.quiet.idle.reconnect final.scheduled exhausted
  refine final.frame same ?_ ?_
  · rw [WebSocketProvider.reconnect]
    dsimp only
    split <;> rfl
  · rw [WebSocketProvider.reconnect]
    dsimp only
    split
    · rfl
    · exact final.unheard

theorem Final.clearQueues (final : Final config start link) :
    Final config start link.clearQueues :=
  final.frame (Provider.sameConnection_clearQueues _).schedule rfl rfl

theorem Final.onMessage (final : Final config start link)
    (settled : config.autoReconnect = true →
      config.maxAttempts ≤ link.provider.reconnectAttempts)
    (parsed : List Json) :
    Final config start (link.onMessage config parsed) := by
  unfold WebSocketProvider.onMessage
  split
  · split
    · rename_i enabled
      exact final.reconnect (settled enabled)
    · exact final
  · rename_i first responses found
    have same : SameConnection link.provider
        (link.provider.onMessage config parsed) := by
      rw [Provider.onMessage, found]
      exact Provider.sameConnection_handleResponses _ _
    exact final.frame same.schedule rfl final.unheard

theorem Final.onCloseEvent (final : Final config start link)
    (settled : config.autoReconnect = true →
      config.maxAttempts ≤ link.provider.reconnectAttempts)
    (code : Nat) (wasClean : Bool) :
    Final config start (link.onCloseEvent config code wasClean) := by
  unfold WebSocketProvider.onCloseEvent
  split
  · rename_i reconnects
    exact final.reconnect (settled reconnects.1)
  · exact final.clearQueues.frame ⟨rfl, rfl, rfl, rfl⟩ rfl rfl

theorem Final.internal (final : Final config start link)
    {action : Provider.Action}
    (same : SameSchedule link.provider (link.provider.step config action)) :
    Final config start (link.internal config action) :=
  final.frame same rfl final.unheard

theorem Final.disconnect (final : Final config start link)
    (closing : Option String) :
    Final config start (link.disconnect closing) := by
  have same := Provider.sameSchedule_disconnect link.provider
    link.current.status closing.isSome
  unfold WebSocketProvider.disconnect
  dsimp only
  split
  · exact final.frame same rfl rfl
  · exact final.frame same rfl rfl

/-- A socket that is listened to is a replaced one. -/
theorem Final.replaced_of_listensTo (final : Final config start link)
    {number : Nat} (heard : link.listensTo number = true) :
    ∃ socket, link.replaced[number]? = some socket ∧
      link.socket? number = some socket ∧ socket.listening = true := by
  unfold listensTo socket? at heard
  obtain ⟨socket, found, listening⟩ := (Option.any_eq_true _ _).mp heard
  rcases Nat.lt_trichotomy number link.replaced.length with
    before | here | behind
  · rw [List.getElem?_append_left before] at found
    refine ⟨socket, found, ?_, listening⟩
    rw [socket?, List.getElem?_append_left before]
    exact found
  · subst here
    rw [List.getElem?_concat_length] at found
    cases found
    rw [final.unheard] at listening
    cases listening
  · rw [List.getElem?_eq_none] at found
    · cases found
    · rw [List.length_append, List.length_singleton]
      omega

/-- What a socket that is listened to can still tell leads nowhere. -/
theorem Final.settled (final : Final config start link) {number : Nat}
    (heard : link.listensTo number = true)
    (alive : ∀ socket ∈ link.socket? number, socket.readyState ≠ .closed) :
    config.autoReconnect = true →
      config.maxAttempts ≤ link.provider.reconnectAttempts := by
  intro enabled
  obtain ⟨socket, found, isSocket, listening⟩ :=
    final.replaced_of_listensTo heard
  have harmless := final.quiet.replaced socket
    (List.mem_of_getElem? found) listening
  rcases harmless with closed | ⟨-, disabled | exhausted⟩
  · exact absurd closed (alive socket isSocket)
  · rw [enabled] at disabled
    cases disabled
  · exact exhausted

theorem socket?_replaced {number : Nat} {socket : WebSocket}
    (found : link.replaced[number]? = some socket) :
    link.socket? number = some socket := by
  have inRange := (List.getElem?_eq_some_iff.mp found).1
  rw [socket?, List.getElem?_append_left inRange]
  exact found

/-- A callback that finds no attempts left. -/
theorem Final.dropImmediate (final : Final config start link)
    (exhausted : config.maxAttempts ≤ link.provider.reconnectAttempts) :
    Final config start { link with
      provider := { link.provider with
        immediates := link.provider.immediates - 1 } } where
  scheduled := final.scheduled.dropImmediate
  quiet := ⟨⟨final.quiet.idle.noTimer, .inr exhausted⟩, final.quiet.replaced⟩
  unheard := final.unheard
  untouched := final.untouched

/-- An event that is possible and that the user does not cause changes
nothing about the sockets. -/
theorem Final.step (final : Final config start link) {action : LinkAction}
    (unasked : ¬ action.Reopens) (possible : Possible link action) :
    Final config start (link.step config action) := by
  cases action with
  | request payload options opening error => exact absurd trivial unasked
  | connect opening => exact absurd trivial unasked
  | disconnect closing => exact final.disconnect closing
  | reset => exact absurd trivial unasked
  | opened number chainId accounts errors =>
      have connecting : ∀ socket ∈ link.replaced[number]?,
          socket.listening = true → False := by
        intro socket found listening
        have state := possible socket (socket?_replaced found)
        rcases final.quiet.replaced socket (List.mem_of_getElem? found)
          listening with closed | ⟨notConnecting, -⟩
        · rw [closed] at state
          cases state
        · exact notConnecting state
      have ready := final.setReadyState number .opened
        fun socket found listening =>
          (connecting socket found listening).elim
      rw [WebSocketProvider.step]
      split
      · rename_i heard
        rw [listensTo_setReadyState] at heard
        obtain ⟨socket, found, -, listening⟩ :=
          final.replaced_of_listensTo heard
        exact (connecting socket found listening).elim
      · exact ready
  | message number parsed =>
      rw [WebSocketProvider.step]
      split
      · rename_i heard
        refine final.onMessage (final.settled heard ?_) parsed
        intro socket found closed
        rcases possible socket found with isOpen | isClosing
        · rw [closed] at isOpen
          cases isOpen
        · rw [closed] at isClosing
          cases isClosing
      · exact final
  | error number =>
      have calm := final.scheduled.calm final.quiet.idle
      rw [WebSocketProvider.step, if_neg (by simp [calm])]
      exact final
  | closing number =>
      apply final.setReadyState
      intro socket found listening
      rcases final.quiet.replaced socket (List.mem_of_getElem? found)
        listening with closed | ⟨-, harmless⟩
      · rcases possible socket (socket?_replaced found) with state | state
        · rw [closed] at state
          cases state
        · rw [closed] at state
          cases state
      · exact .inr ⟨by rintro ⟨⟩, harmless⟩
  | closed number code wasClean =>
      have ready := final.setReadyState number .closed
        fun _ _ _ => .inl rfl
      rw [WebSocketProvider.step]
      split
      · rename_i heard
        apply ready.onCloseEvent
        rw [listensTo_setReadyState] at heard
        have settled := final.settled heard possible
        unfold WebSocketProvider.setReadyState
        split
        · exact settled
        · exact settled
      · exact ready
  | parserError => exact final.clearQueues
  | requestDeadline key =>
      exact final.internal
        (Provider.sameConnection_requestDeadline _ _).schedule
  | callerAbort key reason =>
      exact final.internal
        (Provider.sameConnection_callerAbort _ _ _).schedule
  | connectionTimeout =>
      exact final.internal (Provider.sameSchedule_connectionTimeout_step _ _)
  | reconnectTimer opening =>
      rw [WebSocketProvider.step, if_pos final.quiet.idle.noTimer]
      exact final
  | immediate =>
      rw [WebSocketProvider.step]
      split
      · exact final
      · rename_i waiting
        have exhausted :=
          final.quiet.idle.immediates.resolve_left waiting
        exact (final.dropImmediate exhausted).reconnect exhausted

theorem Final.run (final : Final config start link)
    {later : List LinkAction} (unattended : Unattended config link later) :
    Final config start (Web3Js.run (WebSocketProvider.step config) link
      later) := by
  obtain ⟨unasked, possible⟩ := unattended
  induction later generalizing link with
  | nil => exact final
  | cons action later induction =>
      exact induction
        (final.step (unasked action List.mem_cons_self) possible.1)
        (fun other member => unasked other (List.mem_cons_of_mem _ member))
        possible.2

theorem final_disconnect (scheduled : link.provider.Scheduled config)
    (quiet : Quiet config link) (closing : Option String) :
    Final config (link.disconnect closing) (link.disconnect closing) := by
  have same := Provider.sameSchedule_disconnect link.provider
    link.current.status closing.isSome
  have kept : (link.disconnect closing).replaced = link.replaced ∧
      (link.disconnect closing).current.listening = false ∧
      (link.disconnect closing).provider = link.provider.disconnect
        link.current.status closing.isSome := by
    unfold WebSocketProvider.disconnect
    dsimp only
    split
    · exact ⟨rfl, rfl, rfl⟩
    · exact ⟨rfl, rfl, rfl⟩
  obtain ⟨replaced, unheard, provider⟩ := kept
  refine ⟨?_, ⟨?_, ?_⟩, unheard, rfl, fun _ heard => heard⟩
  · rw [provider]
    exact scheduled.congr same
  · rw [provider]
    exact quiet.idle.congr same
  · intro socket member
    rw [replaced] at member
    rw [provider]
    exact (quiet.replaced socket member).congr same

theorem scheduled_ownRequest (scheduled : link.provider.Scheduled config)
    (own : OwnRequest) (method : String) :
    (link.ownRequest config own method).provider.Scheduled config :=
  scheduled.request _ _ _ rfl

theorem scheduled_onConnect (scheduled : link.provider.Scheduled config)
    (chainId accounts : OwnRequest) (errors : Nat → Option String) :
    (link.onConnect config chainId accounts errors).provider.Scheduled
      config := by
  let connected : WebSocketProvider :=
    { link with
      provider := { link.provider with
        connectionTimer := false, connectionStatus := .connected,
        reconnectAttempts := 0 } }
  have start : connected.provider.Scheduled config := scheduled.connected
  have asked := scheduled_ownRequest
    (scheduled_ownRequest start chainId "qrl_chainId") accounts "qrl_accounts"
  exact asked.congr (Provider.sameConnection_sendPendingRequests _ _).schedule

theorem provider_setReadyState (link : WebSocketProvider) (number : Nat)
    (readyState : ReadyState) :
    (link.setReadyState number readyState).provider = link.provider := by
  unfold WebSocketProvider.setReadyState
  split
  · rfl
  · rfl

theorem scheduled_onMessage (scheduled : link.provider.Scheduled config)
    (parsed : List Json) :
    (link.onMessage config parsed).provider.Scheduled config := by
  have whole := scheduled.onMessage parsed
  unfold WebSocketProvider.onMessage
  unfold Provider.onMessage at whole
  split
  · rename_i nothing
    rw [nothing] at whole
    split
    · rename_i enabled
      rw [if_pos enabled] at whole
      exact whole
    · exact scheduled
  · exact scheduled.onMessage parsed

theorem scheduled_onCloseEvent (scheduled : link.provider.Scheduled config)
    (code : Nat) (wasClean : Bool) :
    (link.onCloseEvent config code wasClean).provider.Scheduled config := by
  unfold WebSocketProvider.onCloseEvent
  split
  · rename_i reconnects
    exact scheduled.reconnect reconnects.1
  · have cleared := (Provider.sameConnection_clearQueues
      link.provider).schedule
    exact scheduled.congr (cleared.trans ⟨rfl, rfl, rfl, rfl⟩)

theorem scheduled_step (scheduled : link.provider.Scheduled config)
    (action : LinkAction) :
    (link.step config action).provider.Scheduled config := by
  have moved : ∀ number readyState,
      (link.setReadyState number readyState).provider.Scheduled config := by
    intro number readyState
    rw [provider_setReadyState]
    exact scheduled
  cases action with
  | request payload options opening error =>
      exact scheduled.request _ _ _ rfl
  | connect opening => exact scheduled.connect opening
  | disconnect closing =>
      have same := Provider.sameSchedule_disconnect link.provider
        link.current.status closing.isSome
      rw [WebSocketProvider.step, WebSocketProvider.disconnect]
      dsimp only
      split
      · exact scheduled.congr same
      · exact scheduled.congr same
  | reset => exact scheduled.reset
  | opened number chainId accounts errors =>
      rw [WebSocketProvider.step]
      split
      · exact scheduled_onConnect (moved number .opened) _ _ _
      · exact moved number .opened
  | message number parsed =>
      rw [WebSocketProvider.step]
      split
      · exact scheduled_onMessage scheduled parsed
      · exact scheduled
  | error number =>
      rw [WebSocketProvider.step]
      split
      · rename_i heard
        have reconnecting := (Bool.and_eq_true_iff.mp heard).2
        rw [WebSocketProvider.reconnect]
        dsimp only
        rw [Provider.reconnect, if_pos reconnecting]
        exact scheduled
      · exact scheduled
  | closing number => exact moved number .closing
  | closed number code wasClean =>
      rw [WebSocketProvider.step]
      split
      · exact scheduled_onCloseEvent (moved number .closed) code wasClean
      · exact moved number .closed
  | parserError =>
      exact scheduled.congr (Provider.sameConnection_clearQueues _).schedule
  | requestDeadline key =>
      exact scheduled.congr
        (Provider.sameConnection_requestDeadline _ _).schedule
  | callerAbort key reason =>
      exact scheduled.congr
        (Provider.sameConnection_callerAbort _ _ _).schedule
  | connectionTimeout =>
      exact scheduled.congr (Provider.sameSchedule_connectionTimeout_step _ _)
  | reconnectTimer opening =>
      rw [WebSocketProvider.step]
      split
      · exact scheduled
      · rename_i running
        exact scheduled.reconnectTimer running opening
  | immediate =>
      rw [WebSocketProvider.step]
      split
      · exact scheduled
      · rename_i waiting
        exact scheduled.dropImmediate.reconnect (scheduled.enabled waiting)

theorem scheduled_run (config : Config) (actions : List LinkAction) :
    (Web3Js.run (step config) {} actions).provider.Scheduled config := by
  have preserved : Run.Preserves (step config) fun link =>
      link.provider.Scheduled config :=
    fun _ action scheduled => scheduled_step scheduled action
  exact Run.invariant preserved (Provider.scheduled_initial config) actions

/-! ### What opens a socket -/

/-- The timer of a reconnection opens a socket. -/
theorem number_reconnectTimer (config : Config)
    (running : link.provider.reconnectTimers ≠ 0) :
    (link.step config (.reconnectTimer none)).number = link.number + 1 := by
  rw [WebSocketProvider.step, if_neg running]
  change (link.replaced ++ [_]).length = _
  rw [List.length_append, List.length_singleton]
  rfl

theorem replaced_reconnect (config : Config) (link : WebSocketProvider) :
    (link.reconnect config).replaced = link.replaced := by
  rw [WebSocketProvider.reconnect]
  dsimp only
  split
  · rfl
  · rfl

theorem timers_reconnect (calm : link.provider.isReconnecting = false)
    (left : link.provider.reconnectAttempts < config.maxAttempts) :
    (link.reconnect config).provider.reconnectTimers ≠ 0 := by
  obtain ⟨-, -, timers, -⟩ | ⟨exhausted, -⟩ :=
    Provider.reconnect_spec config calm
  · change (link.provider.reconnect config).reconnectTimers ≠ 0
    rw [timers]
    exact Nat.succ_ne_zero _
  · omega

theorem number_request (config : Config) (link : WebSocketProvider)
    (payload : Payload) (options : Provider.RequestOptions)
    (opening error : Option String) :
    (link.request config payload options opening error).number =
      (link.reopen opening).number := rfl

theorem number_reopen (link : WebSocketProvider) (opening : Option String) :
    link.number ≤ (link.reopen opening).number := by
  unfold reopen
  split
  · change _ ≤ (link.replaced ++ [link.current]).length
    rw [List.length_append]
    exact Nat.le_add_right _ _
  · exact Nat.le_refl _

/-- The request that the provider makes when a forgotten socket opens, with
the current one closed. -/
theorem number_onConnect (config : Config) (link : WebSocketProvider)
    (disconnected : link.current.status = .disconnected)
    (chainId accounts : OwnRequest) (errors : Nat → Option String)
    (opens : chainId.opening = none) :
    link.number < (link.onConnect config chainId accounts errors).number := by
  let connected : WebSocketProvider :=
    { link with
      provider := { link.provider with
        connectionTimer := false, connectionStatus := .connected,
        reconnectAttempts := 0 } }
  have first : (connected.reopen chainId.opening).number =
      link.number + 1 := by
    rw [reopen, if_pos ⟨disconnected, opens⟩]
    change (link.replaced ++ [link.current]).length = _
    rw [List.length_append, List.length_singleton]
    rfl
  have second := number_reopen
    (connected.ownRequest config chainId "qrl_chainId") accounts.opening
  change link.number < ((connected.ownRequest config chainId
    "qrl_chainId").reopen accounts.opening).number
  rw [ownRequest, number_request, first] at second
  exact second

/-- A timer and no user calls open a socket. -/
theorem opened_by_timer (running : link.provider.reconnectTimers ≠ 0) :
    ∃ later, Unattended config link later ∧
      ¬ Untouched link (Web3Js.run (WebSocketProvider.step config) link
        later) := by
  refine ⟨[.reconnectTimer none], ⟨?_, trivial, trivial⟩, ?_⟩
  · intro action member
    rw [List.mem_singleton.mp member]
    exact id
  · intro untouched
    have opens := number_reconnectTimer config running
    have same : (link.step config (.reconnectTimer none)).number =
      link.number := untouched.1
    omega

/-- What a first event leads to, the timer brings about. -/
theorem opened_after (action : LinkAction) (unasked : ¬ action.Reopens)
    (possible : Possible link action)
    (number : (link.step config action).number = link.number)
    (running : (link.step config action).provider.reconnectTimers ≠ 0) :
    ∃ later, Unattended config link later ∧
      ¬ Untouched link (Web3Js.run (WebSocketProvider.step config) link
        later) := by
  refine ⟨[action, .reconnectTimer none], ⟨?_, possible, trivial, trivial⟩,
    ?_⟩
  · intro other member
    rcases List.mem_cons.mp member with rfl | last
    · exact unasked
    · rw [List.mem_singleton.mp last]
      exact id
  · intro untouched
    have opens := number_reconnectTimer config running
    have same : ((link.step config action).step config
      (.reconnectTimer none)).number = link.number := untouched.1
    omega

theorem listensTo_replaced {number : Nat} {socket : WebSocket}
    (found : link.replaced[number]? = some socket) :
    link.listensTo number = socket.listening := by
  rw [listensTo, socket?_replaced found, Option.any_some]

theorem number_setReadyState (link : WebSocketProvider) (number : Nat)
    (readyState : ReadyState) :
    (link.setReadyState number readyState).number = link.number := by
  unfold WebSocketProvider.setReadyState
  split
  · rfl
  · exact List.length_modify ..

/-- A forgotten socket opens while the current one is closed. -/
theorem opened_by_socket {number : Nat} {socket : WebSocket}
    (found : link.replaced[number]? = some socket)
    (listening : socket.listening = true)
    (connecting : socket.readyState = .connecting) :
    ∃ later, Unattended config link later ∧
      ¬ Untouched link (Web3Js.run (WebSocketProvider.step config) link
        later) := by
  let own : OwnRequest := ⟨.number 1, none, none⟩
  let opening : LinkAction := .opened number own own fun _ => none
  have inRange : number < link.replaced.length :=
    (List.getElem?_eq_some_iff.mp found).1
  have opens : ∀ link' : WebSocketProvider, link'.replaced = link.replaced →
      link'.current.status = .disconnected →
        link.number < (link'.step config opening).number := by
    intro link' replaced disconnected
    have other : number ≠ link'.number := by
      rw [WebSocketProvider.number, replaced]
      omega
    have moved : link'.setReadyState number .opened =
        { link' with
          replaced := link'.replaced.modify number fun socket =>
            { socket with readyState := .opened } } :=
      if_neg other
    have heard : (link'.setReadyState number .opened).listensTo number =
        true := by
      rw [listensTo_setReadyState, listensTo_replaced (replaced ▸ found),
        listening]
    rw [WebSocketProvider.step, if_pos heard]
    have more := number_onConnect config (link'.setReadyState number .opened)
      (by rw [moved]; exact disconnected) own own (fun _ => none) rfl
    rw [number_setReadyState] at more
    rw [WebSocketProvider.number, replaced] at more
    exact more
  have isPossible : ∀ link' : WebSocketProvider,
      link'.replaced = link.replaced → Possible link' opening := by
    intro link' replaced other isSocket
    rw [socket?_replaced (replaced ▸ found)] at isSocket
    cases isSocket
    exact connecting
  by_cases disconnected : link.current.status = .disconnected
  · refine ⟨[opening], ⟨?_, isPossible link rfl, trivial⟩, ?_⟩
    · intro action member
      rw [List.mem_singleton.mp member]
      exact id
    · intro untouched
      have more := opens link rfl disconnected
      have same : (link.step config opening).number = link.number :=
        untouched.1
      omega
  · have closes : link.step config (.closing link.number) =
        { link with current := { link.current with readyState := .closing } } :=
      if_pos rfl
    refine ⟨[.closing link.number, opening], ⟨?_, ?_, ?_, trivial⟩, ?_⟩
    · intro action member
      rcases List.mem_cons.mp member with rfl | last
      · exact id
      · rw [List.mem_singleton.mp last]
        exact id
    · intro current isSocket
      rw [socket?, WebSocketProvider.number, List.getElem?_concat_length]
        at isSocket
      cases isSocket
      unfold WebSocket.status at disconnected
      cases state : link.current.readyState with
      | connecting => exact .inl rfl
      | opened => exact .inr rfl
      | closing =>
          rw [state] at disconnected
          exact absurd rfl disconnected
      | closed =>
          rw [state] at disconnected
          exact absurd rfl disconnected
    · rw [closes]
      exact isPossible _ rfl
    · intro untouched
      have more := opens (link.step config (.closing link.number))
        (by rw [closes]) (by rw [closes]; rfl)
      have same : ((link.step config (.closing link.number)).step config
        opening).number = link.number := untouched.1
      omega

/-- What is not quiet leads to a connection. -/
theorem opened_of_not_quiet (scheduled : link.provider.Scheduled config)
    (loud : ¬ Quiet config link) :
    ∃ later, Unattended config link later ∧
      ¬ Untouched link (Web3Js.run (WebSocketProvider.step config) link
        later) := by
  by_cases running : link.provider.reconnectTimers ≠ 0
  · exact opened_by_timer running
  have noTimer : link.provider.reconnectTimers = 0 := not_not.mp running
  have calm : link.provider.isReconnecting = false := by
    rw [Bool.eq_false_iff]
    intro reconnecting
    exact scheduled.timed reconnecting noTimer
  by_cases waiting : link.provider.immediates ≠ 0 ∧
      link.provider.reconnectAttempts < config.maxAttempts
  · obtain ⟨waits, left⟩ := waiting
    refine opened_after .immediate id trivial ?_ ?_
    · rw [WebSocketProvider.step, if_neg waits]
      rw [WebSocketProvider.number, replaced_reconnect]
      rfl
    · rw [WebSocketProvider.step, if_neg waits]
      exact timers_reconnect calm left
  have idle : link.provider.Idle config := by
    refine ⟨noTimer, ?_⟩
    rw [not_and_or, not_not, Nat.not_lt] at waiting
    exact waiting
  have harmful : ∃ socket ∈ link.replaced,
      ¬ Harmless config link.provider socket := by
    by_contra harmless
    push Not at harmless
    exact loud ⟨idle, harmless⟩
  obtain ⟨socket, member, harms⟩ := harmful
  unfold Harmless at harms
  push Not at harms
  obtain ⟨listening, alive, harms⟩ := harms
  obtain ⟨number, found⟩ := List.getElem?_of_mem member
  by_cases connecting : socket.readyState = .connecting
  · exact opened_by_socket found listening connecting
  · obtain ⟨enabled, left⟩ := harms connecting
    have inRange : number < link.replaced.length :=
      (List.getElem?_eq_some_iff.mp found).1
    have closes : link.step config (.closed number 1006 false) =
        (link.setReadyState number .closed).reconnect config := by
      have heard : (link.setReadyState number .closed).listensTo number =
          true := by
        rw [listensTo_setReadyState, listensTo_replaced found, listening]
      rw [WebSocketProvider.step, if_pos heard, WebSocketProvider.onCloseEvent,
        if_pos ⟨(Bool.not_eq_false _).mp enabled, .inr rfl⟩]
    refine opened_after (.closed number 1006 false) id ?_ ?_ ?_
    · intro other isSocket
      rw [socket?_replaced found] at isSocket
      cases isSocket
      exact alive
    · rw [closes, WebSocketProvider.number, replaced_reconnect]
      exact number_setReadyState link number .closed
    · rw [closes]
      apply timers_reconnect
      · rw [provider_setReadyState]
        exact calm
      · rw [provider_setReadyState]
        exact left

theorem quiet_disconnect (config : Config) (link : WebSocketProvider)
    (closing : Option String) :
    Quiet config (link.disconnect closing) ↔ Quiet config link := by
  have same := Provider.sameSchedule_disconnect link.provider
    link.current.status closing.isSome
  have kept : (link.disconnect closing).replaced = link.replaced ∧
      (link.disconnect closing).provider = link.provider.disconnect
        link.current.status closing.isSome := by
    unfold WebSocketProvider.disconnect
    dsimp only
    split
    · exact ⟨rfl, rfl⟩
    · exact ⟨rfl, rfl⟩
  obtain ⟨replaced, provider⟩ := kept
  constructor
  · intro quiet
    refine ⟨⟨?_, ?_⟩, ?_⟩
    · rw [← same.timers, ← provider]
      exact quiet.idle.noTimer
    · rw [← same.immediates, ← same.attempts, ← provider]
      exact quiet.idle.immediates
    · intro socket member listening
      rw [← same.attempts, ← provider]
      exact quiet.replaced socket (replaced ▸ member) listening
  · intro quiet
    refine ⟨provider ▸ quiet.idle.congr same, ?_⟩
    intro socket member
    rw [provider]
    exact (quiet.replaced socket (replaced ▸ member)).congr same

/-- After disconnecting, the provider stays as it is for every run of the
transport and the timers exactly when it was quiet before. -/
theorem disconnect_final_iff_quiet (config : Config)
    (scheduled : link.provider.Scheduled config) (closing : Option String) :
    (∀ later, Unattended config (link.disconnect closing) later →
      Untouched (link.disconnect closing)
        (Web3Js.run (step config) (link.disconnect closing) later)) ↔
      Quiet config link := by
  constructor
  · intro isFinal
    by_contra loud
    rw [← quiet_disconnect config link closing] at loud
    obtain ⟨later, unattended, touched⟩ :=
      opened_of_not_quiet (scheduled_step scheduled (.disconnect closing)) loud
    exact touched (isFinal later unattended)
  · intro quiet later unattended
    exact ((final_disconnect scheduled quiet closing).run unattended).untouched

end Steps

end WebSocketProvider

end Web3Js.Socket
