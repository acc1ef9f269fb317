import Web3Js.Socket.Finality

/-!
# Disconnecting the IPC provider

The IPC provider can connect the same socket again, which attaches listeners
to it once more.  A replaced socket that still connects starts the counting
of attempts again when it has connected.  Nothing connects after disconnecting
exactly when neither what is scheduled nor a replaced socket can lead to a
reconnection.
-/

namespace Web3Js.Socket

namespace IpcProvider

open Provider (SameSchedule Scheduled Idle)

/-- A call with which the user asks for a connection. -/
def IpcAction.Reopens : IpcAction → Prop
  | .request .. | .connect _ | .reset => True
  | _ => False

/-- The events that the transport can report, by the state of the socket. -/
def Possible (ipc : IpcProvider) : IpcAction → Prop
  | .connected number _ =>
      ∀ socket ∈ ipc.socket? number, socket.connecting = true
  | .data number _ | .ended number =>
      ∀ socket ∈ ipc.socket? number, socket.live = true
  | _ => True

/-- The user leaves the provider alone and the transport does what it can. -/
def Unattended (config : Config) (ipc : IpcProvider)
    (later : List IpcAction) : Prop :=
  (∀ action ∈ later, ¬ action.Reopens) ∧
    Run.Meets (step config) Possible ipc later

/-- No socket was opened or connected again, and no listeners were attached
in between. -/
def Untouched (ipc later : IpcProvider) : Prop :=
  later.number = ipc.number ∧
    ∀ number, later.listeners number ≤ ipc.listeners number ∧
      later.errorListeners number ≤ ipc.errorListeners number

/-- A replaced socket that is listened to tells nothing that makes the
provider connect. -/
def Harmless (config : Config) (provider : Provider) (socket : IpcSocket) :
    Prop :=
  0 < socket.listeners → config.autoReconnect = true →
    (socket.connecting = true → config.maxAttempts = 0) ∧
      (socket.live = true → config.maxAttempts ≤ provider.reconnectAttempts)

/-- Nothing is left that leads to a reconnection. -/
structure Quiet (config : Config) (ipc : IpcProvider) : Prop where
  idle : ipc.provider.Idle config
  replaced : ∀ socket ∈ ipc.replaced, Harmless config ipc.provider socket

/-- What holds at all times after disconnecting quietly. -/
structure Final (config : Config) (start ipc : IpcProvider) : Prop where
  scheduled : ipc.provider.Scheduled config
  quiet : Quiet config ipc
  unheard : ipc.current.listeners = 0
  untouched : Untouched start ipc

section Steps

variable {config : Config} {start ipc other : IpcProvider}

theorem Harmless.congr {provider other : Provider} {socket : IpcSocket}
    (harmless : Harmless config provider socket)
    (same : SameSchedule provider other) :
    Harmless config other socket := by
  intro heard enabled
  rw [same.attempts]
  exact harmless heard enabled

theorem socket?_replaced {number : Nat} {socket : IpcSocket}
    (found : ipc.replaced[number]? = some socket) :
    ipc.socket? number = some socket := by
  have inRange := (List.getElem?_eq_some_iff.mp found).1
  rw [socket?, List.getElem?_append_left inRange]
  exact found

theorem socket?_number (ipc : IpcProvider) :
    ipc.socket? ipc.number = some ipc.current := by
  rw [socket?, number, List.getElem?_concat_length]

/-- Counts that do not grow for the current socket do not grow at all, while
the replaced ones stay. -/
theorem count_le (count : IpcSocket → Nat)
    (replaced : other.replaced = ipc.replaced)
    (fewer : count other.current ≤ count ipc.current) (number : Nat) :
    ((other.socket? number).map count).getD 0 ≤
      ((ipc.socket? number).map count).getD 0 := by
  unfold socket?
  rw [replaced]
  rcases Nat.lt_trichotomy number ipc.replaced.length with
    before | here | behind
  · rw [List.getElem?_append_left before, List.getElem?_append_left before]
  · subst here
    rw [List.getElem?_concat_length, List.getElem?_concat_length]
    exact fewer
  · have beyond : ∀ socket : IpcSocket,
        (ipc.replaced ++ [socket])[number]? = none := by
      intro socket
      apply List.getElem?_eq_none
      rw [List.length_append, List.length_singleton]
      omega
    rw [beyond, beyond]

/-- A step that leaves the replaced sockets and what is scheduled alone and
attaches nothing. -/
theorem Final.frame (final : Final config start ipc)
    (same : SameSchedule ipc.provider other.provider)
    (replaced : other.replaced = ipc.replaced)
    (unheard : other.current.listeners = 0)
    (fewer : other.current.errorListeners ≤ ipc.current.errorListeners) :
    Final config start other := by
  refine ⟨final.scheduled.congr same, ⟨final.quiet.idle.congr same, ?_⟩,
    unheard, ?_, ?_⟩
  · intro socket member
    rw [replaced] at member
    exact (final.quiet.replaced socket member).congr same
  · rw [number, replaced]
    exact final.untouched.1
  · intro number
    have listeners : other.listeners number ≤ ipc.listeners number :=
      count_le IpcSocket.listeners replaced (by rw [unheard]; omega) number
    have errors : other.errorListeners number ≤ ipc.errorListeners number :=
      count_le IpcSocket.errorListeners replaced fewer number
    obtain ⟨before, errorsBefore⟩ := final.untouched.2 number
    exact ⟨Nat.le_trans listeners before, Nat.le_trans errors errorsBefore⟩

theorem errorListeners_modifySocket (ipc : IpcProvider) (number other : Nat)
    {change : IpcSocket → IpcSocket}
    (keeps : ∀ socket, (change socket).errorListeners =
      socket.errorListeners) :
    (ipc.modifySocket number change).errorListeners other =
      ipc.errorListeners other := by
  have mapped : ((ipc.modifySocket number change).replaced ++
        [(ipc.modifySocket number change).current]).map
          IpcSocket.errorListeners =
      (ipc.replaced ++ [ipc.current]).map IpcSocket.errorListeners := by
    rw [modifySocket]
    split
    · rw [List.map_append, List.map_append, List.map_singleton,
        List.map_singleton, keeps]
    · rw [List.map_append, List.map_append]
      congr 1
      apply List.ext_getElem?
      intro position
      rw [List.getElem?_map, List.getElem?_map, List.getElem?_modify]
      cases ipc.replaced[position]? with
      | none => rfl
      | some socket =>
          simp only [Option.map_eq_map, Option.map_some]
          split
          · rw [keeps]
          · rfl
  rw [errorListeners, errorListeners, socket?, socket?, ← List.getElem?_map,
    ← List.getElem?_map, mapped]

/-- The transport changes a socket, which keeps its listeners and stays
harmless. -/
theorem Final.modifySocket (final : Final config start ipc) (number : Nat)
    (change : IpcSocket → IpcSocket)
    (keeps : ∀ socket, (change socket).listeners = socket.listeners)
    (keepsErrors : ∀ socket, (change socket).errorListeners =
      socket.errorListeners)
    (harmless : ∀ socket ∈ ipc.replaced[number]?,
      Harmless config ipc.provider (change socket)) :
    Final config start (ipc.modifySocket number change) := by
  refine ⟨?_, ⟨?_, ?_⟩, ?_, ?_, ?_⟩
  · rw [provider_modifySocket]
    exact final.scheduled
  · rw [provider_modifySocket]
    exact final.quiet.idle
  · intro socket member
    rw [provider_modifySocket]
    unfold IpcProvider.modifySocket at member
    split at member
    · exact final.quiet.replaced socket member
    · obtain ⟨position, found⟩ := List.getElem?_of_mem member
      change (ipc.replaced.modify number change)[position]? = _ at found
      rw [List.getElem?_modify] at found
      obtain ⟨old, oldFound, same⟩ := Option.map_eq_some_iff.mp found
      by_cases here : number = position
      · rw [if_pos here] at same
        subst here
        rw [← same]
        exact harmless old oldFound
      · rw [if_neg here] at same
        rw [← same]
        exact final.quiet.replaced old (List.mem_of_getElem? oldFound)
  · rw [current_modifySocket]
    split
    · rw [keeps]
      exact final.unheard
    · exact final.unheard
  · have length : (ipc.modifySocket number change).number = ipc.number := by
      unfold IpcProvider.modifySocket
      split
      · rfl
      · exact List.length_modify ..
    rw [length]
    exact final.untouched.1
  · intro other
    rw [listeners_modifySocket ipc number other keeps,
      errorListeners_modifySocket ipc number other keepsErrors]
    exact final.untouched.2 other

theorem Final.reconnect (final : Final config start ipc)
    (exhausted : config.maxAttempts ≤ ipc.provider.reconnectAttempts) :
    Final config start (ipc.reconnect config) ∧
      (ipc.reconnect config).provider.reconnectAttempts =
        ipc.provider.reconnectAttempts := by
  have same := final.quiet.idle.reconnect final.scheduled exhausted
  refine ⟨?_, same.attempts⟩
  have sockets : (ipc.reconnect config).replaced = ipc.replaced ∧
      (ipc.reconnect config).current.listeners = 0 ∧
      (ipc.reconnect config).current.errorListeners =
        ipc.current.errorListeners := by
    unfold IpcProvider.reconnect
    dsimp only
    split
    · exact ⟨rfl, rfl, rfl⟩
    · exact ⟨rfl, final.unheard, rfl⟩
  obtain ⟨replaced, unheard, errors⟩ := sockets
  exact final.frame same replaced unheard (Nat.le_of_eq errors)

theorem Final.clearQueues (final : Final config start ipc) :
    Final config start ipc.clearQueues :=
  final.frame (Provider.sameConnection_clearQueues _).schedule rfl rfl
    (Nat.le_refl _)

theorem Final.setDisconnected (final : Final config start ipc) :
    Final config start ipc.setDisconnected :=
  final.frame ⟨rfl, rfl, rfl, rfl⟩ rfl final.unheard (Nat.le_refl _)

/-- A state in which reconnecting would be given up, if it is on. -/
def Settled (config : Config) (start ipc : IpcProvider) : Prop :=
  Final config start ipc ∧ (config.autoReconnect = true →
    config.maxAttempts ≤ ipc.provider.reconnectAttempts)

theorem Settled.reconnect (settled : Settled config start ipc)
    (enabled : config.autoReconnect = true) :
    Settled config start (ipc.reconnect config) := by
  obtain ⟨final, attempts⟩ := settled.1.reconnect (settled.2 enabled)
  refine ⟨final, ?_⟩
  rw [attempts]
  exact settled.2

theorem Settled.onMessage (settled : Settled config start ipc)
    (parsed : List Json) :
    Settled config start (ipc.onMessage config parsed) := by
  unfold IpcProvider.onMessage
  split
  · split
    · rename_i enabled
      exact settled.reconnect enabled
    · exact settled
  · rename_i first responses found
    have same : Provider.SameConnection ipc.provider
        (ipc.provider.onMessage config parsed) := by
      rw [Provider.onMessage, found]
      exact Provider.sameConnection_handleResponses _ _
    refine ⟨settled.1.frame same.schedule rfl settled.1.unheard
      (Nat.le_refl _), ?_⟩
    intro enabled
    change _ ≤ (ipc.provider.onMessage config parsed).reconnectAttempts
    rw [same.attempts]
    exact settled.2 enabled

theorem Settled.onCloseEvent (settled : Settled config start ipc) :
    Settled config start (ipc.onCloseEvent config) := by
  unfold IpcProvider.onCloseEvent
  split
  · rename_i enabled
    have disconnected : Settled config start ipc.setDisconnected :=
      ⟨settled.1.setDisconnected, settled.2⟩
    exact disconnected.reconnect enabled
  · rename_i disabled
    refine ⟨?_, fun enabled => absurd enabled disabled⟩
    exact settled.1.clearQueues.frame ⟨rfl, rfl, rfl, rfl⟩ rfl rfl
      (Nat.zero_le _)

theorem Final.onClose (final : Final config start ipc) :
    Final config start ipc.onClose :=
  final.clearQueues.frame ⟨rfl, rfl, rfl, rfl⟩ rfl rfl (Nat.le_refl _)

theorem Final.onError (final : Final config start ipc) :
    Final config start (ipc.onError config) := by
  have calm := final.scheduled.calm final.quiet.idle
  unfold IpcProvider.onError
  rw [if_neg (by rw [calm]; exact Bool.false_ne_true)]
  exact final

/-- While it is connected, a provider asks without opening a socket. -/
theorem sameSchedule_ownRequest (config : Config)
    (connected : ipc.provider.connectionStatus = .connected)
    (own : WebSocketProvider.OwnRequest) (method : String) :
    Provider.SameConnection ipc.provider
        (ipc.ownRequest config own method).provider ∧
      (ipc.ownRequest config own method).current = ipc.current ∧
      (ipc.ownRequest config own method).replaced = ipc.replaced := by
  have alive : ipc.status ≠ .disconnected := by
    rw [status, connected]
    split
    · rintro ⟨⟩
    · rintro ⟨⟩
  have same := Provider.sameConnection_request config ipc.provider
    (.single { id := some own.id, method := some method }) {}
    (ipc.answers own.opening own.error) rfl
  have answered : (ipc.answers own.opening own.error).status ≠
      .disconnected := alive
  rw [if_neg answered] at same
  refine ⟨same, ?_, ?_⟩
  · rw [ownRequest, request, reopen, if_neg alive]
  · rw [ownRequest, request, reopen, if_neg alive]

/-- The handler of a connection counts attempts from the start and leaves the
sockets alone. -/
theorem onConnect_spec (config : Config) (ipc : IpcProvider)
    (handshake : Handshake) :
    (onConnect config handshake ipc).provider.reconnectAttempts = 0 ∧
      (onConnect config handshake ipc).provider.isReconnecting =
        ipc.provider.isReconnecting ∧
      (onConnect config handshake ipc).replaced = ipc.replaced ∧
      (onConnect config handshake ipc).current = ipc.current ∧
      (onConnect config handshake ipc).provider.reconnectTimers =
        ipc.provider.reconnectTimers ∧
      (onConnect config handshake ipc).provider.immediates =
        ipc.provider.immediates := by
  let connected : IpcProvider :=
    { ipc with
      provider := { ipc.provider with
        connectionTimer := false, connectionStatus := .connected,
        reconnectAttempts := 0 } }
  obtain ⟨first, firstCurrent, firstReplaced⟩ :=
    sameSchedule_ownRequest config (show connected.provider.connectionStatus =
      .connected from rfl) handshake.chainId "qrl_chainId"
  obtain ⟨second, secondCurrent, secondReplaced⟩ :=
    sameSchedule_ownRequest config (first.status.trans rfl) handshake.accounts
      "qrl_accounts"
  have sent : Provider.SameConnection connected.provider
      (IpcProvider.onConnect config handshake ipc).provider :=
    (first.trans second).trans
      (Provider.sameConnection_sendPendingRequests _ _)
  exact ⟨sent.attempts, sent.reconnecting,
    secondReplaced.trans firstReplaced, secondCurrent.trans firstCurrent,
    sent.timers, sent.immediates⟩

/-- Counting from the start matters only where attempts could be left. -/
theorem Final.onConnect (final : Final config start ipc)
    (attempts : config.autoReconnect = true → config.maxAttempts = 0)
    (handshake : Handshake) :
    Final config start (onConnect config handshake ipc) := by
  obtain ⟨counted, reconnecting, replaced, current, timers, immediates⟩ :=
    onConnect_spec config ipc handshake
  let counting : IpcProvider :=
    { ipc with provider := { ipc.provider with reconnectAttempts := 0 } }
  have begun : Final config start counting := by
    refine ⟨⟨final.scheduled.timed, final.scheduled.manual⟩,
      ⟨⟨final.quiet.idle.noTimer, ?_⟩, ?_⟩, final.unheard, final.untouched⟩
    · cases enabled : config.autoReconnect with
      | true =>
          exact .inr (Nat.le_of_eq (attempts enabled))
      | false => exact .inl (final.scheduled.manual enabled).2.2
    · intro socket member heard enabled
      obtain ⟨connecting, -⟩ := final.quiet.replaced socket member heard enabled
      exact ⟨connecting, fun _ => Nat.le_of_eq (attempts enabled)⟩
  apply begun.frame ⟨reconnecting, counted, timers, immediates⟩ replaced
  · rw [current]
    exact final.unheard
  · rw [current]

/-- A socket that is listened to is a replaced one. -/
theorem Final.replaced_of_listeners (final : Final config start ipc)
    {number : Nat} (heard : 0 < ipc.listeners number) :
    ∃ socket, ipc.replaced[number]? = some socket ∧
      0 < socket.listeners := by
  unfold listeners socket? at heard
  rcases Nat.lt_trichotomy number ipc.replaced.length with
    before | here | behind
  · rw [List.getElem?_append_left before] at heard
    cases found : ipc.replaced[number]? with
    | none =>
        rw [found] at heard
        exact absurd heard (Nat.lt_irrefl 0)
    | some socket =>
        rw [found] at heard
        exact ⟨socket, rfl, heard⟩
  · subst here
    rw [List.getElem?_concat_length] at heard
    change 0 < ipc.current.listeners at heard
    rw [final.unheard] at heard
    exact absurd heard (Nat.lt_irrefl 0)
  · rw [List.getElem?_eq_none] at heard
    · exact absurd heard (Nat.lt_irrefl 0)
    · rw [List.length_append, List.length_singleton]
      omega

theorem Final.settled (final : Final config start ipc) {number : Nat}
    (heard : 0 < ipc.listeners number)
    (live : ∀ socket ∈ ipc.socket? number, socket.live = true) :
    Settled config start ipc := by
  refine ⟨final, fun enabled => ?_⟩
  obtain ⟨socket, found, listening⟩ := final.replaced_of_listeners heard
  have harmless := final.quiet.replaced socket (List.mem_of_getElem? found)
    listening enabled
  exact harmless.2 (live socket (socket?_replaced found))

theorem Settled.foldl (settled : Settled config start ipc)
    (parsed : List (List Json)) :
    Settled config start
      (parsed.foldl (fun ipc found => ipc.onMessage config found) ipc) := by
  induction parsed generalizing ipc with
  | nil => exact settled
  | cons found parsed induction => exact induction (settled.onMessage found)

theorem Final.connected (final : Final config start ipc) (number : Nat)
    (handshakes : Nat → Handshake)
    (possible : Possible ipc (.connected number handshakes)) :
    Final config start (ipc.step config (.connected number handshakes)) := by
  have ready := final.modifySocket number
    (fun socket => { socket with connecting := false, live := true })
    (fun _ => rfl) (fun _ => rfl) (by
      intro socket found heard enabled
      have connecting := possible socket (socket?_replaced found)
      have none := (final.quiet.replaced socket (List.mem_of_getElem? found)
        heard enabled).1 connecting
      exact ⟨nofun, fun _ => by rw [none]; exact Nat.zero_le _⟩)
  have same : (ipc.modifySocket number fun socket =>
      { socket with connecting := false, live := true }).listeners number =
        ipc.listeners number :=
    listeners_modifySocket ipc number number fun _ => rfl
  rw [IpcProvider.step, same]
  by_cases heard : 0 < ipc.listeners number
  · obtain ⟨socket, found, listening⟩ := final.replaced_of_listeners heard
    have attempts : config.autoReconnect = true → config.maxAttempts = 0 :=
      fun enabled => (final.quiet.replaced socket
        (List.mem_of_getElem? found) listening enabled).1
          (possible socket (socket?_replaced found))
    exact emit_keeps (Final config start) _
      (fun call ipc final => final.onConnect attempts (handshakes call))
      ready _
  · rw [Nat.eq_zero_of_not_pos heard]
    exact ready

/-- The end of a socket, of which its handlers hear. -/
theorem Final.ended (final : Final config start ipc) (number : Nat)
    (possible : Possible ipc (.ended number)) :
    Final config start (ipc.step config (.ended number)) := by
  have ready := final.modifySocket number
    (fun socket => { socket with live := false })
    (fun _ => rfl) (fun _ => rfl) (by
      intro socket found heard enabled
      have harmless := final.quiet.replaced socket
        (List.mem_of_getElem? found) heard enabled
      exact ⟨harmless.1, nofun⟩)
  have same : (ipc.modifySocket number fun socket =>
      { socket with live := false }).listeners number =
        ipc.listeners number :=
    listeners_modifySocket ipc number number fun _ => rfl
  rw [IpcProvider.step, same]
  by_cases heard : 0 < ipc.listeners number
  · have settled := (final.settled heard possible).2
    have start' : Settled config start (ipc.modifySocket number fun socket =>
        { socket with live := false }) := by
      refine ⟨ready, ?_⟩
      rw [provider_modifySocket]
      exact settled
    exact (emit_keeps (Settled config start) _
      (fun _ ipc settled => settled.onCloseEvent) start' _).1
  · rw [Nat.eq_zero_of_not_pos heard]
    exact ready

/-- An event that is possible and that the user does not cause changes
nothing about the sockets. -/
theorem Final.step (final : Final config start ipc) {action : IpcAction}
    (unasked : ¬ action.Reopens) (possible : Possible ipc action) :
    Final config start (ipc.step config action) := by
  cases action with
  | request payload options opening error => exact absurd trivial unasked
  | connect opening => exact absurd trivial unasked
  | disconnect =>
      exact final.frame (Provider.sameSchedule_disconnect _ _ _) rfl rfl
        (Nat.le_refl _)
  | reset => exact absurd trivial unasked
  | connected number handshakes =>
      exact final.connected number handshakes possible
  | data number parsed =>
      rw [IpcProvider.step]
      by_cases heard : 0 < ipc.listeners number
      · exact ((final.settled heard possible).foldl _).1
      · rw [Nat.eq_zero_of_not_pos heard]
        exact final
  | ended number => exact final.ended number possible
  | closed number =>
      have ready := final.modifySocket number
        (fun socket => { socket with live := false })
        (fun _ => rfl) (fun _ => rfl) (by
          intro socket found heard enabled
          have harmless := final.quiet.replaced socket
            (List.mem_of_getElem? found) heard enabled
          exact ⟨harmless.1, by rintro ⟨⟩⟩)
      exact emit_keeps (Final config start) _
        (fun _ ipc final => final.onClose) ready _
  | error number =>
      exact emit_keeps (Final config start) _
        (fun _ ipc final => final.onError) final _
  | destroyed number =>
      refine final.modifySocket number
        (fun socket => { socket with connecting := false }) (fun _ => rfl)
        (fun _ => rfl) ?_
      intro socket found heard enabled
      have harmless := final.quiet.replaced socket
        (List.mem_of_getElem? found) heard enabled
      exact ⟨by rintro ⟨⟩, harmless.2⟩
  | parserError => exact final.clearQueues
  | endCallback =>
      rw [IpcProvider.step]
      split
      · exact final
      · exact final.frame ⟨rfl, rfl, rfl, rfl⟩ rfl final.unheard
          (Nat.le_refl _)
  | requestDeadline key =>
      exact final.frame (Provider.sameConnection_requestDeadline _ _).schedule
        rfl final.unheard (Nat.le_refl _)
  | callerAbort key reason =>
      exact final.frame (Provider.sameConnection_callerAbort _ _ _).schedule
        rfl final.unheard (Nat.le_refl _)
  | connectionTimeout =>
      exact final.frame (Provider.sameSchedule_connectionTimeout_step _ _)
        rfl final.unheard (Nat.le_refl _)
  | reconnectTimer opening =>
      rw [IpcProvider.step, if_pos final.quiet.idle.noTimer]
      exact final
  | immediate =>
      rw [IpcProvider.step]
      split
      · exact final
      · rename_i waiting
        have exhausted := final.quiet.idle.immediates.resolve_left waiting
        have dropped : Final config start { ipc with
            provider := { ipc.provider with
              immediates := ipc.provider.immediates - 1 } } :=
          { scheduled := final.scheduled.dropImmediate
            quiet := ⟨⟨final.quiet.idle.noTimer, .inr exhausted⟩,
              final.quiet.replaced⟩
            unheard := final.unheard
            untouched := final.untouched }
        exact (dropped.reconnect exhausted).1

theorem Final.run (final : Final config start ipc) {later : List IpcAction}
    (unattended : Unattended config ipc later) :
    Final config start
      (Web3Js.run (IpcProvider.step config) ipc later) := by
  obtain ⟨unasked, possible⟩ := unattended
  induction later generalizing ipc with
  | nil => exact final
  | cons action later induction =>
      exact induction
        (final.step (unasked action List.mem_cons_self) possible.1)
        (fun other member => unasked other (List.mem_cons_of_mem _ member))
        possible.2

/-! ### Scheduling along runs -/

theorem scheduled_ownRequest (scheduled : ipc.provider.Scheduled config)
    (own : WebSocketProvider.OwnRequest) (method : String) :
    (ipc.ownRequest config own method).provider.Scheduled config :=
  scheduled.request _ _ _ rfl

theorem scheduled_onConnect (scheduled : ipc.provider.Scheduled config)
    (handshake : Handshake) :
    (onConnect config handshake ipc).provider.Scheduled config := by
  let connected : IpcProvider :=
    { ipc with
      provider := { ipc.provider with
        connectionTimer := false, connectionStatus := .connected,
        reconnectAttempts := 0 } }
  have start : connected.provider.Scheduled config := scheduled.connected
  have asked := scheduled_ownRequest
    (scheduled_ownRequest start handshake.chainId "qrl_chainId")
    handshake.accounts "qrl_accounts"
  exact asked.congr (Provider.sameConnection_sendPendingRequests _ _).schedule

theorem scheduled_onMessage (scheduled : ipc.provider.Scheduled config)
    (parsed : List Json) :
    (ipc.onMessage config parsed).provider.Scheduled config := by
  unfold IpcProvider.onMessage
  split
  · split
    · rename_i enabled
      exact scheduled.reconnect enabled
    · exact scheduled
  · exact scheduled.onMessage parsed

theorem scheduled_onCloseEvent (scheduled : ipc.provider.Scheduled config) :
    (ipc.onCloseEvent config).provider.Scheduled config := by
  unfold IpcProvider.onCloseEvent
  split
  · rename_i enabled
    have disconnected : ipc.setDisconnected.provider.Scheduled config :=
      scheduled.congr ⟨rfl, rfl, rfl, rfl⟩
    exact disconnected.reconnect enabled
  · have cleared := (Provider.sameConnection_clearQueues
      ipc.provider).schedule
    exact scheduled.congr (cleared.trans ⟨rfl, rfl, rfl, rfl⟩)

theorem scheduled_onError (scheduled : ipc.provider.Scheduled config) :
    (ipc.onError config).provider.Scheduled config := by
  unfold IpcProvider.onError
  split
  · rename_i reconnecting
    change (ipc.provider.reconnect config).Scheduled config
    rw [Provider.reconnect, if_pos reconnecting]
    exact scheduled
  · exact scheduled

theorem scheduled_emit (calls : Nat)
    (handler : Nat → IpcProvider → IpcProvider)
    (kept : ∀ call ipc, ipc.provider.Scheduled config →
      (handler call ipc).provider.Scheduled config)
    (scheduled : ipc.provider.Scheduled config) :
    (ipc.emit calls handler).provider.Scheduled config :=
  emit_keeps (fun ipc => ipc.provider.Scheduled config) handler kept scheduled
    calls

theorem scheduled_step (scheduled : ipc.provider.Scheduled config)
    (action : IpcAction) :
    (ipc.step config action).provider.Scheduled config := by
  have moved : ∀ number change,
      (ipc.modifySocket number change).provider.Scheduled config := by
    intro number change
    rw [provider_modifySocket]
    exact scheduled
  cases action with
  | request payload options opening error =>
      exact scheduled.request _ _ _ rfl
  | connect opening => exact scheduled.connect opening
  | disconnect =>
      exact scheduled.congr (Provider.sameSchedule_disconnect _ _ _)
  | reset => exact scheduled.reset
  | connected number handshakes =>
      exact scheduled_emit _ _
        (fun call _ scheduled => scheduled_onConnect scheduled _)
        (moved number _)
  | data number parsed =>
      rw [IpcProvider.step]
      generalize parsed.take (ipc.listeners number) = found
      clear moved
      induction found generalizing ipc with
      | nil => exact scheduled
      | cons first found induction =>
          exact induction (scheduled_onMessage scheduled first)
  | ended number =>
      exact scheduled_emit _ _
        (fun _ _ scheduled => scheduled_onCloseEvent scheduled)
        (moved number _)
  | closed number =>
      exact scheduled_emit _ _
        (fun _ _ scheduled => scheduled.congr
          (Provider.sameConnection_clearQueues _).schedule) (moved number _)
  | error number =>
      exact scheduled_emit _ _
        (fun _ _ scheduled => scheduled_onError scheduled) scheduled
  | destroyed number => exact moved number _
  | parserError =>
      exact scheduled.congr (Provider.sameConnection_clearQueues _).schedule
  | endCallback =>
      rw [IpcProvider.step]
      split
      · exact scheduled
      · exact scheduled.congr ⟨rfl, rfl, rfl, rfl⟩
  | requestDeadline key =>
      exact scheduled.congr
        (Provider.sameConnection_requestDeadline _ _).schedule
  | callerAbort key reason =>
      exact scheduled.congr
        (Provider.sameConnection_callerAbort _ _ _).schedule
  | connectionTimeout =>
      exact scheduled.congr (Provider.sameSchedule_connectionTimeout_step _ _)
  | reconnectTimer opening =>
      rw [IpcProvider.step]
      split
      · exact scheduled
      · rename_i running
        exact scheduled.reconnectTimer running opening
  | immediate =>
      rw [IpcProvider.step]
      split
      · exact scheduled
      · rename_i waiting
        exact scheduled.dropImmediate.reconnect (scheduled.enabled waiting)

theorem scheduled_run (config : Config) (actions : List IpcAction) :
    (Web3Js.run (step config) {} actions).provider.Scheduled config := by
  have preserved : Run.Preserves (step config) fun ipc =>
      ipc.provider.Scheduled config :=
    fun _ action scheduled => scheduled_step scheduled action
  exact Run.invariant preserved (Provider.scheduled_initial config) actions

/-! ### What opens a socket -/

/-- The timer of a reconnection opens a socket or connects the current one
again. -/
theorem touched_by_timer (config : Config)
    (running : ipc.provider.reconnectTimers ≠ 0)
    (unheard : start.current.listeners = 0) :
    ¬ Untouched start (ipc.step config (.reconnectTimer none)) := by
  intro untouched
  rw [IpcProvider.step, if_neg running] at untouched
  have same : (ipc.reconnectTimer none).number = start.number := untouched.1
  have counts := (untouched.2 start.number).1
  have before : start.listeners start.number = 0 := by
    rw [listeners, socket?_number, Option.map_some, Option.getD_some, unheard]
  rw [before, ← same, listeners, socket?_number, Option.map_some,
    Option.getD_some] at counts
  change (ipc.removeSocketListeners.openSocket.current).listeners ≤ 0 at counts
  have added : 0 < ipc.removeSocketListeners.openSocket.current.listeners :=
    Nat.succ_pos _
  omega

theorem opened_after (first : List IpcAction)
    (unattended : Unattended config ipc first)
    (unheard : ipc.current.listeners = 0)
    (running : (Web3Js.run (IpcProvider.step config) ipc
      first).provider.reconnectTimers ≠ 0) :
    ∃ later, Unattended config ipc later ∧
      ¬ Untouched ipc (Web3Js.run (IpcProvider.step config) ipc later) := by
  refine ⟨first ++ [.reconnectTimer none], ⟨?_, ?_⟩, ?_⟩
  · intro action member
    rcases List.mem_append.mp member with earlier | last
    · exact unattended.1 action earlier
    · rw [List.mem_singleton.mp last]
      exact id
  · exact Run.meets_append.mpr ⟨unattended.2, trivial, trivial⟩
  · rw [Web3Js.run, List.foldl_append]
    exact touched_by_timer config running unheard

theorem timers_reconnect (calm : ipc.provider.isReconnecting = false)
    (left : ipc.provider.reconnectAttempts < config.maxAttempts) :
    (ipc.reconnect config).provider.reconnectTimers ≠ 0 := by
  obtain ⟨-, -, timers, -⟩ | ⟨exhausted, -⟩ :=
    Provider.reconnect_spec config calm
  · change (ipc.provider.reconnect config).reconnectTimers ≠ 0
    rw [timers]
    exact Nat.succ_ne_zero _
  · omega

/-- A running timer goes on running. -/
theorem timers_reconnect_running
    (running : ipc.provider.reconnectTimers ≠ 0) :
    (ipc.reconnect config).provider.reconnectTimers ≠ 0 := by
  change (ipc.provider.reconnect config).reconnectTimers ≠ 0
  cases reconnecting : ipc.provider.isReconnecting with
  | true =>
      rw [Provider.reconnect, if_pos reconnecting]
      exact running
  | false =>
      obtain ⟨-, -, timers, -⟩ | ⟨-, same⟩ :=
        Provider.reconnect_spec config reconnecting
      · rw [timers]
        exact Nat.succ_ne_zero _
      · rw [same.timers]
        exact running

/-- The end of a socket that is listened to starts the timer. -/
theorem timers_ended (enabled : config.autoReconnect = true)
    {number : Nat} (heard : 0 < ipc.listeners number)
    (calm : ipc.provider.isReconnecting = false)
    (left : ipc.provider.reconnectAttempts < config.maxAttempts) :
    (ipc.step config (.ended number)).provider.reconnectTimers ≠ 0 := by
  have same : (ipc.modifySocket number fun socket =>
      { socket with live := false }).listeners number =
        ipc.listeners number :=
    listeners_modifySocket ipc number number fun _ => rfl
  have closes : ∀ ipc : IpcProvider, ipc.onCloseEvent config =
      ipc.setDisconnected.reconnect config := fun _ => if_pos enabled
  have ended : ∀ calls, ((ipc.modifySocket number fun socket =>
      { socket with live := false }).emit (calls + 1)
        fun _ => onCloseEvent config).provider.reconnectTimers ≠ 0 := by
    intro calls
    induction calls with
    | zero =>
        rw [emit_succ, emit_zero, closes]
        apply timers_reconnect
        · change (ipc.modifySocket number _).provider.isReconnecting = false
          rw [provider_modifySocket]
          exact calm
        · change (ipc.modifySocket number _).provider.reconnectAttempts < _
          rw [provider_modifySocket]
          exact left
    | succ calls induction =>
        rw [emit_succ, closes]
        exact timers_reconnect_running induction
  rw [IpcProvider.step, same]
  obtain ⟨calls, isSuccessor⟩ := Nat.exists_eq_succ_of_ne_zero
    (Nat.pos_iff_ne_zero.mp heard)
  rw [isSuccessor]
  exact ended calls

/-- A forgotten socket that has connected starts the counting again. -/
theorem connected_again (config : Config) {number : Nat}
    (handshakes : Nat → Handshake)
    (heard : 0 < ipc.listeners number)
    (calm : ipc.provider.isReconnecting = false) :
    (ipc.step config (.connected number handshakes)
        ).provider.reconnectAttempts = 0 ∧
      (ipc.step config (.connected number handshakes)
        ).provider.isReconnecting = false ∧
      (ipc.step config (.connected number handshakes)).replaced =
        (ipc.modifySocket number fun socket =>
          { socket with connecting := false, live := true }).replaced := by
  have same : (ipc.modifySocket number fun socket =>
      { socket with connecting := false, live := true }).listeners number =
        ipc.listeners number :=
    listeners_modifySocket ipc number number fun _ => rfl
  have kept : ∀ calls, ((ipc.modifySocket number fun socket =>
      { socket with connecting := false, live := true }).emit calls
        fun call => onConnect config (handshakes call)
          ).provider.isReconnecting = false ∧
      ((ipc.modifySocket number fun socket =>
        { socket with connecting := false, live := true }).emit calls
          fun call => onConnect config (handshakes call)).replaced =
        (ipc.modifySocket number fun socket =>
          { socket with connecting := false, live := true }).replaced := by
    intro calls
    apply emit_keeps fun later => later.provider.isReconnecting = false ∧
      later.replaced = (ipc.modifySocket number fun socket =>
        { socket with connecting := false, live := true }).replaced
    · intro call later before
      obtain ⟨-, reconnecting, replaced, -⟩ :=
        onConnect_spec config later (handshakes call)
      exact ⟨reconnecting.trans before.1, replaced.trans before.2⟩
    · rw [provider_modifySocket]
      exact ⟨calm, rfl⟩
  rw [IpcProvider.step, same]
  obtain ⟨calls, isSuccessor⟩ := Nat.exists_eq_succ_of_ne_zero
    (Nat.pos_iff_ne_zero.mp heard)
  rw [isSuccessor]
  refine ⟨?_, kept (calls + 1)⟩
  rw [Nat.succ_eq_add_one, emit_succ]
  exact (onConnect_spec config _ _).1

/-- What is not quiet leads to a connection. -/
theorem opened_of_not_quiet (scheduled : ipc.provider.Scheduled config)
    (unheard : ipc.current.listeners = 0) (loud : ¬ Quiet config ipc) :
    ∃ later, Unattended config ipc later ∧
      ¬ Untouched ipc (Web3Js.run (IpcProvider.step config) ipc later) := by
  have alone : ∀ action : IpcAction, ¬ action.Reopens →
      Possible ipc action → Unattended config ipc [action] := by
    intro action unasked possible
    refine ⟨?_, possible, trivial⟩
    intro other member
    rw [List.mem_singleton.mp member]
    exact unasked
  by_cases running : ipc.provider.reconnectTimers ≠ 0
  · exact opened_after [] ⟨List.forall_mem_nil _, trivial⟩ unheard running
  have noTimer : ipc.provider.reconnectTimers = 0 := not_not.mp running
  have calm : ipc.provider.isReconnecting = false := by
    rw [Bool.eq_false_iff]
    intro reconnecting
    exact scheduled.timed reconnecting noTimer
  by_cases waiting : ipc.provider.immediates ≠ 0 ∧
      ipc.provider.reconnectAttempts < config.maxAttempts
  · obtain ⟨waits, left⟩ := waiting
    refine opened_after [.immediate] (alone .immediate id trivial) unheard ?_
    change (ipc.step config .immediate).provider.reconnectTimers ≠ 0
    rw [IpcProvider.step, if_neg waits]
    exact timers_reconnect calm left
  have idle : ipc.provider.Idle config := by
    refine ⟨noTimer, ?_⟩
    rw [not_and_or, not_not, Nat.not_lt] at waiting
    exact waiting
  have harmful : ∃ socket ∈ ipc.replaced,
      ¬ Harmless config ipc.provider socket := by
    by_contra harmless
    push Not at harmless
    exact loud ⟨idle, harmless⟩
  obtain ⟨socket, member, harms⟩ := harmful
  unfold Harmless at harms
  rw [Classical.not_imp, Classical.not_imp] at harms
  obtain ⟨listening, enabled, harms⟩ := harms
  obtain ⟨number, found⟩ := List.getElem?_of_mem member
  have isSocket := socket?_replaced found
  have heard : 0 < ipc.listeners number := by
    rw [listeners, isSocket]
    exact listening
  by_cases live : socket.live = true ∧
      ipc.provider.reconnectAttempts < config.maxAttempts
  · refine opened_after [.ended number] (alone (.ended number) id ?_) unheard
      (timers_ended enabled heard calm live.2)
    intro other isOther
    rw [isSocket] at isOther
    cases isOther
    exact live.1
  · have connecting : socket.connecting = true ∧ config.maxAttempts ≠ 0 := by
      rw [not_and_or, Classical.not_imp, Classical.not_imp,
        Nat.not_le] at harms
      exact harms.resolve_right live
    let own : WebSocketProvider.OwnRequest := ⟨.number 1, none, none⟩
    let handshakes : Nat → Handshake := fun _ => ⟨own, own, fun _ => none⟩
    obtain ⟨attempts, stillCalm, replaced⟩ :=
      connected_again config handshakes heard calm
    have moved : (ipc.step config (.connected number handshakes)
        ).replaced[number]? =
          some { socket with connecting := false, live := true } := by
      have inRange := (List.getElem?_eq_some_iff.mp found).1
      have other : number ≠ ipc.number := Nat.ne_of_lt inRange
      rw [replaced, IpcProvider.modifySocket, if_neg other]
      change (ipc.replaced.modify number _)[number]? = _
      rw [List.getElem?_modify, found]
      simp
    refine opened_after [.connected number handshakes, .ended number]
      ⟨?_, ?_, ?_, trivial⟩ unheard ?_
    · intro action isAction
      rcases List.mem_cons.mp isAction with rfl | last
      · exact id
      · rw [List.mem_singleton.mp last]
        exact id
    · intro other isOther
      rw [isSocket] at isOther
      cases isOther
      exact connecting.1
    · intro other isOther
      rw [socket?_replaced moved] at isOther
      cases isOther
      rfl
    · change ((ipc.step config (.connected number handshakes)).step config
        (.ended number)).provider.reconnectTimers ≠ 0
      apply timers_ended enabled
      · rw [listeners, socket?_replaced moved]
        exact listening
      · exact stillCalm
      · rw [attempts]
        exact Nat.pos_of_ne_zero connecting.2

theorem quiet_disconnect (config : Config) (ipc : IpcProvider) :
    Quiet config ipc.disconnect ↔ Quiet config ipc := by
  have same : SameSchedule ipc.provider ipc.disconnect.provider :=
    Provider.sameSchedule_disconnect ipc.provider ipc.status false
  constructor
  · intro quiet
    refine ⟨⟨?_, ?_⟩, ?_⟩
    · rw [← same.timers]
      exact quiet.idle.noTimer
    · rw [← same.immediates, ← same.attempts]
      exact quiet.idle.immediates
    · intro socket member heard enabled
      rw [← same.attempts]
      exact quiet.replaced socket member heard enabled
  · intro quiet
    exact ⟨quiet.idle.congr same, fun socket member =>
      (quiet.replaced socket member).congr same⟩

/-- After disconnecting, the provider stays as it is for every run of the
transport and the timers exactly when it was quiet before. -/
theorem disconnect_final_iff_quiet (config : Config)
    (scheduled : ipc.provider.Scheduled config) :
    (∀ later, Unattended config ipc.disconnect later →
      Untouched ipc.disconnect
        (Web3Js.run (step config) ipc.disconnect later)) ↔
      Quiet config ipc := by
  have after := scheduled_step scheduled .disconnect
  constructor
  · intro isFinal
    by_contra loud
    rw [← quiet_disconnect config ipc] at loud
    obtain ⟨later, unattended, touched⟩ :=
      opened_of_not_quiet after rfl loud
    exact touched (isFinal later unattended)
  · intro quiet later unattended
    have final : Final config ipc.disconnect ipc.disconnect :=
      ⟨after, (quiet_disconnect config ipc).mpr quiet, rfl, rfl,
        fun _ => ⟨Nat.le_refl _, Nat.le_refl _⟩⟩
    exact (final.run unattended).untouched

end Steps

end IpcProvider

/-- In every run of either provider, disconnecting is final exactly when
nothing is left that leads to a reconnection. -/
theorem disconnect_final_iff (config : Config) :
    (∀ (before : List WebSocketProvider.LinkAction)
        (closing : Option String),
      (∀ later, WebSocketProvider.Unattended config
          ((run (WebSocketProvider.step config) {} before).disconnect closing)
          later →
        WebSocketProvider.Untouched
          ((run (WebSocketProvider.step config) {} before).disconnect closing)
          (run (WebSocketProvider.step config)
            ((run (WebSocketProvider.step config) {} before).disconnect
              closing) later)) ↔
        WebSocketProvider.Quiet config
          (run (WebSocketProvider.step config) {} before)) ∧
    ∀ before : List IpcProvider.IpcAction,
      (∀ later, IpcProvider.Unattended config
          (run (IpcProvider.step config) {} before).disconnect later →
        IpcProvider.Untouched
          (run (IpcProvider.step config) {} before).disconnect
          (run (IpcProvider.step config)
            (run (IpcProvider.step config) {} before).disconnect later)) ↔
        IpcProvider.Quiet config
          (run (IpcProvider.step config) {} before) := by
  constructor
  · intro before closing
    exact WebSocketProvider.disconnect_final_iff_quiet config
      (WebSocketProvider.scheduled_run config before) closing
  · intro before
    exact IpcProvider.disconnect_final_iff_quiet config
      (IpcProvider.scheduled_run config before)

/-- The socket closes and the provider is disconnected while it waits to
reconnect: the timer opens another socket. -/
theorem not_disconnect_final :
    WebSocketProvider.Unattended Provider.defaultConfig
        ((run (WebSocketProvider.step Provider.defaultConfig) {}
          [.closed 0 1006 false]).disconnect none) [.reconnectTimer none] ∧
      ¬ WebSocketProvider.Untouched
        ((run (WebSocketProvider.step Provider.defaultConfig) {}
          [.closed 0 1006 false]).disconnect none)
        (run (WebSocketProvider.step Provider.defaultConfig)
          ((run (WebSocketProvider.step Provider.defaultConfig) {}
            [.closed 0 1006 false]).disconnect none)
          [.reconnectTimer none]) := by
  refine ⟨⟨?_, trivial, trivial⟩, ?_⟩
  · intro action member
    rw [List.mem_singleton.mp member]
    exact id
  · intro untouched
    have opened : (run (WebSocketProvider.step Provider.defaultConfig)
        ((run (WebSocketProvider.step Provider.defaultConfig) {}
          [.closed 0 1006 false]).disconnect none)
        [.reconnectTimer none]).number = 1 := rfl
    have before : ((run (WebSocketProvider.step Provider.defaultConfig) {}
        [.closed 0 1006 false]).disconnect none).number = 0 := rfl
    have same := untouched.1
    rw [opened, before] at same
    exact absurd same (by decide)

end Web3Js.Socket
