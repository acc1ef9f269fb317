import Web3Js.Socket.Ipc
import Mathlib.Tactic.Common

/-!
# The status of the IPC provider

Settling requests changes neither the status flag nor the bookkeeping of
reconnecting, so what the status says depends on the few handlers that touch
the flag, the sockets or their listeners.  For each step there is a condition
under which it keeps the status truthful, and without which it does not.
-/

namespace Web3Js.Socket

namespace Provider

/-- Neither the status flag nor the bookkeeping of reconnecting differs. -/
structure SameConnection (provider other : Provider) : Prop where
  status : other.connectionStatus = provider.connectionStatus
  reconnecting : other.isReconnecting = provider.isReconnecting
  attempts : other.reconnectAttempts = provider.reconnectAttempts
  timers : other.reconnectTimers = provider.reconnectTimers
  immediates : other.immediates = provider.immediates

section Frames

variable {config : Config} {provider other : Provider}

theorem SameConnection.refl (provider : Provider) :
    SameConnection provider provider := ⟨rfl, rfl, rfl, rfl, rfl⟩

theorem SameConnection.trans {last : Provider}
    (first : SameConnection provider other)
    (second : SameConnection other last) : SameConnection provider last where
  status := second.status.trans first.status
  reconnecting := second.reconnecting.trans first.reconnecting
  attempts := second.attempts.trans first.attempts
  timers := second.timers.trans first.timers
  immediates := second.immediates.trans first.immediates

theorem sameConnection_settleRequest (provider : Provider) (id : RequestId)
    (outcome : Settlement) :
    SameConnection provider (provider.settleRequest id outcome) := by
  unfold settleRequest
  split
  · exact .refl provider
  · split
    · exact .refl provider
    · exact ⟨rfl, rfl, rfl, rfl, rfl⟩

theorem sameConnection_foldl {α : Type} (act : Provider → α → Provider)
    (acts : ∀ provider value, SameConnection provider (act provider value))
    (provider : Provider) (values : List α) :
    SameConnection provider (values.foldl act provider) := by
  induction values generalizing provider with
  | nil => exact .refl provider
  | cons value values induction =>
      exact (acts provider value).trans (induction _)

theorem sameConnection_rejectAll (provider : Provider) (ids : List RequestId)
    (reason : Reason) :
    SameConnection provider (provider.rejectAll ids reason) :=
  sameConnection_foldl _
    (fun provider id => sameConnection_settleRequest provider id _) provider ids

theorem sameConnection_clearQueues (provider : Provider) :
    SameConnection provider provider.clearQueues := by
  have cleared : SameConnection provider
      { provider with connectionTimer := false } := ⟨rfl, rfl, rfl, rfl, rfl⟩
  exact cleared.trans (sameConnection_rejectAll _ _ _)

theorem sameConnection_handleResponses (provider : Provider)
    (responses : List Json) :
    SameConnection provider (provider.handleResponses responses) := by
  induction responses generalizing provider with
  | nil => exact .refl provider
  | cons response responses induction =>
      unfold handleResponses
      split
      · exact .refl provider
      · exact induction provider
      · split
        · exact (sameConnection_settleRequest provider _ _).trans
            (induction _)
        · exact induction provider

theorem sameConnection_sendPendingRequests (provider : Provider)
    (sending : Nat → Option String) :
    SameConnection provider (provider.sendPendingRequests sending) := by
  have entry : ∀ (progress : Provider × List Nat) (entry : RequestId × Nat),
      SameConnection progress.1
        (sendPendingEntry sending progress entry).1 := by
    intro progress entry
    unfold sendPendingEntry
    dsimp only
    split
    · exact .refl _
    · have promoted : ∀ (ids : List RequestId),
          SameConnection progress.1 (progress.1.promote entry.2 ids) := by
        intro ids
        apply sameConnection_foldl
        intro provider id
        split
        · exact ⟨rfl, rfl, rfl, rfl, rfl⟩
        · exact .refl _
      split
      · exact (promoted _).trans (sameConnection_settleRequest _ _ _)
      · exact promoted _
  suffices general : ∀ (entries : List (RequestId × Nat))
      (progress : Provider × List Nat), SameConnection progress.1
        (entries.foldl (sendPendingEntry sending) progress).1 from
    general _ (provider, [])
  intro entries
  induction entries with
  | nil => exact fun progress => .refl progress.1
  | cons first entries induction =>
      exact fun progress => (entry progress first).trans (induction _)

theorem sameConnection_enqueue (provider : Provider) (item : Item)
    (queueStatus : Status) :
    SameConnection provider (provider.enqueue item queueStatus) := by
  unfold enqueue
  dsimp only
  split <;> exact ⟨rfl, rfl, rfl, rfl, rfl⟩

theorem sameConnection_sendOrWait (provider : Provider)
    (ids : List RequestId) (answers : RequestAnswers) :
    SameConnection provider (provider.sendOrWait ids answers) := by
  unfold sendOrWait
  split
  · exact .refl provider
  · split
    · exact sameConnection_settleRequest provider _ _
    · exact .refl provider

/-- A request changes the connection only by opening one. -/
theorem sameConnection_request (config : Config) (provider : Provider)
    (payload : Payload) (options : RequestOptions) (answers : RequestAnswers)
    (defined : answers.connectionDefined = true) :
    SameConnection
      (if answers.status = .disconnected then
        (provider.connect answers.opening).1
      else provider)
      (provider.request config payload options answers).1 := by
  unfold request
  rw [if_pos defined]
  generalize opened :
    (if answers.status = .disconnected then provider.connect answers.opening
      else (provider, none)) = outcome
  obtain ⟨current, refusal⟩ := outcome
  have same : (if answers.status = .disconnected then
      (provider.connect answers.opening).1 else provider) = current := by
    split at opened
    · rename_i disconnected
      rw [if_pos disconnected, opened]
    · rename_i alive
      cases opened
      rw [if_neg alive]
  rw [same]
  dsimp only
  split
  · exact .refl current
  · split
    · exact .refl current
    · exact (sameConnection_enqueue current _ _).trans
        (sameConnection_sendOrWait _ _ _)

theorem sameConnection_abortItem (provider : Provider) (key : Nat)
    (item : Item) (abort : AbortComposition) (reason : Reason) :
    SameConnection provider (provider.abortItem key item abort reason) := by
  have settled : ∀ (provider : Provider) (ids : List RequestId),
      SameConnection provider (provider.onAbort ids reason) := by
    intro provider ids
    unfold onAbort
    split
    · exact sameConnection_settleRequest provider _ _
    · exact .refl provider
  have marked : SameConnection provider
      { provider with
        items := provider.items.set key
          { item with
            abort := { abort with aborted := some reason }
            listening := false } } := ⟨rfl, rfl, rfl, rfl, rfl⟩
  unfold abortItem
  dsimp only
  split
  · obtain ⟨status, reconnecting, attempts, timers, immediates⟩ :=
      marked.trans (settled _ item.ids)
    exact ⟨status, reconnecting, attempts, timers, immediates⟩
  · exact ⟨rfl, rfl, rfl, rfl, rfl⟩

theorem sameConnection_requestDeadline (provider : Provider) (key : Nat) :
    SameConnection provider (provider.requestDeadline key) := by
  unfold requestDeadline
  split
  · split
    · exact sameConnection_abortItem provider key _ _ _
    · exact .refl provider
  · exact .refl provider

theorem sameConnection_callerAbort (provider : Provider) (key : Nat)
    (reason : Option String) :
    SameConnection provider (provider.callerAbort key reason) := by
  unfold callerAbort
  split
  · split
    · exact sameConnection_abortItem provider key _ _ _
    · exact .refl provider
  · exact .refl provider

/-- The connection timer may only set the flag to disconnected. -/
theorem connectionStatus_connectionTimeout (provider : Provider)
    (status : Status) :
    (provider.connectionTimeout config status).connectionStatus =
        provider.connectionStatus ∨
      (provider.connectionTimeout config status).connectionStatus =
        .disconnected := by
  unfold connectionTimeout
  dsimp only
  split
  · exact .inl rfl
  · exact .inr (sameConnection_rejectAll _ _ _).status

theorem connectionStatus_disconnect (provider : Provider) (status : Status) :
    (provider.disconnect status false).connectionStatus = .disconnected := by
  unfold disconnect
  rw [if_neg (by simp)]

theorem connectionStatus_reset (provider : Provider) :
    provider.reset.connectionStatus = provider.connectionStatus :=
  (sameConnection_rejectAll _ _ _).status

theorem connectionStatus_reconnect (provider : Provider) :
    (provider.reconnect config).connectionStatus =
      provider.connectionStatus := by
  have rejected := (sameConnection_rejectAll
    { provider with isReconnecting := true } provider.sentRequestsQueue.keys
    .pendingRequestsOnReconnecting).status
  unfold reconnect
  split
  · rfl
  · dsimp only
    split
    · exact rejected
    · exact (sameConnection_clearQueues _).status.trans rejected

/-- Connecting that fails while the provider reconnects leaves the flag. -/
theorem connectionStatus_connect_some (provider : Provider)
    (message : String) :
    (provider.connect (some message)).1.connectionStatus =
      if provider.isReconnecting then provider.connectionStatus
      else .disconnected := by
  unfold connect
  dsimp only
  split <;> rfl

theorem connectionStatus_reconnectTimer (provider : Provider)
    (opening : Option String) :
    (provider.reconnectTimer opening).connectionStatus =
      (provider.connect opening).1.connectionStatus := by
  unfold reconnectTimer connect
  cases opening with
  | none => rfl
  | some message =>
      cases provider.isReconnecting <;> rfl

end Frames

end Provider

namespace IpcProvider

open Provider

/-- The current socket has connected, has neither ended nor closed since, and
is listened to. -/
def Usable (ipc : IpcProvider) : Prop :=
  ipc.current.live = true ∧ 0 < ipc.current.listeners

/-- Only a usable socket is called connected. -/
def Truthful (ipc : IpcProvider) : Prop :=
  ipc.status = .connected → ipc.Usable

/-- Reconnecting would be given up at once. -/
def Exhausted (config : Config) (ipc : IpcProvider) : Prop :=
  ipc.provider.isReconnecting = false ∧
    config.maxAttempts ≤ ipc.provider.reconnectAttempts

/-- One of the calls for an event of data finds nothing and gives up. -/
def GivesUp (config : Config) (ipc : IpcProvider)
    (results : List (List Json)) : Prop :=
  config.autoReconnect = true ∧ ipc.Exhausted config ∧
    ∃ found ∈ results, found.filter Json.truthy = []

/-- What keeps the status truthful in each step. -/
def Careful (config : Config) (ipc : IpcProvider) : IpcAction → Prop
  | .connected number _ =>
      if number = ipc.number then
        ipc.provider.connectionStatus = .connected →
          0 < ipc.listeners number
      else
        0 < ipc.listeners number → ipc.current.connecting = true ∨ ipc.Usable
  | .destroyed number => number = ipc.number →
      ipc.provider.connectionStatus = .connected → ipc.Usable
  | .closed number => 0 < ipc.listeners number → ipc.status ≠ .connected
  | .data number parsed =>
      ipc.GivesUp config (parsed.take (ipc.listeners number)) →
        ipc.status ≠ .connected
  | .parserError => ipc.status ≠ .connected
  | .reconnectTimer (some _) =>
      ipc.provider.reconnectTimers ≠ 0 →
        ipc.provider.isReconnecting = true → ipc.status ≠ .connected
  | .immediate => ipc.provider.immediates ≠ 0 →
      ipc.Exhausted config → ipc.status ≠ .connected
  | _ => True

section Steps

variable {config : Config} {ipc other : IpcProvider}

theorem status_eq_connected :
    ipc.status = .connected ↔ ipc.current.connecting = false ∧
      ipc.provider.connectionStatus = .connected := by
  rw [status]
  cases ipc.current.connecting with
  | true => simp
  | false => simp

theorem Truthful.congr (truthful : ipc.Truthful)
    (flag : other.provider.connectionStatus = ipc.provider.connectionStatus)
    (current : other.current = ipc.current) : other.Truthful := by
  rwa [Truthful, Usable, status, flag, current]

theorem truthful_of_flag
    (flag : other.provider.connectionStatus ≠ .connected) :
    other.Truthful := by
  intro connected
  exact absurd (status_eq_connected.mp connected).2 flag

/-- A step that removes the listeners must not leave the status connected. -/
theorem truthful_of_unheard
    (flag : other.provider.connectionStatus = ipc.provider.connectionStatus)
    (connecting : other.current.connecting = ipc.current.connecting)
    (unheard : other.current.listeners = 0) :
    other.Truthful ↔ ipc.status ≠ .connected := by
  have same : other.status = ipc.status := by
    rw [status, status, flag, connecting]
  rw [Truthful, same]
  constructor
  · intro truthful connected
    have heard := (truthful connected).2
    rw [unheard] at heard
    exact absurd heard (Nat.lt_irrefl 0)
  · intro alone connected
    exact absurd connected alone

/-! ## Sockets and handlers -/

theorem listeners_number (ipc : IpcProvider) :
    ipc.listeners ipc.number = ipc.current.listeners := by
  rw [listeners, socket?, number, List.getElem?_concat_length]
  rfl

theorem current_modifySocket (ipc : IpcProvider) (number : Nat)
    (change : IpcSocket → IpcSocket) :
    (ipc.modifySocket number change).current =
      if number = ipc.number then change ipc.current else ipc.current := by
  rw [modifySocket]
  split <;> rfl

theorem provider_modifySocket (ipc : IpcProvider) (number : Nat)
    (change : IpcSocket → IpcSocket) :
    (ipc.modifySocket number change).provider = ipc.provider := by
  rw [modifySocket]
  split <;> rfl

theorem listeners_modifySocket (ipc : IpcProvider) (number other : Nat)
    {change : IpcSocket → IpcSocket}
    (keeps : ∀ socket, (change socket).listeners = socket.listeners) :
    (ipc.modifySocket number change).listeners other =
      ipc.listeners other := by
  have mapped : ((ipc.modifySocket number change).replaced ++
        [(ipc.modifySocket number change).current]).map IpcSocket.listeners =
      (ipc.replaced ++ [ipc.current]).map IpcSocket.listeners := by
    rw [modifySocket]
    split
    · rw [List.map_append, List.map_append, List.map_singleton,
        List.map_singleton, keeps]
    · rw [List.map_append, List.map_append]
      congr 1
      apply List.ext_getElem?
      intro position
      rw [List.getElem?_map, List.getElem?_map, List.getElem?_modify]
      cases ipc.replaced[position]? with
      | none => rfl
      | some socket =>
          simp only [Option.map_eq_map, Option.map_some]
          split
          · rw [keeps]
          · rfl
  rw [listeners, listeners, socket?, socket?, ← List.getElem?_map,
    ← List.getElem?_map, mapped]

theorem emit_zero (ipc : IpcProvider)
    (handler : Nat → IpcProvider → IpcProvider) :
    ipc.emit 0 handler = ipc := rfl

theorem emit_succ (ipc : IpcProvider) (calls : Nat)
    (handler : Nat → IpcProvider → IpcProvider) :
    ipc.emit (calls + 1) handler = handler calls (ipc.emit calls handler) := by
  rw [emit, List.range_succ, List.foldl_append]
  rfl

/-- What every call keeps is kept by the event. -/
theorem emit_keeps (property : IpcProvider → Prop)
    (handler : Nat → IpcProvider → IpcProvider)
    (kept : ∀ call ipc, property ipc → property (handler call ipc))
    (start : property ipc) (calls : Nat) :
    property (ipc.emit calls handler) := by
  induction calls with
  | zero => exact start
  | succ calls induction =>
      rw [emit_succ]
      exact kept calls _ induction

theorem reconnect_flag (config : Config) (ipc : IpcProvider) :
    (ipc.reconnect config).provider.connectionStatus =
      ipc.provider.connectionStatus :=
  connectionStatus_reconnect ipc.provider

theorem onConnect_usable (config : Config) (ipc : IpcProvider)
    (handshake : Handshake) :
    (onConnect config handshake ipc).provider.connectionStatus = .connected ∧
      (onConnect config handshake ipc).current = ipc.current := by
  have asks : ∀ (ipc : IpcProvider) (own : WebSocketProvider.OwnRequest)
      (method : String), ipc.provider.connectionStatus = .connected →
        (ipc.ownRequest config own method).provider.connectionStatus =
            .connected ∧
          (ipc.ownRequest config own method).current = ipc.current := by
    intro ipc own method connected
    have alive : ipc.status ≠ .disconnected := by
      rw [status, connected]
      split <;> decide
    constructor
    · have same := (sameConnection_request config ipc.provider
        (.single { id := some own.id, method := some method }) {}
        (ipc.answers own.opening own.error) rfl).status
      rw [if_neg (show (ipc.answers own.opening own.error).status ≠
        .disconnected from alive), connected] at same
      exact same
    · rw [ownRequest, request, reopen, if_neg alive]
  have first := asks
    { ipc with
      provider := { ipc.provider with
        connectionTimer := false, connectionStatus := .connected,
        reconnectAttempts := 0 } }
    handshake.chainId "qrl_chainId" rfl
  have second := asks _ handshake.accounts "qrl_accounts" first.1
  constructor
  · exact (sameConnection_sendPendingRequests _ _).status.trans second.1
  · exact second.2.trans first.2

theorem onCloseEvent_flag (config : Config) (ipc : IpcProvider) :
    (onCloseEvent config ipc).provider.connectionStatus = .disconnected := by
  unfold onCloseEvent
  split
  · exact reconnect_flag config ipc.setDisconnected
  · rfl

theorem onError_same (config : Config) (ipc : IpcProvider) :
    (onError config ipc).provider.connectionStatus =
        ipc.provider.connectionStatus ∧
      (onError config ipc).current = ipc.current := by
  unfold onError
  split
  · rename_i reconnecting
    refine ⟨reconnect_flag config ipc, ?_⟩
    rw [IpcProvider.reconnect]
    simp [reconnecting]
  · exact ⟨rfl, rfl⟩

/-- The current socket of `other`, which the event may have stopped listening
to. -/
structure Heard (config : Config) (ipc : IpcProvider)
    (results : List (List Json)) (other : IpcProvider) : Prop where
  flag : other.provider.connectionStatus = ipc.provider.connectionStatus
  connecting : other.current.connecting = ipc.current.connecting
  removed : ipc.GivesUp config results → other.current.listeners = 0
  kept : ¬ ipc.GivesUp config results → other.current = ipc.current

theorem onMessage_found (config : Config) (ipc : IpcProvider)
    {found : List Json}
    (nonempty : found.filter Json.truthy ≠ []) :
    SameConnection ipc.provider (ipc.onMessage config found).provider ∧
      (ipc.onMessage config found).current = ipc.current := by
  rw [IpcProvider.onMessage]
  cases responses : found.filter Json.truthy with
  | nil => exact absurd responses nonempty
  | cons response rest =>
      refine ⟨?_, rfl⟩
      unfold Provider.onMessage
      rw [responses]
      exact sameConnection_handleResponses _ _

theorem onMessage_nothing (ipc : IpcProvider) {found : List Json}
    (nothing : found.filter Json.truthy = []) :
    ipc.onMessage config found =
      if config.autoReconnect then ipc.reconnect config else ipc := by
  rw [IpcProvider.onMessage, nothing]

/-- Reconnecting gives up or is under way afterwards. -/
theorem reconnect_cases (config : Config) (ipc : IpcProvider) :
    (ipc.Exhausted config ∧ (ipc.reconnect config).current.listeners = 0 ∧
        (ipc.reconnect config).current.connecting =
          ipc.current.connecting) ∨
      (¬ ipc.Exhausted config ∧
        ¬ (ipc.reconnect config).Exhausted config ∧
        (ipc.reconnect config).current = ipc.current) := by
  cases reconnecting : ipc.provider.isReconnecting with
  | true =>
      right
      refine ⟨fun exhausted => ?_, fun exhausted => ?_, ?_⟩
      · rw [Exhausted, reconnecting] at exhausted
        cases exhausted.1
      · have same : (ipc.reconnect config).provider = ipc.provider := by
          change ipc.provider.reconnect config = _
          rw [Provider.reconnect, if_pos reconnecting]
        rw [Exhausted, same, reconnecting] at exhausted
        cases exhausted.1
      · rw [IpcProvider.reconnect, reconnecting]
        rfl
  | false =>
      by_cases reached : config.maxAttempts ≤ ipc.provider.reconnectAttempts
      · left
        refine ⟨⟨reconnecting, reached⟩, ?_, ?_⟩
        · simp [IpcProvider.reconnect, reconnecting, reached,
            removeSocketListeners]
        · simp [IpcProvider.reconnect, reconnecting, reached,
            removeSocketListeners]
      · right
        refine ⟨fun exhausted => reached exhausted.2,
          fun exhausted => ?_, ?_⟩
        · have rejected := sameConnection_rejectAll
            { ipc.provider with isReconnecting := true }
            ipc.provider.sentRequestsQueue.keys .pendingRequestsOnReconnecting
          have waits : (ipc.provider.reconnect config).isReconnecting =
              true := by
            rw [Provider.reconnect, if_neg (by simp [reconnecting])]
            dsimp only
            rw [if_pos]
            · exact rejected.reconnecting
            · rw [rejected.attempts]
              exact Nat.lt_of_not_le reached
          exact absurd (waits.symm.trans exhausted.1) (by decide)
        · simp [IpcProvider.reconnect, reached]

/-- Without a call that gives up, the event leaves the current socket alone;
afterwards no call gives up any more. -/
theorem heard_foldl (config : Config) (ipc : IpcProvider)
    (results : List (List Json)) :
    Heard config ipc results
      (results.foldl (fun ipc found => ipc.onMessage config found) ipc) := by
  induction results generalizing ipc with
  | nil =>
      refine ⟨rfl, rfl, ?_, fun _ => rfl⟩
      rintro ⟨-, -, found, member, -⟩
      cases member
  | cons found results induction =>
      obtain ⟨flag, connecting, removed, kept⟩ :=
        induction (ipc.onMessage config found)
      rw [List.foldl_cons]
      by_cases nothing : found.filter Json.truthy = []
      · rw [onMessage_nothing ipc nothing] at flag connecting removed kept ⊢
        cases automatic : config.autoReconnect with
        | false =>
            have never : ∀ (ipc : IpcProvider) results,
                ¬ ipc.GivesUp config results := by
              intro ipc results givesUp
              rw [GivesUp, automatic] at givesUp
              cases givesUp.1
            rw [automatic] at flag connecting kept
            exact ⟨flag, connecting, fun gives => absurd gives (never _ _),
              fun _ => kept (never _ _)⟩
        | true =>
            rw [automatic] at flag connecting removed kept
            simp only [if_true] at flag connecting removed kept ⊢
            have sameFlag := reconnect_flag config ipc
            rcases reconnect_cases config ipc with
              ⟨exhausted, silent, sameSocket⟩ | ⟨working, waits, sameSocket⟩
            · have gives : ipc.GivesUp config (found :: results) :=
                ⟨automatic, exhausted, found, List.mem_cons_self, nothing⟩
              refine ⟨flag.trans sameFlag, connecting.trans sameSocket,
                fun _ => ?_, fun keeps => absurd gives keeps⟩
              by_cases again : (ipc.reconnect config).GivesUp config results
              · exact removed again
              · rw [kept again]
                exact silent
            · have still := kept fun gives => waits gives.2.1
              refine ⟨flag.trans sameFlag, ?_,
                fun gives => absurd gives.2.1 working, fun _ => ?_⟩
              · rw [still, sameSocket]
              · rw [still, sameSocket]
      · obtain ⟨same, sameSocket⟩ :=
          onMessage_found config ipc nothing
        have gives : (ipc.onMessage config found).GivesUp config results ↔
            ipc.GivesUp config (found :: results) := by
          rw [GivesUp, GivesUp, Exhausted, Exhausted, same.reconnecting,
            same.attempts]
          simp only [List.mem_cons, exists_eq_or_imp, nothing, false_or]
        rw [gives] at removed kept
        refine ⟨flag.trans same.status, ?_, removed, fun keeps => ?_⟩
        · rw [connecting, sameSocket]
        · rw [kept keeps, sameSocket]

theorem emit_onConnect (config : Config) (ipc : IpcProvider) (calls : Nat)
    (handshakes : Nat → Handshake) :
    (ipc.emit calls fun call =>
        onConnect config (handshakes call)).current = ipc.current ∧
      (0 < calls → (ipc.emit calls fun call =>
        onConnect config (handshakes call)).provider.connectionStatus =
          .connected) := by
  constructor
  · exact emit_keeps (·.current = ipc.current) _
      (fun call other same => (onConnect_usable config other _).2.trans same)
      rfl calls
  · intro positive
    cases calls with
    | zero => cases positive
    | succ calls =>
        rw [emit_succ]
        exact (onConnect_usable config _ _).1

theorem emit_onCloseEvent (config : Config) (ipc : IpcProvider) {calls : Nat}
    (positive : 0 < calls) :
    (ipc.emit calls fun _ =>
      onCloseEvent config).provider.connectionStatus = .disconnected := by
  cases calls with
  | zero => cases positive
  | succ calls =>
      rw [emit_succ]
      exact onCloseEvent_flag config _

theorem emit_onClose (ipc : IpcProvider) {calls : Nat}
    (positive : 0 < calls) :
    (ipc.emit calls fun _ => onClose).provider.connectionStatus =
        ipc.provider.connectionStatus ∧
      (ipc.emit calls fun _ => onClose).current.connecting =
        ipc.current.connecting ∧
      (ipc.emit calls fun _ => onClose).current.listeners = 0 := by
  have flag := emit_keeps
    (·.provider.connectionStatus = ipc.provider.connectionStatus)
    (fun _ => onClose)
    (fun call other same =>
      (sameConnection_clearQueues other.provider).status.trans same)
    rfl calls
  have connecting := emit_keeps
    (·.current.connecting = ipc.current.connecting) (fun _ => onClose)
    (fun call other same => same) rfl calls
  cases calls with
  | zero => cases positive
  | succ calls =>
      refine ⟨flag, connecting, ?_⟩
      rw [emit_succ]
      rfl

/-! ## One step -/

theorem truthful_connected (truthful : ipc.Truthful) (number : Nat)
    (handshakes : Nat → Handshake) :
    (ipc.step config (.connected number handshakes)).Truthful ↔
      ipc.Careful config (.connected number handshakes) := by
  let change : IpcSocket → IpcSocket := fun socket =>
    { socket with connecting := false, live := true }
  let ready := ipc.modifySocket number change
  have count : ready.listeners number = ipc.listeners number :=
    listeners_modifySocket ipc number number fun _ => rfl
  have socket : ready.current =
      if number = ipc.number then change ipc.current else ipc.current :=
    current_modifySocket ipc number change
  have provider : ready.provider = ipc.provider :=
    provider_modifySocket ipc number change
  obtain ⟨current, flag⟩ :=
    emit_onConnect config ready (ready.listeners number) handshakes
  change (ready.emit (ready.listeners number) fun call =>
    onConnect config (handshakes call)).Truthful ↔ _
  rw [count] at current flag ⊢
  rw [socket] at current
  rw [Careful]
  by_cases isCurrent : number = ipc.number
  · rw [if_pos isCurrent] at current ⊢
    have same : ipc.listeners number = ipc.current.listeners := by
      rw [isCurrent, listeners_number]
    rcases Nat.eq_zero_or_pos (ipc.listeners number) with unheard | heard
    · rw [unheard, emit_zero] at current ⊢
      constructor
      · intro after connected
        have usable := (after (status_eq_connected.mpr
          ⟨by rw [current], by rw [provider, connected]⟩)).2
        rw [current] at usable
        change 0 < ipc.current.listeners at usable
        rwa [← same, unheard] at usable
      · intro careful connected
        have flagged := (status_eq_connected.mp connected).2
        rw [provider] at flagged
        exact absurd (careful flagged) (Nat.lt_irrefl 0)
    · refine iff_of_true (fun _ => ?_) fun _ => heard
      rw [Usable, current]
      exact ⟨rfl, same ▸ heard⟩
  · rw [if_neg isCurrent] at current ⊢
    rcases Nat.eq_zero_or_pos (ipc.listeners number) with unheard | heard
    · rw [unheard, emit_zero] at current ⊢
      refine iff_of_true ?_ fun called => absurd called (Nat.lt_irrefl 0)
      exact truthful.congr (by rw [provider]) current
    · rw [Truthful, Usable, current, status_eq_connected, current, flag heard]
      constructor
      · intro after _
        cases connecting : ipc.current.connecting with
        | true => exact .inl rfl
        | false => exact .inr (after ⟨connecting, rfl⟩)
      · intro careful connected
        rcases careful heard with connecting | usable
        · rw [connecting] at connected
          cases connected.1
        · exact usable

/-- A socket that ends or closes. -/
private def stop (socket : IpcSocket) : IpcSocket :=
  { socket with live := false }

private theorem status_stop (ipc : IpcProvider) (number : Nat) :
    (ipc.modifySocket number stop).provider = ipc.provider ∧
      (ipc.modifySocket number stop).current.connecting =
        ipc.current.connecting ∧
      (ipc.modifySocket number stop).listeners number =
        ipc.listeners number := by
  refine ⟨provider_modifySocket ipc number stop, ?_,
    listeners_modifySocket ipc number number fun _ => rfl⟩
  rw [current_modifySocket]
  split <;> rfl

/-- The status of a socket that is not listened to cannot be connected. -/
theorem truthful_stop (truthful : ipc.Truthful) {number : Nat}
    (unheard : ipc.listeners number = 0) :
    (ipc.modifySocket number stop).Truthful := by
  intro connected
  obtain ⟨provider, connecting, -⟩ := status_stop ipc number
  have before : ipc.status = .connected := by
    rw [status_eq_connected] at connected ⊢
    rwa [provider, connecting] at connected
  have usable := truthful before
  by_cases isCurrent : number = ipc.number
  · rw [isCurrent, listeners_number] at unheard
    exact absurd unheard (Nat.ne_of_gt usable.2)
  · rwa [Usable, current_modifySocket, if_neg isCurrent]

theorem truthful_ended (truthful : ipc.Truthful) (number : Nat) :
    (ipc.step config (.ended number)).Truthful := by
  obtain ⟨-, -, count⟩ := status_stop ipc number
  change ((ipc.modifySocket number stop).emit
    ((ipc.modifySocket number stop).listeners number) fun _ =>
      onCloseEvent config).Truthful
  rw [count]
  rcases Nat.eq_zero_or_pos (ipc.listeners number) with unheard | heard
  · rw [unheard, emit_zero]
    exact truthful_stop truthful unheard
  · apply truthful_of_flag
    rw [emit_onCloseEvent config _ heard]
    decide

theorem truthful_closed (truthful : ipc.Truthful) (number : Nat) :
    (ipc.step config (.closed number)).Truthful ↔
      ipc.Careful config (.closed number) := by
  obtain ⟨provider, connecting, count⟩ := status_stop ipc number
  change ((ipc.modifySocket number stop).emit
    ((ipc.modifySocket number stop).listeners number) fun _ =>
      onClose).Truthful ↔ _
  rw [count, Careful]
  rcases Nat.eq_zero_or_pos (ipc.listeners number) with unheard | heard
  · rw [unheard, emit_zero]
    refine iff_of_true (truthful_stop truthful unheard) fun called => ?_
    exact absurd called (Nat.lt_irrefl 0)
  · obtain ⟨flag, stillConnecting, silent⟩ :=
      emit_onClose (ipc.modifySocket number stop) heard
    rw [truthful_of_unheard (flag.trans (by rw [provider]))
      (stillConnecting.trans connecting) silent]
    exact ⟨fun alone _ => alone, fun careful => careful heard⟩

theorem truthful_destroyed (truthful : ipc.Truthful) (number : Nat) :
    (ipc.step config (.destroyed number)).Truthful ↔
      ipc.Careful config (.destroyed number) := by
  change (ipc.modifySocket number _).Truthful ↔ _
  rw [Careful]
  by_cases isCurrent : number = ipc.number
  · rw [Truthful, status_eq_connected, Usable, current_modifySocket,
      provider_modifySocket, if_pos isCurrent]
    exact ⟨fun after _ flag => after ⟨rfl, flag⟩,
      fun careful connected => careful isCurrent connected.2⟩
  · refine iff_of_true ?_ fun same => absurd same isCurrent
    apply truthful.congr
    · rw [provider_modifySocket]
    · rw [current_modifySocket, if_neg isCurrent]

theorem truthful_data (truthful : ipc.Truthful) (number : Nat)
    (parsed : List (List Json)) :
    (ipc.step config (.data number parsed)).Truthful ↔
      ipc.Careful config (.data number parsed) := by
  rw [Careful]
  obtain ⟨flag, connecting, removed, kept⟩ := heard_foldl config
    ipc (parsed.take (ipc.listeners number))
  by_cases gives : ipc.GivesUp config (parsed.take (ipc.listeners number))
  · have broken := truthful_of_unheard flag connecting (removed gives)
    exact broken.trans ⟨fun alone _ => alone, fun careful => careful gives⟩
  · refine iff_of_true ?_ fun givesUp => absurd givesUp gives
    exact truthful.congr flag (kept gives)

/-- Connecting leaves the flag and the socket, or the flag is not connected
afterwards. -/
theorem flag_connect (ipc : IpcProvider) (opening : Option String) :
    (ipc.provider.connect opening).1.connectionStatus ≠ .connected ∨
      (ipc.provider.connect opening).1.connectionStatus =
          ipc.provider.connectionStatus ∧
        (ipc.connect opening).current = ipc.current := by
  cases opening with
  | none =>
      left
      change Status.connecting ≠ .connected
      decide
  | some message =>
      rw [connectionStatus_connect_some]
      cases ipc.provider.isReconnecting with
      | true => exact .inr ⟨rfl, rfl⟩
      | false =>
          left
          change Status.disconnected ≠ .connected
          decide

theorem truthful_connect (truthful : ipc.Truthful)
    (opening : Option String) : (ipc.connect opening).Truthful := by
  rcases flag_connect ipc opening with flag | ⟨flag, current⟩
  · exact truthful_of_flag flag
  · exact truthful.congr flag current

theorem truthful_request (truthful : ipc.Truthful) (payload : Payload)
    (options : RequestOptions) (opening error : Option String) :
    (ipc.request config payload options opening error).Truthful := by
  have same := (sameConnection_request config ipc.provider payload options
    (ipc.answers opening error) rfl).status
  by_cases disconnected : ipc.status = .disconnected
  · rw [if_pos (show (ipc.answers opening error).status = .disconnected
      from disconnected)] at same
    have reopened : (ipc.request config payload options opening
        error).current = (ipc.connect opening).current := by
      rw [request, reopen, if_pos disconnected]
    exact (truthful_connect truthful opening).congr same reopened
  · rw [if_neg (show (ipc.answers opening error).status ≠ .disconnected
      from disconnected)] at same
    refine truthful.congr same ?_
    rw [request, reopen, if_neg disconnected]

theorem truthful_reconnectTimer (truthful : ipc.Truthful)
    (opening : Option String) :
    (ipc.step config (.reconnectTimer opening)).Truthful ↔
      ipc.Careful config (.reconnectTimer opening) := by
  rw [step]
  split
  · rename_i idle
    cases opening with
    | none => exact iff_of_true truthful trivial
    | some message =>
        exact iff_of_true truthful fun running => absurd idle running
  · rename_i running
    have flag := connectionStatus_reconnectTimer ipc.provider opening
    cases opening with
    | none =>
        refine iff_of_true (truthful_of_flag ?_) trivial
        change (ipc.provider.reconnectTimer none).connectionStatus ≠ _
        rw [flag]
        change Status.connecting ≠ .connected
        decide
    | some message =>
        rw [connectionStatus_connect_some] at flag
        rw [Careful]
        cases reconnecting : ipc.provider.isReconnecting with
        | true =>
            rw [reconnecting, if_pos rfl] at flag
            have broken : (ipc.reconnectTimer (some message)).Truthful ↔
                ipc.status ≠ .connected := truthful_of_unheard flag rfl rfl
            refine broken.trans ?_
            exact ⟨fun alone _ _ => alone, fun careful => careful running rfl⟩
        | false =>
            rw [reconnecting, if_neg (by decide)] at flag
            refine iff_of_true (truthful_of_flag ?_) fun _ wrong => ?_
            · change (ipc.provider.reconnectTimer _).connectionStatus ≠ _
              rw [flag]
              decide
            · cases wrong

theorem truthful_immediate (truthful : ipc.Truthful) :
    (ipc.step config .immediate).Truthful ↔
      ipc.Careful config .immediate := by
  rw [step, Careful]
  split
  · rename_i idle
    exact iff_of_true truthful fun running => absurd idle running
  · rename_i running
    let started : IpcProvider :=
      { ipc with
        provider := { ipc.provider with
          immediates := ipc.provider.immediates - 1 } }
    have flag : (started.reconnect config).provider.connectionStatus =
        ipc.provider.connectionStatus := reconnect_flag config started
    rcases reconnect_cases config started with
      ⟨exhausted, silent, connecting⟩ | ⟨working, -, current⟩
    · refine (truthful_of_unheard flag connecting silent).trans ?_
      exact ⟨fun alone _ _ => alone, fun careful => careful running exhausted⟩
    · refine iff_of_true ?_ fun _ exhausted => absurd exhausted working
      exact truthful.congr flag current

/-- A step keeps the status truthful exactly if it is careful. -/
theorem truthful_step (truthful : ipc.Truthful) (action : IpcAction) :
    (ipc.step config action).Truthful ↔ ipc.Careful config action := by
  cases action with
  | request payload options opening error =>
      exact iff_of_true
        (truthful_request truthful payload options opening error) trivial
  | connect opening =>
      exact iff_of_true (truthful_connect truthful opening) trivial
  | disconnect =>
      refine iff_of_true (truthful_of_flag ?_) trivial
      change (ipc.provider.disconnect _ _).connectionStatus ≠ _
      rw [connectionStatus_disconnect]
      decide
  | reset =>
      refine iff_of_true (fun connected => ?_) trivial
      have before : ipc.status = .connected := by
        rw [status_eq_connected] at connected ⊢
        exact ⟨connected.1,
          (connectionStatus_reset ipc.provider).symm.trans connected.2⟩
      exact ⟨(truthful before).1, Nat.one_pos⟩
  | connected number handshakes =>
      exact truthful_connected truthful number handshakes
  | data number parsed => exact truthful_data truthful number parsed
  | ended number => exact iff_of_true (truthful_ended truthful number) trivial
  | closed number => exact truthful_closed truthful number
  | error number =>
      refine iff_of_true ?_ trivial
      have same := emit_keeps (fun other =>
          other.provider.connectionStatus = ipc.provider.connectionStatus ∧
            other.current = ipc.current)
        (fun _ => onError config)
        (fun call other same =>
          ⟨(onError_same config other).1.trans same.1,
            (onError_same config other).2.trans same.2⟩)
        ⟨rfl, rfl⟩ (ipc.errorListeners number)
      exact truthful.congr same.1 same.2
  | destroyed number => exact truthful_destroyed truthful number
  | parserError =>
      exact truthful_of_unheard (sameConnection_clearQueues _).status rfl rfl
  | endCallback =>
      refine iff_of_true ?_ trivial
      rw [step]
      split
      · exact truthful
      · apply truthful_of_flag
        change Status.disconnected ≠ .connected
        decide
  | requestDeadline key =>
      have same := sameConnection_requestDeadline ipc.provider key
      exact iff_of_true (truthful.congr same.status rfl) trivial
  | callerAbort key reason =>
      have same := sameConnection_callerAbort ipc.provider key reason
      exact iff_of_true (truthful.congr same.status rfl) trivial
  | connectionTimeout =>
      refine iff_of_true ?_ trivial
      rw [step, internal, Provider.step]
      split
      · rcases connectionStatus_connectionTimeout ipc.provider ipc.status with
          same | disconnected
        · exact truthful.congr same rfl
        · apply truthful_of_flag
          change (ipc.provider.connectionTimeout ..).connectionStatus ≠ _
          rw [disconnected]
          decide
      · exact truthful
  | reconnectTimer opening => exact truthful_reconnectTimer truthful opening
  | immediate => exact truthful_immediate truthful

/-- The status is truthful all along a run exactly if every step is careful. -/
theorem truthful_along_iff_careful (config : Config)
    (actions : List IpcAction) :
    (∀ before, before <+: actions →
        (run (step config) {} before).Truthful) ↔
      Run.Meets (step config) (Careful config) {} actions :=
  Run.along_iff_meets
    (fun _ action truthful careful =>
      (truthful_step truthful action).mpr careful)
    (fun _ action truthful after => (truthful_step truthful action).mp after)
    (fun _ truthful => truthful)
    (fun connected => absurd (status_eq_connected.mp connected).1 (by decide))
    actions

private def lasting : Config where
  connectionTimeout := 30000
  requestTimeout := 120000
  maxInFlightRequests := 1000
  autoReconnect := true
  maxAttempts := 5

/-- A socket that closes without an end stays connected by name, and so does
one whose reconnecting fails while the path is missing. -/
theorem not_truthful_lasting :
    let connected : IpcAction := .connected 0 fun _ =>
      ⟨⟨.number 1, none, none⟩, ⟨.number 2, none, none⟩, fun _ => none⟩
    ¬ (run (step lasting) {} [connected, .closed 0]).Truthful ∧
      ¬ (run (step lasting) {} [connected, .data 0 [[]],
        .reconnectTimer (some "missing")]).Truthful := by
  constructor
  · intro truthful
    exact absurd (truthful rfl).1 (by decide)
  · intro truthful
    exact absurd (truthful rfl).2 (by decide)

end Steps

end IpcProvider

end Web3Js.Socket
