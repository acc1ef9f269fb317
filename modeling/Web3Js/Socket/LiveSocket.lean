import Web3Js.Socket.Consistency
import Web3Js.Socket.WebSocket

/-!
# Requests and their sockets

Settling only takes ids out of the sent queue, and what a step adds to it was
written in that step.  So the sent queue holds writes to the current socket as
long as a socket is replaced only when no sent request is left and nothing
listens to it any more.
-/

namespace Web3Js.Socket

namespace Provider

/-- The sent ids of `other` were sent before, or are of the items `keys`. -/
def Sends (provider other : Provider) (keys : List Nat) : Prop :=
  ∀ id key, other.sentRequestsQueue.get? id = some key →
    provider.sentRequestsQueue.get? id = some key ∨ key ∈ keys

section Sends

variable {config : Config} {provider other : Provider}

theorem Sends.of_sent
    (sent : other.sentRequestsQueue = provider.sentRequestsQueue)
    (keys : List Nat) : Sends provider other keys := by
  intro id key found
  rw [sent] at found
  exact .inl found

theorem Sends.trans {last : Provider} {keys others : List Nat}
    (first : Sends provider other keys) (second : Sends other last others) :
    Sends provider last (keys ++ others) := by
  intro id key found
  rcases second id key found with before | added
  · rcases first id key before with original | added
    · exact .inl original
    · exact .inr (List.mem_append_left _ added)
  · exact .inr (List.mem_append_right _ added)

theorem sends_release (provider : Provider) (key : Nat) (item : Item)
    (id : RequestId) (outcome : Settlement) :
    Sends provider (provider.release key item id outcome) [] := by
  intro other owner found
  change (provider.sentRequestsQueue.eraseAll _).get? other = _ at found
  rw [OrderedMap.get?_eraseAll] at found
  split at found
  · cases found
  · exact .inl found

theorem sends_settleRequest (provider : Provider) (id : RequestId)
    (outcome : Settlement) :
    Sends provider (provider.settleRequest id outcome) [] := by
  unfold settleRequest
  split
  · exact .of_sent rfl _
  · split
    · exact .of_sent rfl _
    · exact sends_release provider _ _ id outcome

theorem sends_rejectAll (provider : Provider) (ids : List RequestId)
    (reason : Reason) : Sends provider (provider.rejectAll ids reason) [] := by
  unfold rejectAll
  induction ids generalizing provider with
  | nil => exact .of_sent rfl _
  | cons id ids induction =>
      exact (sends_settleRequest provider id (.reject reason)).trans
        (induction _)

theorem sends_clearQueues (provider : Provider) :
    Sends provider provider.clearQueues [] := by
  have cleared : Sends provider
      { provider with connectionTimer := false } [] := .of_sent rfl _
  exact cleared.trans (sends_rejectAll _ _ _)

theorem sends_reconnect (provider : Provider) :
    Sends provider (provider.reconnect config) [] := by
  unfold reconnect
  split
  · exact .of_sent rfl _
  · have reconnecting : Sends provider
        { provider with isReconnecting := true } [] := .of_sent rfl _
    have rejected := reconnecting.trans (sends_rejectAll _
      provider.sentRequestsQueue.keys .pendingRequestsOnReconnecting)
    dsimp only
    split
    · exact rejected.trans (.of_sent rfl [])
    · exact (rejected.trans (.of_sent rfl [])).trans (sends_clearQueues _)

theorem sends_connect (provider : Provider) (opening : Option String) :
    Sends provider (provider.connect opening).1 [] :=
  .of_sent (connect_fields provider opening).2.1 _

theorem sends_disconnect (provider : Provider) (status : Status)
    (closingThrows : Bool) :
    Sends provider (provider.disconnect status closingThrows) [] := by
  unfold disconnect
  dsimp only
  split
  · exact .of_sent rfl _
  · exact (sends_clearQueues provider).trans (.of_sent rfl [])

theorem sends_reset (provider : Provider) :
    Sends provider provider.reset [] := by
  have cleared : Sends provider
      { provider with connectionTimer := false } [] := .of_sent rfl _
  exact cleared.trans ((sends_rejectAll _ _ _).trans (.of_sent rfl []))

theorem sends_reconnectTimer (provider : Provider)
    (opening : Option String) :
    Sends provider (provider.reconnectTimer opening) [] := by
  unfold reconnectTimer
  have sent := (connect_fields { provider with
    reconnectTimers := provider.reconnectTimers - 1 } opening).2.1
  dsimp only
  split <;> exact .of_sent sent _

theorem sends_handleResponses (provider : Provider) (responses : List Json) :
    Sends provider (provider.handleResponses responses) [] := by
  induction responses generalizing provider with
  | nil => exact .of_sent rfl _
  | cons response responses induction =>
      unfold handleResponses
      split
      · exact .of_sent rfl _
      · exact induction provider
      · split
        · exact (sends_settleRequest provider _ _).trans (induction _)
        · exact induction provider

theorem sends_onMessage (provider : Provider) (parsed : List Json) :
    Sends provider (provider.onMessage config parsed) [] := by
  unfold onMessage
  split
  · split
    · exact sends_reconnect provider
    · exact .of_sent rfl _
  · exact sends_handleResponses provider _

theorem sends_abortItem (provider : Provider) (key : Nat) (item : Item)
    (abort : AbortComposition) (reason : Reason) :
    Sends provider (provider.abortItem key item abort reason) [] := by
  have settled : ∀ current : Provider,
      Sends current
        (if item.listening then current.onAbort item.ids reason else current)
        [] := by
    intro current
    split
    · unfold onAbort
      split
      · exact sends_settleRequest _ _ _
      · exact .of_sent rfl _
    · exact .of_sent rfl _
  have aborting : Sends provider { provider with
      items := provider.items.set key { item with
        abort := { abort with aborted := some reason },
        listening := false } } [] := .of_sent rfl _
  exact (aborting.trans (settled _)).trans (.of_sent rfl [])

/-- Only requests and the opening of a socket send. -/
theorem sends_step (provider : Provider) {action : Action}
    (noRequest : ∀ payload options answers,
      action ≠ .request payload options answers)
    (noOpening : ∀ chainId accounts sending,
      action ≠ .opened chainId accounts sending) :
    Sends provider (step config provider action) [] := by
  cases action with
  | request payload options answers =>
      exact absurd rfl (noRequest payload options answers)
  | opened chainId accounts sending =>
      exact absurd rfl (noOpening chainId accounts sending)
  | connect opening => exact sends_connect provider opening
  | disconnect status closingThrows =>
      exact sends_disconnect provider status closingThrows
  | reset => exact sends_reset provider
  | message parsed => exact sends_onMessage provider parsed
  | parserError => exact sends_clearQueues provider
  | errorEvent =>
      rw [step]
      split
      · exact sends_reconnect provider
      · exact .of_sent rfl _
  | webSocketClosed code wasClean =>
      rw [step]
      split
      · exact sends_reconnect provider
      · exact (sends_clearQueues provider).trans (.of_sent rfl [])
  | ipcEnded event =>
      rw [step]
      split
      · exact (Sends.of_sent rfl []).trans (sends_reconnect _)
      · exact (sends_clearQueues provider).trans (.of_sent rfl [])
  | ipcClosed => exact sends_clearQueues provider
  | ipcCloseCallback => exact .of_sent rfl _
  | requestDeadline key =>
      unfold step requestDeadline
      dsimp only
      split
      · split
        · exact sends_abortItem provider _ _ _ _
        · exact .of_sent rfl _
      · exact .of_sent rfl _
  | callerAbort key reason =>
      unfold step callerAbort
      dsimp only
      split
      · split
        · exact sends_abortItem provider _ _ _ _
        · exact .of_sent rfl _
      · exact .of_sent rfl _
  | connectionTimeout status =>
      unfold step connectionTimeout
      dsimp only
      split
      · split
        · exact .of_sent rfl _
        · exact (Sends.of_sent rfl []).trans (sends_rejectAll _ _ _)
      · exact .of_sent rfl _
  | reconnectTimer opening =>
      rw [step]
      split
      · exact .of_sent rfl _
      · exact sends_reconnectTimer provider opening
  | immediate =>
      rw [step]
      split
      · exact .of_sent rfl _
      · exact (Sends.of_sent rfl []).trans (sends_reconnect _)

/-- A request adds the ids of its item, unless it waits for the socket or
writing to it fails. -/
theorem sends_enqueue_sendOrWait (provider : Provider) {item : Item}
    (tracked : item.tracked = true) (nonempty : item.ids ≠ [])
    (answers : RequestAnswers) :
    Sends provider ((provider.enqueue item answers.queueStatus).sendOrWait
        item.ids answers)
      (if answers.queueStatus ≠ .connecting ∧ answers.sending = none then
        [provider.items.length]
      else []) := by
  by_cases waits : answers.queueStatus = .connecting
  · rw [if_neg (fun now => now.1 waits)]
    unfold sendOrWait
    rw [if_pos waits]
    apply Sends.of_sent
    rw [enqueue, if_pos waits]
    rfl
  · obtain ⟨primaryId, others, ids⟩ := List.exists_cons_of_ne_nil nonempty
    have sent : (provider.enqueue item answers.queueStatus).sentRequestsQueue =
        provider.sentRequestsQueue.setAll item.ids provider.items.length := by
      rw [enqueue, if_neg waits]
      rfl
    have items : (provider.enqueue item answers.queueStatus).items =
        provider.items ++ [item] := by
      rw [enqueue, if_neg waits]
      rfl
    unfold sendOrWait
    rw [if_neg waits]
    cases sending : answers.sending with
    | none =>
        rw [if_pos ⟨waits, rfl⟩]
        intro id key found
        dsimp only at found
        rw [sent, OrderedMap.get?_setAll] at found
        split at found
        · cases found
          exact .inr (List.mem_singleton_self _)
        · exact .inl found
    | some message =>
        have owned : (provider.enqueue item answers.queueStatus).owner
            primaryId = some provider.items.length := by
          rw [owner, sent, OrderedMap.get?_setAll, ids,
            if_pos List.mem_cons_self]
          rfl
        have found : (provider.enqueue item
            answers.queueStatus).items[provider.items.length]? =
              some item := by
          rw [items]
          simp
        intro id key now
        simp only [ids, settleRequest, owned, found] at now
        change ((provider.enqueue item
          answers.queueStatus).sentRequestsQueue.eraseAll _).get? id = _
            at now
        rw [OrderedMap.get?_eraseAll, sent, OrderedMap.get?_setAll, ownedIds,
          if_pos tracked] at now
        split at now
        · cases now
        · exact .inl now

end Sends

end Provider

namespace WebSocketProvider

open Provider

section Writes

variable {config : Config} {provider : Provider}

/-- Opening a socket for a request sends nothing. -/
private theorem sentRequestsQueue_of_opened {provider current : Provider}
    {answers : RequestAnswers} {refusal : Option Refusal}
    (opened : (if answers.status = .disconnected then
        provider.connect answers.opening
      else (provider, none)) = (current, refusal)) :
    current.sentRequestsQueue = provider.sentRequestsQueue := by
  split at opened
  · have sent := (connect_fields provider answers.opening).2.1
    rwa [opened] at sent
  · cases opened
    rfl

theorem sends_request (config : Config) (provider : Provider) (payload : Payload)
    (options : RequestOptions) (answers : RequestAnswers) :
    Sends provider (provider.request config payload options answers).1
      (requestWrites answers
        (provider.request config payload options answers).2) := by
  unfold Provider.request
  split
  · generalize opened :
      (if answers.status = .disconnected then provider.connect answers.opening
        else (provider, none)) = outcome
    obtain ⟨current, refusal⟩ := outcome
    have same := sentRequestsQueue_of_opened opened
    dsimp only
    split
    · exact .of_sent same _
    · split
      · exact .of_sent same _
      · rename_i ids timeout accepted
        have still : Sends provider current [] := .of_sent same []
        exact still.trans (sends_enqueue_sendOrWait current rfl
          (admission_eq_ok accepted).nonempty answers)
  · exact .of_sent rfl _

/-- One entry of the snapshot adds the ids of its item, if the item was not
seen before and writing it works. -/
theorem sends_sendPendingEntry {progress : Provider × List Nat}
    (consistent : progress.1.Consistent config)
    (sending : Nat → Option String) {entry : RequestId × Nat}
    {entries : List (RequestId × Nat)}
    (still : StillPending progress (entry :: entries)) :
    Sends progress.1 (sendPendingEntry sending progress entry).1
      (if sending entry.2 = none then [entry.2] else []) := by
  obtain ⟨current, seen⟩ := progress
  obtain ⟨id, key⟩ := entry
  by_cases known : key ∈ seen
  · simp only [sendPendingEntry, if_pos known]
    exact .of_sent rfl _
  · have queued := still id key List.mem_cons_self known
    obtain ⟨item, found, isOpen, member⟩ :=
      consistent.pendingOwned id key queued
    have owned : (current.items[key]?.map (ownedIds · id)).getD [id] =
        item.ids := by
      simp [found, ownedIds, isOpen.tracked]
    have promoted := consistent.promote found isOpen
    obtain ⟨-, sent, items, -⟩ := promote_promotes current key item.ids
    simp only [sendPendingEntry, if_neg known, owned]
    cases sending key with
    | none =>
        intro other owner now
        dsimp only at now
        rw [sent] at now
        split at now
        · cases now
          exact .inr (by simp)
        · exact .inl now
    | some message =>
        intro other owner now
        have itemFound : (current.promote key item.ids).items[key]? =
            some item := by rw [items, found]
        have own := promoted.owner_of_open itemFound isOpen member
        rcases promoted.settleRequest_cases id
            (.reject (.sendFailure message)) with
          ⟨unowned, -⟩ | ⟨closing, other', owned', closingFound, -, -, closes⟩
        · rw [own] at unowned
          cases unowned
        · rw [own] at owned'
          cases owned'
          rw [itemFound] at closingFound
          cases closingFound
          dsimp only at now
          rw [closes.sent, OrderedMap.get?_eraseAll, sent] at now
          split at now
          · cases now
          · rename_i outside
            rw [if_neg fun moved => outside moved.1] at now
            exact .inl now

theorem sends_sendPendingRequests (consistent : provider.Consistent config)
    (sending : Nat → Option String) :
    Sends provider (provider.sendPendingRequests sending)
      (pendingWrites provider sending) := by
  suffices general : ∀ (entries : List (RequestId × Nat))
      (progress : Provider × List Nat), progress.1.Consistent config →
        StillPending progress entries →
          Sends progress.1
            (entries.foldl (sendPendingEntry sending) progress).1
            ((entries.map Prod.snd).filter (sending · = none)) from
    general _ (provider, []) consistent
      (fun id key member _ => OrderedMap.mem_entries.mp member)
  intro entries
  induction entries with
  | nil => exact fun progress _ _ => .of_sent rfl _
  | cons entry entries induction =>
      intro progress consistent still
      obtain ⟨next, stillNext⟩ := consistent.sendPendingEntry sending still
      have first := sends_sendPendingEntry consistent sending still
      have later := first.trans (induction _ next stillNext)
      rw [List.foldl_cons, List.map_cons, List.filter_cons]
      by_cases works : sending entry.2 = none
      · simpa [works] using later
      · simpa [works] using later

end Writes

section Links

variable {config : Config} {link : WebSocketProvider}

/-- Nothing but the current socket is listened to. -/
def ListensToCurrent (link : WebSocketProvider) : Prop :=
  ∀ socket ∈ link.replaced, socket.listening = false

/-- Every sent id was written to the current socket. -/
def SentToCurrent (link : WebSocketProvider) : Prop :=
  ∀ id key, link.provider.sentRequestsQueue.get? id = some key →
    (key, link.number) ∈ link.written

/-- No request is in the sent queue. -/
def NothingSent (link : WebSocketProvider) : Prop :=
  ∀ id, link.provider.sentRequestsQueue.get? id = none

/-- A socket is replaced only when it is not listened to and nothing is
sent. -/
def Careful (link : WebSocketProvider) : LinkAction → Prop
  | .connect none =>
      link.current.listening = false ∧ link.NothingSent
  | .request _ _ none _ => link.current.status = .disconnected →
      link.current.listening = false ∧ link.NothingSent
  | .reconnectTimer none =>
      link.provider.reconnectTimers ≠ 0 → link.NothingSent
  | _ => True

/-- What sent requests belong to is the live connection. -/
def Live (link : WebSocketProvider) : Prop :=
  link.ListensToCurrent ∧ link.SentToCurrent

structure Sound (config : Config) (link : WebSocketProvider) : Prop where
  consistent : link.provider.Consistent config
  live : link.Live
  /-- Nothing was written to a socket that does not exist yet. -/
  bounded : ∀ write ∈ link.written, write.2 ≤ link.number

/-- A step that writes to the current socket what it sends. -/
theorem Sound.of_sends {other : WebSocketProvider} {keys : List Nat}
    (sound : Sound config link)
    (consistent : other.provider.Consistent config)
    (replaced : other.replaced.map WebSocket.listening =
      link.replaced.map WebSocket.listening)
    (written : other.written =
      link.written ++ keys.map (·, link.number))
    (sends : Sends link.provider other.provider keys) :
    Sound config other := by
  have number : other.number = link.number := by
    have lengths := congrArg List.length replaced
    rwa [List.length_map, List.length_map] at lengths
  refine ⟨consistent, ⟨?_, ?_⟩, ?_⟩
  · intro socket member
    have mapped : socket.listening ∈
        other.replaced.map WebSocket.listening := List.mem_map_of_mem member
    rw [replaced] at mapped
    obtain ⟨before, beforeMember, same⟩ := List.mem_map.mp mapped
    rw [← same]
    exact sound.live.1 before beforeMember
  · intro id key found
    rw [written, number]
    rcases sends id key found with before | added
    · exact List.mem_append_left _ (sound.live.2 id key before)
    · apply List.mem_append_right
      exact List.mem_map.mpr ⟨key, added, rfl⟩
  · intro write member
    rw [written] at member
    rw [number]
    rcases List.mem_append.mp member with before | added
    · exact sound.bounded write before
    · obtain ⟨key, -, rfl⟩ := List.mem_map.mp added
      exact Nat.le_refl _

/-- The provider takes a step that sends nothing, and the current socket may
change its listeners. -/
theorem Sound.of_quiet {other : WebSocketProvider} (sound : Sound config link)
    (consistent : other.provider.Consistent config)
    (replaced : other.replaced.map WebSocket.listening =
      link.replaced.map WebSocket.listening)
    (written : other.written = link.written)
    (sends : Sends link.provider other.provider []) :
    Sound config other := by
  apply sound.of_sends consistent replaced ?_ sends
  rw [written, List.map_nil, List.append_nil]

/-- The current socket is replaced while it is idle. -/
theorem Sound.of_replacement {other : WebSocketProvider} (keys : List Nat)
    {socket : WebSocket} (sound : Sound config link)
    (unheard : socket.listening = false) (nothing : link.NothingSent)
    (consistent : other.provider.Consistent config)
    (replaced : other.replaced = link.replaced ++ [socket])
    (written : other.written =
      link.written ++ keys.map (·, other.number))
    (sends : Sends link.provider other.provider keys) :
    Sound config other := by
  refine ⟨consistent, ⟨?_, ?_⟩, ?_⟩
  · intro before member
    rw [replaced] at member
    rcases List.mem_append.mp member with older | last
    · exact sound.live.1 before older
    · rwa [List.mem_singleton.mp last]
  · intro id key found
    rw [written]
    rcases sends id key found with before | added
    · rw [nothing id] at before
      cases before
    · apply List.mem_append_right
      exact List.mem_map.mpr ⟨key, added, rfl⟩
  · intro write member
    rw [written] at member
    rcases List.mem_append.mp member with before | added
    · rw [number, replaced, List.length_append, List.length_singleton]
      exact Nat.le_succ_of_le (sound.bounded write before)
    · obtain ⟨key, -, rfl⟩ := List.mem_map.mp added
      exact Nat.le_refl _

theorem Sound.setReadyState (sound : Sound config link) (number : Nat)
    (readyState : ReadyState) :
    Sound config (link.setReadyState number readyState) := by
  have same : ∀ sockets : List WebSocket,
      (sockets.modify number fun socket => { socket with readyState }).map
        WebSocket.listening = sockets.map WebSocket.listening := by
    intro sockets
    apply List.ext_getElem?
    intro position
    rw [List.getElem?_map, List.getElem?_map, List.getElem?_modify]
    cases sockets[position]? with
    | none => rfl
    | some socket =>
        simp only [Option.map_eq_map, Option.map_some]
        split <;> rfl
  rw [WebSocketProvider.setReadyState]
  split
  · exact sound.of_quiet sound.consistent rfl rfl (.of_sent rfl _)
  · exact sound.of_quiet sound.consistent (same _) rfl (.of_sent rfl _)

theorem Sound.request (sound : Sound config link) (payload : Payload)
    (options : RequestOptions) (opening error : Option String)
    (careful : link.Careful (.request payload options opening error)) :
    Sound config (link.request config payload options opening error) := by
  have consistent := sound.consistent.request payload options
    (link.answers opening error)
  have sends := sends_request config link.provider payload options
    (link.answers opening error)
  by_cases opens : link.current.status = .disconnected ∧ opening = none
  · obtain ⟨disconnected, rfl⟩ := opens
    obtain ⟨unheard, nothing⟩ := careful disconnected
    have reopened : link.reopen none = link.openSocket := by
      rw [reopen, if_pos ⟨disconnected, rfl⟩]
    refine sound.of_replacement _ unheard nothing consistent ?_ ?_ sends
    · simp only [WebSocketProvider.request, record, reopened]
      rfl
    · simp only [WebSocketProvider.request, record, reopened]
      rfl
  · have reopened : link.reopen opening = link := by
      rw [reopen, if_neg opens]
    refine sound.of_sends consistent ?_ ?_ sends
    · simp only [WebSocketProvider.request, record, reopened]
    · simp only [WebSocketProvider.request, record, reopened]
      rfl

theorem current_request (config : Config) (payload : Payload)
    (options : RequestOptions) (opening error : Option String)
    (alive : link.current.status ≠ .disconnected) :
    (link.request config payload options opening error).current =
      link.current := by
  have reopened : link.reopen opening = link := by
    rw [reopen, if_neg fun opens => alive opens.1]
  simp only [WebSocketProvider.request, record, reopened]

/-- The handler of an opened socket, which is the current one. -/
theorem Sound.onConnect (sound : Sound config link)
    (alive : link.current.status ≠ .disconnected)
    (chainId accounts : OwnRequest) (errors : Nat → Option String) :
    Sound config (link.onConnect config chainId accounts errors) := by
  let connected : WebSocketProvider :=
    { link with
      provider := { link.provider with
        connectionTimer := false, connectionStatus := .connected,
        reconnectAttempts := 0 } }
  have start : Sound config connected :=
    sound.of_quiet (sound.consistent.congr rfl rfl rfl) rfl rfl
      (.of_sent rfl _)
  let asked := connected.ownRequest config chainId "qrl_chainId"
  have current : asked.current = link.current :=
    current_request config _ _ _ _ alive
  have first : Sound config asked := by
    apply start.request
    cases chainId.opening with
    | none => exact fun disconnected => absurd disconnected alive
    | some message => trivial
  have second : Sound config
      (asked.ownRequest config accounts "qrl_accounts") := by
    apply first.request
    cases accounts.opening with
    | none =>
        intro disconnected
        rw [current] at disconnected
        exact absurd disconnected alive
    | some message => trivial
  exact second.of_sends (second.consistent.sendPendingRequests _) rfl rfl
    (sends_sendPendingRequests second.consistent _)

theorem Sound.reconnect (sound : Sound config link) :
    Sound config (link.reconnect config) := by
  apply sound.of_quiet sound.consistent.reconnect
  · rw [WebSocketProvider.reconnect]
    dsimp only
    split <;> rfl
  · rw [WebSocketProvider.reconnect]
    dsimp only
    split <;> rfl
  · exact sends_reconnect link.provider

theorem Sound.clearQueues (sound : Sound config link) :
    Sound config link.clearQueues :=
  sound.of_quiet sound.consistent.clearQueues rfl rfl
    (sends_clearQueues link.provider)

theorem Sound.onMessage (sound : Sound config link) (parsed : List Json) :
    Sound config (link.onMessage config parsed) := by
  unfold WebSocketProvider.onMessage
  split
  · split
    · exact sound.reconnect
    · exact sound
  · exact sound.of_quiet (sound.consistent.onMessage parsed) rfl rfl
      (sends_onMessage link.provider parsed)

theorem Sound.onCloseEvent (sound : Sound config link) (code : Nat)
    (wasClean : Bool) :
    Sound config (link.onCloseEvent config code wasClean) := by
  unfold WebSocketProvider.onCloseEvent
  split
  · exact sound.reconnect
  · exact sound.clearQueues.of_quiet
      (sound.clearQueues.consistent.congr rfl rfl rfl) rfl rfl (.of_sent rfl _)

theorem Sound.internal (sound : Sound config link) (action : Provider.Action)
    (sends : Sends link.provider (link.provider.step config action) []) :
    Sound config (link.internal config action) :=
  sound.of_quiet (step_preserves_consistent config _ action sound.consistent)
    rfl rfl sends

theorem Sound.disconnect (sound : Sound config link)
    (closing : Option String) : Sound config (link.disconnect closing) := by
  have consistent :=
    sound.consistent.disconnect link.current.status closing.isSome
  have sends :=
    sends_disconnect link.provider link.current.status closing.isSome
  unfold WebSocketProvider.disconnect
  dsimp only
  split
  · exact sound.of_quiet consistent rfl rfl sends
  · exact sound.of_quiet consistent rfl rfl sends

/-- Only the current socket's handlers run. -/
theorem number_of_listensTo (listens : link.ListensToCurrent) {number : Nat}
    (heard : link.listensTo number = true) : number = link.number := by
  rw [listensTo, socket?] at heard
  obtain ⟨socket, found, isHeard⟩ : ∃ socket,
      (link.replaced ++ [link.current])[number]? = some socket ∧
        socket.listening = true := by
    cases found : (link.replaced ++ [link.current])[number]? with
    | none =>
        rw [found] at heard
        cases heard
    | some socket =>
        rw [found] at heard
        exact ⟨socket, rfl, heard⟩
  by_contra other
  rcases Nat.lt_or_gt_of_ne other with older | later
  · rw [List.getElem?_append_left older] at found
    rw [listens socket (List.mem_of_getElem? found)] at isHeard
    cases isHeard
  · rw [List.getElem?_eq_none (by
      rw [List.length_append, List.length_singleton]
      exact later)] at found
    cases found

/-- A careful step keeps the sent requests with the live socket. -/
theorem Sound.step (sound : Sound config link) (action : LinkAction)
    (careful : link.Careful action) :
    Sound config (link.step config action) := by
  cases action with
  | request payload options opening error =>
      exact sound.request payload options opening error careful
  | connect opening =>
      have consistent := sound.consistent.connect opening
      have sends := sends_connect link.provider opening
      cases opening with
      | none =>
          obtain ⟨unheard, nothing⟩ := careful
          refine sound.of_replacement [] unheard nothing consistent ?_ ?_
            sends
          · rfl
          · rw [List.map_nil, List.append_nil]
            rfl
      | some message => exact sound.of_quiet consistent rfl rfl sends
  | disconnect closing => exact sound.disconnect closing
  | reset =>
      exact sound.of_quiet sound.consistent.reset rfl rfl
        (sends_reset link.provider)
  | opened number chainId accounts errors =>
      have ready := sound.setReadyState number .opened
      rw [WebSocketProvider.step]
      split
      · rename_i heard
        apply ready.onConnect
        have isCurrent := number_of_listensTo ready.live.1 heard
        have same : number = link.number := by
          rw [isCurrent]
          unfold WebSocketProvider.setReadyState
          split
          · rfl
          · exact List.length_modify ..
        rw [WebSocketProvider.setReadyState, if_pos same]
        simp [WebSocket.status]
      · exact ready
  | message number parsed =>
      rw [WebSocketProvider.step]
      split
      · exact sound.onMessage parsed
      · exact sound
  | error number =>
      rw [WebSocketProvider.step]
      split
      · exact sound.reconnect
      · exact sound
  | closing number => exact sound.setReadyState number .closing
  | closed number code wasClean =>
      have ready := sound.setReadyState number .closed
      rw [WebSocketProvider.step]
      split
      · exact ready.onCloseEvent code wasClean
      · exact ready
  | parserError => exact sound.clearQueues
  | requestDeadline key =>
      exact sound.internal _
        (sends_step link.provider (fun _ _ _ => by simp)
          (fun _ _ _ => by simp))
  | callerAbort key reason =>
      exact sound.internal _
        (sends_step link.provider (fun _ _ _ => by simp)
          (fun _ _ _ => by simp))
  | connectionTimeout =>
      exact sound.internal _
        (sends_step link.provider (fun _ _ _ => by simp)
          (fun _ _ _ => by simp))
  | reconnectTimer opening =>
      rw [WebSocketProvider.step]
      split
      · exact sound
      · rename_i running
        have consistent := sound.consistent.reconnectTimer opening
        have sends := sends_reconnectTimer link.provider opening
        cases opening with
        | none =>
            refine sound.of_replacement [] ?_ (careful running) consistent
              rfl ?_ sends
            · rfl
            · rw [List.map_nil, List.append_nil]
              rfl
        | some message => exact sound.of_quiet consistent rfl rfl sends
  | immediate =>
      rw [WebSocketProvider.step]
      split
      · exact sound
      · apply Sound.reconnect
        exact sound.of_quiet (sound.consistent.congr rfl rfl rfl) rfl rfl
          (.of_sent rfl _)

/-! ## Careless steps -/

/-- The request that opens a socket waits for it. -/
theorem sentRequestsQueue_request (config : Config) (provider : Provider)
    (payload : Payload) (options : RequestOptions) (answers : RequestAnswers)
    (waits : answers.queueStatus = .connecting) :
    (provider.request config payload options answers).1.sentRequestsQueue =
      provider.sentRequestsQueue := by
  unfold Provider.request
  split
  · generalize opened :
      (if answers.status = .disconnected then provider.connect answers.opening
        else (provider, none)) = outcome
    obtain ⟨current, refusal⟩ := outcome
    have same := sentRequestsQueue_of_opened opened
    dsimp only
    split
    · exact same
    · split
      · exact same
      · unfold sendOrWait
        rw [if_pos waits]
        simp only [enqueue, if_pos waits]
        exact same
  · rfl

/-- A sent request was not written to the socket that replaces its own. -/
theorem Sound.nothingSent_of_replacement {other : WebSocketProvider}
    (sound : Sound config link)
    (live : other.Live)
    (sentAgain : other.provider.sentRequestsQueue =
      link.provider.sentRequestsQueue)
    (replaced : other.replaced.length = link.replaced.length + 1)
    (written : other.written = link.written) : link.NothingSent := by
  intro id
  cases found : link.provider.sentRequestsQueue.get? id with
  | none => rfl
  | some key =>
      rw [← sentAgain] at found
      have wrote := live.2 id key found
      rw [written] at wrote
      have bound : other.replaced.length ≤ link.replaced.length :=
        sound.bounded _ wrote
      omega

/-- A step that leaves the sent requests with the live socket is careful. -/
theorem Sound.careful_of_live (sound : Sound config link)
    (action : LinkAction) (live : (link.step config action).Live) :
    link.Careful action := by
  cases action with
  | connect opening =>
      cases opening with
      | none =>
          refine ⟨live.1 link.current (List.mem_append_right _ ?_), ?_⟩
          · exact List.mem_singleton_self _
          · refine sound.nothingSent_of_replacement live rfl ?_ rfl
            exact List.length_append
      | some message => trivial
  | request payload options opening error =>
      cases opening with
      | none =>
          intro disconnected
          have reopened : link.reopen none = link.openSocket := by
            rw [reopen, if_pos ⟨disconnected, rfl⟩]
          let answers := link.answers none error
          have waits : answers.queueStatus = .connecting := by
            change (link.reopen none).current.status = _
            rw [reopened]
            rfl
          have replaced : (link.request config payload options none
              error).replaced = link.replaced ++ [link.current] := by
            simp only [WebSocketProvider.request, record, reopened]
            rfl
          have written : (link.request config payload options none
              error).written = link.written := by
            have nothing : requestWrites answers (link.provider.request config
                payload options answers).2 = [] := by
              unfold requestWrites
              split
              · rw [if_neg fun writes => writes.1 waits]
              · rfl
            simp only [WebSocketProvider.request, record, reopened]
            change link.written ++ (requestWrites answers _).map _ = _
            rw [nothing, List.map_nil, List.append_nil]
          refine ⟨live.1 link.current ?_, ?_⟩
          · change link.current ∈ (link.request config payload options none
              error).replaced
            rw [replaced]
            exact List.mem_append_right _ (List.mem_singleton_self _)
          · refine sound.nothingSent_of_replacement live ?_ ?_ written
            · exact sentRequestsQueue_request config link.provider payload
                options answers waits
            · change List.length (WebSocketProvider.request ..).replaced = _
              rw [replaced]
              exact List.length_append
      | some message => trivial
  | reconnectTimer opening =>
      cases opening with
      | none =>
          intro running
          rw [WebSocketProvider.step, if_neg running] at live
          refine sound.nothingSent_of_replacement live rfl ?_ rfl
          exact List.length_append
      | some message => trivial
  | disconnect | reset | opened | message | error | closing | closed
  | parserError | requestDeadline | callerAbort | connectionTimeout
  | immediate => trivial

theorem sound_initial : Sound config {} where
  consistent := consistent_initial
  live := by
    constructor
    · intro socket member
      cases member
    · intro id key found
      cases found
  bounded write member := by cases member

/-- Sent requests belong to the live connection all along a run exactly if
every step that opens a socket while another one is there is careful. -/
theorem live_along_iff_careful (config : Config)
    (actions : List LinkAction) :
    (∀ before, before <+: actions → (run (step config) {} before).Live) ↔
      Run.Meets (step config) Careful {} actions :=
  Run.along_iff_meets
    (fun _ action sound careful => sound.step action careful)
    (fun _ action sound live => sound.careful_of_live action live)
    (fun _ sound => sound.live) sound_initial actions

/-! ## Runs that leave the live connection -/

private def reconnecting : Config where
  connectionTimeout := 30000
  requestTimeout := 120000
  maxInFlightRequests := 1000
  autoReconnect := true
  maxAttempts := 5

private def blockNumber : LinkAction :=
  .request (.single { id := some (.number 3), method := some "qrl_blockNumber" })
    {} none none

private def firstOpened : LinkAction :=
  .opened 0 ⟨.number 1, none, none⟩ ⟨.number 2, none, none⟩ fun _ => none

/-- A request that is sent while the reconnect timer runs is left behind on
the old socket; a request that finds the socket closed opens another one
while the handlers of the first are attached. -/
theorem not_live_reconnecting :
    ¬ (run (step reconnecting) {} [firstOpened, .message 0 [], blockNumber,
        .reconnectTimer none]).SentToCurrent ∧
      ¬ (run (step reconnecting) {} [firstOpened, .closed 0 1006 true,
        blockNumber]).ListensToCurrent := by
  constructor
  · intro sent
    have wrote := sent (.number 3) 2 rfl
    exact absurd wrote (by decide)
  · intro listens
    have unheard := listens { readyState := .closed } List.mem_cons_self
    exact absurd unheard (by decide)

end Links

end WebSocketProvider

end Web3Js.Socket
