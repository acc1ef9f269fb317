import Web3Js.Socket.Consistency

/-!
# Correlation of responses with requests

A message settles an item by the first of its responses that addresses one of
the item's ids.  The id of a batch is that of its first element, and the kind
of the request is not looked at; so a message resolves an item with a response
of its own kind and ids exactly when that first response has the shape that
the request calls for.
-/

namespace Web3Js.Socket

/-- The response is of the kind of the request and carries its ids. -/
def Answers (item : Item) (response : Json) : Prop :=
  match item.payload with
  | .single _ =>
      response.isSingleResponse = true ∧
        ∃ id, item.ids = [id] ∧ response.responseId = some id
  | .batch _ =>
      ∃ elements, response = .array elements ∧ elements ≠ [] ∧
        ∀ element ∈ elements, element.isSingleResponse = true ∧
          ∃ id ∈ item.ids, element.responseId = some id

/-- A single request is addressed by no array, and a batch by an array whose
elements after the first carry ids of the batch. -/
structure OwnShape (item : Item) (response : Json) : Prop where
  single : ∀ entry, item.payload = .single entry → response.isArray = false
  batch : ∀ entries, item.payload = .batch entries →
    ∃ first others, response = .array (first :: others) ∧
      ∀ element ∈ others, ∃ id ∈ item.ids, element.responseId = some id

namespace Provider

/-- The id that the response carries belongs to the item at the position. -/
def Addresses (sent : OrderedMap RequestId Nat) (key : Nat)
    (response : Json) : Prop :=
  ∃ id isBatch, route response = .addressed id isBatch ∧
    sent.get? id = some key

/-- The response is the first one to address an item, before any that makes
the handler throw. -/
inductive Reaches (sent : OrderedMap RequestId Nat) (key : Nat)
    (response : Json) : List Json → Prop
  | here {later : List Json} (addresses : Addresses sent key response) :
      Reaches sent key response (response :: later)
  | later {other : Json} {later : List Json} (quiet : route other ≠ .thrown)
      (elsewhere : ¬Addresses sent key other)
      (reaches : Reaches sent key response later) :
      Reaches sent key response (other :: later)

/-- Every result, error or batch that is the first to address an item of the
message has the shape that the item's request calls for. -/
def WellAddressed (provider : Provider) (parsed : List Json) : Prop :=
  ∀ (key : Nat) (item : Item) (response : Json),
    provider.items[key]? = some item →
      Reaches provider.sentRequestsQueue key response
        (parsed.filter Json.truthy) →
      response.isArray = true ∨ response.isSingleResponse = true →
        OwnShape item response

/-- The message resolves unsettled requests with their own responses only. -/
def ResolvesOwn (config : Config) (provider : Provider)
    (parsed : List Json) : Prop :=
  ∀ (key : Nat) (item after : Item) (response : Json),
    provider.items[key]? = some item → item.settled = false →
      (provider.onMessage config parsed).items[key]? = some after →
        .resolve response ∈ after.settlements → Answers item response

section Routes

theorem isBatchResponse_eq_true {response : Json}
    (batch : response.isBatchResponse = some true) :
    ∃ first others, response = .array (first :: others) ∧
      ∀ element ∈ first :: others, element.isSingleResponse = true := by
  cases response with
  | array elements =>
      cases elements with
      | nil => simp [Json.isBatchResponse] at batch
      | cons first others =>
          refine ⟨first, others, rfl, ?_⟩
          simp only [Json.isBatchResponse] at batch
          generalize first :: others = elements at batch
          induction elements with
          | nil => simp
          | cons element elements induction =>
              simp only [Json.everyValid] at batch
              split at batch
              · rename_i valid
                intro other member
                rcases List.mem_cons.mp member with rfl | later
                · simp [Json.isSingleResponse, valid]
                · exact induction batch other later
              · rename_i invalid
                exact absurd batch invalid
  | null | boolean | number | string | object =>
      simp [Json.isBatchResponse] at batch

theorem route_addressed {response : Json} {id : RequestId} {isBatch : Bool}
    (routed : route response = .addressed id isBatch) :
    response.isBatchResponse = some isBatch ∧
      addressedId response isBatch = some id := by
  unfold route at routed
  split at routed
  · cases routed
  · cases routed
  · split at routed
    · cases routed
    · rename_i batch
      split at routed
      · cases routed
      · rename_i found
        cases routed
        exact ⟨batch, found⟩

theorem addressed_array {response : Json} {id : RequestId} {isBatch : Bool}
    (routed : route response = .addressed id isBatch) :
    response.isArray = isBatch := by
  obtain ⟨batch, found⟩ := route_addressed routed
  cases isBatch with
  | true =>
      obtain ⟨first, others, rfl, -⟩ := isBatchResponse_eq_true batch
      rfl
  | false =>
      cases response with
      | array elements =>
          simp [addressedId, Json.responseId, Json.property,
            Json.toRequestId] at found
      | null | boolean | number | string | object => rfl

/-- A response resolves when it is an array or a single response. -/
theorem responseOutcome_resolve {response other : Json} {id : RequestId}
    {isBatch : Bool} (routed : route response = .addressed id isBatch) :
    responseOutcome response isBatch = .resolve other ↔
      other = response ∧
        (response.isArray = true ∨ response.isSingleResponse = true) := by
  rw [addressed_array routed]
  have single : response.isSingleResponse =
      (response.isResponseWithResult ||
        response.isResponseWithError == some true) := by
    unfold Json.isSingleResponse Json.validateResponse
    split
    · rename_i result
      simp [result]
    · rename_i result
      simp [result]
  rw [single, responseOutcome]
  cases isBatch <;> cases response.isResponseWithResult <;>
    cases response.isResponseWithError == some true <;>
      simp [eq_comm]

/-- For an item that a response addresses, the shape is all that is left to
check. -/
theorem answers_iff_ownShape {item : Item} (isOpen : item.Open)
    {response : Json} {id : RequestId} {isBatch : Bool}
    (routed : route response = .addressed id isBatch)
    (member : id ∈ item.ids)
    (valid : response.isArray = true ∨ response.isSingleResponse = true) :
    Answers item response ↔ OwnShape item response := by
  obtain ⟨batch, found⟩ := route_addressed routed
  have array := addressed_array routed
  cases payload : item.payload with
  | single entry =>
      obtain ⟨own, ids⟩ := isOpen.shaped entry payload
      have shape : OwnShape item response ↔ response.isArray = false :=
        ⟨fun shape => shape.single entry payload, fun plain =>
          ⟨fun _ _ => plain, by simp [payload]⟩⟩
      rw [shape, Answers, payload]
      constructor
      · rintro ⟨single, -⟩
        cases response with
        | array elements =>
            simp [Json.isSingleResponse, Json.validateResponse,
              Json.isResponseWithResult, Json.isResponseWithError,
              Json.isArray] at single
        | null | boolean | number | string | object => rfl
      · intro plain
        rw [plain] at array
        subst array
        rw [ids, List.mem_singleton] at member
        refine ⟨?_, own, ids, ?_⟩
        · rcases valid with isArray | single
          · rw [plain] at isArray
            cases isArray
          · exact single
        · rw [← member]
          cases response with
          | array elements => simp [Json.isArray] at plain
          | null | boolean | number | string | object => exact found
  | batch entries =>
      have shape : OwnShape item response ↔
          ∃ first others, response = .array (first :: others) ∧
            ∀ element ∈ others,
              ∃ id ∈ item.ids, element.responseId = some id :=
        ⟨fun shape => shape.batch entries payload, fun given =>
          ⟨by simp [payload], fun _ _ => given⟩⟩
      rw [shape, Answers, payload]
      constructor
      · rintro ⟨elements, rfl, nonempty, own⟩
        obtain ⟨first, others, rfl⟩ := List.exists_cons_of_ne_nil nonempty
        exact ⟨first, others, rfl, fun element inOthers =>
          (own element (List.mem_cons_of_mem first inOthers)).2⟩
      · rintro ⟨first, others, rfl, own⟩
        obtain rfl : isBatch = true := by
          rw [← array]
          rfl
        obtain ⟨first', others', same, singles⟩ :=
          isBatchResponse_eq_true batch
        cases same
        refine ⟨first :: others, rfl, List.cons_ne_nil _ _, ?_⟩
        intro element inElements
        refine ⟨singles element inElements, ?_⟩
        rcases List.mem_cons.mp inElements with rfl | later
        · exact ⟨id, member, found⟩
        · exact own element later

end Routes

section Loop

variable {config : Config} {provider : Provider}

theorem Reaches.congr {sent other : OrderedMap RequestId Nat} {key : Nat}
    (same : ∀ id, other.get? id = some key ↔ sent.get? id = some key)
    {response : Json} {responses : List Json}
    (reaches : Reaches sent key response responses) :
    Reaches other key response responses := by
  have addresses : ∀ response,
      Addresses other key response ↔ Addresses sent key response := by
    intro response
    simp only [Addresses, same]
  induction reaches with
  | here addressed => exact .here ((addresses _).mpr addressed)
  | later quiet elsewhere _ induction =>
      exact .later quiet (fun addressed =>
        elsewhere ((addresses _).mp addressed)) induction

/-- Settling another item changes neither the item nor which ids lead to it. -/
theorem Consistent.settle_other (consistent : provider.Consistent config)
    {id : RequestId} {other key : Nat} (different : other ≠ key)
    (queued : provider.sentRequestsQueue.get? id = some other)
    (outcome : Settlement) :
    (provider.settleRequest id outcome).items[key]? = provider.items[key]? ∧
      ∀ queuedId,
        (provider.settleRequest id outcome).sentRequestsQueue.get? queuedId =
            some key ↔
          provider.sentRequestsQueue.get? queuedId = some key := by
  have owned : provider.owner id = some other := by simp [owner, queued]
  rcases consistent.settleRequest_cases id outcome with
    ⟨none, -⟩ | ⟨owner, item, itsOwner, found, isOpen, -, closes⟩
  · rw [owned] at none
    cases none
  · rw [owned] at itsOwner
    cases itsOwner
    refine ⟨by rw [closes.items, List.getElem?_set_ne different], ?_⟩
    intro queuedId
    rw [closes.sent, OrderedMap.get?_eraseAll]
    split
    · rename_i itsOwn
      simp only [reduceCtorEq, false_iff]
      intro leads
      have first := consistent.owner_of_open found isOpen itsOwn
      simp only [Provider.owner, leads, Option.some_or,
        Option.some.injEq] at first
      exact different first.symm
    · rfl

/-- An item that no response reaches stays as it is. -/
theorem Consistent.handleResponses_unreached
    (consistent : provider.Consistent config) {key : Nat}
    {responses : List Json}
    (unreached : ∀ response,
      ¬Reaches provider.sentRequestsQueue key response responses) :
    (provider.handleResponses responses).items[key]? =
      provider.items[key]? := by
  induction responses generalizing provider with
  | nil => rfl
  | cons response responses induction =>
      rw [Provider.handleResponses]
      cases routed : route response with
      | thrown => rfl
      | skipped =>
          have elsewhere :
              ¬Addresses provider.sentRequestsQueue key response := by
            rintro ⟨id, isBatch, addressed, -⟩
            rw [routed] at addressed
            cases addressed
          exact induction consistent fun other reaches =>
            unreached other (.later (by simp [routed]) elsewhere reaches)
      | addressed id isBatch =>
          have elsewhere :
              ¬Addresses provider.sentRequestsQueue key response :=
            fun addresses => unreached response (.here addresses)
          dsimp only
          split
          · rename_i contained
            obtain ⟨other, queued⟩ :=
              Option.isSome_iff_exists.mp contained
            have different : other ≠ key := by
              rintro rfl
              exact elsewhere ⟨id, isBatch, routed, queued⟩
            obtain ⟨items, leads⟩ := consistent.settle_other different queued
              (responseOutcome response isBatch)
            rw [← items]
            refine induction (consistent.settleRequest _ _) ?_
            intro later reaches
            exact unreached later (.later (by simp [routed]) elsewhere
              (reaches.congr fun queuedId => (leads queuedId).symm))
          · exact induction consistent fun other reaches =>
              unreached other (.later (by simp [routed]) elsewhere reaches)

/-- An item is settled by the response that reaches it. -/
theorem Consistent.handleResponses_reached
    (consistent : provider.Consistent config) {key : Nat} {item : Item}
    (found : provider.items[key]? = some item) {response : Json}
    {responses : List Json}
    (reaches :
      Reaches provider.sentRequestsQueue key response responses) :
    ∃ id isBatch, route response = .addressed id isBatch ∧
      id ∈ item.ids ∧ item.Open ∧
      (provider.handleResponses responses).items[key]? =
        some (item.settle (responseOutcome response isBatch)) := by
  induction responses generalizing provider with
  | nil => cases reaches
  | cons head responses induction =>
      cases reaches with
      | here addresses =>
          obtain ⟨id, isBatch, routed, queued⟩ := addresses
          have owned : provider.owner id = some key := by
            simp [owner, queued]
          rcases consistent.settleRequest_cases id
              (responseOutcome response isBatch) with
            ⟨none, -⟩ | ⟨owner, own, itsOwner, ownFound, isOpen, member,
              closes⟩
          · rw [owned] at none
            cases none
          · rw [owned] at itsOwner
            cases itsOwner
            rw [found] at ownFound
            cases ownFound
            refine ⟨id, isBatch, routed, member, isOpen, ?_⟩
            have after : (provider.settleRequest id
                (responseOutcome response isBatch)).items[key]? =
                  some (item.settle (responseOutcome response isBatch)) := by
              rw [closes.items, List.getElem?_set_self
                (List.getElem?_eq_some_iff.mp found).1]
            have settled := consistent.settleRequest id
              (responseOutcome response isBatch)
            rw [Provider.handleResponses, routed]
            simp only [OrderedMap.contains, queued, Option.isSome_some,
              if_true]
            rw [settled.handleResponses_unreached, after]
            intro later laterReaches
            -- No id leads to an item that is closed.
            have leadsNowhere : ∀ other responses,
                ¬Reaches (provider.settleRequest id (responseOutcome response
                  isBatch)).sentRequestsQueue key other responses := by
              intro other responses reaching
              induction reaching with
              | here addresses =>
                  obtain ⟨otherId, -, -, leads⟩ := addresses
                  obtain ⟨owning, owningFound, owningOpen, -⟩ :=
                    settled.sentOwned otherId key leads
                  rw [after] at owningFound
                  cases owningFound
                  exact (isOpen.settle_closed _).not_open owningOpen
              | later _ _ _ induction => exact induction
            exact leadsNowhere later responses laterReaches
      | later quiet elsewhere reaches =>
          cases routed : route head with
          | thrown => exact absurd routed quiet
          | skipped =>
              rw [Provider.handleResponses, routed]
              exact induction consistent found reaches
          | addressed id isBatch =>
              rw [Provider.handleResponses, routed]
              dsimp only
              split
              · rename_i contained
                obtain ⟨other, queued⟩ :=
                  Option.isSome_iff_exists.mp contained
                have different : other ≠ key := by
                  rintro rfl
                  exact elsewhere ⟨id, isBatch, routed, queued⟩
                obtain ⟨items, leads⟩ := consistent.settle_other different
                  queued (responseOutcome head isBatch)
                exact induction (consistent.settleRequest _ _)
                  (by rw [items, found]) (reaches.congr leads)
              · exact induction consistent found reaches

end Loop

section Rejections

variable {config : Config} {provider other : Provider}

/-- No item gains a resolution. -/
def Rejecting (provider other : Provider) : Prop :=
  ∀ (key : Nat) (after : Item) (response : Json),
    other.items[key]? = some after → .resolve response ∈ after.settlements →
      ∃ item, provider.items[key]? = some item ∧
        item.payload = after.payload ∧ item.ids = after.ids ∧
        .resolve response ∈ item.settlements

theorem Rejecting.of_items (items : other.items = provider.items) :
    Rejecting provider other := by
  intro key after response found resolved
  rw [items] at found
  exact ⟨after, found, rfl, rfl, resolved⟩

theorem Rejecting.trans {last : Provider} (first : Rejecting provider other)
    (second : Rejecting other last) : Rejecting provider last := by
  intro key after response found resolved
  obtain ⟨between, betweenFound, payload, ids, betweenResolved⟩ :=
    second key after response found resolved
  obtain ⟨item, itemFound, itemPayload, itemIds, itemResolved⟩ :=
    first key between response betweenFound betweenResolved
  exact ⟨item, itemFound, itemPayload.trans payload, itemIds.trans ids,
    itemResolved⟩

/-- One item changes, and gains no resolution. -/
theorem Rejecting.of_set {key : Nat} {item changed : Item}
    (found : provider.items[key]? = some item)
    (items : other.items = provider.items.set key changed)
    (payload : changed.payload = item.payload)
    (ids : changed.ids = item.ids)
    (settlements : ∀ response, .resolve response ∈ changed.settlements →
      .resolve response ∈ item.settlements) :
    Rejecting provider other := by
  intro position after response afterFound resolved
  rw [items] at afterFound
  by_cases same : key = position
  · subst same
    rw [List.getElem?_set_self (List.getElem?_eq_some_iff.mp found).1]
      at afterFound
    cases afterFound
    exact ⟨item, found, payload.symm, ids.symm, settlements response resolved⟩
  · rw [List.getElem?_set_ne same] at afterFound
    exact ⟨after, afterFound, rfl, rfl, resolved⟩

theorem settle_fields (item : Item) (outcome : Settlement) :
    (item.settle outcome).payload = item.payload ∧
      (item.settle outcome).ids = item.ids := by
  unfold Item.settle
  split
  · dsimp only
    split <;> exact ⟨rfl, rfl⟩
  · exact ⟨rfl, rfl⟩

theorem settlements_settle {item : Item} {outcome settlement : Settlement}
    (member : settlement ∈ (item.settle outcome).settlements) :
    settlement ∈ item.settlements ∨ settlement = outcome := by
  unfold Item.settle at member
  split at member
  · dsimp only at member
    split at member
    · exact .inl member
    · simpa using member
  · simpa using member

theorem rejecting_settleRequest (provider : Provider) (id : RequestId)
    (reason : Reason) :
    Rejecting provider (provider.settleRequest id (.reject reason)) := by
  unfold settleRequest
  split
  · exact .of_items rfl
  · split
    · exact .of_items rfl
    · rename_i item found
      obtain ⟨payload, ids⟩ := settle_fields item (.reject reason)
      refine .of_set found rfl payload ids fun response resolved => ?_
      rcases settlements_settle resolved with before | new
      · exact before
      · cases new

theorem rejecting_rejectAll (provider : Provider) (ids : List RequestId)
    (reason : Reason) : Rejecting provider (provider.rejectAll ids reason) := by
  unfold rejectAll
  induction ids generalizing provider with
  | nil => exact .of_items rfl
  | cons id ids induction =>
      exact (rejecting_settleRequest provider id reason).trans (induction _)

theorem rejecting_clearQueues (provider : Provider) :
    Rejecting provider provider.clearQueues := by
  have cleared : Rejecting provider
      { provider with connectionTimer := false } := .of_items rfl
  exact cleared.trans (rejecting_rejectAll _ _ _)

theorem rejecting_enqueue (provider : Provider) {item : Item}
    (silent : item.settlements = []) (queueStatus : Status) :
    Rejecting provider (provider.enqueue item queueStatus) := by
  have items : (provider.enqueue item queueStatus).items =
      provider.items ++ [item] := by
    unfold enqueue
    dsimp only
    split <;> rfl
  intro key after response found resolved
  rw [items, List.getElem?_append] at found
  split at found
  · exact ⟨after, found, rfl, rfl, resolved⟩
  · obtain rfl : item = after :=
      (List.mem_singleton.mp (List.mem_of_getElem? found)).symm
    rw [silent] at resolved
    cases resolved

theorem rejecting_sendOrWait (provider : Provider) (ids : List RequestId)
    (answers : RequestAnswers) :
    Rejecting provider (provider.sendOrWait ids answers) := by
  unfold sendOrWait
  split
  · exact .of_items rfl
  · split
    · exact rejecting_settleRequest _ _ _
    · exact .of_items rfl

theorem rejecting_request (provider : Provider) (payload : Payload)
    (options : RequestOptions) (answers : RequestAnswers) :
    Rejecting provider
      (provider.request config payload options answers).1 := by
  unfold request
  split
  · generalize opened :
      (if answers.status = .disconnected then provider.connect answers.opening
        else (provider, none)) = outcome
    obtain ⟨current, refusal⟩ := outcome
    have still : Rejecting provider current := by
      split at opened
      · have items := (connect_fields provider answers.opening).2.2
        rw [opened] at items
        exact .of_items items
      · cases opened
        exact .of_items rfl
    dsimp only
    split
    · exact still
    · split
      · exact still
      · exact still.trans ((rejecting_enqueue current rfl _).trans
          (rejecting_sendOrWait _ _ _))
  · exact .of_items rfl

theorem rejecting_sendPendingRequests (provider : Provider)
    (sending : Nat → Option String) :
    Rejecting provider (provider.sendPendingRequests sending) := by
  have entry : ∀ (progress : Provider × List Nat) (entry : RequestId × Nat),
      Rejecting progress.1 (sendPendingEntry sending progress entry).1 := by
    intro progress entry
    unfold sendPendingEntry
    dsimp only
    split
    · exact .of_items rfl
    · have promoted (ids : List RequestId) :
          Rejecting progress.1 (progress.1.promote entry.2 ids) :=
        .of_items (promote_promotes progress.1 entry.2 ids).items
      split
      · exact (promoted _).trans (rejecting_settleRequest _ _ _)
      · exact promoted _
  unfold sendPendingRequests
  suffices general : ∀ (entries : List (RequestId × Nat))
      (progress : Provider × List Nat),
      Rejecting progress.1
        (entries.foldl (sendPendingEntry sending) progress).1 from
    general _ (provider, [])
  intro entries
  induction entries with
  | nil => exact fun progress => .of_items rfl
  | cons first entries induction =>
      exact fun progress => (entry progress first).trans (induction _)

theorem rejecting_onConnect (provider : Provider)
    (chainId accounts : OwnRequest) (sending : Nat → Option String) :
    Rejecting provider
      (provider.onConnect config chainId accounts sending) := by
  have connected : Rejecting provider { provider with
      connectionTimer := false, connectionStatus := .connected,
      reconnectAttempts := 0 } := .of_items rfl
  unfold onConnect
  exact connected.trans ((rejecting_request _ _ _ _).trans
    ((rejecting_request _ _ _ _).trans (rejecting_sendPendingRequests _ _)))

theorem rejecting_reconnect (provider : Provider) :
    Rejecting provider (provider.reconnect config) := by
  unfold reconnect
  split
  · exact .of_items rfl
  · have reconnecting : Rejecting provider
        { provider with isReconnecting := true } := .of_items rfl
    have rejected := reconnecting.trans (rejecting_rejectAll _
      provider.sentRequestsQueue.keys .pendingRequestsOnReconnecting)
    dsimp only
    split
    · exact rejected.trans (.of_items rfl)
    · exact (rejected.trans (.of_items rfl)).trans (rejecting_clearQueues _)

theorem rejecting_abortItem (provider : Provider) {key : Nat} {item : Item}
    (found : provider.items[key]? = some item) (abort : AbortComposition)
    (reason : Reason) :
    Rejecting provider (provider.abortItem key item abort reason) := by
  have aborting : Rejecting provider { provider with
      items := provider.items.set key { item with
        abort := { abort with aborted := some reason },
        listening := false } } :=
    .of_set found rfl rfl rfl fun _ resolved => resolved
  have disposed : ∀ current : Provider, Rejecting current
      { current with items := current.items.modify key fun item =>
          { item with abort := item.abort.dispose } } := by
    intro current
    cases there : current.items[key]? with
    | none => exact .of_items (by simp [List.modify_eq_set_getElem?, there])
    | some item =>
        let changed : Item := { item with abort := item.abort.dispose }
        have items : current.items.modify key (fun item =>
            { item with abort := item.abort.dispose }) =
              current.items.set key changed := by
          simp [List.modify_eq_set_getElem?, there, changed]
        exact .of_set there items rfl rfl fun _ resolved => resolved
  unfold abortItem
  refine aborting.trans (Rejecting.trans ?_ (disposed _))
  split
  · unfold onAbort
    split
    · exact rejecting_settleRequest _ _ _
    · exact .of_items rfl
  · exact .of_items rfl

/-- Only messages resolve requests. -/
theorem rejecting_step (provider : Provider) {action : Action}
    (silent : ∀ parsed, action ≠ .message parsed) :
    Rejecting provider (step config provider action) := by
  cases action with
  | message parsed => exact absurd rfl (silent parsed)
  | request payload options answers => exact rejecting_request _ _ _ _
  | connect opening => exact .of_items (connect_fields provider opening).2.2
  | disconnect status closingThrows =>
      unfold step disconnect
      dsimp only
      split
      · exact .of_items rfl
      · exact Rejecting.trans (rejecting_clearQueues provider) (.of_items rfl)
  | reset =>
      have cleared : Rejecting provider
          { provider with connectionTimer := false } := .of_items rfl
      exact cleared.trans ((rejecting_rejectAll _ _ _).trans (.of_items rfl))
  | parserError => exact rejecting_clearQueues provider
  | opened chainId accounts sending => exact rejecting_onConnect _ _ _ _
  | errorEvent =>
      rw [step]
      split
      · exact rejecting_reconnect provider
      · exact .of_items rfl
  | webSocketClosed code wasClean =>
      rw [step]
      split
      · exact rejecting_reconnect provider
      · exact (rejecting_clearQueues provider).trans (.of_items rfl)
  | ipcEnded event =>
      rw [step]
      split
      · exact (Rejecting.of_items rfl).trans (rejecting_reconnect _)
      · exact (rejecting_clearQueues provider).trans (.of_items rfl)
  | ipcClosed => exact rejecting_clearQueues provider
  | ipcCloseCallback => exact .of_items rfl
  | requestDeadline key =>
      unfold step requestDeadline
      dsimp only
      split
      · rename_i item found
        split
        · exact rejecting_abortItem provider found _ _
        · exact .of_items rfl
      · exact .of_items rfl
  | callerAbort key reason =>
      unfold step callerAbort
      dsimp only
      split
      · rename_i item found
        split
        · exact rejecting_abortItem provider found _ _
        · exact .of_items rfl
      · exact .of_items rfl
  | connectionTimeout status =>
      unfold step connectionTimeout
      dsimp only
      split
      · split
        · exact .of_items rfl
        · exact (Rejecting.of_items rfl).trans (rejecting_rejectAll _ _ _)
      · exact .of_items rfl
  | reconnectTimer opening =>
      unfold step reconnectTimer
      dsimp only
      split
      · exact .of_items rfl
      · have items := (connect_fields { provider with
          reconnectTimers := provider.reconnectTimers - 1 } opening).2.2
        split <;> exact .of_items items
  | immediate =>
      rw [step]
      split
      · exact .of_items rfl
      · exact (Rejecting.of_items rfl).trans (rejecting_reconnect _)

end Rejections

section Results

variable {config : Config} {provider : Provider}

/-- An item that a response reaches is in the sent queue. -/
theorem Reaches.queued {sent : OrderedMap RequestId Nat} {key : Nat}
    {response : Json} {responses : List Json}
    (reaches : Reaches sent key response responses) :
    ∃ id, sent.get? id = some key := by
  induction reaches with
  | here addresses =>
      obtain ⟨id, -, -, queued⟩ := addresses
      exact ⟨id, queued⟩
  | later _ _ _ induction => exact induction

/-- A message leaves an item as it was, resolves it with the response that
reaches it, or rejects it. -/
theorem Consistent.onMessage_cases (consistent : provider.Consistent config)
    (parsed : List Json) {key : Nat} {after : Item} {response : Json}
    (found : (provider.onMessage config parsed).items[key]? = some after)
    (resolved : .resolve response ∈ after.settlements) :
    (∃ item, provider.items[key]? = some item ∧
        item.payload = after.payload ∧ item.ids = after.ids ∧
        .resolve response ∈ item.settlements) ∨
      ∃ item id isBatch, provider.items[key]? = some item ∧ item.Open ∧
        item.payload = after.payload ∧ item.ids = after.ids ∧
        Reaches provider.sentRequestsQueue key response
          (parsed.filter Json.truthy) ∧
        route response = .addressed id isBatch ∧ id ∈ item.ids ∧
        (response.isArray = true ∨ response.isSingleResponse = true) := by
  unfold Provider.onMessage at found
  split at found
  · left
    split at found
    · exact rejecting_reconnect provider key after response found resolved
    · exact ⟨after, found, rfl, rfl, resolved⟩
  · generalize parsed.filter Json.truthy = responses at found ⊢
    by_cases reached : ∃ reaching,
        Reaches provider.sentRequestsQueue key reaching responses
    · right
      obtain ⟨reaching, reaches⟩ := reached
      obtain ⟨queuedId, queued⟩ := reaches.queued
      obtain ⟨item, itemFound, isOpen, -⟩ :=
        consistent.sentOwned queuedId key queued
      obtain ⟨id, isBatch, routed, member, -, outcome⟩ :=
        consistent.handleResponses_reached itemFound reaches
      rw [outcome] at found
      cases found
      obtain ⟨payload, ids⟩ :=
        settle_fields item (responseOutcome reaching isBatch)
      rcases settlements_settle resolved with before | new
      · rw [isOpen.silent] at before
        cases before
      · obtain ⟨rfl, valid⟩ := (responseOutcome_resolve routed).mp new.symm
        exact ⟨item, id, isBatch, itemFound, isOpen, payload.symm, ids.symm,
          reaches, routed, member, valid⟩
    · left
      rw [consistent.handleResponses_unreached fun reaching reaches =>
        reached ⟨reaching, reaches⟩] at found
      exact ⟨after, found, rfl, rfl, resolved⟩

theorem Consistent.resolvesOwn_iff (consistent : provider.Consistent config)
    (parsed : List Json) :
    ResolvesOwn config provider parsed ↔ WellAddressed provider parsed := by
  constructor
  · intro resolvesOwn key item response found reaches valid
    obtain ⟨id, isBatch, routed, member, isOpen, outcome⟩ :=
      consistent.handleResponses_reached found reaches
    refine (answers_iff_ownShape isOpen routed member valid).mp ?_
    refine resolvesOwn key item
      (item.settle (responseOutcome response isBatch)) response found
      isOpen.unsettled ?_ ?_
    · unfold Provider.onMessage
      split
      · rename_i empty
        rw [empty] at reaches
        cases reaches
      · exact outcome
    · rw [(responseOutcome_resolve routed).mpr ⟨rfl, valid⟩]
      simp [Item.settle, isOpen.tracked, isOpen.unsettled]
  · intro wellAddressed key item after response found unsettled afterFound
      resolved
    have isOpen : item.Open := by
      rcases consistent.openOrClosed key item found with isOpen | isClosed
      · exact isOpen
      · rw [isClosed.settled] at unsettled
        cases unsettled
    rcases consistent.onMessage_cases parsed afterFound resolved with
      ⟨before, beforeFound, -, -, already⟩ |
      ⟨reached, id, isBatch, reachedFound, -, -, -, reaches, routed, member,
        valid⟩
    · rw [found] at beforeFound
      cases beforeFound
      rw [isOpen.silent] at already
      cases already
    · rw [found] at reachedFound
      cases reachedFound
      exact (answers_iff_ownShape isOpen routed member valid).mpr
        (wellAddressed key item response found reaches valid)

/-- Every resolution so far answers its own request. -/
def AllOwn (provider : Provider) : Prop :=
  ∀ (key : Nat) (item : Item) (response : Json),
    provider.items[key]? = some item →
      .resolve response ∈ item.settlements → Answers item response

theorem Answers.congr {item other : Item} {response : Json}
    (payload : item.payload = other.payload) (ids : item.ids = other.ids)
    (answers : Answers item response) : Answers other response := by
  unfold Answers at answers ⊢
  rwa [← payload, ← ids]

theorem AllOwn.rejecting {other : Provider} (allOwn : provider.AllOwn)
    (rejecting : Rejecting provider other) : other.AllOwn := by
  intro key after response found resolved
  obtain ⟨item, itemFound, payload, ids, already⟩ :=
    rejecting key after response found resolved
  exact Answers.congr payload ids (allOwn key item response itemFound already)

/-- Every message of the run is well addressed where it arrives. -/
def WellAddressedRun (config : Config) : Provider → List Action → Prop
  | _, [] => True
  | provider, action :: actions =>
      (∀ parsed, action = .message parsed → WellAddressed provider parsed) ∧
        WellAddressedRun config (step config provider action) actions

theorem Consistent.step_allOwn (consistent : provider.Consistent config)
    (allOwn : provider.AllOwn) {action : Action}
    (wellAddressed : ∀ parsed, action = .message parsed →
      WellAddressed provider parsed) :
    (step config provider action).AllOwn := by
  by_cases message : ∃ parsed, action = .message parsed
  · obtain ⟨parsed, rfl⟩ := message
    intro key after response found resolved
    rcases consistent.onMessage_cases parsed found resolved with
      ⟨item, itemFound, payload, ids, already⟩ |
      ⟨item, id, isBatch, itemFound, isOpen, payload, ids, reaches, routed,
        member, valid⟩
    · exact Answers.congr payload ids
        (allOwn key item response itemFound already)
    · exact Answers.congr payload ids
        ((answers_iff_ownShape isOpen routed member valid).mpr
          (wellAddressed parsed rfl key item response itemFound reaches valid))
  · exact allOwn.rejecting (rejecting_step provider fun parsed is =>
      message ⟨parsed, is⟩)

theorem Consistent.run_allOwn (consistent : provider.Consistent config)
    (allOwn : provider.AllOwn) {actions : List Action}
    (wellAddressed : WellAddressedRun config provider actions) :
    (run (step config) provider actions).AllOwn := by
  induction actions generalizing provider with
  | nil => exact allOwn
  | cons action actions induction =>
      obtain ⟨here, later⟩ := wellAddressed
      exact induction (step_preserves_consistent config provider action
        consistent) (consistent.step_allOwn allOwn here) later

/-- In a reachable state a message resolves requests with their own responses
only exactly when it is well addressed; and in a run of well addressed
messages no request is ever resolved with another's response. -/
theorem resolves_own_responses (config : Config) :
    (∀ (actions : List Action) (parsed : List Json),
      ResolvesOwn config (run (step config) initial actions) parsed ↔
        WellAddressed (run (step config) initial actions) parsed) ∧
    ∀ actions : List Action, WellAddressedRun config initial actions →
      ∀ (key : Nat) (item : Item) (response : Json),
        (run (step config) initial actions).items[key]? = some item →
          .resolve response ∈ item.settlements → Answers item response := by
  refine ⟨?_, ?_⟩
  · intro actions parsed
    exact (Reachable.consistent ⟨actions, rfl⟩).resolvesOwn_iff parsed
  · intro actions wellAddressed
    have consistent : initial.Consistent config := consistent_initial
    refine consistent.run_allOwn ?_ wellAddressed
    intro key item response found
    simp [initial] at found

/-- A single result for the id 1, in an array. -/
def arrayReply : Json :=
  .array [.object [("jsonrpc", .string "2.0"), ("id", .number 1),
    ("result", .string "0x1")]]

/-- An array resolves the request of one of its ids, which is not a batch. -/
theorem array_resolves_single_request :
    ¬ResolvesOwn defaultConfig (run (step defaultConfig) initial [requestOne])
      [arrayReply] := by
  intro resolvesOwn
  have answers := resolvesOwn 0 _ _ arrayReply rfl rfl rfl
    (by exact List.mem_singleton.mpr rfl)
  obtain ⟨single, -⟩ := answers
  cases single

end Results

end Provider

end Web3Js.Socket
