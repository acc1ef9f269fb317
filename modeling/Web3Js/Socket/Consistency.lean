import Web3Js.Socket.Provider

/-!
# Consistency of the queues and the lifecycles

Every admitted item is either open, unsettled with all of its ids together in
one queue, or closed, settled exactly once with its deadline disposed.  Each
entry point keeps this: settling closes an open item and releases its ids,
admission adds an open item, and promotion moves the ids of an item together.
-/

namespace Web3Js.Socket

namespace Item

/-- Admitted and not yet settled: the lifecycle is in the table, its listener
is attached and its deadline armed. -/
structure Open (item : Item) : Prop where
  tracked : item.tracked = true
  unsettled : item.settled = false
  listening : item.listening = true
  armed : item.abort.timerArmed = true
  undisposed : item.abort.disposed = false
  silent : item.settlements = []
  nonempty : item.ids ≠ []
  shaped : ∀ entry, item.payload = .single entry → ∃ id, item.ids = [id]

/-- Settled exactly once, with everything torn down. -/
structure Closed (item : Item) : Prop where
  untracked : item.tracked = false
  settled : item.settled = true
  detached : item.listening = false
  disarmed : item.abort.timerArmed = false
  callerDetached : item.abort.callerListening = false
  disposed : item.abort.disposed = true
  once : item.settlements.length = 1

theorem Closed.not_open {item : Item} (closed : item.Closed) : ¬item.Open := by
  intro isOpen
  have tracked := isOpen.tracked
  rw [closed.untracked] at tracked
  cases tracked

theorem Open.settle_closed {item : Item} (isOpen : item.Open)
    (outcome : Settlement) : (item.settle outcome).Closed := by
  have settled : item.settle outcome =
      { item with
        listening := false, abort := item.abort.dispose, tracked := false,
        settled := true, settlements := item.settlements ++ [outcome] } := by
    simp [Item.settle, isOpen.tracked, isOpen.unsettled]
  rw [settled]
  exact ⟨rfl, rfl, rfl, rfl, rfl, rfl, by simp [isOpen.silent]⟩

end Item

namespace Provider

/-- All ids of the item at a position are in the queue, for that item. -/
def Holds (queue : OrderedMap RequestId Nat) (key : Nat) (item : Item) :
    Prop :=
  ∀ id ∈ item.ids, queue.get? id = some key

structure Consistent (config : Config) (provider : Provider) : Prop where
  pendingOwned : ∀ id key,
    provider.pendingRequestsQueue.get? id = some key →
      ∃ item, provider.items[key]? = some item ∧ item.Open ∧ id ∈ item.ids
  sentOwned : ∀ id key,
    provider.sentRequestsQueue.get? id = some key →
      ∃ item, provider.items[key]? = some item ∧ item.Open ∧ id ∈ item.ids
  together : ∀ (key : Nat) (item : Item),
    provider.items[key]? = some item → item.Open →
      Holds provider.pendingRequestsQueue key item ∨
        Holds provider.sentRequestsQueue key item
  openOrClosed : ∀ (key : Nat) (item : Item),
    provider.items[key]? = some item → item.Open ∨ item.Closed
  disjoint : ∀ id key,
    provider.pendingRequestsQueue.get? id = some key →
      provider.sentRequestsQueue.get? id = none
  bounded : provider.inFlightCount ≤ config.maxInFlightRequests

variable {config : Config} {provider : Provider}

/-- Consistency looks at the queues and the items only. -/
theorem Consistent.congr {other : Provider}
    (consistent : provider.Consistent config)
    (pending : other.pendingRequestsQueue = provider.pendingRequestsQueue)
    (sent : other.sentRequestsQueue = provider.sentRequestsQueue)
    (items : other.items = provider.items) : other.Consistent config := by
  obtain ⟨pendingOwned, sentOwned, together, openOrClosed, disjoint, bounded⟩ :=
    consistent
  constructor
  · rwa [pending, items]
  · rwa [sent, items]
  · rwa [pending, sent, items]
  · rwa [items]
  · rwa [pending, sent]
  · rw [inFlightCount, pending, sent]
    exact bounded

theorem consistent_initial : initial.Consistent config where
  pendingOwned id key queued := by simp [initial] at queued
  sentOwned id key queued := by simp [initial] at queued
  together key item found := by simp [initial] at found
  openOrClosed key item found := by simp [initial] at found
  disjoint id key queued := by simp [initial] at queued
  bounded := by simp [inFlightCount, initial]

section Settling

/-- An id of an open item has that item as its owner. -/
theorem Consistent.owner_of_open (consistent : provider.Consistent config)
    {key : Nat} {item : Item} (found : provider.items[key]? = some item)
    (isOpen : item.Open) {id : RequestId} (member : id ∈ item.ids) :
    provider.owner id = some key := by
  rcases consistent.together key item found isOpen with pending | sent
  · have queued := pending id member
    simp [owner, consistent.disjoint id key queued, queued]
  · simp [owner, sent id member]

/-- The owner of an id is an open item that lists it. -/
theorem Consistent.open_of_owner (consistent : provider.Consistent config)
    {key : Nat} {id : RequestId} (owned : provider.owner id = some key) :
    ∃ item, provider.items[key]? = some item ∧ item.Open ∧ id ∈ item.ids := by
  cases sent : provider.sentRequestsQueue.get? id with
  | some other =>
      simp only [owner, sent, Option.some_or, Option.some.injEq] at owned
      subst owned
      exact consistent.sentOwned id other sent
  | none =>
      simp only [owner, sent, Option.none_or] at owned
      exact consistent.pendingOwned id key owned

/-- `other` is `provider` with the item at `key` replaced by a closed one and
its ids released. -/
structure Closes (provider other : Provider) (key : Nat) (item closed : Item) :
    Prop where
  pending : other.pendingRequestsQueue =
    provider.pendingRequestsQueue.eraseAll item.ids
  sent : other.sentRequestsQueue =
    provider.sentRequestsQueue.eraseAll item.ids
  items : other.items = provider.items.set key closed

theorem Consistent.close (consistent : provider.Consistent config)
    {other : Provider} {key : Nat} {item closed : Item}
    (found : provider.items[key]? = some item) (isOpen : item.Open)
    (isClosed : closed.Closed)
    (closes : Closes provider other key item closed) :
    other.Consistent config := by
  obtain ⟨pending, sent, items⟩ := closes
  have within : key < provider.items.length :=
    (List.getElem?_eq_some_iff.mp found).1
  -- An id that stays queued belongs to another open item.
  have keeps : ∀ (queue : OrderedMap RequestId Nat),
      (∀ id owner, queue.get? id = some owner →
        ∃ item, provider.items[owner]? = some item ∧ item.Open ∧
          id ∈ item.ids) →
      ∀ id owner, (queue.eraseAll item.ids).get? id = some owner →
        ∃ item, (provider.items.set key closed)[owner]? = some item ∧
          item.Open ∧ id ∈ item.ids := by
    intro queue owned id owner queued
    rw [OrderedMap.get?_eraseAll] at queued
    split at queued
    · cases queued
    · rename_i outside
      obtain ⟨other, otherFound, otherOpen, member⟩ := owned id owner queued
      have different : key ≠ owner := by
        rintro rfl
        rw [found] at otherFound
        cases otherFound
        exact outside member
      exact ⟨other, by rw [List.getElem?_set_ne different, otherFound],
        otherOpen, member⟩
  constructor
  · rw [pending, items]
    exact keeps _ consistent.pendingOwned
  · rw [sent, items]
    exact keeps _ consistent.sentOwned
  · rw [pending, sent, items]
    intro owner other otherFound otherOpen
    have different : key ≠ owner := by
      rintro rfl
      rw [List.getElem?_set_self within] at otherFound
      cases otherFound
      exact isClosed.not_open otherOpen
    rw [List.getElem?_set_ne different] at otherFound
    have apart : ∀ id ∈ other.ids, id ∉ item.ids := by
      intro id member itsOwn
      have first := consistent.owner_of_open otherFound otherOpen member
      have second := consistent.owner_of_open found isOpen itsOwn
      rw [first] at second
      exact different (Option.some.inj second).symm
    rcases consistent.together owner other otherFound otherOpen with
      held | held
    · left
      intro id member
      rw [OrderedMap.get?_eraseAll, if_neg (apart id member)]
      exact held id member
    · right
      intro id member
      rw [OrderedMap.get?_eraseAll, if_neg (apart id member)]
      exact held id member
  · rw [items]
    intro owner other otherFound
    by_cases same : key = owner
    · subst same
      rw [List.getElem?_set_self within] at otherFound
      cases otherFound
      exact .inr isClosed
    · rw [List.getElem?_set_ne same] at otherFound
      exact consistent.openOrClosed owner other otherFound
  · rw [pending, sent]
    intro id owner queued
    rw [OrderedMap.get?_eraseAll] at queued ⊢
    split at queued
    · cases queued
    · rename_i outside
      rw [if_neg outside]
      exact consistent.disjoint id owner queued
  · have pendingSize := OrderedMap.size_eraseAll_le
      provider.pendingRequestsQueue item.ids
    have sentSize := OrderedMap.size_eraseAll_le
      provider.sentRequestsQueue item.ids
    have bounded := consistent.bounded
    rw [inFlightCount] at bounded ⊢
    rw [pending, sent]
    omega

theorem release_closes {key : Nat} {item : Item} (isOpen : item.Open)
    (id : RequestId) (outcome : Settlement) :
    Closes provider (provider.release key item id outcome) key item
      (item.settle outcome) := by
  have owned : ownedIds item id = item.ids := by
    rw [ownedIds, isOpen.tracked]
    rfl
  simp only [release, owned]
  exact ⟨rfl, rfl, rfl⟩

/-- Settling either finds no owner or closes the owner of the id. -/
theorem Consistent.settleRequest_cases
    (consistent : provider.Consistent config) (id : RequestId)
    (outcome : Settlement) :
    (provider.owner id = none ∧
        provider.settleRequest id outcome = provider) ∨
      ∃ key item, provider.owner id = some key ∧
        provider.items[key]? = some item ∧ item.Open ∧ id ∈ item.ids ∧
        Closes provider (provider.settleRequest id outcome) key item
          (item.settle outcome) := by
  cases owned : provider.owner id with
  | none =>
      left
      exact ⟨rfl, by rw [settleRequest, owned]⟩
  | some key =>
      right
      obtain ⟨item, found, isOpen, member⟩ := consistent.open_of_owner owned
      refine ⟨key, item, rfl, found, isOpen, member, ?_⟩
      have settled : provider.settleRequest id outcome =
          provider.release key item id outcome := by
        simp only [settleRequest, owned, found]
      rw [settled]
      exact release_closes isOpen id outcome

theorem Consistent.settleRequest (consistent : provider.Consistent config)
    (id : RequestId) (outcome : Settlement) :
    (provider.settleRequest id outcome).Consistent config := by
  rcases consistent.settleRequest_cases id outcome with
    ⟨-, same⟩ | ⟨key, item, -, found, isOpen, -, closes⟩
  · rwa [same]
  · exact consistent.close found isOpen (isOpen.settle_closed outcome) closes

theorem Consistent.rejectAll (consistent : provider.Consistent config)
    (ids : List RequestId) (reason : Reason) :
    (provider.rejectAll ids reason).Consistent config := by
  unfold Provider.rejectAll
  induction ids generalizing provider with
  | nil => exact consistent
  | cons id ids induction =>
      exact induction (consistent.settleRequest id (.reject reason))

theorem Consistent.rejectAllRequests
    (consistent : provider.Consistent config) (reason : Reason) :
    (provider.rejectAllRequests reason).Consistent config :=
  consistent.rejectAll _ reason

theorem Consistent.clearQueues (consistent : provider.Consistent config) :
    provider.clearQueues.Consistent config := by
  have cleared : Consistent config
      { provider with connectionTimer := false } :=
    consistent.congr rfl rfl rfl
  exact cleared.rejectAllRequests .connectionNotOpen

end Settling

section Requests

theorem connect_fields (provider : Provider) (opening : Option String) :
    (provider.connect opening).1.pendingRequestsQueue =
        provider.pendingRequestsQueue ∧
      (provider.connect opening).1.sentRequestsQueue =
        provider.sentRequestsQueue ∧
      (provider.connect opening).1.items = provider.items := by
  unfold connect
  cases opening with
  | none => exact ⟨rfl, rfl, rfl⟩
  | some message =>
      dsimp only
      split <;> exact ⟨rfl, rfl, rfl⟩

theorem Consistent.connect (consistent : provider.Consistent config)
    (opening : Option String) :
    (provider.connect opening).1.Consistent config := by
  obtain ⟨pending, sent, items⟩ := connect_fields provider opening
  exact consistent.congr pending sent items

/-- Ids that a payload occupies are there and distinct, and a single request
has one. -/
theorem extractRequestIds_eq_ok {payload : Payload} {ids : List RequestId}
    (extracted : extractRequestIds payload = .ok ids) :
    ids ≠ [] ∧ ids.Nodup ∧
      ∀ entry, payload = .single entry → ∃ id, ids = [id] := by
  cases payload with
  | single entry =>
      simp only [extractRequestIds] at extracted
      split at extracted
      · cases extracted
        simp
      · cases extracted
  | batch entries =>
      simp only [extractRequestIds] at extracted
      split at extracted
      · cases extracted
      · cases extracted
      · rename_i defined nonempty _
        split at extracted
        · rename_i distinct
          cases extracted
          refine ⟨?_, distinct, by simp⟩
          rintro rfl
          exact nonempty rfl
        · cases extracted

/-- What the checks of a request guarantee. -/
structure Admitted (config : Config) (provider : Provider)
    (payload : Payload) (options : RequestOptions) (ids : List RequestId) :
    Prop where
  nonempty : ids ≠ []
  shaped : ∀ entry, payload = .single entry → ∃ id, ids = [id]
  distinct : ids.Nodup
  fresh : ∀ id ∈ ids, provider.sentRequestsQueue.get? id = none ∧
    provider.pendingRequestsQueue.get? id = none
  fits : provider.inFlightCount + ids.length ≤ config.maxInFlightRequests
  unaborted : ∀ signal ∈ options.signal, signal.aborted = false

theorem admission_eq_ok {payload : Payload} {options : RequestOptions}
    {ids : List RequestId} {timeout : ℚ}
    (accepted : provider.admission config payload options =
      .ok (ids, timeout)) :
    Admitted config provider payload options ids := by
  cases extracted : extractRequestIds payload with
  | error refusal => simp [admission, extracted, bind, Except.bind] at accepted
  | ok requestIds =>
      obtain ⟨nonempty, distinct, shaped⟩ := extractRequestIds_eq_ok extracted
      simp only [admission, extracted, bind, Except.bind] at accepted
      split at accepted
      · cases accepted
      · rename_i unqueued
        split at accepted
        · cases accepted
        · rename_i fits
          have fresh : ∀ id ∈ requestIds,
              provider.sentRequestsQueue.get? id = none ∧
                provider.pendingRequestsQueue.get? id = none := by
            intro id member
            have unknown := List.find?_eq_none.mp unqueued id member
            simpa [OrderedMap.contains] using unknown
          split at accepted
          · cases accepted
          · rename_i unaborted
            have signals : ∀ signal ∈ options.signal,
                signal.aborted = false := by
              intro signal given
              by_contra aborted
              have isTrue : signal.aborted = true := by simpa using aborted
              apply unaborted signal.reason
              rw [Option.mem_def.mp given, ← isTrue]
            split at accepted <;> cases accepted
            all_goals exact ⟨nonempty, shaped, distinct, fresh,
              Nat.not_lt.mp fits, signals⟩

theorem composeAbortSignal_armed {signal : Option CallerSignal}
    (unaborted : ∀ given ∈ signal, given.aborted = false) :
    (composeAbortSignal signal).timerArmed = true ∧
      (composeAbortSignal signal).disposed = false := by
  cases signal with
  | none => exact ⟨rfl, rfl⟩
  | some signal =>
      have alive := unaborted signal rfl
      simp [composeAbortSignal, alive]

/-- Admission adds an open item with all of its ids in one queue. -/
theorem Consistent.enqueue (consistent : provider.Consistent config)
    {options : RequestOptions} {item : Item} (isOpen : item.Open)
    (admitted : Admitted config provider item.payload options item.ids)
    (queueStatus : Status) :
    (provider.enqueue item queueStatus).Consistent config := by
  have earlier : ∀ {key : Nat} {other : Item},
      provider.items[key]? = some other →
        (provider.items ++ [item])[key]? = some other := by
    intro key other found
    rw [List.getElem?_append_left (List.getElem?_eq_some_iff.mp found).1]
    exact found
  have last : (provider.items ++ [item])[provider.items.length]? =
      some item := by
    simp
  have either : ∀ {key : Nat} {other : Item},
      (provider.items ++ [item])[key]? = some other →
        provider.items[key]? = some other ∨
          (key = provider.items.length ∧ other = item) := by
    intro key other found
    rcases Nat.lt_trichotomy key provider.items.length with below | same | above
    · left
      rwa [List.getElem?_append_left below] at found
    · right
      rw [same, last] at found
      exact ⟨same, (Option.some.inj found).symm⟩
    · rw [List.getElem?_eq_none (by simp; omega)] at found
      cases found
  -- The queue that takes the ids, and the other one.
  have owned : ∀ queue : OrderedMap RequestId Nat,
      (∀ id key, queue.get? id = some key →
        ∃ other, provider.items[key]? = some other ∧ other.Open ∧
          id ∈ other.ids) →
      ∀ id key, (queue.setAll item.ids provider.items.length).get? id =
          some key →
        ∃ other, (provider.items ++ [item])[key]? = some other ∧
          other.Open ∧ id ∈ other.ids := by
    intro queue before id key queued
    rw [OrderedMap.get?_setAll] at queued
    split at queued
    · rename_i member
      cases queued
      exact ⟨item, last, isOpen, member⟩
    · obtain ⟨other, found, otherOpen, member⟩ := before id key queued
      exact ⟨other, earlier found, otherOpen, member⟩
  have kept : ∀ queue : OrderedMap RequestId Nat,
      (∀ id key, queue.get? id = some key →
        ∃ other, provider.items[key]? = some other ∧ other.Open ∧
          id ∈ other.ids) →
      ∀ id key, queue.get? id = some key →
        ∃ other, (provider.items ++ [item])[key]? = some other ∧
          other.Open ∧ id ∈ other.ids := by
    intro queue before id key queued
    obtain ⟨other, found, otherOpen, member⟩ := before id key queued
    exact ⟨other, earlier found, otherOpen, member⟩
  have holdsStill : ∀ (queue : OrderedMap RequestId Nat) (key : Nat)
      (other : Item), (∀ id ∈ item.ids, queue.get? id = none) →
        Holds queue key other →
          Holds (queue.setAll item.ids provider.items.length) key other := by
    intro queue key other fresh held id member
    have queued := held id member
    rw [OrderedMap.get?_setAll, if_neg]
    · exact queued
    · intro itsOwn
      rw [fresh id itsOwn] at queued
      cases queued
  have holdsNew : ∀ queue : OrderedMap RequestId Nat,
      Holds (queue.setAll item.ids provider.items.length)
        provider.items.length item := by
    intro queue id member
    rw [OrderedMap.get?_setAll, if_pos member]
  have openOrClosed : ∀ (key : Nat) (other : Item),
      (provider.items ++ [item])[key]? = some other →
        other.Open ∨ other.Closed := by
    intro key other found
    rcases either found with before | ⟨-, rfl⟩
    · exact consistent.openOrClosed key other before
    · exact .inl isOpen
  have fits := admitted.fits
  rw [inFlightCount] at fits
  unfold Provider.enqueue
  by_cases waiting : queueStatus = .connecting
  · simp only [waiting, if_true]
    constructor
    · exact owned _ consistent.pendingOwned
    · exact kept _ consistent.sentOwned
    · intro key other found otherOpen
      rcases either found with before | ⟨rfl, rfl⟩
      · rcases consistent.together key other before otherOpen with
          held | held
        · exact .inl (holdsStill _ key other
            (fun id member => (admitted.fresh id member).2) held)
        · exact .inr held
      · exact .inl (holdsNew _)
    · exact openOrClosed
    · intro id key queued
      simp only [notifyDiagnostics] at queued
      rw [OrderedMap.get?_setAll] at queued
      split at queued
      · rename_i member
        exact (admitted.fresh id member).1
      · exact consistent.disjoint id key queued
    · have size := OrderedMap.size_setAll_le provider.pendingRequestsQueue
        item.ids provider.items.length
      simp only [notifyDiagnostics, inFlightCount]
      omega
  · simp only [waiting, if_false]
    constructor
    · exact kept _ consistent.pendingOwned
    · exact owned _ consistent.sentOwned
    · intro key other found otherOpen
      rcases either found with before | ⟨rfl, rfl⟩
      · rcases consistent.together key other before otherOpen with
          held | held
        · exact .inl held
        · exact .inr (holdsStill _ key other
            (fun id member => (admitted.fresh id member).1) held)
      · exact .inr (holdsNew _)
    · exact openOrClosed
    · intro id key queued
      simp only [notifyDiagnostics] at queued ⊢
      rw [OrderedMap.get?_setAll, if_neg]
      · exact consistent.disjoint id key queued
      · intro member
        rw [(admitted.fresh id member).2] at queued
        cases queued
    · have size := OrderedMap.size_setAll_le provider.sentRequestsQueue
        item.ids provider.items.length
      simp only [notifyDiagnostics, inFlightCount]
      omega

theorem Consistent.sendOrWait (consistent : provider.Consistent config)
    (ids : List RequestId) (answers : RequestAnswers) :
    (provider.sendOrWait ids answers).Consistent config := by
  unfold Provider.sendOrWait
  split
  · exact consistent
  · split
    · exact consistent.settleRequest _ _
    · exact consistent

theorem Consistent.request (consistent : provider.Consistent config)
    (payload : Payload) (options : RequestOptions)
    (answers : RequestAnswers) :
    (provider.request config payload options answers).1.Consistent
      config := by
  unfold Provider.request
  split
  · generalize opened :
      (if answers.status = .disconnected then provider.connect answers.opening
        else (provider, none)) = outcome
    obtain ⟨current, refusal⟩ := outcome
    have still : current.Consistent config := by
      split at opened
      · have connected := consistent.connect answers.opening
        rwa [opened] at connected
      · cases opened
        exact consistent
    dsimp only
    split
    · exact still
    · split
      · exact still
      · rename_i ids timeout accepted
        have admitted := admission_eq_ok accepted
        have armed := composeAbortSignal_armed admitted.unaborted
        exact (still.enqueue ⟨rfl, rfl, rfl, armed.1, armed.2, rfl,
          admitted.nonempty, admitted.shaped⟩ admitted
            answers.queueStatus).sendOrWait ids answers
  · exact consistent

end Requests

section Promotion

/-- Promotion moves the pending ones among the ids. -/
structure Promotes (provider other : Provider) (key : Nat)
    (ids : List RequestId) : Prop where
  pending : ∀ id, other.pendingRequestsQueue.get? id =
    if id ∈ ids then none else provider.pendingRequestsQueue.get? id
  sent : ∀ id, other.sentRequestsQueue.get? id =
    if id ∈ ids ∧ provider.pendingRequestsQueue.contains id then some key
    else provider.sentRequestsQueue.get? id
  items : other.items = provider.items
  bounded : other.inFlightCount ≤ provider.inFlightCount

theorem promote_promotes (provider : Provider) (key : Nat)
    (ids : List RequestId) :
    Promotes provider (provider.promote key ids) key ids := by
  unfold promote
  induction ids generalizing provider with
  | nil => exact ⟨by simp, by simp, rfl, le_refl _⟩
  | cons id ids induction =>
      rw [List.foldl_cons]
      by_cases queued : provider.pendingRequestsQueue.contains id = true
      · rw [if_pos queued]
        obtain ⟨pending, sent, items, bounded⟩ := induction
          { provider with
            pendingRequestsQueue := provider.pendingRequestsQueue.erase id
            sentRequestsQueue := provider.sentRequestsQueue.set id key }
        refine ⟨?_, ?_, items, ?_⟩
        · intro other
          rw [pending, OrderedMap.get?_erase]
          by_cases same : other = id <;> by_cases member : other ∈ ids <;>
            simp [same, member]
        · intro other
          rw [sent, OrderedMap.get?_set, OrderedMap.contains,
            OrderedMap.get?_erase]
          by_cases same : other = id
          · simp [same, queued]
          · by_cases member : other ∈ ids <;>
              simp [same, member, OrderedMap.contains]
        · have fewer := OrderedMap.size_erase_lt queued
          have more := OrderedMap.size_set_le provider.sentRequestsQueue id key
          simp only [inFlightCount] at bounded ⊢
          omega
      · rw [if_neg queued]
        obtain ⟨pending, sent, items, bounded⟩ := induction provider
        have absent : provider.pendingRequestsQueue.get? id = none := by
          simpa [OrderedMap.contains] using queued
        refine ⟨?_, ?_, items, bounded⟩
        · intro other
          rw [pending]
          by_cases same : other = id <;> by_cases member : other ∈ ids <;>
            simp [same, member, absent]
        · intro other
          rw [sent]
          by_cases same : other = id
          · simp [same, OrderedMap.contains, absent]
          · simp [same]

theorem Consistent.promote (consistent : provider.Consistent config)
    {key : Nat} {item : Item} (found : provider.items[key]? = some item)
    (isOpen : item.Open) :
    (provider.promote key item.ids).Consistent config := by
  obtain ⟨pending, sent, items, bounded⟩ :=
    promote_promotes provider key item.ids
  constructor
  · intro id owner queued
    rw [pending] at queued
    rw [items]
    split at queued
    · cases queued
    · exact consistent.pendingOwned id owner queued
  · intro id owner queued
    rw [sent] at queued
    rw [items]
    split at queued
    · rename_i moved
      cases queued
      exact ⟨item, found, isOpen, moved.1⟩
    · exact consistent.sentOwned id owner queued
  · intro owner other otherFound otherOpen
    rw [items] at otherFound
    by_cases same : owner = key
    · subst same
      rw [found] at otherFound
      cases otherFound
      right
      intro id member
      rw [sent]
      rcases consistent.together owner item found isOpen with held | held
      · rw [if_pos ⟨member, by
          simp [OrderedMap.contains, held id member]⟩]
      · rw [held id member]
        split <;> rfl
    · have apart : ∀ id ∈ other.ids, id ∉ item.ids := by
        intro id member itsOwn
        have first := consistent.owner_of_open otherFound otherOpen member
        have second := consistent.owner_of_open found isOpen itsOwn
        rw [first] at second
        exact same (Option.some.inj second)
      rcases consistent.together owner other otherFound otherOpen with
        held | held
      · left
        intro id member
        rw [pending, if_neg (apart id member)]
        exact held id member
      · right
        intro id member
        rw [sent, if_neg fun moved => apart id member moved.1]
        exact held id member
  · intro owner other otherFound
    rw [items] at otherFound
    exact consistent.openOrClosed owner other otherFound
  · intro id owner queued
    rw [pending] at queued
    rw [sent]
    split at queued
    · cases queued
    · rename_i outside
      rw [if_neg fun moved => outside moved.1]
      exact consistent.disjoint id owner queued
  · exact Nat.le_trans bounded consistent.bounded

/-- Entries of items not yet seen are still pending as in the snapshot. -/
def StillPending (progress : Provider × List Nat)
    (entries : List (RequestId × Nat)) : Prop :=
  ∀ id key, (id, key) ∈ entries → key ∉ progress.2 →
    progress.1.pendingRequestsQueue.get? id = some key

/-- One entry of the snapshot: its item is promoted, and settled when writing
fails; the entries of other items stay. -/
theorem Consistent.sendPendingEntry {progress : Provider × List Nat}
    (consistent : progress.1.Consistent config)
    (sending : Nat → Option String) {entry : RequestId × Nat}
    {entries : List (RequestId × Nat)}
    (still : StillPending progress (entry :: entries)) :
    (Provider.sendPendingEntry sending progress entry).1.Consistent config ∧
      StillPending (Provider.sendPendingEntry sending progress entry)
        entries := by
  obtain ⟨current, seen⟩ := progress
  obtain ⟨id, key⟩ := entry
  by_cases known : key ∈ seen
  · simp only [Provider.sendPendingEntry, if_pos known]
    exact ⟨consistent, fun id key member =>
      still id key (List.mem_cons_of_mem _ member)⟩
  · have queued := still id key List.mem_cons_self known
    obtain ⟨item, found, isOpen, member⟩ :=
      consistent.pendingOwned id key queued
    have owned : (current.items[key]?.map (ownedIds · id)).getD [id] =
        item.ids := by
      simp [found, ownedIds, isOpen.tracked]
    have promoted := consistent.promote found isOpen
    obtain ⟨pending, sent, items, -⟩ := promote_promotes current key item.ids
    -- Entries of other items have ids that this item does not own.
    have others : ∀ otherId otherKey, (otherId, otherKey) ∈ entries →
        otherKey ∉ key :: seen →
          (current.promote key item.ids).pendingRequestsQueue.get? otherId =
            some otherKey := by
      intro otherId otherKey listed unseen
      have before := still otherId otherKey
        (List.mem_cons_of_mem _ listed)
        (fun earlier => unseen (List.mem_cons_of_mem _ earlier))
      rw [pending, if_neg]
      · exact before
      · intro itsOwn
        have first := consistent.owner_of_open found isOpen itsOwn
        obtain ⟨other, otherFound, otherOpen, otherMember⟩ :=
          consistent.pendingOwned otherId otherKey before
        have second :=
          consistent.owner_of_open otherFound otherOpen otherMember
        rw [first] at second
        exact unseen (Option.some.inj second ▸ List.mem_cons_self)
    simp only [Provider.sendPendingEntry, if_neg known, owned]
    cases sending key with
    | none => exact ⟨promoted, others⟩
    | some message =>
        refine ⟨promoted.settleRequest id _, ?_⟩
        intro otherId otherKey listed unseen
        have before := others otherId otherKey listed unseen
        have itemFound : (current.promote key item.ids).items[key]? =
            some item := by rw [items, found]
        rcases promoted.settleRequest_cases id
            (.reject (.sendFailure message)) with
          ⟨-, same⟩ | ⟨owner, closing, owned', closingFound, closingOpen, -,
            closes⟩
        · simp only [same]
          exact before
        · have own := promoted.owner_of_open itemFound isOpen member
          rw [own] at owned'
          cases owned'
          rw [itemFound] at closingFound
          cases closingFound
          rw [closes.pending, OrderedMap.get?_eraseAll, if_neg]
          · exact before
          · intro itsOwn
            rw [pending, if_pos itsOwn] at before
            cases before

theorem Consistent.sendPendingRequests
    (consistent : provider.Consistent config)
    (sending : Nat → Option String) :
    (provider.sendPendingRequests sending).Consistent config := by
  suffices general : ∀ (entries : List (RequestId × Nat))
      (progress : Provider × List Nat), progress.1.Consistent config →
        StillPending progress entries →
          (entries.foldl (Provider.sendPendingEntry sending)
            progress).1.Consistent config from
    general _ (provider, []) consistent
      (fun id key member _ => OrderedMap.mem_entries.mp member)
  intro entries
  induction entries with
  | nil => exact fun progress consistent _ => consistent
  | cons entry entries induction =>
      intro progress consistent still
      obtain ⟨next, stillNext⟩ := consistent.sendPendingEntry sending still
      exact induction _ next stillNext

end Promotion

section Aborts

/-- An aborting signal closes its item. -/
theorem Consistent.abortItem (consistent : provider.Consistent config)
    {key : Nat} {item : Item} (found : provider.items[key]? = some item)
    (isOpen : item.Open) (abort : AbortComposition) (reason : Reason) :
    (provider.abortItem key item abort reason).Consistent config := by
  obtain ⟨primaryId, siblings, ids⟩ := List.exists_cons_of_ne_nil isOpen.nonempty
  have within : key < provider.items.length :=
    (List.getElem?_eq_some_iff.mp found).1
  let aborting : Item := { item with
    abort := { abort with aborted := some reason }, listening := false }
  let current : Provider :=
    { provider with items := provider.items.set key aborting }
  have owned : current.owner primaryId = some key :=
    consistent.owner_of_open found isOpen (by rw [ids]; exact List.mem_cons_self)
  have itsItem : current.items[key]? = some aborting :=
    List.getElem?_set_self within
  have settled : current.settleRequest primaryId (.reject reason) =
      current.release key aborting primaryId (.reject reason) := by
    simp only [Provider.settleRequest, owned, itsItem]
  have released : ownedIds aborting primaryId = item.ids := by
    simp [ownedIds, aborting, isOpen.tracked]
  have outcome : aborting.settle (.reject reason) =
      { aborting with
        abort := aborting.abort.dispose, tracked := false, settled := true,
        settlements := [.reject reason] } := by
    simp [Item.settle, aborting, isOpen.tracked, isOpen.unsettled,
      isOpen.silent]
  have fired : current.onAbort item.ids reason =
      current.release key aborting primaryId (.reject reason) := by
    rw [ids, ← settled]
    rfl
  have whole : provider.abortItem key item abort reason =
      let released := current.release key aborting primaryId (.reject reason)
      { released with
        items := released.items.modify key fun item =>
          { item with abort := item.abort.dispose } } := by
    rw [← fired]
    simp only [Provider.abortItem, isOpen.listening, if_true]
    rfl
  rw [whole]
  let closed : Item := { aborting with
    abort := aborting.abort.dispose.dispose, tracked := false,
    settled := true, settlements := [.reject reason] }
  have isClosed : closed.Closed := ⟨rfl, rfl, rfl, rfl, rfl, rfl, rfl⟩
  refine consistent.close found isOpen isClosed ⟨?_, ?_, ?_⟩
  · simp only [release, notifyDiagnostics, released]
    rfl
  · simp only [release, notifyDiagnostics, released]
    rfl
  · have once : current.items = provider.items.set key aborting := rfl
    simp only [release, notifyDiagnostics, outcome, once, List.set_set]
    rw [List.modify_eq_set_getElem?, List.getElem?_set_self within]
    exact List.set_set _

theorem Consistent.requestDeadline (consistent : provider.Consistent config)
    (key : Nat) : (provider.requestDeadline key).Consistent config := by
  unfold Provider.requestDeadline
  split
  · rename_i item found
    split
    · rename_i armed
      rcases consistent.openOrClosed key item found with isOpen | isClosed
      · exact consistent.abortItem found isOpen _ _
      · rw [isClosed.disarmed] at armed
        cases armed
    · exact consistent
  · exact consistent

theorem Consistent.callerAbort (consistent : provider.Consistent config)
    (key : Nat) (reason : Option String) :
    (provider.callerAbort key reason).Consistent config := by
  unfold Provider.callerAbort
  split
  · rename_i item found
    split
    · rename_i listening
      rcases consistent.openOrClosed key item found with isOpen | isClosed
      · exact consistent.abortItem found isOpen _ _
      · rw [isClosed.callerDetached] at listening
        cases listening
    · exact consistent
  · exact consistent

end Aborts

section Steps

theorem Consistent.reconnect (consistent : provider.Consistent config) :
    (provider.reconnect config).Consistent config := by
  unfold Provider.reconnect
  split
  · exact consistent
  · have reconnecting : Consistent config
        { provider with isReconnecting := true } :=
      consistent.congr rfl rfl rfl
    have rejected := reconnecting.rejectAll provider.sentRequestsQueue.keys
      .pendingRequestsOnReconnecting
    dsimp only
    split
    · exact rejected.congr rfl rfl rfl
    · exact Consistent.clearQueues (rejected.congr rfl rfl rfl)

theorem Consistent.onConnect (consistent : provider.Consistent config)
    (chainId accounts : OwnRequest) (sending : Nat → Option String) :
    (provider.onConnect config chainId accounts sending).Consistent config :=
  have connected : Consistent config { provider with
      connectionTimer := false, connectionStatus := .connected,
      reconnectAttempts := 0 } := consistent.congr rfl rfl rfl
  ((connected.request _ {} chainId.answers).request _ {}
    accounts.answers).sendPendingRequests sending

theorem Consistent.handleResponses (consistent : provider.Consistent config)
    (responses : List Json) :
    (provider.handleResponses responses).Consistent config := by
  induction responses generalizing provider with
  | nil => exact consistent
  | cons response responses induction =>
      rw [Provider.handleResponses]
      split
      · exact consistent
      · exact induction consistent
      · split
        · exact induction (consistent.settleRequest _ _)
        · exact induction consistent

theorem Consistent.onMessage (consistent : provider.Consistent config)
    (parsed : List Json) :
    (provider.onMessage config parsed).Consistent config := by
  unfold Provider.onMessage
  split
  · split
    · exact consistent.reconnect
    · exact consistent
  · exact consistent.handleResponses _

theorem Consistent.disconnect (consistent : provider.Consistent config)
    (status : Status) (closingThrows : Bool) :
    (provider.disconnect status closingThrows).Consistent config := by
  have cleared : Consistent config
      { provider with connectionTimer := false } :=
    consistent.congr rfl rfl rfl
  unfold Provider.disconnect
  dsimp only
  split
  · exact cleared
  · exact (cleared.rejectAllRequests .connectionNotOpen).congr rfl rfl rfl

theorem Consistent.reset (consistent : provider.Consistent config) :
    provider.reset.Consistent config := by
  have cleared : Consistent config
      { provider with connectionTimer := false } :=
    consistent.congr rfl rfl rfl
  exact (cleared.rejectAllRequests .reset).congr rfl rfl rfl

theorem Consistent.connectionTimeout
    (consistent : provider.Consistent config) (status : Status) :
    (provider.connectionTimeout config status).Consistent config := by
  unfold Provider.connectionTimeout
  dsimp only
  split
  · exact consistent.congr rfl rfl rfl
  · have closed : Consistent config { provider with
        connectionTimer := false, connectionStatus := .disconnected } :=
      consistent.congr rfl rfl rfl
    exact closed.rejectAllRequests _

theorem Consistent.reconnectTimer (consistent : provider.Consistent config)
    (opening : Option String) :
    (provider.reconnectTimer opening).Consistent config := by
  have fired : Consistent config
      { provider with reconnectTimers := provider.reconnectTimers - 1 } :=
    consistent.congr rfl rfl rfl
  have connected := fired.connect opening
  unfold Provider.reconnectTimer
  dsimp only
  split
  · exact connected
  · exact connected.congr rfl rfl rfl

/-- Every entry point keeps consistency. -/
theorem step_preserves_consistent (config : Config) :
    Run.Preserves (step config) (Consistent config) := by
  intro provider action consistent
  cases action with
  | request payload options answers =>
      exact consistent.request payload options answers
  | connect opening => exact consistent.connect opening
  | disconnect status closingThrows =>
      exact consistent.disconnect status closingThrows
  | reset => exact consistent.reset
  | message parsed => exact consistent.onMessage parsed
  | parserError => exact consistent.clearQueues
  | opened chainId accounts sending =>
      exact consistent.onConnect chainId accounts sending
  | errorEvent =>
      rw [step]
      split
      · exact consistent.reconnect
      · exact consistent
  | webSocketClosed code wasClean =>
      rw [step]
      split
      · exact consistent.reconnect
      · exact consistent.clearQueues.congr rfl rfl rfl
  | ipcEnded event =>
      rw [step]
      split
      · exact Consistent.reconnect (consistent.congr rfl rfl rfl)
      · exact consistent.clearQueues.congr rfl rfl rfl
  | ipcClosed => exact consistent.clearQueues
  | ipcCloseCallback => exact consistent.congr rfl rfl rfl
  | requestDeadline key => exact consistent.requestDeadline key
  | callerAbort key reason => exact consistent.callerAbort key reason
  | connectionTimeout status =>
      rw [step]
      split
      · exact consistent.connectionTimeout status
      · exact consistent
  | reconnectTimer opening =>
      rw [step]
      split
      · exact consistent
      · exact consistent.reconnectTimer opening
  | immediate =>
      rw [step]
      split
      · exact consistent
      · exact Consistent.reconnect (consistent.congr rfl rfl rfl)

theorem Reachable.consistent (reachable : Reachable config provider) :
    provider.Consistent config := by
  obtain ⟨actions, rfl⟩ := reachable
  exact Run.invariant (step_preserves_consistent config) consistent_initial
    actions

end Steps

section Results

/-- An admitted request is settled at most once; one that has left both queues
is settled, its deadline disposed and its listeners detached. -/
theorem settled_exactly_once (config : Config) (actions : List Action)
    (key : Nat) (item : Item)
    (admitted : (run (step config) initial actions).items[key]? =
      some item) :
    item.settlements.length ≤ 1 ∧
      ((∀ id ∈ item.ids,
          (run (step config) initial actions).pendingRequestsQueue.get? id =
            none ∧
          (run (step config) initial actions).sentRequestsQueue.get? id =
            none) →
        item.settlements.length = 1 ∧ item.abort.disposed = true ∧
          item.abort.timerArmed = false ∧
          item.abort.callerListening = false ∧ item.listening = false) := by
  have consistent : Consistent config (run (step config) initial actions) :=
    Reachable.consistent ⟨actions, rfl⟩
  rcases consistent.openOrClosed key item admitted with isOpen | isClosed
  · refine ⟨by simp [isOpen.silent], fun unqueued => ?_⟩
    obtain ⟨id, siblings, ids⟩ := List.exists_cons_of_ne_nil isOpen.nonempty
    have member : id ∈ item.ids := by
      rw [ids]
      exact List.mem_cons_self
    have owned := consistent.owner_of_open admitted isOpen member
    obtain ⟨pending, sent⟩ := unqueued id member
    simp [owner, pending, sent] at owned
  · exact ⟨isClosed.once.le, fun _ => ⟨isClosed.once, isClosed.disposed,
      isClosed.disarmed, isClosed.callerDetached, isClosed.detached⟩⟩

/-- A request with the id 1 on an open socket. -/
def requestOne : Action :=
  .request (.single { id := some (.number 1), method := some "qrl_chainId" })
    {} { connectionDefined := true, status := .connected, opening := none,
         queueStatus := .connected, sending := none }

/-- The bounds and reconnection options that the constructor defaults to. -/
def defaultConfig : Config where
  connectionTimeout := 30000
  requestTimeout := 120000
  maxInFlightRequests := 256
  autoReconnect := true
  maxAttempts := 5

/-- A result for the id 1. -/
def replyOne : Json :=
  .object [("jsonrpc", .string "2.0"), ("id", .number 1),
    ("result", .string "0x1")]

theorem settled_exactly_once_answered :
    ∃ item,
      (run (step defaultConfig) initial
        [requestOne, .message [replyOne]]).items[0]? = some item ∧
      item.settlements.length = 1 ∧ item.abort.disposed = true := by
  refine ⟨_, rfl, ?_⟩
  obtain ⟨-, teardown⟩ := settled_exactly_once defaultConfig
    [requestOne, .message [replyOne]] 0 _ rfl
  obtain ⟨once, disposed, -⟩ := teardown (by decide)
  exact ⟨once, disposed⟩

/-- The queues are disjoint, every queued id belongs to an unsettled item all
of whose ids are in the same queue, and the ids stay below the limit. -/
theorem queues_consistent (config : Config) (actions : List Action) :
    (∀ id, (run (step config) initial actions).pendingRequestsQueue.contains
        id = true →
      (run (step config) initial actions).sentRequestsQueue.contains id =
        false) ∧
    (∀ queue ∈ [(run (step config) initial actions).pendingRequestsQueue,
        (run (step config) initial actions).sentRequestsQueue],
      ∀ id key, queue.get? id = some key →
        ∃ item, (run (step config) initial actions).items[key]? = some item ∧
          item.tracked = true ∧ item.settled = false ∧ id ∈ item.ids ∧
          ∀ sibling ∈ item.ids, queue.get? sibling = some key) ∧
    (run (step config) initial actions).inFlightCount ≤
      config.maxInFlightRequests := by
  have consistent : Consistent config (run (step config) initial actions) :=
    Reachable.consistent ⟨actions, rfl⟩
  refine ⟨?_, ?_, consistent.bounded⟩
  · intro id queued
    obtain ⟨key, found⟩ := Option.isSome_iff_exists.mp queued
    simp [OrderedMap.contains, consistent.disjoint id key found]
  · intro queue which id key queued
    simp only [List.mem_cons, List.not_mem_nil, or_false] at which
    rcases which with rfl | rfl
    · obtain ⟨item, found, isOpen, member⟩ :=
        consistent.pendingOwned id key queued
      refine ⟨item, found, isOpen.tracked, isOpen.unsettled, member, ?_⟩
      rcases consistent.together key item found isOpen with held | held
      · exact held
      · have absent := consistent.disjoint id key queued
        rw [held id member] at absent
        cases absent
    · obtain ⟨item, found, isOpen, member⟩ :=
        consistent.sentOwned id key queued
      refine ⟨item, found, isOpen.tracked, isOpen.unsettled, member, ?_⟩
      rcases consistent.together key item found isOpen with held | held
      · have absent := consistent.disjoint id key (held id member)
        rw [queued] at absent
        cases absent
      · exact held

end Results

end Provider

end Web3Js.Socket
