import Web3Js.Core.Subscriptions

/-!
# Delivery of notifications

The registry and the listeners stay in order along a run as long as a provider
is never set again while the manager listens to it, no message of an earlier
provider carries a registered id, and no response changes the id of a
subscription that is registered under another one.
-/

namespace Web3Js.Core.SubscriptionManager

universe u v

variable {Provider : Type u} {Subscription : Type v}

section Definitions

variable [DecidableEq Provider] [DecidableEq Subscription]
variable (features : Provider → ProviderFeatures)

/-- Every key is the id of its subscription. -/
def Keyed (manager : SubscriptionManager Provider Subscription) : Prop :=
  ∀ id subscription,
    manager.subscriptions.get? id = some subscription →
    manager.id subscription = some id

/-- What a message delivers when it is received once from the current
provider and not at all from another one. -/
def dueDeliveries (manager : SubscriptionManager Provider Subscription)
    (provider : Provider) (message : Message) :
    List (Subscription × Message) :=
  if manager.provider = some provider ∧ (features provider).listens ∧
      message.isProcessed then
    (manager.addressee message).toList.map fun subscription =>
      (subscription, message)
  else []

/-- A message is delivered as often as it is due. -/
def DeliversDue (manager : SubscriptionManager Provider Subscription) :
    Action Provider Subscription → Prop
  | .message provider message =>
      (manager.step features (.message provider message)).delivered =
        manager.delivered ++ manager.dueDeliveries features provider message
  | action => (manager.step features action).delivered = manager.delivered

/-- The condition on a step. -/
def Careful (manager : SubscriptionManager Provider Subscription) :
    Action Provider Subscription → Prop
  | .setProvider (some provider) =>
      (features provider).listens → provider ∉ manager.listeners
  | .link => ∀ provider, manager.provider = some provider →
      ¬(features provider).listens
  | .message provider message =>
      manager.provider ≠ some provider → provider ∈ manager.listeners →
        manager.addressee message = none ∨ message.isProcessed = false
  | .subscribed subscription id => subscription ∈ manager.adding →
      ∀ other, manager.subscriptions.get? other = some subscription →
        some other = id
  | .unsubscribed subscription id => (subscription, id) ∈ manager.removing →
      ∀ other, manager.subscriptions.get? other = some subscription →
        other = id
  | _ => True

/-- The registry is in order, and each provider has at most one listener,
exactly one where it is the current one and can be listened to. -/
structure Sound (manager : SubscriptionManager Provider Subscription) :
    Prop where
  keyed : manager.Keyed
  single : manager.listeners.Nodup
  current : ∀ provider, manager.provider = some provider →
    (features provider).listens → provider ∈ manager.listeners
  listening : ∀ provider ∈ manager.listeners, (features provider).listens

end Definitions

section Lemmas

variable {features : Provider → ProviderFeatures}

theorem removeSubscription_eq
    (manager : SubscriptionManager Provider Subscription)
    (subscription : Subscription) :
    ∃ removing, manager.removeSubscription subscription =
      { manager with removing } := by
  rw [removeSubscription]
  split
  · split
    · exact ⟨_, rfl⟩
    · exact ⟨manager.removing, rfl⟩
  · exact ⟨manager.removing, rfl⟩

theorem unsubscribe_eq (manager : SubscriptionManager Provider Subscription) :
    ∃ removing, manager.unsubscribe = { manager with removing } := by
  have all : ∀ (entries : List (String × Subscription))
      (manager : SubscriptionManager Provider Subscription),
      ∃ removing, entries.foldl
        (fun manager entry => manager.removeSubscription entry.2) manager =
          { manager with removing } := by
    intro entries
    induction entries with
    | nil => exact fun manager => ⟨manager.removing, rfl⟩
    | cons entry entries induction =>
        intro manager
        obtain ⟨removing, removed⟩ := removeSubscription_eq manager entry.2
        rw [List.foldl_cons, removed]
        exact induction { manager with removing }
  exact all manager.subscriptions.entries manager

/-- A change of the provider empties the registry and adds a listener. -/
theorem setProvider_eq (features : Provider → ProviderFeatures)
    (manager : SubscriptionManager Provider Subscription)
    (provider : Option Provider) :
    ∃ removing, manager.setProvider features provider =
      { manager with
        provider, removing, subscriptions := ∅
        listeners := manager.listeners ++
          provider.toList.filter fun provider =>
            (features provider).listens } := by
  obtain ⟨removing, unsubscribed⟩ := unsubscribe_eq manager
  refine ⟨removing, ?_⟩
  rw [setProvider, unsubscribed, listenToProviderEvents]
  cases provider with
  | none => simp
  | some provider =>
      by_cases listens : (features provider).listens = true
      · simp [listens]
      · simp [listens]

theorem messageListener_eq
    (manager : SubscriptionManager Provider Subscription)
    (message : Message) :
    manager.messageListener message =
      { manager with
        delivered := manager.delivered ++
          if message.isProcessed then
            (manager.addressee message).toList.map fun subscription =>
              (subscription, message)
          else [] } := by
  rw [messageListener]
  cases manager.addressee message with
  | none => simp
  | some subscription =>
      cases message.isProcessed with
      | true => rfl
      | false => simp

/-- A message is delivered once for each listener of its provider. -/
theorem emit_eq [DecidableEq Provider]
    (manager : SubscriptionManager Provider Subscription)
    (provider : Provider) (message : Message) :
    manager.emit provider message =
      { manager with
        delivered := manager.delivered ++
          (List.replicate (manager.listeners.count provider)
            (if message.isProcessed then
              (manager.addressee message).toList.map fun subscription =>
                (subscription, message)
            else [])).flatten } := by
  have all : ∀ (listeners : List Provider)
      (manager : SubscriptionManager Provider Subscription),
      listeners.foldl (fun manager _ => manager.messageListener message)
          manager =
        { manager with
          delivered := manager.delivered ++
            (List.replicate listeners.length
              (if message.isProcessed then
                (manager.addressee message).toList.map fun subscription =>
                  (subscription, message)
              else [])).flatten } := by
    intro listeners
    induction listeners with
    | nil => intro manager; simp
    | cons listener listeners induction =>
        intro manager
        rw [List.foldl_cons, induction, messageListener_eq]
        simp [List.replicate_succ, addressee]
  rw [emit, all, List.count_eq_length_filter]
  rfl

end Lemmas

section Steps

variable {features : Provider → ProviderFeatures}
variable {manager : SubscriptionManager Provider Subscription}

theorem sound_setProvider (sound : Sound features manager)
    {provider : Option Provider}
    (fresh : ∀ new ∈ provider, (features new).listens →
      new ∉ manager.listeners) :
    Sound features (manager.setProvider features provider) := by
  obtain ⟨removing, set⟩ := setProvider_eq features manager
    provider
  rw [set]
  constructor
  · intro id subscription found
    cases found
  · apply List.Nodup.append sound.single
    · cases provider with
      | none => exact List.nodup_nil
      | some new => exact (List.nodup_singleton new).filter _
    · intro other member now
      obtain ⟨isNew, listens⟩ := List.mem_filter.mp now
      exact fresh other (Option.mem_toList.mp isNew) listens member
  · intro other isCurrent listens
    apply List.mem_append_right
    apply List.mem_filter.mpr
    exact ⟨Option.mem_toList.mpr isCurrent, listens⟩
  · intro other member
    rcases List.mem_append.mp member with before | now
    · exact sound.listening other before
    · exact (List.mem_filter.mp now).2

theorem keyed_subscribed [DecidableEq Subscription] (keyed : manager.Keyed)
    {subscription : Subscription} {id : Option String}
    (sole : ∀ other, manager.subscriptions.get? other = some subscription →
      some other = id) :
    (manager.subscribed subscription id).Keyed := by
  have untouched : ∀ (other : String) (registered : Subscription),
      manager.subscriptions.get? other = some registered →
      Function.update manager.id subscription id registered =
        some other := by
    intro other registered found
    by_cases same : registered = subscription
    · subst same
      rw [Function.update_self]
      exact (sole other found).symm
    · rw [Function.update_of_ne same]
      exact keyed other registered found
  intro other registered found
  cases id with
  | none => exact untouched other registered found
  | some id =>
      change (manager.subscriptions.set id subscription).get? other = _
        at found
      rw [OrderedMap.get?_set] at found
      by_cases same : other = id
      · rw [if_pos same] at found
        cases found
        change Function.update manager.id subscription _ subscription = _
        rw [Function.update_self, same]
      · rw [if_neg same] at found
        exact untouched other registered found

theorem keyed_unsubscribed [DecidableEq Subscription] (keyed : manager.Keyed)
    {subscription : Subscription} {id : String}
    (sole : ∀ other, manager.subscriptions.get? other = some subscription →
      other = id) :
    (manager.unsubscribed subscription id).Keyed := by
  intro other registered found
  change (manager.subscriptions.erase id).get? other = _ at found
  rw [OrderedMap.get?_erase] at found
  by_cases deleted : other = id
  · rw [if_pos deleted] at found
    cases found
  · rw [if_neg deleted] at found
    have differs : registered ≠ subscription := by
      rintro rfl
      exact deleted (sole other found)
    change Function.update manager.id subscription none registered = _
    rw [Function.update_of_ne differs]
    exact keyed other registered found

/-- A careful step keeps the registry and the listeners in order. -/
theorem Sound.step [DecidableEq Provider] [DecidableEq Subscription]
    (sound : Sound features manager)
    (action : Action Provider Subscription)
    (careful : manager.Careful features action) :
    Sound features (manager.step features action) := by
  cases action with
  | setProvider provider =>
      apply sound_setProvider sound
      rintro new ⟨⟩
      exact careful
  | link =>
      apply sound_setProvider sound
      intro new isCurrent listens
      exact absurd listens (careful new isCurrent)
  | addSubscription subscription =>
      rw [SubscriptionManager.step, addSubscription]
      split
      · exact ⟨sound.keyed, sound.single, sound.current, sound.listening⟩
      · exact sound
  | removeSubscription subscription =>
      obtain ⟨removing, removed⟩ :=
        removeSubscription_eq manager subscription
      rw [SubscriptionManager.step, removed]
      exact ⟨sound.keyed, sound.single, sound.current, sound.listening⟩
  | subscribed subscription id =>
      rw [SubscriptionManager.step]
      split
      · rename_i waiting
        have keyed := keyed_subscribed sound.keyed (careful waiting)
        cases id with
        | none => exact ⟨keyed, sound.single, sound.current, sound.listening⟩
        | some id =>
            exact ⟨keyed, sound.single, sound.current, sound.listening⟩
      · exact sound
  | unsubscribed subscription id =>
      rw [SubscriptionManager.step]
      split
      · rename_i waiting
        have keyed := keyed_unsubscribed sound.keyed (careful waiting)
        exact ⟨keyed, sound.single, sound.current, sound.listening⟩
      · exact sound
  | subscribeFailed | unsubscribeFailed =>
      exact ⟨sound.keyed, sound.single, sound.current, sound.listening⟩
  | message provider message =>
      rw [SubscriptionManager.step, emit_eq]
      exact ⟨sound.keyed, sound.single, sound.current, sound.listening⟩

/-- A careful step delivers what is due. -/
theorem Sound.deliversDue [DecidableEq Provider]
    [DecidableEq Subscription] (sound : Sound features manager)
    (action : Action Provider Subscription)
    (careful : manager.Careful features action) :
    manager.DeliversDue features action := by
  cases action with
  | setProvider provider =>
      obtain ⟨removing, set⟩ := setProvider_eq features manager
        provider
      change (manager.setProvider features provider).delivered = _
      rw [set]
  | link =>
      obtain ⟨removing, set⟩ := setProvider_eq features manager
        manager.provider
      change (manager.setProvider features manager.provider).delivered = _
      rw [set]
  | addSubscription subscription =>
      change (manager.addSubscription features subscription).delivered = _
      rw [addSubscription]
      split <;> rfl
  | removeSubscription subscription =>
      obtain ⟨removing, removed⟩ :=
        removeSubscription_eq manager subscription
      change (manager.removeSubscription subscription).delivered = _
      rw [removed]
  | subscribed subscription id =>
      change (manager.step features (.subscribed subscription id)).delivered =
        _
      rw [SubscriptionManager.step]
      split
      · cases id <;> rfl
      · rfl
  | unsubscribed subscription id =>
      change (manager.step features
        (.unsubscribed subscription id)).delivered = _
      rw [SubscriptionManager.step]
      split <;> rfl
  | subscribeFailed | unsubscribeFailed => rfl
  | message provider message =>
      rw [DeliversDue, SubscriptionManager.step, emit_eq, dueDeliveries]
      by_cases listened : provider ∈ manager.listeners
      · rw [List.count_eq_one_of_mem sound.single listened,
          List.replicate_one, List.flatten_singleton]
        have listens := sound.listening provider listened
        by_cases isCurrent : manager.provider = some provider
        · simp only [isCurrent, listens, true_and]
        · have notDue : ¬(manager.provider = some provider ∧
              (features provider).listens = true ∧
              message.isProcessed = true) := fun due => isCurrent due.1
          rw [if_neg notDue]
          rcases careful isCurrent listened with absent | unprocessed
          · rw [absent]
            split <;> rfl
          · rw [unprocessed]
            rfl
      · have notDue : ¬(manager.provider = some provider ∧
            (features provider).listens = true ∧
            message.isProcessed = true) :=
          fun due => listened (sound.current provider due.1 due.2.1)
        rw [List.count_eq_zero_of_not_mem listened, if_neg notDue]
        rfl

end Steps

section Main

theorem sound_initial (features : Provider → ProviderFeatures)
    (provider : Option Provider) :
    Sound features (initial features provider :
      SubscriptionManager Provider Subscription) := by
  have start : Sound features ({ provider := none, id := fun _ => none } :
      SubscriptionManager Provider Subscription) := by
    constructor
    · intro id subscription found
      cases found
    · exact List.nodup_nil
    · intro other isCurrent
      cases isCurrent
    · intro other member
      cases member
  have set : (initial features provider :
      SubscriptionManager Provider Subscription) =
        ({ provider := none, id := fun _ => none } :
          SubscriptionManager Provider Subscription).setProvider features
            provider := rfl
  rw [set]
  apply sound_setProvider start
  intro new isNew listens member
  cases member

theorem sound_run [DecidableEq Provider] [DecidableEq Subscription]
    {features : Provider → ProviderFeatures} {provider : Option Provider}
    {actions : List (Action Provider Subscription)}
    (careful : Run.Meets (step features) (Careful features)
      (initial features provider) actions) :
    Sound features
      (run (step features) (initial features provider) actions) := by
  apply Run.invariant_of_meets ?_ (sound_initial features provider) careful
  intro manager action sound careful
  exact sound.step action careful

/-- Along every careful run each key is the id of its subscription, and every
step delivers what is due. -/
theorem run_deliversDue [DecidableEq Provider] [DecidableEq Subscription]
    (features : Provider → ProviderFeatures)
    (provider : Option Provider)
    (actions : List (Action Provider Subscription))
    (action : Action Provider Subscription)
    (careful : Run.Meets (step features) (Careful features)
      (initial features provider) (actions ++ [action])) :
    (run (step features) (initial features provider) actions).Keyed ∧
      (run (step features) (initial features provider)
        (actions ++ [action])).Keyed ∧
      (run (step features) (initial features provider) actions).DeliversDue
        features action := by
  obtain ⟨before, now, -⟩ := Run.meets_append.mp careful
  have sound := sound_run before
  exact ⟨sound.keyed, (sound_run careful).keyed,
    sound.deliversDue action now⟩

end Main

section Instance

/-- Providers that support subscriptions. -/
def everyProvider : Nat → ProviderFeatures := fun _ =>
  { hasOn := true, supportsSubscriptions := some true }

def notification : Message :=
  { paramsSubscription := some "0x1", isNotification := true }

/-- A notification is delivered twice after the provider was set again, once
when it comes from a provider that was replaced, and a subscription that is
added twice has another id than its key. -/
theorem run_deliversDue_violated :
    (¬(run (step everyProvider) (initial everyProvider (some 0))
        [.link, .addSubscription 0, .subscribed 0 (some "0x1")] :
        SubscriptionManager Nat Nat).DeliversDue everyProvider
          (.message 0 notification)) ∧
    (¬(run (step everyProvider) (initial everyProvider (some 0))
        [.setProvider (some 1), .addSubscription 0,
          .subscribed 0 (some "0x1")] :
        SubscriptionManager Nat Nat).DeliversDue everyProvider
          (.message 0 notification)) ∧
    ¬(run (step everyProvider) (initial everyProvider (some 0))
        [.addSubscription 0, .addSubscription 0, .subscribed 0 (some "0x1"),
          .subscribed 0 (some "0x2")] :
        SubscriptionManager Nat Nat).Keyed := by
  refine ⟨?_, ?_, ?_⟩
  · intro once
    exact absurd (congrArg List.length once) (by decide)
  · intro none
    exact absurd (congrArg List.length none) (by decide)
  · intro keyed
    exact absurd (keyed "0x1" 0 rfl) (by decide)

/-- A careful run: the notification of the new provider is delivered once. -/
theorem run_deliversDue_careful :
    (run (step everyProvider) (initial everyProvider (some 0))
      [.setProvider (some 1), .addSubscription 0,
        .subscribed 0 (some "0x1")] :
      SubscriptionManager Nat Nat).DeliversDue everyProvider
        (.message 1 notification) := by
  have careful : Run.Meets (step everyProvider) (Careful everyProvider)
      (initial everyProvider (some 0) : SubscriptionManager Nat Nat)
      ([.setProvider (some 1), .addSubscription 0,
        .subscribed 0 (some "0x1")] ++ [.message 1 notification]) := by
    refine ⟨fun _ => by decide, trivial, ?_, ?_, trivial⟩
    · intro _ other found
      cases found
    · intro other
      exact absurd rfl other
  exact (run_deliversDue everyProvider (some 0) _ _ careful).2.2

end Instance

end Web3Js.Core.SubscriptionManager
