import Web3Js.Lib.Invariant
import Web3Js.Lib.OrderedMap

/-!
# Subscriptions

The subscription manager keeps the registered subscriptions by their ids.  It
listens to every provider that the request manager is given and never stops
listening, and it looks a message up by the id in it, whichever provider sent
it.  Subscribing and unsubscribing are requests: a call starts one, and its
response changes the subscription and then the registry.
-/

namespace Web3Js.Core

/-- What the manager asks of a provider. -/
structure ProviderFeatures where
  /-- `typeof provider.on === 'function'` -/
  hasOn : Bool
  /-- The value of `supportsSubscriptions()`, where there is one. -/
  supportsSubscriptions : Option Bool

/-- Whether `listenToProviderEvents` attaches a listener. -/
def ProviderFeatures.listens (features : ProviderFeatures) : Bool :=
  features.supportsSubscriptions ≠ some false && features.hasOn

/-- `isSupportSubscriptions` -/
def ProviderFeatures.isSupportSubscriptions (features : ProviderFeatures) :
    Bool :=
  match features.supportsSubscriptions with
  | some supports => supports
  | none => features.hasOn

/-- A message of a provider, by the fields that decide who gets it. -/
structure Message where
  /-- `params?.subscription` -/
  paramsSubscription : Option String := none
  /-- `data?.subscription` -/
  dataSubscription : Option String := none
  /-- `id?.toString(16)` -/
  id : Option String := none
  /-- `data?.data` is truthy. -/
  hasData : Bool := false
  isNotification : Bool := false

namespace Message

/-- The first of the fields that is no empty string. -/
def subscriptionId (message : Message) : Option String :=
  ((message.paramsSubscription.filter (· ≠ "")).or
    (message.dataSubscription.filter (· ≠ ""))).or
    (message.id.filter (· ≠ ""))

/-- `processSubscriptionData` emits the message's result. -/
def isProcessed (message : Message) : Bool :=
  message.hasData || message.isNotification

end Message

universe u v

variable {Provider : Type u} {Subscription : Type v}

structure SubscriptionManager (Provider : Type u) (Subscription : Type v)
    where
  /-- The provider of the request manager. -/
  provider : Option Provider
  /-- The providers with a listener, one entry for each listener. -/
  listeners : List Provider := []
  subscriptions : OrderedMap String Subscription := ∅
  /-- The `_id` of each subscription. -/
  id : Subscription → Option String
  /-- The calls of `addSubscription` that wait for their response. -/
  adding : List Subscription := []
  /-- The calls of `removeSubscription` that wait for their response, with the
  id that they delete. -/
  removing : List (Subscription × String) := []
  /-- What the subscriptions have emitted. -/
  delivered : List (Subscription × Message) := []

namespace SubscriptionManager

variable [DecidableEq Provider] [DecidableEq Subscription]

section Calls

variable (features : Provider → ProviderFeatures)

def listenToProviderEvents (manager : SubscriptionManager Provider Subscription) :
    SubscriptionManager Provider Subscription :=
  match manager.provider with
  | some provider =>
      if (features provider).listens then
        { manager with listeners := manager.listeners ++ [provider] }
      else manager
  | none => manager

/-- `supportsSubscriptions` -/
def supportsSubscriptions
    (manager : SubscriptionManager Provider Subscription) : Bool :=
  match manager.provider with
  | some provider => (features provider).isSupportSubscriptions
  | none => false

/-- The check of `addSubscription` for an id that is taken. -/
def alreadyExists (manager : SubscriptionManager Provider Subscription)
    (subscription : Subscription) : Bool :=
  match manager.id subscription with
  | some id => id ≠ "" && manager.subscriptions.contains id
  | none => false

/-- `addSubscription`, up to its request. -/
def addSubscription (manager : SubscriptionManager Provider Subscription)
    (subscription : Subscription) :
    SubscriptionManager Provider Subscription :=
  if manager.supportsSubscriptions features &&
      !manager.alreadyExists subscription then
    { manager with adding := manager.adding ++ [subscription] }
  else manager

/-- `removeSubscription`, up to its request. -/
def removeSubscription (manager : SubscriptionManager Provider Subscription)
    (subscription : Subscription) :
    SubscriptionManager Provider Subscription :=
  match manager.id subscription with
  | some id =>
      if manager.subscriptions.contains id then
        { manager with removing := manager.removing ++ [(subscription, id)] }
      else manager
  | none => manager

/-- `unsubscribe`, which removes all subscriptions of the registry. -/
def unsubscribe (manager : SubscriptionManager Provider Subscription) :
    SubscriptionManager Provider Subscription :=
  manager.subscriptions.entries.foldl
    (fun manager entry => manager.removeSubscription entry.2) manager

/-- `setProvider`, with what the manager does before and after the change. -/
def setProvider (manager : SubscriptionManager Provider Subscription)
    (provider : Option Provider) :
    SubscriptionManager Provider Subscription :=
  { manager.unsubscribe with
    provider, subscriptions := ∅ }.listenToProviderEvents features

end Calls

section Responses

/-- The response to a subscription request: the subscription takes the id and
is registered under it, unless it is `null`. -/
def subscribed (manager : SubscriptionManager Provider Subscription)
    (subscription : Subscription) (id : Option String) :
    SubscriptionManager Provider Subscription :=
  let manager := { manager with
    adding := manager.adding.erase subscription
    id := Function.update manager.id subscription id }
  match id with
  | some id =>
      { manager with
        subscriptions := manager.subscriptions.set id subscription }
  | none => manager

/-- The response to an unsubscription request: the subscription loses its id,
and the id that was taken at the call is deleted. -/
def unsubscribed (manager : SubscriptionManager Provider Subscription)
    (subscription : Subscription) (id : String) :
    SubscriptionManager Provider Subscription :=
  { manager with
    removing := manager.removing.erase (subscription, id)
    id := Function.update manager.id subscription none
    subscriptions := manager.subscriptions.erase id }

/-- The subscription that a message is for. -/
def addressee (manager : SubscriptionManager Provider Subscription)
    (message : Message) : Option Subscription :=
  message.subscriptionId.bind manager.subscriptions.get?

/-- `messageListener` -/
def messageListener (manager : SubscriptionManager Provider Subscription)
    (message : Message) : SubscriptionManager Provider Subscription :=
  match manager.addressee message with
  | some subscription =>
      if message.isProcessed then
        { manager with
          delivered := manager.delivered ++ [(subscription, message)] }
      else manager
  | none => manager

/-- A provider emits a message to each listener that it has. -/
def emit (manager : SubscriptionManager Provider Subscription)
    (provider : Provider) (message : Message) :
    SubscriptionManager Provider Subscription :=
  (manager.listeners.filter (· = provider)).foldl
    (fun manager _ => manager.messageListener message) manager

end Responses

inductive Action (Provider : Type u) (Subscription : Type v)
  | setProvider (provider : Option Provider)
  /-- `link` of another context to the one of this manager. -/
  | link
  | addSubscription (subscription : Subscription)
  | removeSubscription (subscription : Subscription)
  | subscribed (subscription : Subscription) (id : Option String)
  | subscribeFailed (subscription : Subscription)
  | unsubscribed (subscription : Subscription) (id : String)
  | unsubscribeFailed (subscription : Subscription) (id : String)
  | message (provider : Provider) (message : Message)

variable (features : Provider → ProviderFeatures)

/-- One call or event.  A response to no request does nothing. -/
def step (manager : SubscriptionManager Provider Subscription) :
    Action Provider Subscription → SubscriptionManager Provider Subscription
  | .setProvider provider => manager.setProvider features provider
  | .link => manager.setProvider features manager.provider
  | .addSubscription subscription =>
      manager.addSubscription features subscription
  | .removeSubscription subscription =>
      manager.removeSubscription subscription
  | .subscribed subscription id =>
      if subscription ∈ manager.adding then
        manager.subscribed subscription id
      else manager
  | .subscribeFailed subscription =>
      { manager with adding := manager.adding.erase subscription }
  | .unsubscribed subscription id =>
      if (subscription, id) ∈ manager.removing then
        manager.unsubscribed subscription id
      else manager
  | .unsubscribeFailed subscription id =>
      { manager with removing := manager.removing.erase (subscription, id) }
  | .message provider message => manager.emit provider message

/-- The manager after its constructor. -/
def initial (provider : Option Provider) :
    SubscriptionManager Provider Subscription :=
  ({ provider, id := fun _ => none } :
    SubscriptionManager Provider Subscription).listenToProviderEvents features

end SubscriptionManager

end Web3Js.Core
