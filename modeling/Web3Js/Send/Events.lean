import Web3Js.Lib.Program
import Web3Js.Prepare.Builder

/-!
# The events of a sent transaction

Sending a transaction returns a promise and an emitter.  The history lists
what happens to the two in order: the events that are emitted, the listeners
that throw, and the settlements of the promise.  The watchers of confirmations
emit on the same emitter, after the promise has been settled.
-/

namespace Web3Js.Send

inductive EventName
  | sending
  | sent
  | transactionHash
  | receipt
  | confirmation
  | error
  deriving DecidableEq

/-- The classes of failures that the handler tells apart. -/
inductive Failure
  | invalidResponse
  | contractExecution
  | revertWithCustomError
  | revertedWithoutReason
  | revertInstruction
  | other (message : String)
  deriving DecidableEq

inductive Entry
  | emitted (event : EventName)
  | listenerThrew (event : EventName)
  /-- A polling step fails, in its request or in a listener. -/
  | pollFailed
  | resolved
  | rejected
  deriving DecidableEq

def Entry.isSettlement : Entry → Bool
  | .resolved | .rejected => true
  | _ => false

structure Receipt where
  blockHash : Option String
  blockNumber : Numbers
  status : Option Numbers

section Watching

/-- The interval of `watchTransactionByPolling` and what it has under way. -/
structure Poller where
  confirmations : Nat := 1
  interval : Bool := true
  requests : Nat := 0

inductive Subscribing
  | requested
  | subscribed
  | failed
  deriving DecidableEq

/-- The variables of `watchTransactionBySubscription`, how far its request has
come and whether its timer is still to fire. -/
structure HeadsWatcher where
  needToWatchLater : Bool := true
  lastCaughtBlockHash : Option String := none
  subscribing : Subscribing := .requested
  timer : Bool := true

structure Watch where
  receipt : Receipt
  pollers : List Poller := []
  heads : Option HeadsWatcher := none

structure State where
  settled : Bool := false
  history : List Entry := []
  watch : Option Watch := none

def State.record (state : State) (entry : Entry) : State :=
  { state with history := state.history ++ [entry] }

/-- A block header as a subscription delivers it. -/
structure Header where
  number : Option Numbers
  parentHash : Option String

/-- What can happen to the watchers: timers, answers and notifications.  An
answer to a request is a failure or a hash that may be missing; the emission
of a confirmation may meet a listener that throws. -/
inductive Action
  | tick (poller : Nat)
  | answer (poller : Nat) (hash : Except Failure (Option String))
      (listener : Option Failure)
  | subscribed
  | subscribeFailed
  | header (header : Header) (listener : Option Failure)
  /-- The subscription reports an error and has been removed. -/
  | subscriptionError
  | headerTimeout

/-- `isValidUnsignedHexNumber` of a number that is there. -/
def isValidUnsignedHexNumber : Numbers → Bool
  | .number value | .bigint value => decide (0 ≤ value)
  | .fraction shown => shown.toList.head? != some '-' && shown != "NaN"
  | .text content =>
      !(['-'].isPrefixOf content.toList) && Validator.isHexStrict content

/-- `/^0x[0-9a-fA-F]{64}$/` -/
def isValidBlockHash (value : String) : Bool :=
  Validator.isHexString value && value.length == 66

/-- The parts of a header that the watcher accepts. -/
def acceptHeader (watcher : HeadsWatcher) (header : Header) :
    Option (Numbers × String) :=
  match header.number, header.parentHash with
  | some number, some parentHash =>
      if number ≠ .number 0 ∧ number ≠ .bigint 0 ∧
          isValidUnsignedHexNumber number ∧ isValidBlockHash parentHash ∧
          watcher.lastCaughtBlockHash ≠ some parentHash then
        some (number, parentHash)
      else none
  | _, _ => none

def Watch.startPolling (watch : Watch) : Watch :=
  { watch with pollers := watch.pollers ++ [{}] }

def Watch.setHeads (watch : Watch) (heads : HeadsWatcher) : Watch :=
  { watch with heads := some heads }

def Watch.setPoller (watch : Watch) (index : Nat) (poller : Poller) : Watch :=
  { watch with pollers := watch.pollers.set index poller }

/-- The interval fires: the last needed confirmation ends it, but not this
request. -/
def Poller.tick (transactionConfirmationBlocks : Nat) (poller : Poller) :
    Poller :=
  { poller with
    interval := poller.interval &&
      !decide (transactionConfirmationBlocks ≤ poller.confirmations)
    requests := poller.requests + 1 }

/-- A polling step that throws stops the interval and is reported. -/
def State.failPoll (state : State) : State :=
  (state.record .pollFailed).record (.emitted .error)

/-- One step of the watchers, where it can happen. -/
def watchStep (transactionConfirmationBlocks : Nat) (state : State)
    (action : Action) : Option State := do
  let watch ← state.watch
  match action with
  | .tick index => do
      let poller ← watch.pollers[index]?
      if poller.interval then
        some { state with
          watch := some (watch.setPoller index
            (poller.tick transactionConfirmationBlocks)) }
      else none
  | .answer index hash listener => do
      let poller ← watch.pollers[index]?
      let answered := { poller with requests := poller.requests - 1 }
      let stopped := { answered with interval := false }
      if poller.requests = 0 then none
      else
        match hash with
        | .error _ =>
            some { state.failPoll with
              watch := some (watch.setPoller index stopped) }
        | .ok hash =>
            if hash = none ∨ hash = some "" then
              some { state with
                watch := some (watch.setPoller index answered) }
            else
              match listener with
              | none =>
                  some { state.record (.emitted .confirmation) with
                    watch := some (watch.setPoller index
                      { answered with
                        confirmations := poller.confirmations + 1 }) }
              | some _ =>
                  some { ((state.record (.emitted .confirmation)).record
                      (.listenerThrew .confirmation)).failPoll with
                    watch := some (watch.setPoller index
                      { stopped with
                        confirmations := poller.confirmations + 1 }) }
  | .subscribed => do
      let heads ← watch.heads
      if heads.subscribing = .requested then
        some { state with
          watch := some (watch.setHeads
            { heads with subscribing := .subscribed }) }
      else none
  | .subscribeFailed => do
      let heads ← watch.heads
      if heads.subscribing = .requested then
        some { state with
          watch := some (watch.setHeads
            { heads with
              subscribing := .failed
              needToWatchLater := false }).startPolling }
      else none
  | .header header listener => do
      let heads ← watch.heads
      let informed := { heads with needToWatchLater := false }
      if heads.subscribing = .subscribed then
        match acceptHeader heads header with
        | none => some { state with watch := some (watch.setHeads informed) }
        | some (number, parentHash) =>
            let caught := watch.setHeads
              { informed with lastCaughtBlockHash := some parentHash }
            match Prepare.bigIntOf number,
              Prepare.bigIntOf watch.receipt.blockNumber with
            | some _, some _ =>
                let emitted := state.record (.emitted .confirmation)
                -- A listener that throws rejects the handler's own promise,
                -- which nobody awaits.
                match listener with
                | none => some { emitted with watch := some caught }
                | some _ =>
                    some { emitted.record (.listenerThrew .confirmation) with
                      watch := some caught }
            | _, _ => some { state with watch := some caught }
      else none
  | .subscriptionError => do
      let heads ← watch.heads
      if heads.subscribing = .subscribed then
        some { state with
          watch := some (watch.setHeads
            { heads with needToWatchLater := false }).startPolling }
      else none
  | .headerTimeout => do
      let heads ← watch.heads
      let fired := watch.setHeads { heads with timer := false }
      if heads.timer then
        if heads.needToWatchLater then
          some { state with watch := some fired.startPolling }
        else some { state with watch := some fired }
      else none

/-- A run of the watchers. -/
def watchRun (transactionConfirmationBlocks : Nat) (state : State)
    (actions : List Action) : Option State :=
  actions.foldlM (watchStep transactionConfirmationBlocks) state

/-- Whether a polling step fails, in its request or in a listener. -/
def Action.fails : Action → Bool
  | .answer _ (.error _) _ => true
  | .answer _ (.ok (some hash)) (some _) => hash != ""
  | _ => false

end Watching

end Web3Js.Send
