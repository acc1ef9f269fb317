import Web3Js.Lib.Invariant
import Web3Js.Send.Events

/-!
# Waiting with timeouts

A wait races what it waits for against a timer and against the count of new
blocks.  Blocks are counted by polling, or through a subscription to new heads
that can revert to polling.  Once one of the three has settled, the timer is
cleared and the cleaner of the block count runs.

What is waited for is a task: the polling for a receipt, or the request that
sends a transaction.
-/

namespace Web3Js.Send.Waiting

structure Config where
  transactionBlockTimeout : Int
  /-- The provider supports subscriptions, and
  `useSubscriptionWhenCheckingBlockTimeout` is set. -/
  useSubscription : Bool

section Blocks

/-- An interval of `rejectIfConditionAtInterval`, with the requests for the
block number that are under way. -/
structure BlockPoller where
  interval : Bool := true
  requests : Nat := 0

/-- What the `clean` of the resource cleaner does. -/
inductive Cleaner
  | removeSubscription
  | clearInterval (poller : Nat)

/-- The state behind the promise of `rejectIfBlockTimeout`. -/
structure BlockTimeout where
  starterBlockNumber : Int
  needToWatchLater : Bool := true
  /-- The subscription is in the manager. -/
  subscription : Bool
  removals : Nat := 0
  headerTimer : Bool
  pollers : List BlockPoller
  cleaner : Cleaner
  rejected : Bool := false

inductive BlockLabel
  | header (header : Header)
  | subscriptionError
  | removed (succeeded : Bool)
  | headerTimeout
  | tick (poller : Nat)
  | answer (poller : Nat) (lastBlockNumber : Except Failure Int)

def resolveByPolling (starterBlockNumber : Int) : BlockTimeout where
  starterBlockNumber := starterBlockNumber
  subscription := false
  headerTimer := false
  pollers := [{}]
  cleaner := .clearInterval 0

/-- `resolveBySubscription` once the subscription has been made. -/
def resolveBySubscription (starterBlockNumber : Int) : BlockTimeout where
  starterBlockNumber := starterBlockNumber
  subscription := true
  headerTimer := true
  pollers := []
  cleaner := .removeSubscription

namespace BlockTimeout

def stop (poller : BlockPoller) : BlockPoller :=
  { poller with interval := false }

def clean (block : BlockTimeout) : BlockTimeout :=
  match block.cleaner with
  | .removeSubscription =>
      if block.subscription then
        { block with removals := block.removals + 1 }
      else block
  | .clearInterval index =>
      { block with pollers := block.pollers.modify index stop }

def revertToPolling (block : BlockTimeout) : BlockTimeout :=
  { block.clean with
    needToWatchLater := false
    pollers := block.clean.pollers ++ [{}]
    cleaner := .clearInterval block.clean.pollers.length }

/-- The number of a header, where it is there and not zero. -/
def headerNumber (header : Header) : Option Int := do
  let number ← header.number
  (← Prepare.bigIntOf number) |> Option.guard (· ≠ 0)

/-- The number of blocks has reached the timeout. -/
def Reached (config : Config) (block : BlockTimeout) (number : Int) : Prop :=
  config.transactionBlockTimeout ≤ number - block.starterBlockNumber

instance (config : Config) (block : BlockTimeout) (number : Int) :
    Decidable (block.Reached config number) :=
  inferInstanceAs (Decidable (_ ≤ _))

def onHeader (config : Config) (block : BlockTimeout) (header : Header) :
    BlockTimeout :=
  let informed := { block with needToWatchLater := false }
  match headerNumber header with
  | none => informed
  | some number =>
      if block.Reached config number then { informed with rejected := true }
      else informed

def onAnswer (config : Config) (block : BlockTimeout) (index : Nat)
    (poller : BlockPoller) (lastBlockNumber : Except Failure Int) :
    BlockTimeout :=
  let answered := { poller with requests := poller.requests - 1 }
  match lastBlockNumber with
  | .error _ => { block with pollers := block.pollers.set index answered }
  | .ok number =>
      if block.Reached config number then
        { block with
          pollers := block.pollers.set index (stop answered)
          rejected := true }
      else { block with pollers := block.pollers.set index answered }

/-- What cannot happen leaves the state as it is. -/
def step (config : Config) (block : BlockTimeout) :
    BlockLabel → BlockTimeout
  | .header header =>
      if block.subscription then block.onHeader config header else block
  | .subscriptionError =>
      if block.subscription then block.revertToPolling else block
  | .removed succeeded =>
      if block.removals = 0 then block
      else
        { block with
          removals := block.removals - 1
          subscription := block.subscription && !succeeded }
  | .headerTimeout =>
      if block.headerTimer then
        let fired := { block with headerTimer := false }
        if block.needToWatchLater then fired.revertToPolling else fired
      else block
  | .tick index =>
      match block.pollers[index]? with
      | none => block
      | some poller =>
          if poller.interval then
            { block with
              pollers := block.pollers.set index
                { poller with requests := poller.requests + 1 } }
          else block
  | .answer index lastBlockNumber =>
      match block.pollers[index]? with
      | none => block
      | some poller =>
          if poller.requests = 0 then block
          else block.onAnswer config index poller lastBlockNumber

end BlockTimeout

end Blocks

section Tasks

/-- What a wait is for: what the race starts of it, its own steps, how its
promise has been settled, and whether it has a timer or an interval. -/
structure Task (μ ℓ ρ : Type) where
  initial : μ
  start : μ → μ
  step : μ → ℓ → μ
  settled : μ → Option (Except Failure ρ)
  active : μ → Bool

variable {ρ : Type}

/-- One call of `waitWithTimeout`: its request and its timer are under way,
the request has failed and its timer is left, the timer has fired before the
answer, or neither is left. -/
inductive Poll
  | waiting
  | failed
  | late
  | finished
  deriving DecidableEq

/-- The promise and the interval of `pollTillDefined`. -/
structure Polling (ρ : Type) where
  interval : Bool := true
  polls : List Poll := [.waiting]
  settled : Option (Except Failure ρ) := none

inductive PollLabel (ρ : Type)
  | tick
  | answer (poll : Nat) (receipt : Except Failure (Option ρ))
  /-- The time limit of a poll, which is the interval, runs out. -/
  | limit (poll : Nat)

namespace Polling

/-- The interval is cleared, and the promise is settled if it was not. -/
def settle (polling : Polling ρ) (result : Except Failure ρ) : Polling ρ :=
  { polling with
    interval := false
    settled := some (polling.settled.getD result) }

def setPoll (polling : Polling ρ) (index : Nat) (poll : Poll) : Polling ρ :=
  { polling with polls := polling.polls.set index poll }

def onAnswer (polling : Polling ρ) (index : Nat) :
    Except Failure (Option ρ) → Polling ρ
  -- The call in the `try` is not awaited, so its failure is not caught.
  | .error failure =>
      (polling.setPoll index .failed).settle (.error failure)
  | .ok none => polling.setPoll index .finished
  | .ok (some receipt) => (polling.setPoll index .finished).settle (.ok receipt)

def step (polling : Polling ρ) : PollLabel ρ → Polling ρ
  | .tick =>
      if polling.interval then
        { polling with polls := polling.polls ++ [.waiting] }
      else polling
  | .answer index receipt =>
      match polling.polls[index]? with
      | some .waiting => polling.onAnswer index receipt
      | some .late => polling.setPoll index .finished
      | _ => polling
  | .limit index =>
      match polling.polls[index]? with
      | some .waiting => polling.setPoll index .late
      | some .failed => polling.setPoll index .finished
      | _ => polling

/-- The poll has a timer. -/
def timed (poll : Poll) : Bool :=
  poll == .waiting || poll == .failed

end Polling

/-- `pollTillDefined` of `getTransactionReceipt` -/
def receiptPolling (ρ : Type) : Task (Polling ρ) (PollLabel ρ) ρ where
  initial := {}
  start := id
  step := Polling.step
  settled := Polling.settled
  active polling := polling.interval || polling.polls.any Polling.timed

inductive Sending
  | idle
  | requested
  | settled (result : Except Failure String)

/-- The promise of `sendTransactionFunc`. -/
def sending : Task Sending (Except Failure String) String where
  initial := .idle
  start _ := .requested
  step
    | .requested, result => .settled result
    | state, _ => state
  settled
    | .settled result => some result
    | _ => none
  active _ := false

end Tasks

section Races

variable {μ ℓ ρ : Type}

inductive Outcome (ρ : Type)
  | resolved (value : ρ)
  | failed (failure : Failure)
  | timedOut
  | blockTimedOut

/-- How far `rejectIfBlockTimeout` has come. -/
inductive Setup
  | requestingBlockNumber
  | subscribing (starterBlockNumber : Int)
  | racing (block : BlockTimeout)

/-- A call of `waitForTransactionReceipt` or of `trySendTransaction`. -/
structure Call (μ ρ : Type) where
  main : μ
  timer : Bool := true
  timedOut : Bool := false
  setup : Setup := .requestingBlockNumber
  outcome : Option (Outcome ρ) := none

inductive Label (ℓ : Type)
  | main (label : ℓ)
  | blockNumber (starterBlockNumber : Except Failure Int)
  | subscribed
  | subscribeFailed
  | timeout
  | block (label : BlockLabel)

namespace Call

def initial (task : Task μ ℓ ρ) : Call μ ρ :=
  { main := task.initial }

/-- The setup is over, and the race starts. -/
def enter (task : Task μ ℓ ρ) (call : Call μ ρ) (block : BlockTimeout) :
    Call μ ρ :=
  { call with setup := .racing block, main := task.start call.main }

def advance (task : Task μ ℓ ρ) (config : Config) (call : Call μ ρ) :
    Label ℓ → Call μ ρ
  | .main label => { call with main := task.step call.main label }
  | .blockNumber answer =>
      match call.setup, call.outcome, answer with
      | .requestingBlockNumber, none, .error failure =>
          { call with outcome := some (.failed failure) }
      | .requestingBlockNumber, none, .ok number =>
          if config.useSubscription then
            { call with setup := .subscribing number }
          else call.enter task (resolveByPolling number)
      | _, _, _ => call
  | .subscribed =>
      match call.setup with
      | .subscribing number => call.enter task (resolveBySubscription number)
      | _ => call
  | .subscribeFailed =>
      match call.setup with
      | .subscribing number => call.enter task (resolveByPolling number)
      | _ => call
  | .timeout =>
      if call.timer then { call with timer := false, timedOut := true }
      else call
  | .block label =>
      match call.setup with
      | .racing block =>
          { call with setup := .racing (block.step config label) }
      | _ => call

/-- How the race is settled: of several promises, the first in its order. -/
def winner (task : Task μ ℓ ρ) (call : Call μ ρ) (block : BlockTimeout) :
    Option (Outcome ρ) :=
  match task.settled call.main with
  | some (.ok value) => some (.resolved value)
  | some (.error failure) => some (.failed failure)
  | none =>
      if call.timedOut then some .timedOut
      else if block.rejected then some .blockTimedOut
      else none

/-- The race is settled if it can be, and the `finally` block runs. -/
def race (task : Task μ ℓ ρ) (call : Call μ ρ) : Call μ ρ :=
  match call.outcome, call.setup with
  | none, .racing block =>
      match call.winner task block with
      | none => call
      | some outcome =>
          { call with
            outcome := some outcome
            timer := false
            setup := .racing block.clean }
  | _, _ => call

def step (task : Task μ ℓ ρ) (config : Config) (call : Call μ ρ)
    (label : Label ℓ) : Call μ ρ :=
  (call.advance task config label).race task

end Call

end Races

end Web3Js.Send.Waiting
