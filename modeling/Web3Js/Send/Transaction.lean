import Web3Js.Send.Events

/-!
# Sending a transaction

`sendTransaction` awaits one step after the other and settles the promise
through two helpers that let only the first settlement through.  What the
awaited steps come to and what the listeners do is given from outside.
-/

namespace Web3Js.Send

structure Options where
  ignoreGasPricing : Bool := false
  checkRevertBeforeSending : Bool := true
  /-- What the resolver does with the receipt, where there is one. -/
  transactionResolver : Option (Except Failure Unit) := none

/-- The outcomes of the steps, and what the code reads besides them. -/
structure Steps where
  formatInputTransaction : Except Failure Unit
  /-- A fee of the transaction is missing. -/
  feesMissing : Bool
  getTransactionGasPricing : Except Failure Unit
  /-- The reason for which the call would be reverted. -/
  getRevertReason : Except Failure (Option String)
  /-- The error that is made of the reason. -/
  revertError : Except Failure Failure
  /-- Whether the wallet has an account for the sender. -/
  walletAccount : Except Failure Bool
  signTransaction : Except Failure Unit
  trySendTransaction : Except Failure String
  waitForTransactionReceipt : Except Failure Receipt
  /-- The error that is made of a receipt of failure. -/
  receiptError : Except Failure Failure
  supportsSubscriptions : Except Failure Bool
  handleRevert : Bool
  /-- The error that the handler asks for. -/
  handlerError : Except Failure Failure

/-- Which events have listeners, and which emissions throw. -/
structure Listeners where
  attached : EventName → Bool
  throws : EventName → Option Failure

/-- A listener of the error event throws when it is called. -/
def Listeners.ErrorThrows (listeners : Listeners) : Prop :=
  listeners.attached .error = true ∧ listeners.throws .error ≠ none

abbrev Run := Program Failure State

section Emitting

variable (listeners : Listeners)

def record (entry : Entry) : Run Unit := modify (State.record · entry)

def emit (event : EventName) : Run Unit := do
  record (.emitted event)
  match listeners.throws event with
  | some failure => do
      record (.listenerThrew event)
      throw failure
  | none => pure ()

/-- An event is emitted where it has listeners. -/
def emitAttached (event : EventName) : Run Unit :=
  if listeners.attached event then emit listeners event else pure ()

def succeedOnce : Run Unit := do
  let state ← get
  if state.settled then pure ()
  else do
    modify ({ · with settled := true })
    record .resolved

/-- `failOnce`, with or without an event. -/
def failOnce (reported : Bool) : Run Unit := do
  let state ← get
  if state.settled then pure ()
  else do
    modify ({ · with settled := true })
    if reported then do
      emitAttached listeners .error
      record .rejected
    else record .rejected

end Emitting

/-- The error event goes with a failure of these classes. -/
def Failure.isReported : Failure → Bool
  | .other _ => false
  | _ => true

section Sending

variable (options : Options) (steps : Steps) (listeners : Listeners)

def priceGas : Run Unit :=
  if !options.ignoreGasPricing && steps.feesMissing then
    Program.await steps.getTransactionGasPricing
  else pure ()

/-- Whether the call would be reverted. -/
def checkRevert : Run Bool :=
  if options.checkRevertBeforeSending then do
    let reason ← Program.await steps.getRevertReason
    match reason with
    | some _ => do
        let _ ← Program.await steps.revertError
        pure true
    | none => pure false
  else pure false

def send : Run String := do
  let wallet ← Program.await steps.walletAccount
  if wallet then do
    Program.await steps.signTransaction
    Program.await steps.trySendTransaction
  else Program.await steps.trySendTransaction

def settle (receipt : Receipt) : Run Unit :=
  match options.transactionResolver with
  | some resolver => do
      Program.await resolver
      succeedOnce
  | none =>
      if receipt.status = some (.bigint 0) then do
        let _ ← Program.await steps.receiptError
        failOnce listeners true
      else succeedOnce

/-- A number that counts as true. -/
def isBlockNumber (number : Numbers) : Bool :=
  number ≠ .number 0 && number ≠ .bigint 0 && number ≠ .text "" &&
    number ≠ .fraction "NaN"

def watchTransactionForConfirmations (receipt : Receipt) : Run Unit :=
  if receipt.blockHash.isNone then
    throw (.other "Receipt missing or blockHash null")
  else if !isBlockNumber receipt.blockNumber then
    throw (.other "Receipt missing block number")
  else do
    emit listeners .confirmation
    let subscribes ← Program.await steps.supportsSubscriptions
    if subscribes then
      modify ({ · with watch := some { receipt, heads := some {} } })
    else
      modify ({ · with watch := some { receipt, pollers := [{}] } })

def watchConfirmations (receipt : Receipt) : Run Unit :=
  if listeners.attached .confirmation then
    watchTransactionForConfirmations steps listeners receipt
  else pure ()

def sendAndWait : Run Unit := do
  emitAttached listeners .sending
  let _transactionHash ← send steps
  emitAttached listeners .sent
  emitAttached listeners .transactionHash
  let transactionReceipt ← Program.await steps.waitForTransactionReceipt
  emitAttached listeners .receipt
  settle options steps listeners transactionReceipt
  watchConfirmations steps listeners transactionReceipt

/-- The block of `execute` whose failures are handled. -/
def attempt : Run Unit := do
  Program.await steps.formatInputTransaction
  priceGas options steps
  let reverted ← checkRevert options steps
  if reverted then failOnce listeners true
  else sendAndWait options steps listeners

def normalize (failure : Failure) : Run Failure :=
  if failure = .contractExecution ∧ steps.handleRevert then
    Program.await steps.handlerError
  else pure failure

def handle (failure : Failure) : Run Unit := do
  let normalized ← normalize steps failure
  failOnce listeners normalized.isReported

def execute : Run Unit :=
  tryCatch (attempt options steps listeners) (handle steps listeners)

/-- `execute` with its last resort: whatever it throws rejects the promise. -/
def sendTransaction : Run Unit :=
  tryCatch (execute options steps listeners) fun _ => failOnce listeners false

/-- The state in which `sendTransaction` has come to its end. -/
def sent : State :=
  (Program.exec (sendTransaction options steps listeners) {}).2

end Sending

end Web3Js.Send
