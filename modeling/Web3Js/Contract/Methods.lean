import Web3Js.Contract.Interface
import Web3Js.Lib.OrderedMap

/-!
# The methods of a contract

An assignment of an interface builds the methods anew, under three keys each,
but the table of overloads is never emptied.  A method remembers the function
that it was made for, and looks up all overloads of that function's name when
it is called.
-/

namespace Web3Js

open Contract (AbiFunctionFragment)

structure Contract where
  /-- The functions that were ever assigned, by name. -/
  overloadedMethodAbis : OrderedMap String (List AbiFunctionFragment) := ∅
  /-- The function that the method under a key was made for. -/
  methods : OrderedMap String AbiFunctionFragment := ∅

namespace Contract

open Web3Js.Abi (Value)

section Assignment

variable (library : AbiLibrary)

/-- The overloads recorded under a name. -/
def overloads (contract : Contract) (name : String) :
    List AbiFunctionFragment :=
  (contract.overloadedMethodAbis.get? name).getD []

/-- The fragment with its signature, as the interface keeps it. -/
def AbiFunctionFragment.sign (abi : AbiFunctionFragment) :
    Except String AbiFunctionFragment := do
  let signature ← abi.selector library
  .ok { abi with signature }

/-- Record a function and set its method. -/
def setFunction (contract : Contract) (methodName : String)
    (abi : AbiFunctionFragment) : Contract :=
  { contract with
    overloadedMethodAbis := contract.overloadedMethodAbis.set abi.name
      (contract.overloads abi.name ++ [abi])
    methods := ((contract.methods.set abi.name abi).set methodName abi).set
      abi.signature abi }

/-- One round of the loop over the interface; an event has its own table. -/
def setFragment (contract : Contract) :
    AbiFragment → Except String Contract
  | .function abi => do
      let methodName ← abi.methodName
      let signed ← abi.sign library
      .ok (contract.setFunction methodName signed)
  | .event name inputs => do
      let eventName ← jsonInterfaceMethodToString name inputs
      let _ ← Tx.sha3Raw library.cryptography eventName
      .ok contract
  | .error .. | .other => .ok contract

/-- The loop, which leaves what it has done where a round throws. -/
def setFragments (contract : Contract) :
    List AbiFragment → Contract × Option String
  | [] => (contract, none)
  | fragment :: fragments =>
      match contract.setFragment library fragment with
      | .ok next => next.setFragments fragments
      | .error problem => (contract, some problem)

/-- `_parseAndSetJsonInterface` -/
def parseAndSetJsonInterface (contract : Contract)
    (abis : List AbiFragment) : Contract × Option String :=
  ({ contract with methods := ∅ } : Contract).setFragments library abis

/-- The contract after several assignments, of which some may throw. -/
def assignAll (contract : Contract)
    (interfaces : List (List AbiFragment)) : Contract :=
  interfaces.foldl
    (fun contract abis => (contract.parseAndSetJsonInterface library abis).1)
    contract

end Assignment

section Calls

variable (library : AbiLibrary)

def AbiFunctionFragment.inputList (abi : AbiFunctionFragment) :
    List AbiParameter :=
  abi.inputs.getD []

def getAbiParams (abi : AbiFunctionFragment) (params : List Value) :
    Except String (List Value) :=
  match transformJsonDataToAbiFormat abi.inputList params with
  | .ok values => .ok values
  | .error message =>
      .error ("Invalid parameters for method " ++ abi.name ++ ": " ++ message)

/-- One round of the loop over the overloads. -/
def tryOverload (abi : AbiFunctionFragment) (params : List Value) :
    Except String (List Value) := do
  let abiParams ← getAbiParams abi params
  match abi.inputs with
  | some inputs => do
      library.validate inputs abiParams
      .ok abiParams
  | none => .error "Cannot read properties of undefined (reading 'length')"

def firstOverload (params : List Value) : List AbiFunctionFragment →
    Except String (AbiFunctionFragment × List Value)
  | [] => .error "Web3 validator found errors"
  | abi :: abis =>
      match tryOverload library abi params with
      | .ok abiParams => .ok (abi, abiParams)
      | .error _ => firstOverload params abis

/-- Calling the method that was made for a function: the function that is
used, and its arguments. -/
def callMethod (contract : Contract) (abi : AbiFunctionFragment)
    (params : List Value) : Except String (AbiFunctionFragment × List Value) :=
  match contract.overloads abi.name with
  | [] => .error "Cannot read properties of undefined (reading 'inputs')"
  | first :: others =>
      let arrayOfAbis := (first :: others).filter fun overload =>
        overload.inputList.length = params.length
      if others = [] ∨ arrayOfAbis = [] then do
        let abiParams ← getAbiParams first params
        library.validate abi.inputList abiParams
        .ok (first, abiParams)
      else firstOverload library params arrayOfAbis

def encodeMethodABI (abi : AbiFunctionFragment) (args : List Value) :
    Except String String :=
  if abi.inputList.length ≠ args.length then
    .error ("The number of arguments is not matching the methods required " ++
      "number. You need to pass " ++ toString abi.inputList.length ++
      " arguments.")
  else do
    let encoded ← library.encodeParameters abi.inputList args
    let params := Tx.replaceFirst ['0', 'x'] [] encoded.toList
    let signature ← abi.selector library
    .ok (signature ++ String.ofList params)

/-- `methods[key](...params).encodeABI()`, for the function of the key. -/
def encodeABI (contract : Contract) (abi : AbiFunctionFragment)
    (params : List Value) : Except String String := do
  let (methodAbi, abiParams) ← contract.callMethod library abi params
  encodeMethodABI library methodAbi abiParams

end Calls

end Contract

end Web3Js
