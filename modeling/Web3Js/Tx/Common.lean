import Web3Js.Numbers

/-!
# Chain and hardfork parameters

A common object carries the id of its chain, the names of the chain's
hardforks and the hardfork that is set.  The only hardfork with a
specification is `zond`; a parameter is the one of the last hardfork up to the
set one, and zero on a chain without hardforks.
-/

namespace Web3Js.Tx

/-- The parameters that transactions read, of the topics `vm` and
`gasPrices`. -/
inductive Param
  | maxInitCodeSize
  | tx
  | txCreation
  | txDataZero
  | txDataNonZero
  | accessListStorageKeyCost
  | accessListAddressCost
  | initCodeWordCost
  deriving DecidableEq

/-- The specification of the `zond` hardfork. -/
def zond : Param → Nat
  | .maxInitCodeSize => 49152
  | .tx => 21000
  | .txCreation => 32000
  | .txDataZero => 4
  | .txDataNonZero => 16
  | .accessListStorageKeyCost => 1900
  | .accessListAddressCost => 2400
  | .initCodeWordCost => 2

structure Common where
  chainId : Nat
  hardforks : List String
  hardfork : String
  deriving DecidableEq

namespace Common

def mainnetHardforks : List String := ["zond"]

/-- `new Common({ chain: Chain.Mainnet, hardfork: 'zond' })` -/
def mainnet : Common where
  chainId := 1
  hardforks := mainnetHardforks
  hardfork := "zond"

def isSupportedChainId (chainId : Nat) : Bool := chainId == 1

/-- `Common.custom` over the main chain. -/
def custom (chainId : Nat) : Common where
  chainId := chainId
  hardforks := mainnetHardforks
  hardfork := "zond"

/-- The loop over the changes of the hardforks; one without a specification
throws. -/
def paramOfChanges (param : Param) (hardfork : String) :
    (changes : List String) → (value : Nat) → Except String Nat
  | [], value => .ok value
  | name :: changes, _ =>
      if name = "zond" then
        if name = hardfork then .ok (zond param)
        else paramOfChanges param hardfork changes (zond param)
      else .error "Cannot use 'in' operator to search for 'qips' in undefined"

def param (common : Common) (param : Param) : Except String Nat :=
  paramOfChanges param common.hardfork common.hardforks 0

@[simp] theorem param_custom (chainId : Nat) (param : Param) :
    (custom chainId).param param = .ok (zond param) := by
  simp [Common.param, custom, mainnetHardforks, paramOfChanges]

@[simp] theorem param_mainnet (param : Param) :
    mainnet.param param = .ok (zond param) := by
  simp [Common.param, mainnet, mainnetHardforks, paramOfChanges]

end Common

/-- The limit on init code; a limit of zero is none. -/
def checkMaxInitCodeSize (common : Common) (length : Nat) :
    Except String Unit := do
  let maxInitCodeSize ← common.param .maxInitCodeSize
  if maxInitCodeSize ≠ 0 ∧ maxInitCodeSize < length then
    .error "the initcode size of this transaction is too large"
  else
    .ok ()

end Web3Js.Tx
