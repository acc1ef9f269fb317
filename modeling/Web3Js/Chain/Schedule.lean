import Web3Js.Lib.Outcome

/-!
# Hardfork schedules

A chain lists its hardforks in the order in which they apply, each at a block
or at a time.  A common object looks up the hardfork of a block, remembers the
one that is set and compares hardforks by their place in the list.
-/

namespace Web3Js.Chain

structure HardforkConfig where
  name : String
  /-- A hardfork without a block number has `null`. -/
  block : Option Nat
  timestamp : Option Nat := none
  forkHash : Option String := none
  deriving DecidableEq

namespace HardforkConfig

/-- Neither its block number is `null` nor its timestamp is missing. -/
def isApplied (hf : HardforkConfig) : Bool :=
  hf.block.isSome || hf.timestamp.isSome

/-- Scheduled after the block or, where one is given, after the timestamp. -/
def comesAfter (blockNumber : Nat) (timestamp : Option Nat)
    (hf : HardforkConfig) : Bool :=
  (match hf.block with
    | some block => decide (blockNumber < block)
    | none => false) ||
  match timestamp, hf.timestamp with
  | some timestamp, some scheduled => decide (timestamp < scheduled)
  | _, _ => false

/-- `timestamp ?? block` -/
def blockOrTime (hf : HardforkConfig) : Option Nat :=
  hf.timestamp.or hf.block

end HardforkConfig

section Lookup

variable (hfs : List HardforkConfig)

/-- The hardfork before `hfIndex`.  Without a timestamp it is the one before
with a block number, and `findIndex` finds `-1` where there is none.  The index
can lie before the first hardfork. -/
def candidate (hfIndex : Nat) (timestamp : Option Nat) : Option Nat :=
  match timestamp with
  | some _ => if hfIndex = 0 then none else some (hfIndex - 1)
  | none =>
      match (hfs.take hfIndex).reverse.findIdx? (·.block.isSome) with
      | some stepBack => some (hfIndex - stepBack - 1)
      | none => some hfIndex

/-- How many hardforks behind the first are scheduled together with it. -/
def scheduledTogether : List HardforkConfig → Nat
  | hf :: next :: hfs =>
      if hf.block = next.block ∧ hf.timestamp = next.timestamp then
        scheduledTogether (next :: hfs) + 1
      else 0
  | _ => 0

def checkTimestamps (hfStartIndex hfIndex : Nat) (timestamp : Option Nat) :
    Except String Unit :=
  match timestamp with
  | none | some 0 => .ok ()
  | some (timestamp + 1) =>
      let timestamp := timestamp + 1
      let minTimeStamp := (hfs.take hfStartIndex).foldl
        (fun acc hf => max (hf.timestamp.getD 0) acc) 0
      let maxTimeStamp := (hfs.drop (hfIndex + 1)).foldl
        (fun acc hf => min (hf.timestamp.getD timestamp) acc) timestamp
      if timestamp < minTimeStamp then
        .error
          "Maximum HF determined by timestamp is lower than the block number HF"
      else if maxTimeStamp < timestamp then
        .error
          "Maximum HF determined by block number is lower than timestamp HF"
      else .ok ()

end Lookup

def getHardforkByBlockNumber (hardforks : List HardforkConfig)
    (blockNumber : Nat) (timestamp : Option Nat) : Except String String :=
  let hfs := hardforks.filter HardforkConfig.isApplied
  let noHardfork := "Cannot read properties of undefined (reading 'name')"
  match hfs.findIdx? (HardforkConfig.comesAfter blockNumber timestamp) with
  | some 0 => .error "Must have at least one hardfork at block 0"
  | found =>
      match candidate hfs (found.getD hfs.length) timestamp with
      | none => .error noHardfork
      | some hfStartIndex => do
          let hfIndex := hfStartIndex +
            scheduledTogether (hfs.drop hfStartIndex)
          checkTimestamps hfs hfStartIndex hfIndex timestamp
          match hfs[hfIndex]? with
          | some hf => .ok hf.name
          | none => .error noHardfork

/-- Where a name occurs last. -/
def lastPosition (name : String) : List HardforkConfig → Option Nat
  | [] => none
  | hf :: hfs =>
      match lastPosition name hfs with
      | some position => some (position + 1)
      | none => if hf.name = name then some 0 else none

structure Common where
  hardforks : List HardforkConfig
  /-- The names of `HARDFORK_CHANGES`. -/
  changes : List String
  hardfork : String
  deriving DecidableEq

namespace Common

variable (common : Common)

/-- A common object of a chain, with the default hardfork set. -/
def new (hardforks : List HardforkConfig) (defaultHardfork : Option String) :
    Common where
  hardforks := hardforks
  changes := hardforks.map (·.name)
  hardfork := defaultHardfork.getD "zond"

def setHardfork (hardfork : String) : Except String Common :=
  if hardfork ∈ common.changes then .ok { common with hardfork }
  else .error ("Hardfork with name " ++ hardfork ++ " not supported")

def setHardforkByBlockNumber (blockNumber : Nat) (timestamp : Option Nat) :
    Except String Common :=
  getHardforkByBlockNumber common.hardforks blockNumber timestamp >>=
    common.setHardfork

/-- `_getHardfork` -/
def getHardfork (hardfork : String) : Option HardforkConfig :=
  common.hardforks.find? (·.name = hardfork)

def hardforkBlock (hardfork : Option String) : Option Nat :=
  (common.getHardfork (hardfork.getD common.hardfork)).bind (·.block)

def hardforkIsActiveOnBlock (hardfork : Option String) (blockNumber : Nat) :
    Bool :=
  match common.hardforkBlock hardfork with
  | some hfBlock => decide (hfBlock ≠ 0 ∧ hfBlock ≤ blockNumber)
  | none => false

def hardforkGteHardfork (hardfork1 : Option String) (hardfork2 : String) :
    Bool :=
  match lastPosition (hardfork1.getD common.hardfork) common.hardforks,
      lastPosition hardfork2 common.hardforks with
  | some posHf1, some posHf2 => decide (posHf2 ≤ posHf1)
  | _, _ => false

def gteHardfork (hardfork : String) : Bool :=
  common.hardforkGteHardfork none hardfork

def nextHardforkBlockOrTimestamp (hardfork : Option String) : Option Nat := do
  let hfIndex ← common.hardforks.findIdx?
    (·.name = hardfork.getD common.hardfork)
  let hf ← common.hardforks[hfIndex]?
  let nextHf ← (common.hardforks.drop (hfIndex + 1)).find? fun next =>
    next.blockOrTime.isSome && decide (next.blockOrTime ≠ hf.blockOrTime)
  nextHf.blockOrTime

end Common

end Web3Js.Chain
