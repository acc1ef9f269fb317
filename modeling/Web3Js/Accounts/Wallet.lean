import Mathlib.Data.List.InsertIdx
import Web3Js.Lib.Invariant
import Web3Js.Lib.PositionIndex

/-!
# The wallet of accounts

A wallet is an array of accounts with a map from lower-case addresses to
positions.  Array and map are written one after the other by every operation.
After any run of operations the map indexes the array, whatever the account
provider answers.
-/

namespace Web3Js.Accounts

universe u v

variable {Account : Type u} {Failure : Type v}

/-- `undefined` stands at the holes of the array. -/
structure Wallet (Account : Type u) where
  elements : List (Option Account)
  addressMap : OrderedMap String Nat

/-- What a wallet needs to know about addresses and seeds. -/
structure AccountReading (Account : Type u) (Failure : Type v) where
  address : Account → String
  toLowerCase : String → String
  seedToAccount : String → Except Failure Account

def AccountReading.key (reading : AccountReading Account Failure)
    (account : Account) : String :=
  reading.toLowerCase (reading.address account)

inductive AddressOrIndex where
  | address (text : String)
  | index (position : Nat)
  /-- A number that is no array index, such as `-1` or `0.5`. -/
  | otherNumber
deriving DecidableEq

namespace Wallet

variable (reading : AccountReading Account Failure)

def new : Wallet Account where
  elements := []
  addressMap := ∅

def length (wallet : Wallet Account) : Nat := wallet.elements.length

/-- Reading beyond the end and reading a hole give `undefined`. -/
def element (wallet : Wallet Account) (position : Nat) : Option Account :=
  (wallet.elements[position]?).join

def get (wallet : Wallet Account) : AddressOrIndex → Option Account
  | .address text =>
      match wallet.addressMap.get? (reading.toLowerCase text) with
      | some index => wallet.element index
      | none => none
  | .index position => wallet.element position
  | .otherNumber => none

/-- `elements[index] = account`, which leaves holes behind the end. -/
def setElement (elements : List (Option Account)) (index : Nat)
    (account : Account) : List (Option Account) :=
  if index < elements.length then elements.set index (some account)
  else elements ++ List.replicate (index - elements.length) none ++
    [some account]

def addAccount (wallet : Wallet Account) (account : Account) :
    Wallet Account :=
  let index := wallet.length
  let existAccount := wallet.get reading (.address (reading.address account))
  let index :=
    if existAccount.isSome then
      (wallet.addressMap.get? (reading.key account)).getD index
    else index
  { elements := setElement wallet.elements index account
    addressMap := wallet.addressMap.set (reading.key account) index }

/-- An account, or a seed that the account provider turns into one. -/
def add (wallet : Wallet Account) :
    Account ⊕ String → Wallet Account × Option Failure
  | .inl account => (wallet.addAccount reading account, none)
  | .inr seed =>
      match reading.seedToAccount seed with
      | .ok account => (wallet.addAccount reading account, none)
      | .error failure => (wallet, some failure)

/-- One answer of the account provider for every account to create.  The
first one that throws ends the loop. -/
def create (wallet : Wallet Account) :
    List (Except Failure Account) → Wallet Account × Option Failure
  | [] => (wallet, none)
  | .ok account :: created =>
      create (wallet.addAccount reading account) created
  | .error failure :: _ => (wallet, some failure)

def rebuildFrom :
    List (Option Account) → (position : Nat) → OrderedMap String Nat →
      OrderedMap String Nat
  | [], _, map => map
  | some account :: elements, position, map =>
      rebuildFrom elements (position + 1)
        (map.set (reading.key account) position)
  | none :: elements, position, map =>
      rebuildFrom elements (position + 1) map

def rebuildAddressMap (wallet : Wallet Account) : Wallet Account :=
  { wallet with addressMap := rebuildFrom reading wallet.elements 0 ∅ }

/-- `this.splice(index, 1)` -/
def splice (wallet : Wallet Account) (index : Nat) : Wallet Account :=
  { wallet with elements := wallet.elements.eraseIdx index }

def remove (wallet : Wallet Account) :
    AddressOrIndex → Wallet Account × Bool
  | .address text =>
      match wallet.addressMap.get? (reading.toLowerCase text) with
      | none => (wallet, false)
      | some index => ((wallet.splice index).rebuildAddressMap reading, true)
  | .index position =>
      if (wallet.element position).isSome then
        ((wallet.splice position).rebuildAddressMap reading, true)
      else (wallet, false)
  | .otherNumber => (wallet, false)

def clear (_ : Wallet Account) : Wallet Account where
  elements := []
  addressMap := ∅

/-- `Promise.all` over the keystores: all accounts, or the failure of one
of them. -/
def decrypted : List (Except Failure Account) → Except Failure (List Account)
  | [] => .ok []
  | .error failure :: _ => .error failure
  | .ok account :: results => (decrypted results).map (account :: ·)

/-- What `decrypt` does once all keystores have been tried; before, it leaves
the wallet alone. -/
def decrypt (wallet : Wallet Account)
    (results : List (Except Failure Account)) :
    Wallet Account × Option Failure :=
  match decrypted results with
  | .ok accounts => (accounts.foldl (addAccount reading) wallet, none)
  | .error failure => (wallet, some failure)

end Wallet

inductive WalletAction (Account : Type u) (Failure : Type v) where
  | create (created : List (Except Failure Account))
  | add (account : Account ⊕ String)
  | remove (addressOrIndex : AddressOrIndex)
  | clear
  | decrypt (results : List (Except Failure Account))

namespace Wallet

variable (reading : AccountReading Account Failure)

def step (wallet : Wallet Account) :
    WalletAction Account Failure → Wallet Account
  | .create created => (wallet.create reading created).1
  | .add account => (wallet.add reading account).1
  | .remove addressOrIndex => (wallet.remove reading addressOrIndex).1
  | .clear => wallet.clear
  | .decrypt results => (wallet.decrypt reading results).1

/-- The array holds these accounts, without holes, and the map indexes
them by their lower-case addresses. -/
structure Holds (wallet : Wallet Account) (accounts : List Account) :
    Prop where
  elements : wallet.elements = accounts.map some
  indexes : Indexes reading.key accounts wallet.addressMap

section Operations

variable {reading} {wallet : Wallet Account} {accounts : List Account}

theorem Holds.length (holds : wallet.Holds reading accounts) :
    wallet.length = accounts.length := by
  rw [Wallet.length, holds.elements, List.length_map]

theorem Holds.element (holds : wallet.Holds reading accounts)
    (position : Nat) : wallet.element position = accounts[position]? := by
  rw [Wallet.element, holds.elements, List.getElem?_map]
  cases accounts[position]? with
  | none => rfl
  | some account => rfl

/-- Looking up an address is searching the accounts. -/
theorem Holds.get_address (holds : wallet.Holds reading accounts)
    (text : String) :
    wallet.get reading (.address text) =
      accounts.find? (decide <| reading.key · = reading.toLowerCase text) := by
  rw [← holds.indexes.find_eq, get]
  cases wallet.addressMap.get? (reading.toLowerCase text) with
  | none => rfl
  | some index => exact holds.element index

theorem setElement_end (accounts : List Account) (account : Account) :
    setElement (accounts.map some) accounts.length account =
      (accounts ++ [account]).map some := by
  rw [setElement, if_neg (by rw [List.length_map]; exact Nat.lt_irrefl _),
    List.length_map, Nat.sub_self, List.replicate_zero, List.append_nil,
    List.map_append, List.map_singleton]

theorem setElement_inside {index : Nat} (inRange : index < accounts.length)
    (account : Account) :
    setElement (accounts.map some) index account =
      (accounts.set index account).map some := by
  rw [setElement, if_pos (by rw [List.length_map]; exact inRange),
    List.map_set]

theorem Holds.addAccount (holds : wallet.Holds reading accounts)
    (account : Account) :
    ∃ grown, (wallet.addAccount reading account).Holds reading grown := by
  have looked := holds.get_address (reading.address account)
  cases found : wallet.addressMap.get? (reading.key account) with
  | none =>
      have missing : wallet.get reading
          (.address (reading.address account)) = none := by
        change wallet.addressMap.get?
          (reading.toLowerCase (reading.address account)) = none at found
        rw [get, found]
      refine ⟨accounts ++ [account], ?_, ?_⟩
      · change setElement wallet.elements _ account = _
        rw [missing, holds.elements, holds.length]
        exact setElement_end accounts account
      · change Indexes reading.key _ (wallet.addressMap.set _ _)
        rw [missing, holds.length]
        exact holds.indexes.append found
  | some index =>
      obtain ⟨old, oldFound, -⟩ := (holds.indexes _ _).mp found
      have present : wallet.get reading
          (.address (reading.address account)) = some old := by
        change wallet.addressMap.get?
          (reading.toLowerCase (reading.address account)) = some index at found
        rw [get, found]
        exact (holds.element index).trans oldFound
      refine ⟨accounts.set index account, ?_, ?_⟩
      · change setElement wallet.elements _ account = _
        rw [present, holds.elements, found]
        exact setElement_inside
          (List.getElem?_eq_some_iff.mp oldFound).1 account
      · change Indexes reading.key _ (wallet.addressMap.set _ _)
        rw [present, found]
        exact holds.indexes.replace found

theorem Holds.create (holds : wallet.Holds reading accounts)
    (created : List (Except Failure Account)) :
    ∃ grown, (wallet.create reading created).1.Holds reading grown := by
  induction created generalizing wallet accounts with
  | nil => exact ⟨accounts, holds⟩
  | cons outcome created induction =>
      cases outcome with
      | ok account =>
          obtain ⟨grown, added⟩ := holds.addAccount account
          exact induction added
      | error failure => exact ⟨accounts, holds⟩

theorem Holds.add (holds : wallet.Holds reading accounts)
    (account : Account ⊕ String) :
    ∃ grown, (wallet.add reading account).1.Holds reading grown := by
  cases account with
  | inl account => exact holds.addAccount account
  | inr seed =>
      simp only [Wallet.add]
      cases reading.seedToAccount seed with
      | ok account => exact holds.addAccount account
      | error failure => exact ⟨accounts, holds⟩

/-- Without holes, the array is rebuilt as by the library. -/
theorem rebuildFrom_map (accounts : List Account) (position : Nat)
    (map : OrderedMap String Nat) :
    rebuildFrom reading (accounts.map some) position map =
      indexFrom reading.key accounts position map := by
  induction accounts generalizing position map with
  | nil => rfl
  | cons account accounts induction => exact induction _ _

/-- Removing renumbers the accounts behind the removed one. -/
theorem Holds.removed (holds : wallet.Holds reading accounts)
    (index : Nat) :
    ((wallet.splice index).rebuildAddressMap reading).Holds reading
      (accounts.eraseIdx index) := by
  have elements : (wallet.splice index).elements =
      (accounts.eraseIdx index).map some := by
    rw [splice, holds.elements, List.eraseIdx_map]
  refine ⟨elements, ?_⟩
  rw [rebuildAddressMap, elements, rebuildFrom_map]
  apply indexes_of_nodup
  have shorter : (accounts.eraseIdx index).Sublist accounts :=
    List.eraseIdx_sublist accounts index
  exact holds.indexes.nodup.sublist (shorter.map reading.key)

theorem Holds.remove (holds : wallet.Holds reading accounts)
    (addressOrIndex : AddressOrIndex) :
    ∃ kept, (wallet.remove reading addressOrIndex).1.Holds reading kept := by
  cases addressOrIndex with
  | address text =>
      rw [Wallet.remove]
      cases wallet.addressMap.get? (reading.toLowerCase text) with
      | none => exact ⟨accounts, holds⟩
      | some index => exact ⟨_, holds.removed index⟩
  | index position =>
      rw [Wallet.remove]
      split
      · exact ⟨_, holds.removed position⟩
      · exact ⟨accounts, holds⟩
  | otherNumber => exact ⟨accounts, holds⟩

theorem holds_new : (new : Wallet Account).Holds reading [] :=
  ⟨rfl, Indexes.empty reading.key⟩

theorem Holds.addAll (holds : wallet.Holds reading accounts)
    (added : List Account) :
    ∃ grown, (added.foldl (Wallet.addAccount reading) wallet).Holds reading
      grown := by
  induction added generalizing wallet accounts with
  | nil => exact ⟨accounts, holds⟩
  | cons account added induction =>
      obtain ⟨grown, first⟩ := holds.addAccount account
      exact induction first

theorem Holds.decrypt (holds : wallet.Holds reading accounts)
    (results : List (Except Failure Account)) :
    ∃ grown, (wallet.decrypt reading results).1.Holds reading grown := by
  unfold Wallet.decrypt
  cases decrypted results with
  | ok added => exact holds.addAll added
  | error failure => exact ⟨accounts, holds⟩

theorem Holds.step (holds : wallet.Holds reading accounts)
    (action : WalletAction Account Failure) :
    ∃ next, (wallet.step reading action).Holds reading next := by
  cases action with
  | create created => exact holds.create created
  | add account => exact holds.add account
  | remove addressOrIndex => exact holds.remove addressOrIndex
  | clear => exact ⟨[], holds_new⟩
  | decrypt results => exact holds.decrypt results

theorem holds_run (actions : List (WalletAction Account Failure)) :
    ∃ accounts, (run (step reading) new actions).Holds reading accounts := by
  have preserved : Run.Preserves (step reading) fun wallet =>
      ∃ accounts, wallet.Holds reading accounts := by
    intro wallet action held
    obtain ⟨accounts, holds⟩ := held
    exact holds.step action
  exact Run.invariant preserved ⟨[], holds_new⟩ actions

theorem decrypted_error (before after : List (Except Failure Account))
    (failure : Failure) :
    ∃ first, decrypted (before ++ .error failure :: after) =
      .error first := by
  induction before with
  | nil => exact ⟨failure, rfl⟩
  | cons result before induction =>
      cases result with
      | error first => exact ⟨first, rfl⟩
      | ok account =>
          obtain ⟨first, rejects⟩ := induction
          refine ⟨first, ?_⟩
          rw [List.cons_append, decrypted, rejects]
          rfl

theorem decrypt_of_failing (wallet : Wallet Account)
    (before after : List (Except Failure Account)) (failure : Failure) :
    ∃ first, wallet.decrypt reading (before ++ .error failure :: after) =
      (wallet, some first) := by
  obtain ⟨first, rejects⟩ := decrypted_error before after failure
  refine ⟨first, ?_⟩
  rw [Wallet.decrypt, rejects]

end Operations

/-- After every run the wallet is an array of accounts with distinct
lower-case addresses; its map finds exactly their positions, reading by
address and by index agree with the array, and decryption that fails leaves
everything as it is. -/
theorem index_invariant (actions : List (WalletAction Account Failure)) :
    ∃ accounts : List Account,
      (run (step reading) new actions).elements = accounts.map some ∧
      (run (step reading) new actions).length = accounts.length ∧
      (accounts.map reading.key).Nodup ∧
      (∀ text position,
        (run (step reading) new actions).addressMap.get? text =
            some position ↔
          ∃ account, accounts[position]? = some account ∧
            reading.toLowerCase (reading.address account) = text) ∧
      (∀ text, (run (step reading) new actions).get reading (.address text) =
        accounts.find?
          (decide <| reading.key · = reading.toLowerCase text)) ∧
      (∀ position, (run (step reading) new actions).get reading
        (.index position) = accounts[position]?) ∧
      ∀ before failure after, ∃ first,
        (run (step reading) new actions).decrypt reading
            (before ++ .error failure :: after) =
          (run (step reading) new actions, some first) := by
  have held : ∃ accounts, (run (step reading) new actions).Holds reading
      accounts := holds_run actions
  obtain ⟨accounts, holds⟩ := held
  refine ⟨accounts, holds.elements, holds.length, holds.indexes.nodup,
    holds.indexes, holds.get_address, holds.element, ?_⟩
  intro before failure after
  exact decrypt_of_failing _ before after failure

end Wallet

end Web3Js.Accounts
