import Web3Js.Accounts.Sealing
import Web3Js.Accounts.Wallet

/-!
# Keeping a wallet

A wallet is stored as the keystores of its accounts, in their order, and loaded
by opening all of them and adding the accounts.  Whatever has been done to the
wallet before, loading what was stored fills an empty wallet with the same
accounts and leaves the wallet itself as it is.
-/

namespace Web3Js.Accounts

universe u v

open Web3Js.Core (Value)
open Tx (SeedInput WalletPackage Web3Account)

/-! ## Adding accounts -/

namespace Wallet

theorem decrypted_map_ok {Account : Type u} {Failure : Type v}
    (accounts : List Account) :
    decrypted (accounts.map .ok) =
      (.ok accounts : Except Failure (List Account)) := by
  induction accounts with
  | nil => rfl
  | cons account accounts induction =>
      rw [List.map_cons, decrypted, induction]
      rfl

section Adding

variable {Account : Type u} {Failure : Type v}
  {reading : AccountReading Account Failure} {wallet : Wallet Account}
  {accounts : List Account}

/-- Adding an account again changes nothing. -/
theorem Holds.addAccount_member (holds : wallet.Holds reading accounts)
    {account : Account} (member : account ∈ accounts) :
    wallet.addAccount reading account = wallet := by
  obtain ⟨index, isAt⟩ := List.getElem?_of_mem member
  have found : wallet.addressMap.get? (reading.key account) = some index :=
    (holds.indexes _ _).mpr ⟨account, isAt, rfl⟩
  have present : wallet.get reading (.address (reading.address account)) =
      some account := by
    change wallet.addressMap.get?
      (reading.toLowerCase (reading.address account)) = some index at found
    rw [get, found]
    exact (holds.element index).trans isAt
  obtain ⟨inRange, element⟩ := List.getElem?_eq_some_iff.mp isAt
  have elements : setElement wallet.elements index account =
      wallet.elements := by
    rw [holds.elements, setElement_inside inRange, ← element,
      List.set_getElem_self]
  rw [Wallet.addAccount]
  rw [present, found, if_pos Option.isSome_some, Option.getD_some, elements,
    OrderedMap.set_eq_self found]

theorem Holds.addAll_members (holds : wallet.Holds reading accounts)
    {added : List Account} (members : ∀ account ∈ added, account ∈ accounts) :
    added.foldl (Wallet.addAccount reading) wallet = wallet := by
  induction added with
  | nil => rfl
  | cons account added induction =>
      rw [List.foldl_cons,
        holds.addAccount_member (members account List.mem_cons_self)]
      exact induction fun other later =>
        members other (List.mem_cons_of_mem _ later)

theorem Holds.addAccount_fresh (holds : wallet.Holds reading accounts)
    {account : Account} (fresh : reading.key account ∉
      accounts.map reading.key) :
    (wallet.addAccount reading account).Holds reading
      (accounts ++ [account]) := by
  have missing := holds.indexes.absent_iff.mpr fresh
  have unknown : wallet.get reading (.address (reading.address account)) =
      none := by
    change wallet.addressMap.get?
      (reading.toLowerCase (reading.address account)) = none at missing
    rw [get, missing]
  refine ⟨?_, ?_⟩
  · change setElement wallet.elements _ account = _
    rw [unknown, holds.elements, holds.length]
    exact setElement_end accounts account
  · change Indexes reading.key _ (wallet.addressMap.set _ _)
    rw [unknown, holds.length]
    exact holds.indexes.append missing

theorem Holds.addAll_fresh (holds : wallet.Holds reading accounts)
    {added : List Account}
    (distinct : ((accounts ++ added).map reading.key).Nodup) :
    (added.foldl (Wallet.addAccount reading) wallet).Holds reading
      (accounts ++ added) := by
  induction added generalizing wallet accounts with
  | nil =>
      rw [List.append_nil]
      exact holds
  | cons account added induction =>
      have regrouped : accounts ++ account :: added =
          accounts ++ [account] ++ added := by
        rw [List.append_assoc]
        rfl
      have fresh : reading.key account ∉ accounts.map reading.key := by
        intro member
        rw [List.map_append, List.map_cons] at distinct
        exact (List.nodup_append.mp distinct).2.2 _ member _
          List.mem_cons_self rfl
      rw [regrouped] at distinct ⊢
      exact induction (holds.addAccount_fresh fresh) distinct

end Adding

end Wallet

/-! ## Storing -/

/-- The local storage of a browser; a text is kept as the array that it is the
JSON of. -/
abbrev WebStorage := OrderedMap String (List Value)

def defaultKeyName : String := "web3js_wallet"

/-- The key that `getStorage` tries the storage with. -/
def storageTest : String := "__storage_test__"

/-- The storage after an item has been set and removed, whatever its text. -/
def getStorage (storage : WebStorage) : WebStorage :=
  (storage.set storageTest []).erase storageTest

theorem get?_getStorage (storage : WebStorage) {key : String}
    (other : key ≠ storageTest) :
    (getStorage storage).get? key = storage.get? key := by
  rw [getStorage, OrderedMap.get?_erase, if_neg other, OrderedMap.get?_set,
    if_neg other]

/-- What `undefined` becomes in the JSON of an array. -/
def elementJson : Value → Value
  | .undefined => .null
  | element => element

section Storing

variable {Descriptor Wallet : Type} (cryptography : Cryptography)
  (wallets : WalletPackage Descriptor Wallet) (packages : KeystorePackages)

/-- An account that was made from a seed. -/
structure LocalAccount where
  account : Web3Account
  derived : ∃ seed, Tx.seedToAccount cryptography wallets seed = .ok account

def seedToAccountWithContext (seed : SeedInput) :
    Except KeystoreError (LocalAccount cryptography wallets) :=
  match made : Tx.seedToAccount cryptography wallets seed with
  | .ok account => .ok ⟨account, seed, made⟩
  | .error problem => .error (.other problem)

theorem derived_of_decrypt {json : Value} {password : Password}
    {account : Web3Account}
    (opened : decrypt cryptography wallets packages json password =
      .ok account) :
    ∃ seed, Tx.seedToAccount cryptography wallets seed = .ok account := by
  obtain ⟨_, _, _, _, _, _, seed, _, _, -, -, -, -, -, -, -, -, -, -,
    isAccount, -⟩ := decrypt_eq_ok opened
  exact ⟨.bytes seed, mapError_eq_ok.mp isAccount⟩

def decryptObject (json : Value) (password : Password) :
    Except KeystoreError (LocalAccount cryptography wallets) :=
  match opened : decrypt cryptography wallets packages json password with
  | .ok account => .ok ⟨account, derived_of_decrypt _ _ _ opened⟩
  | .error problem => .error problem

/-- `decrypt` as the accounts of a context offer it, for keystores that are no
text. -/
def decryptWithContext (keystore : Value) (password : Password) :
    Except KeystoreError (LocalAccount cryptography wallets) :=
  match keystore with
  | .undefined => .error (.other
      "Cannot read properties of undefined (reading 'toLowerCase')")
  | json => decryptObject cryptography wallets packages json password

def contextReading :
    AccountReading (LocalAccount cryptography wallets) KeystoreError where
  address account := account.account.address
  toLowerCase text := String.ofList (lowerCase text.toList)
  seedToAccount seed := seedToAccountWithContext cryptography wallets
    (.text seed)

variable {cryptography wallets}

/-- `account.encrypt`; the seed of an account is the extended seed of its
wallet. -/
def LocalAccount.encrypt (draws : Draws)
    (account : LocalAccount cryptography wallets) (password : Password)
    (options : EncryptOptions) : Except KeystoreError KeyStore := do
  let extendedSeed ← hexToBytes account.account.seed
  Accounts.encrypt cryptography wallets packages draws (.bytes extendedSeed)
    password options

def encryptElement (draws : Nat → Draws) (password : Password)
    (options : EncryptOptions) :
    Option (LocalAccount cryptography wallets) × Nat →
      Except KeystoreError Value
  | (none, _) => .ok .undefined
  | (some account, position) =>
      (account.encrypt packages (draws position) password options).map
        KeyStore.toJson

namespace Wallet

/-- All keystores, or the failure of one of the accounts. -/
def encrypt (wallet : Accounts.Wallet (LocalAccount cryptography wallets))
    (draws : Nat → Draws) (password : Password) (options : EncryptOptions) :
    Except KeystoreError (List Value) :=
  wallet.elements.zipIdx.mapM
    (encryptElement packages draws password options)

def decryptKeystores
    (wallet : Accounts.Wallet (LocalAccount cryptography wallets))
    (encryptedWallets : List Value) (password : Password) :
    Accounts.Wallet (LocalAccount cryptography wallets) ×
      Option KeystoreError :=
  wallet.decrypt (contextReading cryptography wallets) (encryptedWallets.map
    (decryptWithContext cryptography wallets packages · password))

def save (wallet : Accounts.Wallet (LocalAccount cryptography wallets))
    (storage : WebStorage) (draws : Nat → Draws) (password : Password)
    (keyName : Option String) (options : EncryptOptions) :
    WebStorage × Option KeystoreError :=
  let storage := getStorage storage
  match wallet.encrypt packages draws password options with
  | .ok keystores =>
      (storage.set (keyName.getD defaultKeyName) (keystores.map elementJson),
        none)
  | .error problem => (storage, some problem)

def load (wallet : Accounts.Wallet (LocalAccount cryptography wallets))
    (storage : WebStorage) (password : Password) (keyName : Option String) :
    WebStorage × Accounts.Wallet (LocalAccount cryptography wallets) ×
      Option KeystoreError :=
  let storage := getStorage storage
  match storage.get? (keyName.getD defaultKeyName) with
  | some keystores =>
      (storage, wallet.decryptKeystores packages keystores password)
  | none => (storage, wallet, none)

end Wallet

variable {packages}

/-! ## One account -/

/-- The wallet of a seed is the wallet of its extended seed. -/
def Reopens (wallets : WalletPackage Descriptor Wallet) : Prop :=
  ∀ seed wallet, wallets.newWalletFromExtendedSeed seed = .ok wallet →
    wallets.newWalletFromExtendedSeed
      (.bytes (wallets.getExtendedSeed wallet)) = .ok wallet

theorem hexToBytes_seed (reopens : Reopens wallets) {seed : SeedInput}
    {account : Web3Account}
    (derived : Tx.seedToAccount cryptography wallets seed = .ok account) :
    ∃ extendedSeed, hexToBytes account.seed = .ok extendedSeed ∧
      seedToAccount cryptography wallets extendedSeed = .ok account := by
  have made := derived
  rw [Tx.seedToAccount] at derived
  obtain ⟨wallet, created, derived⟩ := Outcome.bind_eq_ok.mp derived
  obtain ⟨checksummed, -, derived⟩ := Outcome.bind_eq_ok.mp derived
  cases derived
  refine ⟨wallets.getExtendedSeed wallet, ?_, ?_⟩
  · rw [hexToBytes, Tx.FeeMarketEIP1559Transaction.hexToBytes_hexlify]
    rfl
  · rw [seedToAccount, mapError_eq_ok, ← made, Tx.seedToAccount,
      Tx.seedToAccount, reopens seed wallet created, created]

theorem decryptObject_eq_ok {json : Value} {password : Password}
    {account : LocalAccount cryptography wallets}
    (opened : decrypt cryptography wallets packages json password =
      .ok account.account) :
    decryptObject cryptography wallets packages json password =
      .ok account := by
  unfold decryptObject
  split
  next other otherOpened =>
      have same := Except.ok.inj (opened.symm.trans otherOpened)
      obtain ⟨kept, derived⟩ := account
      cases same
      rfl
  next problem failed =>
      rw [opened] at failed
      cases failed

theorem LocalAccount.decrypt_encrypt (opens : packages.Opens)
    (reopens : Reopens wallets) {draws : Draws} {password : Password}
    {options : EncryptOptions} {account : LocalAccount cryptography wallets}
    {keystore : KeyStore}
    (stored : account.encrypt packages draws password options =
      .ok keystore) :
    decryptWithContext cryptography wallets packages keystore.toJson
      password = .ok account := by
  rw [LocalAccount.encrypt] at stored
  obtain ⟨seed, derived⟩ := account.derived
  obtain ⟨extendedSeed, seedRead, isAccount⟩ :=
    hexToBytes_seed reopens derived
  rw [seedRead, Outcome.ok_bind] at stored
  obtain ⟨seedBytes, opened, validated, isOpened, decrypted⟩ :=
    exists_opened opens stored (hasForm_toJson keystore) (reads_toJson stored)
  have sameSeed : seedBytes = extendedSeed := by
    change (if extendedSeed.length = 51 then Except.ok extendedSeed else _) =
      _ at validated
    split at validated
    next => exact (Except.ok.inj validated).symm
    next => cases validated
  rw [sameSeed, isAccount] at isOpened
  cases isOpened
  exact decryptObject_eq_ok decrypted

/-! ## All accounts -/

theorem decrypt_elements (opens : packages.Opens) (reopens : Reopens wallets)
    {draws : Nat → Draws} {password : Password} {options : EncryptOptions}
    {accounts : List (LocalAccount cryptography wallets)} {position : Nat}
    {keystores : List Value}
    (stored : ((accounts.map some).zipIdx position).mapM
      (encryptElement packages draws password options) = .ok keystores) :
    keystores.map elementJson = keystores ∧
      keystores.map (decryptWithContext cryptography wallets packages ·
        password) = accounts.map .ok := by
  induction accounts generalizing position keystores with
  | nil =>
      cases stored
      exact ⟨rfl, rfl⟩
  | cons account accounts induction =>
      rw [List.map_cons, List.zipIdx_cons, List.mapM_cons] at stored
      obtain ⟨first, firstStored, stored⟩ := Outcome.bind_eq_ok.mp stored
      obtain ⟨others, othersStored, stored⟩ := Outcome.bind_eq_ok.mp stored
      cases stored
      obtain ⟨keystore, encrypted, rfl⟩ := Outcome.map_eq_ok.mp firstStored
      obtain ⟨plain, opened⟩ := induction othersStored
      constructor
      · rw [List.map_cons, plain]
        rfl
      · rw [List.map_cons, opened, List.map_cons,
          LocalAccount.decrypt_encrypt opens reopens encrypted]

namespace Wallet

/-- Under a key of its own, what was stored is loaded. -/
theorem load_set (opens : packages.Opens) (reopens : Reopens wallets)
    {wallet : Accounts.Wallet (LocalAccount cryptography wallets)}
    {accounts : List (LocalAccount cryptography wallets)}
    (holds : wallet.Holds (contextReading cryptography wallets) accounts)
    {draws : Nat → Draws} {password : Password} {options : EncryptOptions}
    {keystores : List Value}
    (encrypted : wallet.encrypt packages draws password options =
      .ok keystores)
    {keyName : Option String} (named : keyName.getD defaultKeyName ≠
      storageTest) (storage : WebStorage)
    (into : Accounts.Wallet (LocalAccount cryptography wallets)) :
    into.load packages (storage.set (keyName.getD defaultKeyName)
        (keystores.map elementJson)) password keyName =
      (getStorage (storage.set (keyName.getD defaultKeyName)
          (keystores.map elementJson)),
        accounts.foldl (addAccount (contextReading cryptography wallets)) into,
        none) := by
  rw [encrypt, holds.elements] at encrypted
  obtain ⟨plain, opened⟩ := decrypt_elements opens reopens encrypted
  rw [load, get?_getStorage _ named, OrderedMap.get?_set, if_pos rfl]
  have added : into.decryptKeystores packages (keystores.map elementJson)
      password = (accounts.foldl
        (addAccount (contextReading cryptography wallets)) into, none) := by
    rw [plain, decryptKeystores, opened, Wallet.decrypt, decrypted_map_ok]
  exact congrArg (Prod.mk _) added

/-- After every run, a wallet that is stored and loaded again is the same:
in an empty wallet the accounts come back in their order, and loading into the
wallet itself changes nothing.  Nothing else of the storage is touched, but for
the key that the storage is tried with. -/
theorem load_save (opens : packages.Opens) (reopens : Reopens wallets)
    (actions : List (WalletAction (LocalAccount cryptography wallets)
      KeystoreError))
    {storage saved : WebStorage} {draws : Nat → Draws} {password : Password}
    {keyName : Option String} {options : EncryptOptions}
    (named : keyName.getD defaultKeyName ≠ storageTest)
    (stored : (run (step (contextReading cryptography wallets)) new
      actions).save packages storage draws password keyName options =
        (saved, none)) :
    (∃ accounts loaded,
      (run (step (contextReading cryptography wallets)) new actions).elements =
        accounts.map some ∧
      new.load packages saved password keyName =
        (getStorage saved, loaded, none) ∧
      loaded.Holds (contextReading cryptography wallets) accounts) ∧
    (run (step (contextReading cryptography wallets)) new actions).load
        packages saved password keyName =
      (getStorage saved,
        run (step (contextReading cryptography wallets)) new actions, none) ∧
    ∀ other, other ≠ keyName.getD defaultKeyName → other ≠ storageTest →
      saved.get? other = storage.get? other ∧
        (getStorage saved).get? other = storage.get? other := by
  have held : ∃ accounts,
      (run (step (contextReading cryptography wallets)) new actions).Holds
        (contextReading cryptography wallets) accounts := holds_run actions
  obtain ⟨accounts, holds⟩ := held
  generalize run (step (contextReading cryptography wallets)) new actions =
    wallet at stored holds ⊢
  rw [save] at stored
  cases encrypted : wallet.encrypt packages draws password options with
  | error problem =>
      rw [encrypted] at stored
      cases stored
  | ok keystores =>
      rw [encrypted] at stored
      cases stored
      have loading := load_set opens reopens holds encrypted named
        (getStorage storage)
      refine ⟨⟨accounts, _, holds.elements, loading new, ?_⟩, ?_, ?_⟩
      · exact holds_new.addAll_fresh holds.indexes.nodup
      · rw [loading wallet, holds.addAll_members fun account member => member]
      · intro other different untested
        have kept : ((getStorage storage).set (keyName.getD defaultKeyName)
            (keystores.map elementJson)).get? other = storage.get? other := by
          rw [OrderedMap.get?_set, if_neg different,
            get?_getStorage storage untested]
        exact ⟨kept, (get?_getStorage _ untested).trans kept⟩

end Wallet

end Storing

/-! ## A stored wallet -/

theorem reopens_checkedWallets : Reopens checkedWallets := by
  have whole : ∀ seed wallet, checkedLength seed = .ok wallet →
      checkedLength wallet = .ok wallet := by
    intro seed wallet created
    rw [checkedLength] at created
    split at created
    next width =>
        cases created
        exact if_pos width
    next => cases created
  intro seed wallet created
  cases seed with
  | bytes seed => exact whole seed wallet created
  | text text =>
      obtain ⟨seed, -, made⟩ := Outcome.bind_eq_ok.mp created
      exact whole seed wallet made

theorem exists_saved : ∃ (account : LocalAccount .simple checkedWallets)
    (saved : WebStorage),
    (run (Wallet.step (contextReading .simple checkedWallets)) Wallet.new
      [.add (.inl account)]).save .simple ∅ (fun _ => sampleDraws)
        (.bytes [1, 2]) none {} = (saved, none) := by
  have width : (List.replicate 51 (1 : UInt8)).length = 51 :=
    List.length_replicate
  obtain ⟨account, isAccount⟩ := exists_account width
  have derived : Tx.seedToAccount .simple checkedWallets
      (.bytes (List.replicate 51 1)) = .ok account :=
    mapError_eq_ok.mp isAccount
  obtain ⟨extendedSeed, seedRead, derivedAgain⟩ :=
    hexToBytes_seed reopens_checkedWallets derived
  obtain ⟨keystore, encrypted⟩ := exists_keystore
    (width_of_seedToAccount checkedWallets_width derivedAgain) [1, 2]
  let kept : LocalAccount .simple checkedWallets := ⟨account, _, derived⟩
  have stored : kept.encrypt .simple sampleDraws (.bytes [1, 2]) {} =
      .ok keystore := by
    rw [LocalAccount.encrypt, seedRead, Outcome.ok_bind, encrypted]
  have encrypts : (run (Wallet.step (contextReading .simple checkedWallets))
      Wallet.new [.add (.inl kept)]).encrypt .simple (fun _ => sampleDraws)
        (.bytes [1, 2]) {} = .ok [keystore.toJson] := by
    change (List.zipIdx [some kept]).mapM
      (encryptElement .simple (fun _ => sampleDraws) (.bytes [1, 2]) {}) = _
    rw [List.zipIdx_cons, List.zipIdx_nil, List.mapM_cons, List.mapM_nil,
      encryptElement, stored]
    rfl
  refine ⟨kept, (getStorage ∅).set defaultKeyName [keystore.toJson], ?_⟩
  rw [Wallet.save, encrypts]
  rfl

theorem load_save_simple : ∃ (account : LocalAccount .simple checkedWallets)
    (saved : WebStorage) (loaded : Wallet _),
    (run (Wallet.step (contextReading .simple checkedWallets)) Wallet.new
      [.add (.inl account)]).save .simple ∅ (fun _ => sampleDraws)
        (.bytes [1, 2]) none {} = (saved, none) ∧
    Wallet.new.load .simple saved (.bytes [1, 2]) none =
      (getStorage saved, loaded, none) ∧
    loaded.elements = [some account] := by
  obtain ⟨account, saved, stored⟩ := exists_saved
  obtain ⟨⟨accounts, loaded, elements, loading, holds⟩, -⟩ :=
    Wallet.load_save KeystorePackages.simple_opens reopens_checkedWallets
      [.add (.inl account)] (by decide) stored
  refine ⟨account, saved, loaded, stored, loading, ?_⟩
  rw [holds.elements, ← elements]
  rfl

end Web3Js.Accounts
