import Mathlib
import Web3Js.Accounts.Keystore
import Web3Js.Tx.Signing

/-!
# What keystores keep

Whatever the seed, the password and the options, a keystore that is written
opens with its password and gives the account of the seed back; and with a
cipher that opens only what it has sealed, a keystore that opens is the one
that is written for its account.  Keys are derived within the policy only.
-/

namespace Web3Js.Accounts

open Web3Js.Core (Value)
open Tx (SeedInput WalletPackage Web3Account)

/-- The cipher opens what it has sealed. -/
def KeystorePackages.Opens (packages : KeystorePackages) : Prop :=
  ∀ data key iv cipher, packages.createCipheriv data key iv = .ok cipher →
    packages.createDecipheriv cipher key iv = .ok data

/-- The cipher opens nothing else. -/
def KeystorePackages.Authentic (packages : KeystorePackages) : Prop :=
  ∀ cipher key iv data, packages.createDecipheriv cipher key iv = .ok data →
    packages.createCipheriv data key iv = .ok cipher

/-! ## The policy -/

theorem Bounds.check_number (bounds : Bounds) (name : String)
    (value : bounds.Within) :
    bounds.check name (number value) = .ok value := by
  have within : ((value.val : ℚ)).den = 1 ∧
      bounds.min ≤ ((value.val : ℚ)).num.toNat ∧
      ((value.val : ℚ)).num.toNat ≤ bounds.max := by
    rw [Rat.num_natCast, Int.toNat_natCast]
    exact ⟨Rat.den_natCast _, value.2⟩
  unfold Bounds.check number
  dsimp only
  rw [dif_pos within]
  congr 1

/-- The bounds of the policy are positive, so what passes is a number that is
kept as it is. -/
theorem Bounds.check_eq_ok {bounds : Bounds} (positive : 0 < bounds.min)
    {name : String} {given : Value} {value : bounds.Within}
    (checked : bounds.check name given = .ok value) :
    given = number value := by
  unfold Bounds.check at checked
  dsimp only at checked
  split at checked
  next rational =>
      split at checked
      next within =>
          cases checked
          have whole := Rat.coe_int_num_of_den_eq_one within.1
          have natural : ((rational.num.toNat : ℤ)) = rational.num := by
            omega
          have same : ((rational.num.toNat : ℕ) : ℚ) = rational := by
            rw [← Int.cast_natCast, natural, whole]
          rw [number, same]
      next => cases checked
  next => cases checked

theorem validateArgon2idParams_number (params : Argon2idParams) :
    validateArgon2idParams (number params.m) (number params.t)
      (number params.p) (number params.dklen) = .ok params := by
  rw [validateArgon2idParams, Bounds.check_number, Bounds.check_number,
    Bounds.check_number, Bounds.check_number]
  rfl

theorem validateArgon2idParams_eq_ok {m t p dklen : Value}
    {params : Argon2idParams}
    (valid : validateArgon2idParams m t p dklen = .ok params) :
    m = number params.m ∧ t = number params.t ∧ p = number params.p ∧
      dklen = number params.dklen := by
  rw [validateArgon2idParams] at valid
  obtain ⟨mValue, mRead, valid⟩ := Outcome.bind_eq_ok.mp valid
  obtain ⟨tValue, tRead, valid⟩ := Outcome.bind_eq_ok.mp valid
  obtain ⟨pValue, pRead, valid⟩ := Outcome.bind_eq_ok.mp valid
  obtain ⟨dklenValue, dklenRead, valid⟩ := Outcome.bind_eq_ok.mp valid
  cases valid
  exact ⟨Bounds.check_eq_ok (by decide) mRead,
    Bounds.check_eq_ok (by decide) tRead, Bounds.check_eq_ok (by decide) pRead,
    Bounds.check_eq_ok (by decide) dklenRead⟩

/-! ## Reading what is written -/

theorem mapError_eq_ok {α : Type} {outcome : Except String α} {value : α} :
    outcome.mapError KeystoreError.other = .ok value ↔
      outcome = .ok value := by
  cases outcome with
  | error problem =>
      constructor
      · rintro ⟨⟩
      · rintro ⟨⟩
  | ok result =>
      change Except.ok result = Except.ok value ↔ _
      rw [Except.ok.injEq, Except.ok.injEq]

theorem hexToBytes_encode (bytes : Bytes) :
    hexToBytes (String.ofList (Hex.encode bytes)) = .ok bytes := by
  rw [hexToBytes, Utils.hexToBytes_of_hexDigits (Hex.decode_encode_bytes bytes)]
  rfl

section Keystores

variable {Descriptor Wallet : Type} {cryptography : Cryptography}
  {wallets : WalletPackage Descriptor Wallet} {packages : KeystorePackages}

theorem exists_body {address checksummed : String}
    (isChecksummed : Utils.toChecksumAddress cryptography address =
      .ok checksummed) : ∃ body, checksummed.toList = 'Q' :: body := by
  rw [Utils.toChecksumAddress, Validator.toChecksumAddress] at isChecksummed
  by_cases isAddress : Validator.isAddressString cryptography address false =
      true
  · by_cases matching : Validator.qrlAddressRegex address = true
    · rw [if_pos isAddress, if_pos matching] at isChecksummed
      cases isChecksummed
      rw [Validator.checksummed, String.toList_ofList]
      exact ⟨_, rfl⟩
    · rw [if_pos isAddress, if_neg matching] at isChecksummed
      cases isChecksummed
  · rw [if_neg isAddress] at isChecksummed
    cases isChecksummed

/-- A derived address has its letter in front. -/
theorem exists_address {seed : Bytes} {account : Web3Account}
    (derived : seedToAccount cryptography wallets seed = .ok account) :
    ∃ body, account.address.toList = 'Q' :: body := by
  rw [seedToAccount, mapError_eq_ok, Tx.seedToAccount] at derived
  obtain ⟨wallet, -, derived⟩ := Outcome.bind_eq_ok.mp derived
  obtain ⟨checksummed, isChecksummed, derived⟩ := Outcome.bind_eq_ok.mp derived
  cases derived
  exact exists_body isChecksummed

theorem lowerCase_lowerCase (text : List Char) :
    lowerCase (lowerCase text) = lowerCase text := by
  rw [lowerCase, lowerCase, List.map_map]
  apply List.map_congr_left
  intro char _
  exact char.toLower_toLower_eq_toLower

/-- The form that `decrypt` asks of a keystore. -/
structure HasForm (json : Value) : Prop where
  schema : keyStoreSchema json = true
  version : isVersion1 (json.property "version") = true
  kind : isArgon2id ((json.property "crypto").property "kdf") = true

/-- A keystore in JSON says what a keystore that is written says. -/
structure KeyStore.Reads (keystore : KeyStore) (json : Value) : Prop where
  ciphertext : valueToBytes ((json.property "crypto").property "ciphertext") =
    hexToBytes keystore.ciphertext
  iv : valueToBytes (((json.property "crypto").property
    "cipherparams").property "iv") = hexToBytes keystore.iv
  salt : storedSalt (((json.property "crypto").property
    "kdfparams").property "salt") = (hexToBytes keystore.salt).map Sum.inl
  m : ((json.property "crypto").property "kdfparams").property "m" =
    number keystore.kdfparams.m
  t : ((json.property "crypto").property "kdfparams").property "t" =
    number keystore.kdfparams.t
  p : ((json.property "crypto").property "kdfparams").property "p" =
    number keystore.kdfparams.p
  dklen : ((json.property "crypto").property "kdfparams").property "dklen" =
    number keystore.kdfparams.dklen
  address : keystore.address.toList =
    'Q' :: lowerCase ((textOf (json.property "address")).drop 1)

theorem hasForm_toJson (keystore : KeyStore) : HasForm keystore.toJson :=
  ⟨rfl, rfl, rfl⟩

/-- Reading what says the same as a keystore that is written. -/
theorem decrypt_of_reads {keystore : KeyStore} {json : Value}
    (form : HasForm json) (reads : keystore.Reads json)
    (password : Password) :
    decrypt cryptography wallets packages json password = (do
      let uint8ArrayPassword ← passwordBytes .validation password
      let salt ← hexToBytes keystore.salt
      let derivedKey ← (packages.argon2idSync uint8ArrayPassword (.inl salt)
        keystore.kdfparams.t keystore.kdfparams.m keystore.kdfparams.p
        keystore.kdfparams.dklen).mapError .other
      let ciphertext ← hexToBytes keystore.ciphertext
      let iv ← hexToBytes keystore.iv
      let seed ← (packages.createDecipheriv ciphertext derivedKey
        iv).mapError .other
      let account ← seedToAccount cryptography wallets seed
      let stored := textOf (json.property "address")
      if lowerCase account.address.toList = 'q' :: lowerCase (stored.drop 1)
      then .ok account
      else .error (.keyStoreMismatch (String.ofList stored)
        account.address)) := by
  rw [decrypt]
  dsimp only
  rw [form.schema, form.version, if_neg (by decide), if_neg (by decide)]
  refine bind_congr fun uint8ArrayPassword => ?_
  rw [if_pos form.kind, reads.m, reads.t, reads.p, reads.dklen,
    validateArgon2idParams_number, Outcome.ok_bind, reads.salt]
  cases hexToBytes keystore.salt with
  | error problem => rfl
  | ok salt =>
      change ((Except.ok (Sum.inl salt) : Except KeystoreError _) >>= _) = _
      rw [Outcome.ok_bind, Outcome.ok_bind, reads.ciphertext, reads.iv]

theorem reads_toJson {draws : Draws} {seed : SeedInput} {password : Password}
    {options : EncryptOptions} {keystore : KeyStore}
    (stored : encrypt cryptography wallets packages draws seed password
      options = .ok keystore) : keystore.Reads keystore.toJson := by
  rw [encrypt] at stored
  obtain ⟨seedBytes, -, stored⟩ := Outcome.bind_eq_ok.mp stored
  obtain ⟨salt, -, stored⟩ := Outcome.bind_eq_ok.mp stored
  obtain ⟨uint8Password, -, stored⟩ := Outcome.bind_eq_ok.mp stored
  split at stored
  next =>
      obtain ⟨kdfparams, -, stored⟩ := Outcome.bind_eq_ok.mp stored
      obtain ⟨derivedKey, -, stored⟩ := Outcome.bind_eq_ok.mp stored
      obtain ⟨cipher, -, stored⟩ := Outcome.bind_eq_ok.mp stored
      obtain ⟨account, -, stored⟩ := Outcome.bind_eq_ok.mp stored
      cases stored
      refine ⟨rfl, rfl, rfl, rfl, rfl, rfl, rfl, ?_⟩
      change (String.ofList _).toList =
        'Q' :: lowerCase ((String.ofList _).toList.drop 1)
      rw [String.toList_ofList]
      change _ = 'Q' :: lowerCase
        (lowerCase (account.address.toList.drop 1))
      rw [lowerCase_lowerCase]
  next => cases stored

/-- What says the same as a keystore that is written opens with its password
and gives the account of its seed. -/
theorem exists_opened (opens : packages.Opens) {draws : Draws}
    {seed : SeedInput} {password : Password} {options : EncryptOptions}
    {keystore : KeyStore}
    (stored : encrypt cryptography wallets packages draws seed password
      options = .ok keystore)
    {json : Value} (form : HasForm json) (reads : keystore.Reads json) :
    ∃ seedBytes account, parseAndValidateSeed seed = .ok seedBytes ∧
      seedToAccount cryptography wallets seedBytes = .ok account ∧
      decrypt cryptography wallets packages json password = .ok account := by
  rw [encrypt] at stored
  obtain ⟨seedBytes, seedRead, stored⟩ := Outcome.bind_eq_ok.mp stored
  obtain ⟨salt, -, stored⟩ := Outcome.bind_eq_ok.mp stored
  obtain ⟨uint8Password, passwordRead, stored⟩ := Outcome.bind_eq_ok.mp stored
  split at stored
  next =>
      obtain ⟨kdfparams, -, stored⟩ := Outcome.bind_eq_ok.mp stored
      obtain ⟨derivedKey, derived, stored⟩ := Outcome.bind_eq_ok.mp stored
      obtain ⟨cipher, ciphered, stored⟩ := Outcome.bind_eq_ok.mp stored
      obtain ⟨account, isAccount, stored⟩ := Outcome.bind_eq_ok.mp stored
      cases stored
      refine ⟨seedBytes, account, seedRead, isAccount, ?_⟩
      have opened := opens seedBytes derivedKey draws.iv cipher
        (mapError_eq_ok.mp ciphered)
      have samePassword : passwordBytes .validation password =
          .ok uint8Password := by
        cases password with
        | text content => exact passwordRead
        | bytes content => exact passwordRead
        | other => cases passwordRead
      rw [decrypt_of_reads form reads, samePassword, Outcome.ok_bind,
        hexToBytes_encode, Outcome.ok_bind, derived, Outcome.ok_bind,
        hexToBytes_encode, Outcome.ok_bind, hexToBytes_encode, Outcome.ok_bind,
        mapError_eq_ok.mpr opened, Outcome.ok_bind, isAccount, Outcome.ok_bind]
      apply if_pos
      obtain ⟨body, address⟩ := exists_address isAccount
      have label := reads.address
      change (String.ofList _).toList = _ at label
      rw [String.toList_ofList, address] at label
      rw [address, ← List.tail_eq_of_cons_eq label]
      rfl
  next => cases stored

/-- What a keystore holds that opens. -/
theorem decrypt_eq_ok {json : Value} {password : Password}
    {account : Web3Account}
    (opened : decrypt cryptography wallets packages json password =
      .ok account) :
    ∃ (crypto given : Value) (uint8ArrayPassword derivedKey ciphertext iv seed :
      Bytes) (kdfparams : Argon2idParams) (salt : Bytes ⊕ Value),
      HasForm json ∧
      crypto = json.property "crypto" ∧ given = crypto.property "kdfparams" ∧
      passwordBytes .validation password = .ok uint8ArrayPassword ∧
      validateArgon2idParams (given.property "m") (given.property "t")
        (given.property "p") (given.property "dklen") = .ok kdfparams ∧
      storedSalt (given.property "salt") = .ok salt ∧
      packages.argon2idSync uint8ArrayPassword salt kdfparams.t kdfparams.m
        kdfparams.p kdfparams.dklen = .ok derivedKey ∧
      valueToBytes (crypto.property "ciphertext") = .ok ciphertext ∧
      valueToBytes ((crypto.property "cipherparams").property "iv") =
        .ok iv ∧
      packages.createDecipheriv ciphertext derivedKey iv = .ok seed ∧
      seedToAccount cryptography wallets seed = .ok account ∧
      lowerCase account.address.toList =
        'q' :: lowerCase ((textOf (json.property "address")).drop 1) := by
  rw [decrypt] at opened
  dsimp only at opened
  by_cases invalid : keyStoreSchema json = false
  · rw [if_pos invalid] at opened
    cases opened
  rw [if_neg invalid] at opened
  by_cases other : isVersion1 (json.property "version") = false
  · rw [if_pos other] at opened
    cases opened
  rw [if_neg other] at opened
  obtain ⟨uint8Password, passwordRead, opened⟩ := Outcome.bind_eq_ok.mp opened
  by_cases kind : isArgon2id ((json.property "crypto").property "kdf") = true
  · rw [if_pos kind] at opened
    obtain ⟨kdfparams, valid, opened⟩ := Outcome.bind_eq_ok.mp opened
    obtain ⟨salt, saltRead, opened⟩ := Outcome.bind_eq_ok.mp opened
    obtain ⟨derivedKey, derived, opened⟩ := Outcome.bind_eq_ok.mp opened
    obtain ⟨ciphertext, cipherRead, opened⟩ := Outcome.bind_eq_ok.mp opened
    obtain ⟨iv, ivRead, opened⟩ := Outcome.bind_eq_ok.mp opened
    obtain ⟨seed, deciphered, opened⟩ := Outcome.bind_eq_ok.mp opened
    obtain ⟨derivedAccount, isAccount, opened⟩ := Outcome.bind_eq_ok.mp opened
    by_cases same : lowerCase derivedAccount.address.toList =
        'q' :: lowerCase ((textOf (json.property "address")).drop 1)
    · rw [if_pos same] at opened
      cases opened
      have form : HasForm json := ⟨Bool.eq_true_of_not_eq_false invalid,
        Bool.eq_true_of_not_eq_false other, kind⟩
      exact ⟨_, _, uint8Password, derivedKey, ciphertext, iv, seed, kdfparams,
        salt, form, rfl, rfl, passwordRead, valid, saltRead,
        mapError_eq_ok.mp derived, cipherRead, ivRead,
        mapError_eq_ok.mp deciphered, isAccount, same⟩
    · rw [if_neg same] at opened
      cases opened
  · rw [if_neg kind] at opened
    cases opened

theorem lowerCase_address {seed : Bytes} {account : Web3Account}
    (derived : seedToAccount cryptography wallets seed = .ok account)
    {stored : List Char}
    (same : lowerCase account.address.toList = 'q' :: lowerCase stored) :
    lowerCase (account.address.toList.drop 1) = lowerCase stored := by
  obtain ⟨body, address⟩ := exists_address derived
  rw [address] at same ⊢
  exact List.tail_eq_of_cons_eq same

theorem width_of_seedToAccount
    (seedWidth : ∀ seed wallet,
      wallets.newWalletFromExtendedSeed (.bytes seed) = .ok wallet →
        seed.length = 51)
    {seed : Bytes} {account : Web3Account}
    (derived : seedToAccount cryptography wallets seed = .ok account) :
    seed.length = 51 := by
  rw [seedToAccount, mapError_eq_ok, Tx.seedToAccount] at derived
  obtain ⟨wallet, created, -⟩ := Outcome.bind_eq_ok.mp derived
  exact seedWidth seed wallet created

/-- What opens says the same as the keystore that is written for its account
under the same password, salt, nonce and parameters. -/
theorem exists_sealed (authentic : packages.Authentic)
    (seedWidth : ∀ seed wallet,
      wallets.newWalletFromExtendedSeed (.bytes seed) = .ok wallet →
        seed.length = 51)
    {json : Value} {password : Password} {account : Web3Account}
    (opened : decrypt cryptography wallets packages json password =
      .ok account)
    {text : String}
    (isText : ((json.property "crypto").property "kdfparams").property
      "salt" = .string text) (drawnSalt : Bytes) (id : String) :
    HasForm json ∧ ∃ (seed salt iv : Bytes) (keystore : KeyStore),
      seedToAccount cryptography wallets seed = .ok account ∧
      encrypt cryptography wallets packages { salt := drawnSalt, iv, id }
        (.bytes seed) password {
          salt := some (.bytes salt)
          kdf := some "argon2id"
          m := ((json.property "crypto").property "kdfparams").property "m"
          t := ((json.property "crypto").property "kdfparams").property "t"
          p := ((json.property "crypto").property "kdfparams").property "p"
          dklen := ((json.property "crypto").property
            "kdfparams").property "dklen" } = .ok keystore ∧
      keystore.Reads json := by
  obtain ⟨crypto, given, uint8Password, derivedKey, ciphertext, iv, seed,
    kdfparams, salt, form, rfl, rfl, passwordRead, valid, saltRead, derived,
    cipherRead, ivRead, deciphered, isAccount, same⟩ := decrypt_eq_ok opened
  rw [isText] at saltRead
  obtain ⟨saltBytes, saltDecoded, rfl⟩ := Outcome.map_eq_ok.mp saltRead
  obtain ⟨mGiven, tGiven, pGiven, dklenGiven⟩ :=
    validateArgon2idParams_eq_ok valid
  have ciphered := authentic ciphertext derivedKey iv seed deciphered
  have width := width_of_seedToAccount seedWidth isAccount
  have seedRead : parseAndValidateSeed (.bytes seed) = .ok seed :=
    if_pos width
  have passwordTaken : passwordBytes .invalidPassword password =
      .ok uint8Password := by
    cases password with
    | text content => exact passwordRead
    | bytes content => exact passwordRead
    | other => cases passwordRead
  let keystore : KeyStore := {
    id
    address := String.ofList ('Q' :: lowerCase (account.address.toList.drop 1))
    ciphertext := String.ofList (Hex.encode ciphertext)
    iv := String.ofList (Hex.encode iv)
    kdfparams
    salt := String.ofList (Hex.encode saltBytes) }
  refine ⟨form, seed, saltBytes, iv, keystore, isAccount, ?_, ?_⟩
  · rw [encrypt, seedRead, Outcome.ok_bind]
    change (Except.ok saltBytes >>= _) = _
    rw [Outcome.ok_bind, passwordTaken, Outcome.ok_bind]
    dsimp only [Option.getD_some]
    rw [if_pos rfl, mGiven, tGiven, pGiven, dklenGiven]
    change (validateArgon2idParams (number kdfparams.m) (number kdfparams.t)
      (number kdfparams.p) (number kdfparams.dklen) >>= _) = _
    rw [validateArgon2idParams_number, Outcome.ok_bind, derived]
    change (Except.ok derivedKey >>= _) = _
    rw [Outcome.ok_bind, ciphered]
    change (Except.ok ciphertext >>= _) = _
    rw [Outcome.ok_bind, isAccount, Outcome.ok_bind]
  · refine ⟨?_, ?_, ?_, mGiven, tGiven, pGiven, dklenGiven, ?_⟩
    · rw [cipherRead, hexToBytes_encode]
    · rw [ivRead, hexToBytes_encode]
    · rw [isText, hexToBytes_encode]
      exact saltRead
    · rw [String.toList_ofList, lowerCase_address isAccount same]

/-- Keys are derived within the bounds of the policy only: packages that agree
there cannot be told apart, whatever is stored or read. -/
theorem derivation_within_policy {packages other : KeystorePackages}
    (sameCipher : other.createCipheriv = packages.createCipheriv)
    (sameDecipher : other.createDecipheriv = packages.createDecipheriv)
    (agree : ∀ password salt t m p dklen,
      ARGON2ID_BOUNDS.m.min ≤ m → m ≤ ARGON2ID_BOUNDS.m.max →
      ARGON2ID_BOUNDS.t.min ≤ t → t ≤ ARGON2ID_BOUNDS.t.max →
      ARGON2ID_BOUNDS.p.min ≤ p → p ≤ ARGON2ID_BOUNDS.p.max →
      ARGON2ID_BOUNDS.dklen.min ≤ dklen → dklen ≤ ARGON2ID_BOUNDS.dklen.max →
      other.argon2idSync password salt t m p dklen =
        packages.argon2idSync password salt t m p dklen)
    (draws : Draws) (seed : SeedInput) (password : Password)
    (options : EncryptOptions) (json : Value) :
    encrypt cryptography wallets other draws seed password options =
        encrypt cryptography wallets packages draws seed password options ∧
      decrypt cryptography wallets other json password =
        decrypt cryptography wallets packages json password := by
  have same : ∀ uint8ArrayPassword salt (params : Argon2idParams),
      other.argon2idSync uint8ArrayPassword salt params.t params.m params.p
          params.dklen =
        packages.argon2idSync uint8ArrayPassword salt params.t params.m
          params.p params.dklen := by
    intro uint8ArrayPassword salt params
    exact agree uint8ArrayPassword salt params.t params.m params.p params.dklen
      params.m.2.1 params.m.2.2 params.t.2.1 params.t.2.2 params.p.2.1
      params.p.2.2 params.dklen.2.1 params.dklen.2.2
  constructor
  · unfold encrypt
    simp only [same, sameCipher]
  · unfold decrypt
    simp only [same, sameDecipher]

end Keystores

/-! ## Packages to try it with -/

/-- The password is the key, and sealing puts key and nonce in front. -/
def KeystorePackages.simple : KeystorePackages where
  argon2idSync password _ _ _ _ _ := .ok password
  createCipheriv data key iv := .ok (key ++ iv ++ data)
  createDecipheriv cipher key iv :=
    if (key ++ iv).isPrefixOf cipher then
      .ok (cipher.drop (key ++ iv).length)
    else .error "unable to authenticate data"

theorem KeystorePackages.simple_opens : KeystorePackages.simple.Opens := by
  intro data key iv cipher sealedData
  cases sealedData
  have inFront : (key ++ iv).isPrefixOf (key ++ iv ++ data) = true :=
    List.isPrefixOf_iff_prefix.mpr (List.prefix_append _ _)
  change (if (key ++ iv).isPrefixOf (key ++ iv ++ data) then _ else _) = _
  rw [if_pos inFront, List.drop_left]

theorem KeystorePackages.simple_authentic :
    KeystorePackages.simple.Authentic := by
  intro cipher key iv data opened
  change (if (key ++ iv).isPrefixOf cipher then _ else _) = _ at opened
  by_cases inFront : (key ++ iv).isPrefixOf cipher = true
  · rw [if_pos inFront] at opened
    cases opened
    obtain ⟨rest, rfl⟩ := List.isPrefixOf_iff_prefix.mp inFront
    rw [List.drop_left]
    rfl
  · rw [if_neg inFront] at opened
    cases opened

def checkedLength (seed : Bytes) : Except String Bytes :=
  if seed.length = 51 then .ok seed else .error "invalid extended seed"

def checkedSeed : SeedInput → Except String Bytes
  | .bytes seed => checkedLength seed
  | .text text => do
      let seed ← Utils.hexToBytes text
      checkedLength seed

def boundedArgon2idSync (password : Bytes) (_ : Bytes ⊕ Value)
    (_ m _ _ : Nat) : Except String Bytes :=
  if m ≤ ARGON2ID_BOUNDS.m.max then .ok password else .error "out of memory"

def sampleDraws : Draws := ⟨[7], [8], "ccb92c3f"⟩

/-- Wallets of seeds of one length only. -/
def checkedWallets : WalletPackage Unit Bytes :=
  { WalletPackage.simple with newWalletFromExtendedSeed := checkedSeed }

theorem checkedWallets_width (seed wallet : Bytes)
    (created : checkedWallets.newWalletFromExtendedSeed (.bytes seed) =
      .ok wallet) : seed.length = 51 := by
  change (if seed.length = 51 then _ else _) = _ at created
  split at created
  next width => exact width
  next => cases created

theorem exists_account {seed : Bytes} (width : seed.length = 51) :
    ∃ account, seedToAccount .simple checkedWallets seed = .ok account := by
  have created : checkedWallets.newWalletFromExtendedSeed (.bytes seed) =
      .ok seed := if_pos width
  have made := Tx.FeeMarketEIP1559Transaction.seedToAccount_eq
    (Cryptography.simple_hashWidth _ _) created
  exact ⟨_, congrArg (Except.mapError KeystoreError.other) made⟩

theorem exists_keystore {seed : Bytes} (width : seed.length = 51)
    (password : Bytes) :
    ∃ keystore, encrypt .simple checkedWallets .simple sampleDraws
      (.bytes seed) (.bytes password) {} = .ok keystore := by
  have seedRead : parseAndValidateSeed (.bytes seed) = .ok seed :=
    if_pos width
  obtain ⟨account, isAccount⟩ := exists_account width
  let kdfparams : Argon2idParams := ⟨⟨262144, by decide⟩, ⟨8, by decide⟩,
    ⟨1, by decide⟩, ⟨32, by decide⟩⟩
  have valid := validateArgon2idParams_number kdfparams
  let keystore : KeyStore := {
    id := sampleDraws.id
    address := String.ofList ('Q' :: lowerCase (account.address.toList.drop 1))
    ciphertext := String.ofList
      (Hex.encode (password ++ sampleDraws.iv ++ seed))
    iv := String.ofList (Hex.encode sampleDraws.iv)
    kdfparams
    salt := String.ofList (Hex.encode sampleDraws.salt) }
  refine ⟨keystore, ?_⟩
  rw [encrypt, seedRead, Outcome.ok_bind]
  change (Except.ok sampleDraws.salt >>= _) = _
  rw [Outcome.ok_bind]
  change (Except.ok password >>= _) = _
  rw [Outcome.ok_bind]
  change (validateArgon2idParams (number 262144) (number 8) (number 1)
    (number 32) >>= _) = _
  rw [valid, Outcome.ok_bind]
  change (Except.ok password >>= _) = _
  rw [Outcome.ok_bind]
  change (Except.ok (password ++ sampleDraws.iv ++ seed) >>= _) = _
  rw [Outcome.ok_bind, isAccount, Outcome.ok_bind]

/-- Derivation that fails with much memory. -/
def boundedPackages : KeystorePackages :=
  { KeystorePackages.simple with argon2idSync := boundedArgon2idSync }

theorem derivation_within_policy_bounded :
    encrypt .simple checkedWallets boundedPackages sampleDraws
        (.bytes (List.replicate 51 1)) (.bytes [1, 2]) {} =
      encrypt .simple checkedWallets .simple sampleDraws
        (.bytes (List.replicate 51 1)) (.bytes [1, 2]) {} ∧
    decrypt .simple checkedWallets boundedPackages .null (.bytes [1, 2]) =
      decrypt .simple checkedWallets .simple .null (.bytes [1, 2]) := by
  refine @derivation_within_policy Unit Bytes .simple checkedWallets .simple
    boundedPackages rfl rfl ?_ sampleDraws _ _ _ .null
  intro password salt t m p dklen _ bounded _ _ _ _ _ _
  exact if_pos bounded

end Web3Js.Accounts
