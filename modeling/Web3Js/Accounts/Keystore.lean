import Web3Js.Core.Response
import Web3Js.Hash
import Web3Js.Tx.Account

/-!
# Keystores

A seed is stored under a password: a key is derived from the password, the seed
is sealed with it, and the keystore says in the open how the key was derived
and whose seed it is.  Reading a keystore checks its form and the bounds on the
derivation before it derives anything.

Key derivation and cipher come from a package outside the repository.
-/

namespace Web3Js.Accounts

open Web3Js.Core (Value)
open Tx (SeedInput WalletPackage Web3Account)

/-- What keystores throw. -/
inductive KeystoreError
  | seedLength
  | invalidSeed
  | invalidPassword
  | invalidKdf
  | keyStoreVersion
  | keyStoreMismatch (stored derived : String)
  | validation
  | argon2id (message : String)
  /-- An error of a conversion or of a package. -/
  | other (message : String)
  deriving DecidableEq

/-! ## The policy on key derivation -/

structure Bounds where
  min : Nat
  max : Nat

namespace ARGON2ID_BOUNDS

def m : Bounds := ⟨19456, 1048576⟩
def t : Bounds := ⟨2, 50⟩
def p : Bounds := ⟨1, 16⟩
def dklen : Bounds := ⟨16, 64⟩

end ARGON2ID_BOUNDS

abbrev Bounds.Within (bounds : Bounds) :=
  { value : Nat // bounds.min ≤ value ∧ value ≤ bounds.max }

/-- Parameters that the policy allows. -/
structure Argon2idParams where
  m : ARGON2ID_BOUNDS.m.Within
  t : ARGON2ID_BOUNDS.t.Within
  p : ARGON2ID_BOUNDS.p.Within
  dklen : ARGON2ID_BOUNDS.dklen.Within

/-- One check of the policy, of a value of any type. -/
def Bounds.check (bounds : Bounds) (name : String) (value : Value) :
    Except KeystoreError bounds.Within :=
  let outOfRange := KeystoreError.argon2id ("Argon2id " ++ name ++
    " out of range [" ++ bounds.min.repr ++ ", " ++ bounds.max.repr ++ "]")
  match value with
  | .number (.finite number) =>
      if within : number.den = 1 ∧ bounds.min ≤ number.num.toNat ∧
          number.num.toNat ≤ bounds.max then
        .ok ⟨number.num.toNat, within.2⟩
      else .error outOfRange
  | _ => .error outOfRange

def validateArgon2idParams (m t p dklen : Value) :
    Except KeystoreError Argon2idParams := do
  let m ← ARGON2ID_BOUNDS.m.check "m" m
  let t ← ARGON2ID_BOUNDS.t.check "t" t
  let p ← ARGON2ID_BOUNDS.p.check "p" p
  let dklen ← ARGON2ID_BOUNDS.dklen.check "dklen" dklen
  .ok { m, t, p, dklen }

/-! ## Keystores -/

/-- The key derivation, which takes a salt as it is given, and the cipher. -/
structure KeystorePackages where
  argon2idSync : (password : Bytes) → (salt : Bytes ⊕ Value) →
    (t m p dklen : Nat) → Except String Bytes
  createCipheriv : (data key iv : Bytes) → Except String Bytes
  createDecipheriv : (data key iv : Bytes) → Except String Bytes

/-- A keystore as it is written. -/
structure KeyStore where
  id : String
  address : String
  ciphertext : String
  iv : String
  kdfparams : Argon2idParams
  salt : String

def number (value : Nat) : Value := .number (.finite value)

def KeyStore.toJson (keystore : KeyStore) : Value :=
  .object false [
    ("version", number 1),
    ("id", .string keystore.id),
    ("address", .string keystore.address),
    ("crypto", .object false [
      ("ciphertext", .string keystore.ciphertext),
      ("cipherparams", .object false [("iv", .string keystore.iv)]),
      ("cipher", .string "aes-256-gcm"),
      ("kdf", .string "argon2id"),
      ("kdfparams", .object false [
        ("m", number keystore.kdfparams.m),
        ("t", number keystore.kdfparams.t),
        ("p", number keystore.kdfparams.p),
        ("dklen", number keystore.kdfparams.dklen),
        ("salt", .string keystore.salt)])])]

inductive Password
  | text (content : String)
  | bytes (content : Bytes)
  | other

inductive Salt
  | text (content : String)
  | bytes (content : Bytes)

/-- The options of `encrypt`, `undefined` where one is missing. -/
structure EncryptOptions where
  salt : Option Salt := none
  kdf : Option String := none
  m : Value := .undefined
  t : Value := .undefined
  p : Value := .undefined
  dklen : Value := .undefined

/-- What `encrypt` draws: `randomBytes(32)`, `randomBytes(12)`, `uuidV4()`. -/
structure Draws where
  salt : Bytes
  iv : Bytes
  id : String

/-- `value ?? otherwise` -/
def orDefault (value : Value) (otherwise : Nat) : Value :=
  if value.isNullish then number otherwise else value

def lowerCase (text : List Char) : List Char := text.map Char.toLower

def hexToBytes (text : String) : Except KeystoreError Bytes :=
  (Utils.hexToBytes text).mapError .other

def byteOfNumber : Value → Option UInt8
  | .number (.finite number) =>
      if number.den = 1 ∧ 0 ≤ number ∧ number ≤ 255 then
        some (UInt8.ofNat number.num.toNat)
      else none
  | _ => none

/-- `hexToBytes` of a value of any type; an array of bytes is taken as it
is. -/
def valueToBytes : Value → Except KeystoreError Bytes
  | .string text => hexToBytes text
  | .array elements =>
      match elements.mapM byteOfNumber with
      | some bytes => .ok bytes
      | none => .error .validation
  | _ => .error .validation

def parseSeed : SeedInput → Except KeystoreError Bytes
  | .bytes content => .ok content
  | .text content =>
      if Validator.isHexStrict content ∧ content.toList.length ≠ 104 then
        .error .seedLength
      else (Utils.hexToUint8Array content).mapError fun _ => .invalidSeed

/-- `parseAndValidateSeed` without `ignoreLength`. -/
def parseAndValidateSeed (data : SeedInput) : Except KeystoreError Bytes := do
  let seed ← parseSeed data
  if seed.length = 51 then .ok seed else .error .seedLength

/-- The salt of the options; an empty text counts as none. -/
def saltBytes (draws : Draws) : Option Salt → Except KeystoreError Bytes
  | some (.text content) =>
      if content = "" then .ok draws.salt else hexToBytes content
  | some (.bytes content) => .ok content
  | none => .ok draws.salt

/-- The salt of a keystore, which is passed on where it is no text. -/
def storedSalt : Value → Except KeystoreError (Bytes ⊕ Value)
  | .string text => (hexToBytes text).map .inl
  | salt => .ok (.inr salt)

def passwordBytes (otherwise : KeystoreError) :
    Password → Except KeystoreError Bytes
  | .text content => hexToBytes (Utils.utf8ToHex content)
  | .bytes content => .ok content
  | .other => .error otherwise

section Keystores

variable {Descriptor Wallet : Type} (cryptography : Cryptography)
  (wallets : WalletPackage Descriptor Wallet) (packages : KeystorePackages)

def seedToAccount (seed : Bytes) : Except KeystoreError Web3Account :=
  (Tx.seedToAccount cryptography wallets (.bytes seed)).mapError .other

def encrypt (draws : Draws) (seed : SeedInput) (password : Password)
    (options : EncryptOptions) : Except KeystoreError KeyStore := do
  let seedUint8Array ← parseAndValidateSeed seed
  let salt ← saltBytes draws options.salt
  let uint8ArrayPassword ← passwordBytes .invalidPassword password
  if options.kdf.getD "argon2id" = "argon2id" then do
    let kdfparams ← validateArgon2idParams (orDefault options.m 262144)
      (orDefault options.t 8) (orDefault options.p 1)
      (orDefault options.dklen 32)
    let derivedKey ← (packages.argon2idSync uint8ArrayPassword (.inl salt)
      kdfparams.t kdfparams.m kdfparams.p kdfparams.dklen).mapError .other
    let cipher ← (packages.createCipheriv seedUint8Array derivedKey
      draws.iv).mapError .other
    let acc ← seedToAccount cryptography wallets seedUint8Array
    .ok {
      id := draws.id
      address := String.ofList ('Q' :: lowerCase (acc.address.toList.drop 1))
      ciphertext := String.ofList (Hex.encode cipher)
      iv := String.ofList (Hex.encode draws.iv)
      kdfparams
      salt := String.ofList (Hex.encode salt) }
  else .error .invalidKdf

def isObject : Value → Bool
  | .object .. => true
  | _ => false

def isString : Value → Bool
  | .string _ => true
  | _ => false

def isNumber : Value → Bool
  | .number number => decide (number ≠ .notANumber)
  | _ => false

def isUndefined : Value → Bool
  | .undefined => true
  | _ => false

/-- What `keyStoreSchema` asks of a value. -/
def keyStoreSchema (json : Value) : Bool :=
  let crypto := json.property "crypto"
  let salt := crypto.property "salt"
  isObject json && isObject crypto &&
    isString (crypto.property "cipher") &&
    isString (crypto.property "ciphertext") &&
    isObject (crypto.property "cipherparams") &&
    isString (crypto.property "kdf") &&
    isObject (crypto.property "kdfparams") &&
    (isUndefined salt || isString salt) &&
    isString (json.property "id") && isNumber (json.property "version") &&
    isString (json.property "address")

def isVersion1 : Value → Bool
  | .number version => decide (version = .finite 1)
  | _ => false

def isArgon2id : Value → Bool
  | .string kdf => decide (kdf = "argon2id")
  | _ => false

def textOf : Value → List Char
  | .string text => text.toList
  | _ => []

/-- `decrypt` of a keystore that is an object or has been parsed. -/
def decrypt (json : Value) (password : Password) :
    Except KeystoreError Web3Account :=
  let crypto := json.property "crypto"
  if keyStoreSchema json = false then .error .validation
  else if isVersion1 (json.property "version") = false then
    .error .keyStoreVersion
  else do
    let uint8ArrayPassword ← passwordBytes .validation password
    if isArgon2id (crypto.property "kdf") then do
      let given := crypto.property "kdfparams"
      let kdfparams ← validateArgon2idParams (given.property "m")
        (given.property "t") (given.property "p") (given.property "dklen")
      let uint8ArraySalt ← storedSalt (given.property "salt")
      let derivedKey ← (packages.argon2idSync uint8ArrayPassword
        uint8ArraySalt kdfparams.t kdfparams.m kdfparams.p
        kdfparams.dklen).mapError .other
      let ciphertext ← valueToBytes (crypto.property "ciphertext")
      let iv ← valueToBytes ((crypto.property "cipherparams").property "iv")
      let seed ← (packages.createDecipheriv ciphertext derivedKey
        iv).mapError .other
      let account ← seedToAccount cryptography wallets seed
      let stored := textOf (json.property "address")
      if lowerCase account.address.toList = 'q' :: lowerCase (stored.drop 1)
      then .ok account
      else .error (.keyStoreMismatch (String.ofList stored) account.address)
    else .error .invalidKdf

end Keystores

end Web3Js.Accounts
