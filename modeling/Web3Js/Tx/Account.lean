import Web3Js.Tx.Construction

/-!
# Accounts and signatures

An account signs a transaction with the wallet of its seed: the first nine
fields are hashed with the wallet's descriptor, and the transaction is built
again with the signature and the public key.  Recovering reads the serialized
transaction, verifies the signature over the same fields and derives the
address from the public key and the descriptor.

The wallet itself comes from a package outside the repository.
-/

namespace Web3Js.Tx

/-- An extended seed as the package takes it. -/
inductive SeedInput
  | bytes (content : Bytes)
  | text (content : String)

/-- The wallet package.  A field that a transaction lacks is handed over as it
is. -/
structure WalletPackage (Descriptor Wallet : Type) where
  newWalletFromExtendedSeed : SeedInput → Except String Wallet
  getDescriptor : Wallet → Descriptor
  getPK : Wallet → Bytes
  getExtendedSeed : Wallet → Bytes
  sign : Wallet → (message : Bytes) → Bytes
  descriptorFrom : Option Bytes → Except String Descriptor
  toBytes : Descriptor → Bytes
  type : Descriptor → Nat
  ML_DSA_87 : Nat
  verify : (signature : Option Bytes) → (message : Bytes) →
    (publicKey : Option Bytes) → Descriptor → Except String Bool
  CryptoPublicKeyBytes : Nat

/-- What the package documents: seeds may be given in hexadecimal, wallets are
of its one type, descriptors are read back from their three bytes, and
verification accepts what signing makes. -/
structure WalletPackage.Documented {Descriptor Wallet : Type}
    (wallets : WalletPackage Descriptor Wallet) : Prop where
  hexSeed : ∀ text seed, Validator.isHexString text = true →
    Utils.hexToBytes text = .ok seed →
      wallets.newWalletFromExtendedSeed (.text text) =
        wallets.newWalletFromExtendedSeed (.bytes seed)
  descriptorFrom_toBytes : ∀ descriptor,
    wallets.descriptorFrom (some (wallets.toBytes descriptor)) = .ok descriptor
  descriptorWidth : ∀ descriptor, (wallets.toBytes descriptor).length = 3
  type : ∀ wallet, wallets.type (wallets.getDescriptor wallet) =
    wallets.ML_DSA_87
  publicKeyWidth : ∀ wallet,
    (wallets.getPK wallet).length = wallets.CryptoPublicKeyBytes
  publicKeyBytes : 0 < wallets.CryptoPublicKeyBytes
  signature : ∀ wallet message, wallets.sign wallet message ≠ []
  verify : ∀ wallet message,
    wallets.verify (some (wallets.sign wallet message)) message
      (some (wallets.getPK wallet)) (wallets.getDescriptor wallet) = .ok true

/-- Wallets that are their seeds, and signatures that repeat the message. -/
def WalletPackage.simple : WalletPackage Unit Bytes where
  newWalletFromExtendedSeed
    | .bytes seed => .ok seed
    | .text text => Utils.hexToBytes text
  getDescriptor _ := ()
  getPK _ := List.replicate 2592 0
  getExtendedSeed wallet := wallet
  sign _ message := 1 :: message
  descriptorFrom descriptor :=
    if descriptor = some [1, 0, 0] then .ok () else .error "unknown descriptor"
  toBytes _ := [1, 0, 0]
  type _ := 1
  ML_DSA_87 := 1
  verify signature message _ _ := .ok (signature == some (1 :: message))
  CryptoPublicKeyBytes := 2592

theorem WalletPackage.simple_documented : WalletPackage.simple.Documented where
  hexSeed _ _ _ seedRead := seedRead
  descriptorFrom_toBytes _ := rfl
  descriptorWidth _ := rfl
  type _ := rfl
  publicKeyWidth _ := List.length_replicate
  publicKeyBytes := by decide
  signature _ _ := nofun
  verify _ _ := congrArg Except.ok (beq_self_eq_true _)

def SEED_BYTES : Nat := 51

section Wallets

variable {Descriptor Wallet : Type} (cryptography : Cryptography)
  (rlp : RlpPackage) (wallets : WalletPackage Descriptor Wallet)

def addressFromPublicKeyAndDescriptor (publicKey : Bytes)
    (descriptor : Descriptor) : Bytes :=
  cryptography.shake256 (wallets.toBytes descriptor ++ publicKey) 64

def Address.publicKeyAndDescriptorToAddress :
    (pubKey descriptor : Option Bytes) → Except String Bytes
  | some pubKey, some descBytes =>
      if pubKey.length = wallets.CryptoPublicKeyBytes then do
        let descriptor ← wallets.descriptorFrom (some descBytes)
        .ok (addressFromPublicKeyAndDescriptor cryptography wallets pubKey
          descriptor)
      else
        .error ("Expected pubKey to be of length " ++
          wallets.CryptoPublicKeyBytes.repr)
  | _, _ =>
      .error "This method only supports Uint8Array but input was: undefined"

namespace FeeMarketEIP1559Transaction

section Gas

def getDataFee (tx : FeeMarketEIP1559Transaction) : Except String Nat := do
  let txDataZero ← tx.common.param .txDataZero
  let txDataNonZero ← tx.common.param .txDataNonZero
  let cost := (tx.data.map fun byte =>
    if byte = 0 then txDataZero else txDataNonZero).sum
  let initCodeCost ←
    if tx.«to».isNone then do
      let initCodeWordCost ← tx.common.param .initCodeWordCost
      .ok (initCodeWordCost * ((tx.data.length + 31) / 32))
    else .ok 0
  let accessListFee ← getDataFeeEIP2930 tx.accessList tx.common
  .ok (cost + initCodeCost + accessListFee)

def getBaseFee (tx : FeeMarketEIP1559Transaction) : Except String Nat := do
  let txFee ← tx.common.param .tx
  let fee ← tx.getDataFee
  if tx.«to».isNone then do
    let txCreationFee ← tx.common.param .txCreation
    .ok (fee + txFee + txCreationFee)
  else .ok (fee + txFee)

end Gas

section Signatures

def isSigned (tx : FeeMarketEIP1559Transaction) : Bool :=
  tx.descriptor.isSome && tx.signature.isSome && tx.publicKey.isSome

def getMessageToSign (tx : FeeMarketEIP1559Transaction)
    (descriptor extraParams : Bytes) : (hashMessage : Bool) → Bytes
  | true => cryptography.keccak256 (TRANSACTION_TYPE :: rlp.encode
      (.list (tx.payloadFields ++ [.bytes descriptor, .bytes extraParams])))
  | false => TRANSACTION_TYPE :: rlp.encode
      (.list (tx.payloadFields ++ [.bytes descriptor, .bytes extraParams]))

def getMessageToVerifySignature (tx : FeeMarketEIP1559Transaction) : Bytes :=
  tx.getMessageToSign cryptography rlp (tx.descriptor.getD [])
    (tx.extraParams.getD []) true

/-- A failing package counts as an invalid signature. -/
def verifySignature (tx : FeeMarketEIP1559Transaction) : Bool :=
  let msgHash := tx.getMessageToVerifySignature cryptography rlp
  match wallets.descriptorFrom tx.descriptor with
  | .error _ => false
  | .ok desc =>
      if wallets.type desc = wallets.ML_DSA_87 then
        match wallets.verify tx.signature msgHash tx.publicKey desc with
        | .ok valid => valid
        | .error _ => false
      else false

def getSenderAddress (tx : FeeMarketEIP1559Transaction) :
    Except String Address := do
  let buf ← Address.publicKeyAndDescriptorToAddress cryptography wallets
    tx.publicKey tx.descriptor
  Address.new buf

/-- The data of a transaction with other authentication values. -/
def authData (tx : FeeMarketEIP1559Transaction)
    (descriptor extraParams signature publicKey : Bytes) : TxData where
  chainId := .bigint tx.chainId
  nonce := .bigint tx.nonce
  maxPriorityFeePerGas := .bigint tx.maxPriorityFeePerGas
  maxFeePerGas := .bigint tx.maxFeePerGas
  gasLimit := .bigint tx.gasLimit
  «to» := match tx.«to» with
    | some address => .address address
    | none => .undefined
  value := .bigint tx.value
  data := .bytes tx.data
  accessList := .nested tx.accessList
  descriptor := .bytes descriptor
  extraParams := .bytes extraParams
  signature := .bytes signature
  publicKey := .bytes publicKey

def processAuthValues (tx : FeeMarketEIP1559Transaction)
    (descriptor extraParams signature publicKey : Bytes) :
    Except String FeeMarketEIP1559Transaction :=
  fromTxData cryptography
    (tx.authData descriptor extraParams signature publicKey)
    { tx.txOptions with common := some tx.common }

def sign (tx : FeeMarketEIP1559Transaction) (seed : Bytes) :
    Except String FeeMarketEIP1559Transaction :=
  if seed.length = SEED_BYTES then do
    let wallet ← wallets.newWalletFromExtendedSeed (.bytes seed)
    let descBytes := wallets.toBytes (wallets.getDescriptor wallet)
    let msgHash := tx.getMessageToSign cryptography rlp descBytes [] true
    let signature := wallets.sign wallet msgHash
    tx.processAuthValues cryptography descBytes [] signature
      (wallets.getPK wallet)
  else .error "Seed must be 51 bytes in length."

/-- `validate(true)`: the errors found. -/
def validate (tx : FeeMarketEIP1559Transaction) :
    Except String (List String) := do
  let baseFee ← tx.getBaseFee
  let gasErrors :=
    if tx.gasLimit < baseFee then
      ["gasLimit is too low. given " ++ toString tx.gasLimit ++
        ", need at least " ++ toString baseFee]
    else []
  let signatureErrors :=
    if tx.isSigned && !tx.verifySignature cryptography rlp wallets then
      ["Invalid Signature"]
    else []
  .ok (gasErrors ++ signatureErrors)

end Signatures

end FeeMarketEIP1559Transaction

def TransactionFactory.fromSerializedData (data : Bytes) (txOptions : TxOptions) :
    Except String FeeMarketEIP1559Transaction :=
  match data with
  | 2 :: _ =>
      FeeMarketEIP1559Transaction.fromSerializedTx cryptography rlp data
        txOptions
  | type :: _ =>
      .error ("TypedTransaction with ID " ++ toString type ++ " unknown")
  | [] => .error "TypedTransaction with ID undefined unknown"

/-- `text.replace(pattern, replacement)` -/
def replaceFirst (pattern replacement : List Char) : List Char → List Char
  | [] => if pattern = [] then replacement else []
  | char :: text =>
      if pattern.isPrefixOf (char :: text) then
        replacement ++ (char :: text).drop pattern.length
      else char :: replaceFirst pattern replacement text

/-- `sha3Raw` of a string; an empty hash and its constant are one. -/
def sha3Raw (data : String) : Except String String := do
  let bytes ←
    if ['0', 'x'].isPrefixOf data.toList && Validator.isHexStrict data then
      Utils.hexToBytes data
    else .ok (cryptography.utf8ToBytes data)
  .ok (hexlify (cryptography.keccak256 bytes))

def transactionSigningError (errorDetails : String) : String :=
  "Invalid signature. \"" ++ errorDetails ++ "\""

structure SignTransactionResult where
  messageHash : String
  signature : String
  rawTransaction : String
  transactionHash : String

def signTransaction (transaction : FeeMarketEIP1559Transaction)
    (seed : String) : Except String SignTransactionResult := do
  let seedBytes ← Utils.hexToBytes seed
  let signedTx ← transaction.sign cryptography rlp wallets seedBytes
  match signedTx.descriptor, signedTx.signature, signedTx.publicKey with
  | some descriptor, some signature, some _ => do
      let validationErrors ← signedTx.validate cryptography rlp wallets
      if validationErrors = [] then do
        let rawTx := hexlify (signedTx.serialize rlp)
        let txHash ← sha3Raw cryptography rawTx
        let transactionHash ← Utils.hexToUint8Array txHash
        .ok {
          messageHash := hexlify (signedTx.getMessageToSign cryptography rlp
            descriptor (signedTx.extraParams.getD []) true)
          signature := hexlify signature
          rawTransaction := rawTx
          transactionHash := hexlify transactionHash }
      else
        -- Each error is appended to the text with the text before it.
        .error (transactionSigningError (validationErrors.foldl
          (fun errorString validationError =>
            errorString ++ errorString ++ " " ++ validationError ++ ".")
          "Signer Error "))
  | _, _, _ => .error (transactionSigningError "Signer Error")

def recoverTransaction (rawTransaction : String) : Except String String := do
  let data ← Utils.hexToBytes rawTransaction
  let tx ← TransactionFactory.fromSerializedData cryptography rlp data {}
  if tx.verifySignature cryptography rlp wallets then do
    let address ← tx.getSenderAddress cryptography wallets
    let text ← address.toString
    Utils.toChecksumAddress cryptography text
  else .error (transactionSigningError "Signature verification failed")

structure Web3Account where
  address : String
  seed : String

def seedToAccount (seed : SeedInput) : Except String Web3Account := do
  let acc ← wallets.newWalletFromExtendedSeed seed
  let hex := hexlify (addressFromPublicKeyAndDescriptor cryptography wallets
    (wallets.getPK acc) (wallets.getDescriptor acc))
  let address := String.ofList (replaceFirst ['0', 'x'] ['Q'] hex.toList)
  let checksummed ← Utils.toChecksumAddress cryptography address
  .ok { address := checksummed, seed := hexlify (wallets.getExtendedSeed acc) }

end Wallets

end Web3Js.Tx
