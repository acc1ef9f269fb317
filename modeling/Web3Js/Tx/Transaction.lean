import Web3Js.Tx.AccessList

/-!
# The fee market transaction

The constructor converts every field, checks the bounds and keeps the result;
`Accepted` says what it demands of the data and what the transaction then
holds.  A transaction is written as the list of its thirteen fields, parsed
back from such a list, and written as JSON.

Messages are given without the description of the transaction that the
source appends to some of them.
-/

namespace Web3Js.Tx

/-- The package of the recursive length prefixes. -/
structure RlpPackage where
  encode : Rlp.Item → Bytes
  decode : Bytes → Except String Rlp.Item

/-- Decoding inverts encoding, and a list is decoded from its encoding
only. -/
structure RlpPackage.Documented (rlp : RlpPackage) : Prop where
  inverse : ∀ item, rlp.decode (rlp.encode item) = .ok item
  strict : ∀ input items, rlp.decode input = .ok (.list items) →
    rlp.encode (.list items) = input

/-- The prefixes as they are specified. -/
def RlpPackage.simple : RlpPackage where
  encode := Rlp.encode
  decode input :=
    match Rlp.decode input with
    | some item => .ok item
    | none => .error "invalid RLP"

theorem RlpPackage.simple_documented : RlpPackage.simple.Documented where
  inverse item := by
    simp only [RlpPackage.simple, Rlp.decode_encode_item]
  strict input items decoded := by
    simp only [RlpPackage.simple] at decoded
    split at decoded
    · rename_i item found
      cases decoded
      exact Rlp.encode_of_decode found
    · cases decoded

structure TxOptions where
  common : Option Common := none
  allowUnlimitedInitCodeSize : Bool := false

structure TxData where
  chainId : Input := .undefined
  nonce : Input := .undefined
  maxPriorityFeePerGas : Input := .undefined
  maxFeePerGas : Input := .undefined
  gasLimit : Input := .undefined
  «to» : Input := .undefined
  value : Input := .undefined
  data : Input := .undefined
  accessList : AccessListInput := .nullish
  descriptor : Input := .undefined
  extraParams : Input := .undefined
  signature : Input := .undefined
  publicKey : Input := .undefined
  type : Input := .undefined

/-- The fields of the base class. -/
structure BaseTransaction where
  nonce : Nat
  gasLimit : Nat
  «to» : Option Address
  value : Nat
  data : Bytes
  descriptor : Option Bytes
  extraParams : Option Bytes
  signature : Option Bytes
  publicKey : Option Bytes

structure FeeMarketEIP1559Transaction extends BaseTransaction where
  chainId : Nat
  maxPriorityFeePerGas : Nat
  maxFeePerGas : Nat
  accessList : Rlp.Item
  AccessListJSON : List AccessListItem
  common : Common
  txOptions : TxOptions

def TRANSACTION_TYPE : UInt8 := 2

def MAX_UINT64 : Nat := 2 ^ 64 - 1

def MAX_INTEGER : Nat := 2 ^ 256 - 1

section Checks

/-- Throw unless the condition holds. -/
def require (condition : Prop) [Decidable condition] (message : String) :
    Except String Unit :=
  if condition then .ok () else .error message

@[simp] theorem require_eq_ok {condition : Prop} [Decidable condition]
    {message : String} : require condition message = .ok () ↔ condition := by
  unfold require
  split
  · rename_i holds
    simp [holds]
  · rename_i fails
    simp [fails]

/-- The limit and its name, for the number of bits. -/
def integerLimit : (bits : Nat) → Except String (Nat × String)
  | 64 => .ok (MAX_UINT64, "MAX_UINT64 (2^64-1)")
  | 256 => .ok (MAX_INTEGER, "MAX_INTEGER (2^256-1)")
  | _ => .error "unimplemented bits value"

def validateCannotExceedMaxInteger (key : String) (value bits : Nat)
    (cannotEqual : Bool) : Except String Unit := do
  let (limit, name) ← integerLimit bits
  if cannotEqual then
    require (value < limit)
      (key ++ " cannot equal or exceed " ++ name ++ ", given " ++
        toString value)
  else
    require (value ≤ limit)
      (key ++ " cannot exceed " ++ name ++ ", given " ++ toString value)

/-- The keys that `_validateNotArray` looks at. -/
def txDataKeys : List String :=
  ["nonce", "gasLimit", "to", "value", "data", "type", "baseFee",
    "maxFeePerGas", "chainId"]

def validateNotArray (values : List (String × Input)) : Except String Unit :=
  forM values fun (key, value) =>
    require (key ∈ txDataKeys → value.isArray = false)
      (key ++ " cannot be an array")

/-- `v.length > 0 && v[0] === 0`; an element of an array is not zero. -/
def hasLeadingZero : Rlp.Item → Bool
  | .bytes (0 :: _) => true
  | _ => false

def validateNoLeadingZeroes (values : List (String × Rlp.Item)) :
    Except String Unit :=
  forM values fun (key, value) =>
    require (hasLeadingZero value = false) (key ++ " cannot have leading zeroes")

end Checks

namespace TxData

/-- The fields by their names. -/
def entries (txData : TxData) : List (String × Input) :=
  [("chainId", txData.chainId), ("nonce", txData.nonce),
    ("maxPriorityFeePerGas", txData.maxPriorityFeePerGas),
    ("maxFeePerGas", txData.maxFeePerGas), ("gasLimit", txData.gasLimit),
    ("to", txData.«to»), ("value", txData.value), ("data", txData.data),
    ("descriptor", txData.descriptor), ("extraParams", txData.extraParams),
    ("signature", txData.signature), ("publicKey", txData.publicKey),
    ("type", txData.type)]

end TxData

section Construction

/-- A field that is there only when it has bytes. -/
def readOptional (input : Input) : Except String (Option Bytes) := do
  let buf ← toUint8Array input.emptyAsHex
  .ok (if 0 < buf.length then some buf else none)

/-- The bytes of the recipient. -/
def recipientBytes (cryptography : Cryptography) : Input → Except String Bytes
  | .text «to» =>
      if «to» = "" then .ok []
      else if Validator.isAddressString cryptography «to» true then do
        let hex ← Utils.toHex cryptography «to»
        textToUint8Array hex
      else
        .error ("Cannot convert string to Uint8Array. only supports address " ++
          "strings and this string was given: " ++ «to»)
  | «to» => toUint8Array «to»

def recipient (toB : Bytes) : Except String (Option Address) :=
  if 0 < toB.length then (Address.new toB).map some else .ok none

def getCommon (common : Option Common) (chainId : Input) :
    Except String Common :=
  match chainId with
  | .undefined => .ok (common.getD .mainnet)
  | chainId => do
      let buf ← toUint8Array chainId
      let chainIdBigInt := uint8ArrayToBigInt buf
      match common with
      | some common =>
          if common.chainId ≠ chainIdBigInt then
            .error "The chain ID does not match the chain ID of Common"
          else .ok common
      | none =>
          if Common.isSupportedChainId chainIdBigInt then .ok .mainnet
          else .ok (.custom chainIdBigInt)

/-- The limit on init code, for a contract creation. -/
def checkInitCode (opts : TxOptions) («to» : Option Address) (data : Bytes) :
    Except String Unit :=
  if «to».isNone && !opts.allowUnlimitedInitCodeSize then
    checkMaxInitCodeSize (opts.common.getD .mainnet) data.length
  else .ok ()

def BaseTransaction.new (cryptography : Cryptography) (txData : TxData)
    (opts : TxOptions) : Except String BaseTransaction := do
  let toB ← recipientBytes cryptography txData.«to»
  let descriptor ← readOptional txData.descriptor
  let extraParams ← readOptional txData.extraParams
  let signature ← readOptional txData.signature
  let publicKey ← readOptional txData.publicKey
  let nonce ← readNumber txData.nonce
  let gasLimit ← readNumber txData.gasLimit
  let «to» ← recipient toB
  let value ← readNumber txData.value
  let data ← toUint8Array txData.data.emptyAsHex
  validateCannotExceedMaxInteger "value" value 256 false
  validateCannotExceedMaxInteger "gasLimit" gasLimit 64 false
  validateCannotExceedMaxInteger "nonce" nonce 64 true
  checkInitCode opts «to» data
  .ok { nonce, gasLimit, «to», value, data, descriptor, extraParams, signature,
        publicKey }

def FeeMarketEIP1559Transaction.new (cryptography : Cryptography)
    (txData : TxData) (opts : TxOptions) :
    Except String FeeMarketEIP1559Transaction := do
  let base ← BaseTransaction.new cryptography txData opts
  let common ← getCommon opts.common txData.chainId
  let (AccessListJSON, accessList) ←
    readAccessList cryptography txData.accessList
  let maxFeePerGas ← readNumber txData.maxFeePerGas
  let maxPriorityFeePerGas ← readNumber txData.maxPriorityFeePerGas
  validateCannotExceedMaxInteger "maxFeePerGas" maxFeePerGas 256 false
  validateCannotExceedMaxInteger "maxPriorityFeePerGas" maxPriorityFeePerGas
    256 false
  validateNotArray txData.entries
  require (base.gasLimit * maxFeePerGas ≤ MAX_INTEGER)
    "gasLimit * maxFeePerGas cannot exceed MAX_INTEGER (2^256-1)"
  require (maxPriorityFeePerGas ≤ maxFeePerGas)
    ("maxFeePerGas cannot be less than maxPriorityFeePerGas (The total must " ++
      "be the larger of the two)")
  .ok { base with
        chainId := common.chainId, maxPriorityFeePerGas, maxFeePerGas,
        accessList, AccessListJSON, common, txOptions := opts }

end Construction

namespace FeeMarketEIP1559Transaction

def fromTxData (cryptography : Cryptography) (txData : TxData)
    (opts : TxOptions) : Except String FeeMarketEIP1559Transaction :=
  new cryptography txData opts

section Parsing

/-- The part of `fromValuesArray` after the destructuring; an unsigned
transaction has neither a signature nor a public key. -/
def fromValues (cryptography : Cryptography)
    (chainId nonce maxPriorityFeePerGas maxFeePerGas gasLimit «to» value data
      accessList descriptor extraParams : Rlp.Item)
    (signature publicKey : Input) (opts : TxOptions) :
    Except String FeeMarketEIP1559Transaction :=
  match chainId with
  | .list _ => .error "chainId cannot be an array"
  | .bytes chainIdBytes => do
      validateNoLeadingZeroes [("chainId", chainId), ("nonce", nonce),
        ("maxPriorityFeePerGas", maxPriorityFeePerGas),
        ("maxFeePerGas", maxFeePerGas), ("gasLimit", gasLimit),
        ("value", value)]
      new cryptography
        { chainId := .bigint (uint8ArrayToBigInt chainIdBytes)
          nonce := .ofItem nonce
          maxPriorityFeePerGas := .ofItem maxPriorityFeePerGas
          maxFeePerGas := .ofItem maxFeePerGas
          gasLimit := .ofItem gasLimit
          «to» := .ofItem «to»
          value := .ofItem value
          data := .ofItem data
          accessList := .nested accessList
          descriptor := .ofItem descriptor
          extraParams := .ofItem extraParams
          signature, publicKey } opts

def fromValuesArray (cryptography : Cryptography) (values : List Rlp.Item)
    (opts : TxOptions) : Except String FeeMarketEIP1559Transaction :=
  match values with
  | [chainId, nonce, maxPriorityFeePerGas, maxFeePerGas, gasLimit, «to», value,
      data, accessList, descriptor, extraParams] =>
      fromValues cryptography chainId nonce maxPriorityFeePerGas maxFeePerGas
        gasLimit «to» value data accessList descriptor extraParams .undefined
        .undefined opts
  | [chainId, nonce, maxPriorityFeePerGas, maxFeePerGas, gasLimit, «to», value,
      data, accessList, descriptor, extraParams, signature, publicKey] =>
      fromValues cryptography chainId nonce maxPriorityFeePerGas maxFeePerGas
        gasLimit «to» value data accessList descriptor extraParams
        (.ofItem signature) (.ofItem publicKey) opts
  | _ => .error "Invalid EIP-1559 transaction."

def fromSerializedTx (cryptography : Cryptography) (rlp : RlpPackage)
    (serialized : Bytes) (opts : TxOptions) :
    Except String FeeMarketEIP1559Transaction :=
  match serialized with
  | [] => .error "Invalid serialized tx input: not an EIP-1559 transaction"
  | type :: payload =>
      if type = TRANSACTION_TYPE then do
        let values ← rlp.decode payload
        match values with
        | .bytes _ => .error "Invalid serialized tx input: must be array"
        | .list values => fromValuesArray cryptography values opts
      else
        .error "Invalid serialized tx input: not an EIP-1559 transaction"

end Parsing

section Writing

/-- The bytes of a field that may be missing. -/
def optionalItem (field : Option Bytes) : Rlp.Item :=
  .bytes (field.getD [])

def numberItem (number : Nat) : Rlp.Item :=
  .bytes (bigIntToUnpaddedUint8Array number)

/-- `raw().slice(0, 9)` -/
def payloadFields (tx : FeeMarketEIP1559Transaction) : List Rlp.Item :=
  [numberItem tx.chainId, numberItem tx.nonce,
    numberItem tx.maxPriorityFeePerGas, numberItem tx.maxFeePerGas,
    numberItem tx.gasLimit, .bytes ((tx.«to».map Address.buf).getD []),
    numberItem tx.value, .bytes tx.data, tx.accessList]

def raw (tx : FeeMarketEIP1559Transaction) : List Rlp.Item :=
  tx.payloadFields ++
    [optionalItem tx.descriptor, optionalItem tx.extraParams,
      optionalItem tx.signature, optionalItem tx.publicKey]

def serialize (rlp : RlpPackage) (tx : FeeMarketEIP1559Transaction) : Bytes :=
  TRANSACTION_TYPE :: rlp.encode (.list tx.raw)

/-- The JSON of a transaction. -/
structure JsonTx where
  chainId : String
  nonce : String
  maxPriorityFeePerGas : String
  maxFeePerGas : String
  gasLimit : String
  «to» : Option String
  value : String
  data : String
  accessList : List AccessListItem
  descriptor : Option String
  extraParams : Option String
  signature : Option String
  publicKey : Option String

/-- The JSON, once its recipient and its access list are written. -/
def writeJSON (tx : FeeMarketEIP1559Transaction) («to» : Option String)
    (accessList : List AccessListItem) : JsonTx where
  chainId := Utils.bigIntToHex tx.chainId
  nonce := Utils.bigIntToHex tx.nonce
  maxPriorityFeePerGas := Utils.bigIntToHex tx.maxPriorityFeePerGas
  maxFeePerGas := Utils.bigIntToHex tx.maxFeePerGas
  gasLimit := Utils.bigIntToHex tx.gasLimit
  «to» := «to»
  value := Utils.bigIntToHex tx.value
  data := hexlify tx.data
  accessList := accessList
  descriptor := tx.descriptor.map hexlify
  extraParams := tx.extraParams.map hexlify
  signature := tx.signature.map hexlify
  publicKey := tx.publicKey.map hexlify

def toJSON (tx : FeeMarketEIP1559Transaction) : Except String JsonTx := do
  let accessListJSON ← getAccessListJSON tx.accessList
  let recipient ← match tx.«to» with
    | some address => address.toString.map some
    | none => .ok none
  .ok (tx.writeJSON recipient accessListJSON)

/-- Text that may be missing, as a field. -/
def optionalText : Option String → Input
  | some text => .text text
  | none => .undefined

/-- The JSON of a transaction as the data of one. -/
def JsonTx.txData (json : JsonTx) : TxData where
  chainId := .text json.chainId
  nonce := .text json.nonce
  maxPriorityFeePerGas := .text json.maxPriorityFeePerGas
  maxFeePerGas := .text json.maxFeePerGas
  gasLimit := .text json.gasLimit
  «to» := optionalText json.«to»
  value := .text json.value
  data := .text json.data
  accessList := .json json.accessList
  descriptor := optionalText json.descriptor
  extraParams := optionalText json.extraParams
  signature := optionalText json.signature
  publicKey := optionalText json.publicKey

end Writing

end FeeMarketEIP1559Transaction

end Web3Js.Tx
