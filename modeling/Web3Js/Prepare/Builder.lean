import Web3Js.Prepare.Formatter
import Web3Js.Tx.Account

/-!
# Building a transaction

The builder formats what the caller gave and fills in what is missing, one
field after the other, from the configuration and from the answers of a node.
Each step here is one of the builder's own; fields that no step reads or
writes are left out.
-/

namespace Web3Js.Prepare

open Web3Js.Tx (AccessListItem SeedInput WalletPackage)

structure CustomChain where
  name : Option String := none
  networkId : Option Numbers := none
  chainId : Option Numbers := none

/-- The `common` property of a transaction, which is no object of the class of
this name. -/
structure CommonData where
  customChain : Option CustomChain := none
  baseChain : Option String := none
  hardfork : Option String := none

/-- A transaction as a caller gives it, and as the builder leaves it. -/
structure Transaction where
  «from» : Option String := none
  «to» : Option String := none
  value : Option Numbers := none
  accessList : Option (List AccessListItem) := none
  common : Option CommonData := none
  gas : Option Numbers := none
  type : Option Numbers := none
  maxFeePerGas : Option Numbers := none
  maxPriorityFeePerGas : Option Numbers := none
  data : Option BytesInput := none
  input : Option BytesInput := none
  nonce : Option Numbers := none
  chain : Option String := none
  hardfork : Option String := none
  chainId : Option Numbers := none
  networkId : Option Numbers := none
  gasLimit : Option Numbers := none

/-- What the builder reads of the configuration. -/
structure Web3Context where
  defaultAccount : Option String := none
  defaultNetworkId : Option Numbers := none
  defaultChain : String := "mainnet"
  defaultHardfork : String := "zond"
  defaultCommon : Option CommonData := none
  defaultTransactionType : Numbers := .text "0x2"
  defaultMaxPriorityFeePerGas : Numbers := .text "0x9502f900"

/-- The answers of a node, which may be `null`. -/
structure Node where
  getTransactionCount : (address : String) → Except String (Option Numbers)
  getChainId : Except String (Option Numbers)
  getId : Except String (Option Numbers)
  /-- The base fee of the default block. -/
  getBaseFeePerGas : Except String (Option Numbers)
  estimateGas : Transaction → Except String (Option Numbers)

section Format

def AccessListItem.format (item : AccessListItem) : AccessListItem :=
  { item with storageKeys := item.storageKeys.map convertBytes32 }

def CommonData.format (format : FMT_NUMBER) (common : CommonData) :
    CommonData :=
  { common with
    customChain := common.customChain.map fun customChain =>
      { customChain with
        networkId := customChain.networkId.map (convertUint format)
        chainId := customChain.chainId.map (convertUint format) } }

/-- `format` with the schema of a transaction; a property without a format of
its own stays as it is. -/
def Transaction.format (format : FMT_NUMBER) (transaction : Transaction) :
    Transaction :=
  { transaction with
    value := transaction.value.map (convertUint format)
    gas := transaction.gas.map (convertUint format)
    type := transaction.type.map (convertUint format)
    maxFeePerGas := transaction.maxFeePerGas.map (convertUint format)
    maxPriorityFeePerGas :=
      transaction.maxPriorityFeePerGas.map (convertUint format)
    accessList := transaction.accessList.map (·.map AccessListItem.format)
    data := transaction.data.map convertBytes
    input := transaction.input.map convertBytes
    nonce := transaction.nonce.map (convertUint format)
    chainId := transaction.chainId.map (convertUint format)
    networkId := transaction.networkId.map (convertUint format)
    common := transaction.common.map (CommonData.format format)
    gasLimit := transaction.gasLimit.map (convertUint format) }

end Format

section Types

def defaultTransactionTypeParser (transaction : Transaction) :
    Option Numbers :=
  match transaction.type with
  | some type => some (convertUint .HEX type)
  | none =>
      if transaction.maxFeePerGas.isSome ||
          transaction.maxPriorityFeePerGas.isSome then
        some (.text "0x2")
      else
        let givenHardfork := transaction.hardfork.or
          (transaction.common.bind CommonData.hardfork)
        -- The index of an unknown hardfork is a number too.
        givenHardfork.map fun _ => .text "0x2"

def getTransactionType (transaction : Transaction)
    (web3Context : Web3Context) : Option Numbers :=
  (defaultTransactionTypeParser transaction).or
    (some (convertUint .HEX web3Context.defaultTransactionType))

end Types

section GasPricing

def MAX_UINT256 : Int := 2 ^ 256 - 1

/-- `BigInt` of a number; `none` where it throws. -/
def bigIntOf : Numbers → Option Int
  | .number value | .bigint value => some value
  | .fraction _ => none
  | .text content => bigIntOfString content

/-- Whether a number is text with a sign in front. -/
def hasMinus : Numbers → Bool
  | .text content => ['-'].isPrefixOf content.toList
  | _ => false

def safeBigInt (value : Option Numbers) (label : String) :
    Except String Int :=
  match value with
  | none => .error ("Expected numeric " ++ label ++ ", got undefined")
  | some value =>
      if hasMinus value then .error ("Negative " ++ label ++ " from RPC")
      else
        match bigIntOf value with
        | none => .error "Cannot convert to a BigInt"
        | some result =>
            if result < 0 ∨ MAX_UINT256 < result then
              .error (label ++ " out of uint256 range: " ++ toString result)
            else .ok result

def getEip1559GasPricing (node : Node) (transaction : Transaction)
    (web3Context : Web3Context) : Except String Transaction := do
  let answer ← node.getBaseFeePerGas
  let baseFeePerGas ←
    safeBigInt (answer.map (convertUint .HEX)) "block.baseFeePerGas"
  let maxPriorityFeePerGas ← safeBigInt
    (transaction.maxPriorityFeePerGas.or
      (some web3Context.defaultMaxPriorityFeePerGas)) "maxPriorityFeePerGas"
  .ok { transaction with
    maxPriorityFeePerGas :=
      some (convertUint .HEX (.bigint maxPriorityFeePerGas))
    maxFeePerGas := some (convertUint .HEX (transaction.maxFeePerGas.getD
      (.bigint (baseFeePerGas * 2 + maxPriorityFeePerGas)))) }

/-- The transaction with the fees of `getTransactionGasPricing`. -/
def getTransactionGasPricing (node : Node) (transaction : Transaction)
    (web3Context : Web3Context) : Except String Transaction :=
  match getTransactionType transaction web3Context with
  | none => .ok transaction
  | some (.text transactionType) =>
      if transactionType = "0x2" then
        getEip1559GasPricing node transaction web3Context
      else .error "unsupported transaction type"
  | some _ => .error "transactionType.startsWith is not a function"

end GasPricing

section Steps

variable {Descriptor Wallet : Type} (cryptography : Cryptography)
  (wallets : WalletPackage Descriptor Wallet) (node : Node)
  (web3Context : Web3Context)

/-- `getTransactionFromOrToAttr` for the sender, without a transaction. -/
def getSender : Option SeedInput → Except String (Option String)
  | some seed => do
      let account ← Tx.seedToAccount cryptography wallets seed
      let address ← Utils.toChecksumAddress cryptography account.address
      .ok (some address)
  | none => .ok web3Context.defaultAccount

def populateFrom (seed : Option SeedInput) (transaction : Transaction) :
    Except String Transaction :=
  match transaction.«from» with
  | some _ => .ok transaction
  | none => do
      let sender ← getSender cryptography wallets web3Context seed
      .ok { transaction with «from» := sender }

def populateNonce (transaction : Transaction) : Except String Transaction :=
  match transaction.nonce with
  | some _ => .ok transaction
  | none =>
      match transaction.«from» with
      | none => .error "unable to populate nonce, no from address available"
      | some address => do
          let answer ← node.getTransactionCount address
          .ok { transaction with nonce := answer.map (convertUint .HEX) }

def populateValue (transaction : Transaction) : Transaction :=
  { transaction with value := transaction.value.or (some (.text "0x")) }

def dataAndInputError (data input : BytesInput) : Except String Unit := do
  let dataBytes ← Utils.bytesToUint8Array data
  let inputBytes ← Utils.bytesToUint8Array input
  .error ("data: " ++ hexlify dataBytes ++ ", input: " ++ hexlify inputBytes ++
    ". You can't have \"data\" and \"input\" as properties of transactions " ++
    "at the same time, please use either \"data\" or \"input\" instead.")

def withPrefix : BytesInput → Except String BytesInput
  | .bytes _ => .error "startsWith is not a function"
  | .text content =>
      if ['0', 'x'].isPrefixOf content.toList then .ok (.text content)
      else .ok (.text (String.ofList ('0' :: 'x' :: content.toList)))

/-- Data and input that are both given must be equal. -/
def requireSameData (data input : BytesInput) : Except String Unit :=
  if data ≠ input then dataAndInputError data input else .ok ()

def populateData (transaction : Transaction) : Except String Transaction :=
  match transaction.data, transaction.input with
  | some data, some input => do
      requireSameData data input
      let prefixed ← withPrefix data
      .ok { transaction with data := some prefixed }
  | some data, none => do
      let prefixed ← withPrefix data
      .ok { transaction with data := some prefixed }
  | none, some input => do
      let prefixed ← withPrefix input
      .ok { transaction with input := some prefixed }
  | none, none => .ok { transaction with input := some (.text "0x") }

/-- The common object of the configuration. -/
def configuredCommon : Except String (Option CommonData) :=
  match web3Context.defaultCommon with
  | none => .ok none
  | some common =>
      match common.customChain with
      | some _ => .ok (some common)
      | none => .error "Cannot read properties of undefined (reading 'chainId')"

/-- The common object, and the chain and the hardfork next to it. -/
def populateCommon (transaction : Transaction) : Except String Transaction :=
  match transaction.common with
  | some _ => .ok transaction
  | none => do
      let common ← configuredCommon web3Context
      .ok { transaction with
        common := common
        chain := transaction.chain.or (some web3Context.defaultChain)
        hardfork := transaction.hardfork.or (some web3Context.defaultHardfork) }

/-- The chain id of the custom chain, where there is a common object. -/
def customChainId (transaction : Transaction) :
    Except String (Option Numbers) :=
  match transaction.common with
  | none => .ok none
  | some common =>
      match common.customChain with
      | some customChain => .ok customChain.chainId
      | none => .error "Cannot read properties of undefined (reading 'chainId')"

def populateChainId (transaction : Transaction) : Except String Transaction :=
  match transaction.chainId with
  | some _ => .ok transaction
  | none => do
      let customId ← customChainId transaction
      match customId with
      | some _ => .ok transaction
      | none => do
          let answer ← node.getChainId
          .ok { transaction with chainId := answer.map (convertUint .HEX) }

def populateNetworkId (transaction : Transaction) :
    Except String Transaction :=
  match transaction.networkId, web3Context.defaultNetworkId with
  | some _, _ => .ok transaction
  | none, some networkId => .ok { transaction with networkId := some networkId }
  | none, none => do
      let answer ← node.getId
      .ok { transaction with networkId := answer.map (convertUint .HEX) }

def populateGasLimit (transaction : Transaction) : Transaction :=
  { transaction with gasLimit := transaction.gasLimit.or transaction.gas }

def populateType (transaction : Transaction) : Transaction :=
  { transaction with type := getTransactionType transaction web3Context }

def populateAccessList (transaction : Transaction) : Transaction :=
  if transaction.type = some (.text "0x1") ∨
      transaction.type = some (.text "0x2") then
    { transaction with accessList := transaction.accessList.or (some []) }
  else transaction

def populateGasPrice (fillGasPrice : Bool) (transaction : Transaction) :
    Except String Transaction :=
  if fillGasPrice then getTransactionGasPricing node transaction web3Context
  else .ok transaction

end Steps

section FormatTransaction

variable (cryptography : Cryptography)

/-- `toHex` of formatted bytes. -/
def bytesToHexText : BytesInput → Except String String
  | .bytes content => .ok (hexlify content)
  | .text content => Utils.toHex cryptography content

def checkDataAndInput (transaction : Transaction) : Except String Unit :=
  match transaction.data, transaction.input with
  | some data, some input => do
      let dataHex ← bytesToHexText cryptography data
      let inputHex ← bytesToHexText cryptography input
      if dataHex ≠ inputHex then dataAndInputError data input else .ok ()
  | _, _ => .ok ()

/-- The gas limit in the place of the gas. -/
def aliasGas (transaction : Transaction) : Transaction :=
  match transaction.gasLimit with
  | some gasLimit =>
      { transaction with gas := some gasLimit, gasLimit := none }
  | none => transaction

/-- `formatTransaction` to hexadecimal text, without filling in. -/
def formatTransaction (transaction : Transaction) :
    Except String Transaction := do
  let formatted := transaction.format .HEX
  checkDataAndInput cryptography formatted
  .ok (aliasGas formatted)

end FormatTransaction

section Builder

variable {Descriptor Wallet : Type} (cryptography : Cryptography)
  (wallets : WalletPackage Descriptor Wallet) (node : Node)
  (web3Context : Web3Context)

def populateGas (fillGasLimit : Bool) (transaction : Transaction) :
    Except String Transaction :=
  if transaction.gas.isNone && transaction.gasLimit.isNone && fillGasLimit then
    do
      let formatted ← formatTransaction cryptography transaction
      let answer ← node.estimateGas formatted
      .ok { transaction with
        gas := answer.map fun gas => convertUint .HEX (convertUint .HEX gas) }
  else .ok transaction

def defaultTransactionBuilder (transaction : Transaction)
    (seed : Option SeedInput) (fillGasPrice fillGasLimit : Bool) :
    Except String Transaction := do
  let populated ← populateFrom cryptography wallets web3Context seed
    (transaction.format .BIGINT)
  let populated ← populateNonce node populated
  let populated ← populateData (populateValue populated)
  let populated ← populateCommon web3Context populated
  let populated ← populateChainId node populated
  let populated ← populateNetworkId node web3Context populated
  let populated ← populateGasPrice node web3Context fillGasPrice
    (populateAccessList
      (populateType web3Context (populateGasLimit populated)))
  populateGas cryptography node fillGasLimit populated

end Builder

end Web3Js.Prepare
