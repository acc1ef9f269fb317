import Web3Js.Prepare.Builder

/-!
# From the builder to the transaction

What the builder leaves is formatted, validated and handed to the constructor
of the transaction, with the chain parameters that its fields ask for.
Messages are given without the value that the source puts in front of them.
-/

namespace Web3Js.Prepare

open Web3Js.Tx (SeedInput WalletPackage FeeMarketEIP1559Transaction TxData
  TxOptions)

section Validation

/-- `===` of numbers. -/
def strictlyEqual (left right : Numbers) : Bool :=
  decide (left = right) && decide (left ≠ .fraction "NaN")

def validateCustomChainInfo (transaction : Transaction) : Except String Unit :=
  match transaction.common with
  | none => .ok ()
  | some common =>
      match common.customChain with
      | none =>
          .error "If tx.common is provided it must have tx.common.customChain"
      | some customChain =>
          match customChain.chainId, transaction.chainId with
          | none, _ =>
              .error ("If tx.common is provided it must have " ++
                "tx.common.customChain and tx.common.customChain.chainId")
          | some _, none => .ok ()
          | some customId, some chainId =>
              if strictlyEqual chainId customId then .ok ()
              else
                .error ("Chain Id doesnt match in tx.chainId " ++
                  "tx.common.customChain.chainId")

def validateChainInfo (transaction : Transaction) : Except String Unit :=
  if transaction.common.isSome && transaction.chain.isSome &&
      transaction.hardfork.isSome then
    .error ("Please provide the common object or the chain and hardfork " ++
      "property but not all together.")
  else if transaction.chain.isSome != transaction.hardfork.isSome then
    .error ("When specifying chain and hardfork, both values must be " ++
      "defined. Received \"chain\": " ++
      transaction.chain.getD "undefined" ++ ", \"hardfork\": " ++
      transaction.hardfork.getD "undefined")
  else .ok ()

/-- A name next to the common object is the one in the common object. -/
def validateNames (given inCommon : Option String) (message : String) :
    Except String Unit :=
  match given, inCommon with
  | some given, some inCommon =>
      if given = inCommon then .ok () else .error message
  | _, _ => .ok ()

def validateBaseChain (transaction : Transaction) : Except String Unit :=
  validateNames transaction.chain
    (transaction.common.bind CommonData.baseChain)
    "Chain doesnt match in tx.chain tx.common.basechain"

def validateHardfork (transaction : Transaction) : Except String Unit :=
  validateNames transaction.hardfork
    (transaction.common.bind CommonData.hardfork)
    "hardfork doesnt match in tx.hardfork tx.common.hardfork"

/-- `isUInt`, for 512 bits. -/
def isUInt (value : Numbers) : Bool :=
  let valueToCheck := match value with
    | .number value | .bigint value => some value
    | .fraction _ => none
    | .text content =>
        if content = "" then none
        else if Validator.isHexStrict content then
          Validator.hexToNumber content
        else bigIntOfString content
  match valueToCheck with
  | some valueToCheck =>
      decide (0 ≤ valueToCheck ∧ valueToCheck ≤ 2 ^ 512 - 1)
  | none => false

def validateFeeMarketGas (transaction : Transaction) : Except String Unit :=
  if !transaction.gas.any isUInt then .error "Gas is lower than 0"
  else if !transaction.maxFeePerGas.any isUInt ||
      !transaction.maxPriorityFeePerGas.any isUInt then
    .error "maxPriorityFeePerGas or maxFeePerGas is lower than 0"
  else .ok ()

def validateGas (transaction : Transaction) : Except String Unit :=
  let gasPresent := transaction.gas.isSome || transaction.gasLimit.isSome
  let feeMarketGasPresent := gasPresent &&
    transaction.maxPriorityFeePerGas.isSome && transaction.maxFeePerGas.isSome
  if feeMarketGasPresent then validateFeeMarketGas transaction
  else .error "\"gas\" is missing"

/-- `value.startsWith('-')` -/
def startsWithMinus : Numbers → Except String Bool
  | .text content => .ok (['-'].isPrefixOf content.toList)
  | _ => .error "startsWith is not a function"

def validateNonceAndChainId (transaction : Transaction) :
    Except String Unit :=
  match transaction.nonce, transaction.chainId with
  | some nonce, some chainId => do
      let negativeNonce ← startsWithMinus nonce
      let negative ←
        if negativeNonce then .ok true else startsWithMinus chainId
      if negative then .error "Nonce or chainId is lower than 0" else .ok ()
  | _, _ => .error "Nonce or chainId is lower than 0"

def validateTransactionForSigning (cryptography : Cryptography)
    (transaction : Transaction) : Except String Unit := do
  validateCustomChainInfo transaction
  validateChainInfo transaction
  validateBaseChain transaction
  validateHardfork transaction
  let formattedTransaction ← formatTransaction cryptography transaction
  validateGas formattedTransaction
  validateNonceAndChainId formattedTransaction

end Validation

section Options

/-- `toNumber`; `undefined` is no number. -/
def toNumber : Option Numbers → Except String Numbers
  | none => .error "can not parse as number"
  | some (.number value) => .ok (.number value)
  | some (.fraction shown) => .ok (.fraction shown)
  | some (.bigint value) => .ok (.number value)
  | some (.text content) =>
      let number :=
        if Validator.isHexStrict content then Validator.hexToNumber content
        else bigIntOfString content
      match number with
      | some number => .ok (.number number)
      | none => .error "can not parse as number"

/-- Whether a number counts as true. -/
def truthy : Numbers → Bool
  | .number value | .bigint value => decide (value ≠ 0)
  | .fraction shown => decide (shown ≠ "NaN")
  | .text content => decide (content ≠ "")

/-- `Common.custom`; the id of the chain is read when the transaction is
built, where a negative one matches no field. -/
def customCommon (chainId : Numbers) (defaultHardfork baseChain : String) :
    Except String Tx.Common :=
  if baseChain = "mainnet" then
    match chainId with
    | .number (.ofNat chainId) =>
        .ok {
          chainId := chainId
          hardforks := Tx.Common.mainnetHardforks
          hardfork := defaultHardfork }
    | _ => .error "The chain ID does not match the chain ID of Common"
  else .error ("Chain with name " ++ baseChain ++ " not supported")

def getQRLjsTransactionOptions (web3Context : Web3Context)
    (transaction : Transaction) : Except String TxOptions :=
  let hasTransactionSigningOptions :=
    (transaction.chain.isSome && transaction.hardfork.isSome) ||
      transaction.common.isSome
  if hasTransactionSigningOptions then do
    let customChain := transaction.common.bind CommonData.customChain
    let name := ((customChain.bind CustomChain.name).or
      transaction.chain).getD "custom-network"
    let chainId ← toNumber
      ((customChain.bind CustomChain.chainId).or transaction.chainId)
    let networkId ← toNumber
      ((customChain.bind CustomChain.networkId).or transaction.networkId)
    let defaultHardfork := ((transaction.common.bind CommonData.hardfork).or
      transaction.hardfork).getD web3Context.defaultHardfork
    let baseChain := ((transaction.common.bind CommonData.baseChain).or
      transaction.chain).getD web3Context.defaultChain
    if truthy chainId && truthy networkId && decide (name ≠ "") then do
      let common ← customCommon chainId defaultHardfork baseChain
      .ok { common := some common }
    else .ok {}
  else
    match web3Context.defaultCommon with
    -- The configured object lacks the methods that the constructor calls.
    | some _ => .error "common.chainId is not a function"
    | none => do
        let chainId ← toNumber transaction.chainId
        match transaction.networkId with
        | some networkId => do
            let _ ← toNumber (some networkId)
        | none => .ok ()
        let common ← customCommon chainId
          (transaction.hardfork.getD web3Context.defaultHardfork)
          web3Context.defaultChain
        .ok { common := some common }

/-- A field that may be missing. -/
def numberInput (value : Option Numbers) : Tx.Input :=
  (value.map Numbers.input).getD .undefined

def getQRLjsTxDataFromTransaction (transaction : Transaction) : TxData where
  nonce := numberInput transaction.nonce
  gasLimit := numberInput (transaction.gasLimit.or transaction.gas)
  «to» := (transaction.«to».map Tx.Input.text).getD .undefined
  value := numberInput transaction.value
  data := ((transaction.data.or transaction.input).map
    BytesInput.input).getD .undefined
  type := numberInput transaction.type
  chainId := numberInput transaction.chainId
  accessList := (transaction.accessList.map Tx.AccessListInput.json).getD
    .nullish
  maxPriorityFeePerGas := numberInput transaction.maxPriorityFeePerGas
  maxFeePerGas := numberInput transaction.maxFeePerGas

end Options

/-- The only type that is supported is the second. -/
def TransactionFactory.fromTxData (cryptography : Cryptography)
    (txData : TxData) (txOptions : TxOptions) :
    Except String FeeMarketEIP1559Transaction := do
  let type ← Tx.toUint8Array txData.type
  let txType := Tx.uint8ArrayToBigInt type
  if txType = 2 then
    FeeMarketEIP1559Transaction.fromTxData cryptography txData txOptions
  else
    .error ("Tx instantiation with type " ++ toString txType ++
      " not supported")

section Preparation

variable {Descriptor Wallet : Type} (cryptography : Cryptography)
  (wallets : WalletPackage Descriptor Wallet) (node : Node)
  (web3Context : Web3Context)

/-- A sender next to a seed is the account of the seed. -/
def checkSender (transaction : Transaction) (seed : Option SeedInput) :
    Except String Unit :=
  match transaction.«from», seed with
  | some sender, some seed => do
      let account ← Tx.seedToAccount cryptography wallets seed
      let given ← Utils.toChecksumAddress cryptography sender
      let derived ← Utils.toChecksumAddress cryptography account.address
      if given = derived then .ok ()
      else
        .error ("Provided 'from' address (" ++ sender ++
          ") does not match the address derived from the signing seed (" ++
          account.address ++ ").")
  | _, _ => .ok ()

def prepareTransactionForSigning (transaction : Transaction)
    (seed : Option SeedInput) (fillGasPrice fillGasLimit : Bool) :
    Except String FeeMarketEIP1559Transaction := do
  checkSender cryptography wallets transaction seed
  let populatedTransaction ← defaultTransactionBuilder cryptography wallets
    node web3Context transaction seed fillGasPrice fillGasLimit
  let formattedTransaction ←
    formatTransaction cryptography populatedTransaction
  validateTransactionForSigning cryptography formattedTransaction
  let options ← getQRLjsTransactionOptions web3Context formattedTransaction
  TransactionFactory.fromTxData cryptography
    (getQRLjsTxDataFromTransaction formattedTransaction) options

end Preparation

end Web3Js.Prepare
