import Web3Js.Tx.Account
import Web3Js.Tx.RoundTrip

/-!
# What is signed is what is submitted

Signing builds the transaction again from its own fields, and parsing builds it
once more from the serialized form.  Neither changes the fields that are
hashed, so the signature verifies after parsing and the sender is the account
of the seed.  Parsing knows no options: init code beyond the limit, which
options may allow, is refused there.
-/

namespace Web3Js.Tx

variable {cryptography : Cryptography} {rlp : RlpPackage}
  {tx : FeeMarketEIP1559Transaction}

section InitCode

/-- Default options accept calls, and init code up to the limit. -/
theorem checkInitCode_default {«to» : Option Address} {data : Bytes} :
    checkInitCode {} «to» data = .ok () ↔
      «to».isSome = true ∨ data.length ≤ 49152 := by
  cases «to» with
  | some address => simp [checkInitCode]
  | none =>
      simp only [checkInitCode, checkMaxInitCodeSize, Option.isNone_none,
        Option.getD_none, Common.param_mainnet, Outcome.ok_bind, zond]
      simp

theorem getCommon_some {common : Common} {input : Input} {found : Common}
    (read : getCommon (some common) input = .ok found) : found = common := by
  cases input with
  | undefined =>
      cases read
      rfl
  | null | bytes | array | text | number | fraction | bigint | address =>
      obtain ⟨buf, -, checked⟩ := Outcome.bind_eq_ok.mp read
      dsimp only at checked
      split at checked
      · cases checked
      · cases checked
        rfl

theorem getCommon_own {common : Common} {number : Nat}
    (same : number = common.chainId) :
    getCommon (some common) (.bigint number) = .ok common := by
  rw [getCommon_of_number (by simp) (number_bigint number)]
  exact if_neg (not_not.mpr same.symm)

/-- The limit stays the same with the common object of the transaction. -/
theorem Accepted.checkInitCode_own {txData : TxData} {opts : TxOptions}
    (accepted : Accepted cryptography txData opts tx) :
    checkInitCode { opts with common := some tx.common } tx.«to» tx.data =
      .ok () := by
  have initCode := accepted.initCode
  cases given : opts.common with
  | some common =>
      have read := accepted.commonRead
      rw [given] at read
      rw [getCommon_some read, ← given]
      exact initCode
  | none =>
      have read := accepted.commonRead
      rw [given] at read
      have limit : ∀ param, tx.common.param param = .ok (zond param) := by
        intro param
        rw [getCommon_eq_ok read, defaultCommon]
        split
        · exact Common.param_mainnet param
        · exact Common.param_custom _ param
      simp only [checkInitCode, given, checkMaxInitCodeSize, Option.getD_none,
        Option.getD_some, Common.param_mainnet, limit] at initCode ⊢
      exact initCode

end InitCode

namespace FeeMarketEIP1559Transaction

section Rebuilding

theorem recipient_address (field : Option Address) :
    (recipientBytes cryptography
      (match field with
      | some address => .address address
      | none => .undefined) >>= recipient) = .ok field := by
  cases field with
  | none => rfl
  | some address => exact recipient_buf address

theorem readOptional_some {content : Bytes} (nonempty : content ≠ []) :
    readOptional (.bytes content) = .ok (some content) := by
  have positive : 0 < content.length := List.length_pos_iff.mpr nonempty
  rw [readOptional, Input.emptyAsHex, toUint8Array, Outcome.ok_bind,
    if_pos positive]
  rintro _ ⟨⟩

/-- Authentication values replace those of the transaction. -/
theorem processAuthValues_eq {txData : TxData} {opts : TxOptions}
    (accepted : Accepted cryptography txData opts tx)
    {descriptor signature publicKey : Bytes} (hasDescriptor : descriptor ≠ [])
    (hasSignature : signature ≠ []) (hasPublicKey : publicKey ≠ []) :
    ∃ json, tx.processAuthValues cryptography descriptor [] signature
      publicKey = .ok { tx with
        descriptor := some descriptor, extraParams := none,
        signature := some signature, publicKey := some publicKey,
        AccessListJSON := json,
        txOptions := { tx.txOptions with common := some tx.common } } := by
  obtain ⟨json, accessListRead⟩ := accepted.valid.shape.read cryptography
  refine ⟨json, accepted_iff.mpr ?_⟩
  exact {
    toRead := recipient_address tx.«to»
    descriptorRead := readOptional_some hasDescriptor
    extraParamsRead := rfl
    signatureRead := readOptional_some hasSignature
    publicKeyRead := readOptional_some hasPublicKey
    nonceRead := readNumber_bigint tx.nonce
    gasLimitRead := readNumber_bigint tx.gasLimit
    valueRead := readNumber_bigint tx.value
    dataRead := rfl
    maxFeeRead := readNumber_bigint tx.maxFeePerGas
    maxPriorityFeeRead := readNumber_bigint tx.maxPriorityFeePerGas
    accessListRead
    commonRead := getCommon_own accepted.chainId
    chainId := accepted.chainId
    options := rfl
    valueBound := accepted.valueBound
    gasLimitBound := accepted.gasLimitBound
    nonceBound := accepted.nonceBound
    maxFeeBound := accepted.maxFeeBound
    maxPriorityFeeBound := accepted.maxPriorityFeeBound
    initCode := by
      rw [accepted.options]
      exact accepted.checkInitCode_own
    noArrays := by
      apply validateNotArray_entries.mpr
      refine ⟨rfl, rfl, rfl, rfl, ?_, rfl, rfl, rfl⟩
      rw [authData]
      cases tx.«to» <;> rfl
    upfront := accepted.upfront
    ordered := accepted.ordered }

end Rebuilding

section Signed

variable {Descriptor Wallet : Type} {wallets : WalletPackage Descriptor Wallet}

/-- The address that a wallet stands for. -/
def walletAddress (cryptography : Cryptography)
    (wallets : WalletPackage Descriptor Wallet) (wallet : Wallet) : Bytes :=
  addressFromPublicKeyAndDescriptor cryptography wallets
    (wallets.getPK wallet) (wallets.getDescriptor wallet)

/-- The transaction carries a wallet's signature over the message. -/
structure SignedBy (wallets : WalletPackage Descriptor Wallet)
    (wallet : Wallet) (message : Bytes) (tx : FeeMarketEIP1559Transaction) :
    Prop where
  descriptor : tx.descriptor =
    some (wallets.toBytes (wallets.getDescriptor wallet))
  extraParams : tx.extraParams = none
  signature : tx.signature = some (wallets.sign wallet message)
  publicKey : tx.publicKey = some (wallets.getPK wallet)

/-- The message that a wallet signs. -/
def walletMessage (cryptography : Cryptography) (rlp : RlpPackage)
    (wallets : WalletPackage Descriptor Wallet) (wallet : Wallet)
    (tx : FeeMarketEIP1559Transaction) : Bytes :=
  tx.getMessageToSign cryptography rlp
    (wallets.toBytes (wallets.getDescriptor wallet)) [] true

theorem SignedBy.message {wallet : Wallet} {message : Bytes}
    (signed : SignedBy wallets wallet message tx) :
    tx.getMessageToVerifySignature cryptography rlp =
      tx.walletMessage cryptography rlp wallets wallet := by
  rw [getMessageToVerifySignature, signed.descriptor, signed.extraParams]
  rfl

theorem SignedBy.verifySignature (documented : wallets.Documented)
    {wallet : Wallet}
    (signed : SignedBy wallets wallet
      (tx.getMessageToVerifySignature cryptography rlp) tx) :
    tx.verifySignature cryptography rlp wallets = true := by
  rw [FeeMarketEIP1559Transaction.verifySignature, signed.descriptor,
    documented.descriptorFrom_toBytes]
  dsimp only
  rw [if_pos (documented.type wallet), signed.signature, signed.publicKey,
    documented.verify]

theorem SignedBy.getSenderAddress (documented : wallets.Documented)
    {wallet : Wallet} {message : Bytes}
    (signed : SignedBy wallets wallet message tx) :
    tx.getSenderAddress cryptography wallets =
      Address.new (walletAddress cryptography wallets wallet) := by
  rw [FeeMarketEIP1559Transaction.getSenderAddress, signed.publicKey,
    signed.descriptor, Address.publicKeyAndDescriptorToAddress,
    if_pos (documented.publicKeyWidth wallet),
    documented.descriptorFrom_toBytes]
  rfl

/-- The transaction as a wallet signs it. -/
def withSignature (cryptography : Cryptography) (rlp : RlpPackage)
    (wallets : WalletPackage Descriptor Wallet) (wallet : Wallet)
    (tx : FeeMarketEIP1559Transaction) (json : List AccessListItem) :
    FeeMarketEIP1559Transaction :=
  { tx with
    descriptor := some (wallets.toBytes (wallets.getDescriptor wallet))
    extraParams := none
    signature := some (wallets.sign wallet
      (tx.walletMessage cryptography rlp wallets wallet))
    publicKey := some (wallets.getPK wallet)
    AccessListJSON := json
    txOptions := { tx.txOptions with common := some tx.common } }

theorem signedBy_withSignature {wallet : Wallet}
    {json : List AccessListItem} :
    SignedBy wallets wallet (tx.walletMessage cryptography rlp wallets wallet)
      (tx.withSignature cryptography rlp wallets wallet json) :=
  ⟨rfl, rfl, rfl, rfl⟩

/-- Signing keeps the first nine fields and signs what they say. -/
theorem sign_eq {txData : TxData} {opts : TxOptions}
    (accepted : Accepted cryptography txData opts tx)
    (documented : wallets.Documented) {seed : Bytes} {wallet : Wallet}
    (width : seed.length = SEED_BYTES)
    (created : wallets.newWalletFromExtendedSeed (.bytes seed) = .ok wallet) :
    ∃ json, tx.sign cryptography rlp wallets seed =
      .ok (tx.withSignature cryptography rlp wallets wallet json) := by
  have hasDescriptor :
      wallets.toBytes (wallets.getDescriptor wallet) ≠ [] := by
    intro empty
    have descriptorWidth :=
      documented.descriptorWidth (wallets.getDescriptor wallet)
    rw [empty] at descriptorWidth
    cases descriptorWidth
  have hasPublicKey : wallets.getPK wallet ≠ [] := by
    apply List.length_pos_iff.mp
    rw [documented.publicKeyWidth]
    exact documented.publicKeyBytes
  rw [sign, if_pos width, created, Outcome.ok_bind]
  exact processAuthValues_eq accepted hasDescriptor
    (documented.signature wallet _) hasPublicKey

theorem sign_valid {seed : Bytes} {signed : FeeMarketEIP1559Transaction}
    (made : tx.sign cryptography rlp wallets seed = .ok signed) :
    signed.Valid := by
  rw [sign] at made
  split at made
  · obtain ⟨wallet, -, rebuilt⟩ := Outcome.bind_eq_ok.mp made
    exact (accepted_iff.mp rebuilt).valid
  · cases made

/-- The signed transaction, parsed again without options. -/
theorem fromSerializedTx_sign {txData : TxData} {opts : TxOptions}
    (accepted : Accepted cryptography txData opts tx)
    (initCode : checkInitCode {} tx.«to» tx.data = .ok ())
    (rlpDocumented : rlp.Documented) (documented : wallets.Documented)
    {seed : Bytes} {wallet : Wallet} (width : seed.length = SEED_BYTES)
    (created : wallets.newWalletFromExtendedSeed (.bytes seed) = .ok wallet) :
    ∃ signed reparsed,
      tx.sign cryptography rlp wallets seed = .ok signed ∧
      fromSerializedTx cryptography rlp (signed.serialize rlp) {} =
        .ok reparsed ∧
      reparsed.payloadFields = tx.payloadFields ∧
      SignedBy wallets wallet (tx.walletMessage cryptography rlp wallets wallet)
        reparsed := by
  obtain ⟨json, signedMade⟩ :=
    sign_eq accepted documented width created
  obtain ⟨reparsedJson, reparsed⟩ :=
    (sign_valid signedMade).new_parsedData cryptography initCode
  have parsed := (fromSerializedTx_serialize rlpDocumented {}).trans reparsed
  exact ⟨_, _, signedMade, parsed, rfl, ⟨rfl, rfl, rfl, rfl⟩⟩

end Signed

section Accounts

variable {Descriptor Wallet : Type} {wallets : WalletPackage Descriptor Wallet}

theorem replaceFirst_hexlify (bytes : Bytes) :
    String.ofList (replaceFirst ['0', 'x'] ['Q'] (hexlify bytes).toList) =
      addressText bytes := by
  rw [hexlify, String.toList_ofList, replaceFirst]
  rfl

theorem hexToBytes_hexlify (bytes : Bytes) :
    Utils.hexToBytes (hexlify bytes) = .ok bytes := by
  simp [Utils.hexToBytes, Utils.hexToUint8Array, hexlify]

theorem toChecksumAddress_addressText (cryptography : Cryptography)
    {bytes : Bytes} (width : bytes.length = 64) :
    Utils.toChecksumAddress cryptography (addressText bytes) =
      .ok (canonicalAddress cryptography bytes) := by
  have both := Utils.toChecksumAddress_hexToAddress cryptography width
  rw [Utils.hexToAddress_hexlify width] at both
  exact both

theorem seedToAccount_eq {seed : SeedInput} {wallet : Wallet}
    (width : (walletAddress cryptography wallets wallet).length = 64)
    (created : wallets.newWalletFromExtendedSeed seed = .ok wallet) :
    seedToAccount cryptography wallets seed = .ok {
      address := canonicalAddress cryptography
        (walletAddress cryptography wallets wallet)
      seed := hexlify (wallets.getExtendedSeed wallet) } := by
  rw [seedToAccount, created, Outcome.ok_bind]
  dsimp only
  rw [replaceFirst_hexlify]
  change (Utils.toChecksumAddress cryptography (addressText
    (walletAddress cryptography wallets wallet)) >>= _) = _
  rw [toChecksumAddress_addressText cryptography width, Outcome.ok_bind]

/-- A parsed transaction that verifies leads to the checksummed address of its
sender. -/
theorem recoverTransaction_eq {serialized : Bytes} {address : Address}
    (parsed : fromSerializedTx cryptography rlp serialized {} = .ok tx)
    (verified : tx.verifySignature cryptography rlp wallets = true)
    (sender : tx.getSenderAddress cryptography wallets = .ok address) :
    recoverTransaction cryptography rlp wallets (hexlify serialized) =
      .ok (canonicalAddress cryptography address.buf) := by
  have made : TransactionFactory.fromSerializedData cryptography rlp serialized
      {} = .ok tx := by
    cases serialized with
    | nil => cases parsed
    | cons type payload =>
        have isType : type = 2 := by
          rw [fromSerializedTx] at parsed
          split at parsed
          · assumption
          · cases parsed
        rw [isType] at parsed ⊢
        exact parsed
  rw [recoverTransaction, hexToBytes_hexlify, Outcome.ok_bind, made,
    Outcome.ok_bind, if_pos verified, sender, Outcome.ok_bind]
  exact Utils.toChecksumAddress_hexToAddress cryptography address.width

/-- What `signTransaction` returns is the serialized form of the signed
transaction. -/
theorem signTransaction_raw {seed : String}
    {result : SignTransactionResult}
    (made : signTransaction cryptography rlp wallets tx seed = .ok result) :
    ∃ seedBytes signed, Utils.hexToBytes seed = .ok seedBytes ∧
      tx.sign cryptography rlp wallets seedBytes = .ok signed ∧
      result.rawTransaction = hexlify (signed.serialize rlp) := by
  obtain ⟨seedBytes, seedRead, rest⟩ := Outcome.bind_eq_ok.mp made
  obtain ⟨signed, signedMade, rest⟩ := Outcome.bind_eq_ok.mp rest
  refine ⟨seedBytes, signed, seedRead, signedMade, ?_⟩
  split at rest
  · obtain ⟨errors, -, rest⟩ := Outcome.bind_eq_ok.mp rest
    split at rest
    · obtain ⟨txHash, -, rest⟩ := Outcome.bind_eq_ok.mp rest
      obtain ⟨transactionHash, -, done⟩ := Outcome.bind_eq_ok.mp rest
      cases done
      rfl
    · cases rest
  · cases rest

theorem sha3Raw_hexlify (bytes : Bytes) :
    sha3Raw cryptography (hexlify bytes) =
      .ok (hexlify (cryptography.keccak256 bytes)) := by
  have isPrefix :
      (['0', 'x'].isPrefixOf (hexlify bytes).toList &&
        Validator.isHexStrict (hexlify bytes)) = true := by
    rw [isHexStrict_hexlify, hexlify, String.toList_ofList]
    rfl
  rw [sha3Raw, if_pos isPrefix, hexToBytes_hexlify, Outcome.ok_bind]

theorem isHexString_hexlify (bytes : Bytes) :
    Validator.isHexString (hexlify bytes) = true := by
  simp [Validator.isHexString, hexlify, Hex.isDigit_encode]

theorem hexToUint8Array_hexlify (bytes : Bytes) :
    Utils.hexToUint8Array (hexlify bytes) = .ok bytes := by
  simp [Utils.hexToUint8Array, hexlify]

/-- Signing succeeds when the gas limit covers the base fee. -/
theorem signTransaction_succeeds {txData : TxData} {opts : TxOptions}
    (accepted : Accepted cryptography txData opts tx)
    (documented : wallets.Documented) {text : String} {seed : Bytes}
    {wallet : Wallet} (seedRead : Utils.hexToBytes text = .ok seed)
    (width : seed.length = SEED_BYTES)
    (created : wallets.newWalletFromExtendedSeed (.bytes seed) = .ok wallet)
    {baseFee : Nat} (fee : tx.getBaseFee = .ok baseFee)
    (covered : baseFee ≤ tx.gasLimit) :
    ∃ signed result, tx.sign cryptography rlp wallets seed = .ok signed ∧
      signed.«to» = tx.«to» ∧ signed.data = tx.data ∧
      signTransaction cryptography rlp wallets tx text = .ok result ∧
      result.rawTransaction = hexlify (signed.serialize rlp) := by
  obtain ⟨json, signedMade⟩ : ∃ json,
      tx.sign cryptography rlp wallets seed =
        .ok (tx.withSignature cryptography rlp wallets wallet json) :=
    sign_eq accepted documented width created
  have verified : (tx.withSignature cryptography rlp wallets wallet
      json).verifySignature cryptography rlp wallets = true := by
    apply SignedBy.verifySignature documented
    rw [signedBy_withSignature.message]
    exact signedBy_withSignature
  have valid : (tx.withSignature cryptography rlp wallets wallet
      json).validate cryptography rlp wallets = .ok [] := by
    have sameFee : (tx.withSignature cryptography rlp wallets wallet
      json).getBaseFee = .ok baseFee := fee
    have sameLimit : ¬(tx.withSignature cryptography rlp wallets wallet
      json).gasLimit < baseFee := Nat.not_lt.mpr covered
    rw [validate, sameFee, Outcome.ok_bind]
    dsimp only
    rw [if_neg sameLimit, verified, if_neg (by simp)]
    rfl
  refine ⟨_, {
    messageHash := hexlify (tx.walletMessage cryptography rlp wallets wallet)
    signature := hexlify (wallets.sign wallet
      (tx.walletMessage cryptography rlp wallets wallet))
    rawTransaction := hexlify ((tx.withSignature cryptography rlp wallets
      wallet json).serialize rlp)
    transactionHash := hexlify (cryptography.keccak256 ((tx.withSignature
      cryptography rlp wallets wallet json).serialize rlp)) },
    signedMade, rfl, rfl, ?_, rfl⟩
  rw [signTransaction, seedRead, Outcome.ok_bind, signedMade, Outcome.ok_bind]
  change ((tx.withSignature cryptography rlp wallets wallet json).validate
    cryptography rlp wallets >>= _) = _
  rw [valid, Outcome.ok_bind, if_pos rfl]
  dsimp only
  rw [sha3Raw_hexlify, Outcome.ok_bind, hexToUint8Array_hexlify,
    Outcome.ok_bind]
  rfl

end Accounts

section Results

variable {Descriptor Wallet : Type} {wallets : WalletPackage Descriptor Wallet}

/-- For a call, or init code up to the limit: the signed transaction is parsed
to the fields that were signed, verifies and comes from the account of the
seed, which is what recovering returns. -/
theorem signing_round_trip (rlpDocumented : rlp.Documented)
    (documented : wallets.Documented)
    (hashWidth : cryptography.HashWidth) (txData : TxData) (opts : TxOptions)
    (made : fromTxData cryptography txData opts = .ok tx)
    (small : tx.«to».isSome = true ∨ tx.data.length ≤ 49152)
    (seed : Bytes) (width : seed.length = SEED_BYTES) (wallet : Wallet)
    (created : wallets.newWalletFromExtendedSeed (.bytes seed) = .ok wallet) :
    (∃ signed reparsed sender account,
      tx.sign cryptography rlp wallets seed = .ok signed ∧
      fromSerializedTx cryptography rlp (signed.serialize rlp) {} =
        .ok reparsed ∧
      reparsed.payloadFields = tx.payloadFields ∧
      reparsed.getMessageToVerifySignature cryptography rlp =
        tx.getMessageToSign cryptography rlp
          (wallets.toBytes (wallets.getDescriptor wallet)) [] true ∧
      reparsed.verifySignature cryptography rlp wallets = true ∧
      reparsed.getSenderAddress cryptography wallets = .ok sender ∧
      seedToAccount cryptography wallets (.bytes seed) = .ok account ∧
      (sender.toString >>= Utils.toChecksumAddress cryptography) =
        .ok account.address) ∧
    ∀ text result, Validator.isHexString text = true →
      Utils.hexToBytes text = .ok seed →
      signTransaction cryptography rlp wallets tx text = .ok result →
      ∃ account,
        seedToAccount cryptography wallets (.text text) = .ok account ∧
        recoverTransaction cryptography rlp wallets result.rawTransaction =
          .ok account.address := by
  have accepted := accepted_iff.mp made
  obtain ⟨signed, reparsed, signedMade, parsed, fields, signedBy⟩ :=
    fromSerializedTx_sign accepted (checkInitCode_default.mpr small)
      rlpDocumented documented width created
  have message : reparsed.getMessageToVerifySignature cryptography rlp =
      tx.getMessageToSign cryptography rlp
        (wallets.toBytes (wallets.getDescriptor wallet)) [] true := by
    rw [signedBy.message, walletMessage, getMessageToSign, getMessageToSign,
      fields]
  have verified :
      reparsed.verifySignature cryptography rlp wallets = true := by
    apply SignedBy.verifySignature documented
    rw [message]
    exact signedBy
  have addressWidth :
      (walletAddress cryptography wallets wallet).length = 64 :=
    hashWidth _ 64
  have sender : reparsed.getSenderAddress cryptography wallets =
      .ok ⟨walletAddress cryptography wallets wallet, addressWidth⟩ := by
    rw [signedBy.getSenderAddress documented]
    exact Address.new_buf ⟨_, addressWidth⟩
  constructor
  · refine ⟨signed, reparsed, _, _, signedMade, parsed, fields, message,
      verified, sender, seedToAccount_eq addressWidth created, ?_⟩
    exact Utils.toChecksumAddress_hexToAddress cryptography addressWidth
  · intro text result isHex seedRead resultMade
    obtain ⟨seedBytes, again, seedReadAgain, signedAgain, rawTransaction⟩ :=
      signTransaction_raw resultMade
    rw [seedRead] at seedReadAgain
    cases seedReadAgain
    rw [signedMade] at signedAgain
    cases signedAgain
    have createdFromText :
        wallets.newWalletFromExtendedSeed (.text text) = .ok wallet := by
      rw [documented.hexSeed text seed isHex seedRead]
      exact created
    refine ⟨_, seedToAccount_eq addressWidth createdFromText, ?_⟩
    rw [rawTransaction]
    exact recoverTransaction_eq parsed verified sender

/-- A contract creation with init code that its options allow. -/
def creation (length : Nat) : FeeMarketEIP1559Transaction where
  nonce := 0
  gasLimit := 1000000
  «to» := none
  value := 0
  data := List.replicate length 0
  descriptor := none
  extraParams := none
  signature := none
  publicKey := none
  chainId := 1
  maxPriorityFeePerGas := 0
  maxFeePerGas := 0
  accessList := .list []
  AccessListJSON := []
  common := .mainnet
  txOptions := { allowUnlimitedInitCodeSize := true }

theorem creation_accepted (length : Nat) :
    Accepted cryptography
      { gasLimit := .bytes [15, 66, 64],
        data := .bytes (List.replicate length 0) }
      { allowUnlimitedInitCodeSize := true } (creation length) := by
  constructor
  case noArrays =>
    exact validateNotArray_entries.mpr
      ⟨rfl, rfl, rfl, rfl, rfl, rfl, rfl, rfl⟩
  case valueBound | gasLimitBound | nonceBound | maxFeeBound
    | maxPriorityFeeBound | upfront | ordered =>
      dsimp only [creation]
      decide
  all_goals rfl

theorem creation_fee (length : Nat) :
    (creation length).getBaseFee =
      .ok (length * 4 + 2 * ((length + 31) / 32) + 21000 + 32000) := by
  have cost : ((creation length).data.map fun byte =>
      if byte = 0 then 4 else 16).sum = length * 4 := by
    simp [creation]
  have params : ∀ param, (creation length).common.param param =
      .ok (zond param) := Common.param_mainnet
  have isCreation : (creation length).«to».isNone = true := rfl
  have dataLength : (creation length).data.length = length :=
    List.length_replicate
  have dataFee : (creation length).getDataFee =
      .ok (length * 4 + 2 * ((length + 31) / 32)) := by
    have listFee : getDataFeeEIP2930 (creation length).accessList
        (creation length).common = .ok 0 := by
      simp only [getDataFeeEIP2930, params, Outcome.ok_bind]
      simp [creation, elementLength]
    rw [getDataFee]
    simp only [params, Outcome.ok_bind, zond, cost, dataLength, listFee,
      isCreation, if_true, Nat.add_zero]
  rw [getBaseFee]
  simp only [params, Outcome.ok_bind, dataFee, isCreation, if_true, zond]

theorem signing_round_trip_creation :
    (∃ signed reparsed sender account,
      (creation 3).sign .simple .simple .simple (List.replicate 51 1) =
        .ok signed ∧
      fromSerializedTx .simple .simple (signed.serialize .simple) {} =
        .ok reparsed ∧
      reparsed.payloadFields = (creation 3).payloadFields ∧
      reparsed.getMessageToVerifySignature .simple .simple =
        (creation 3).getMessageToSign .simple .simple [1, 0, 0] [] true ∧
      reparsed.verifySignature .simple .simple .simple = true ∧
      reparsed.getSenderAddress .simple .simple = .ok sender ∧
      seedToAccount .simple .simple (.bytes (List.replicate 51 1)) =
        .ok account ∧
      (sender.toString >>= Utils.toChecksumAddress .simple) =
        .ok account.address) ∧
    ∃ result account,
      signTransaction .simple .simple .simple (creation 3)
        (hexlify (List.replicate 51 1)) = .ok result ∧
      seedToAccount .simple .simple
        (.text (hexlify (List.replicate 51 1))) = .ok account ∧
      recoverTransaction .simple .simple .simple result.rawTransaction =
        .ok account.address := by
  have seedRead := hexToBytes_hexlify (List.replicate 51 1)
  obtain ⟨submitted, recovered⟩ :=
    signing_round_trip RlpPackage.simple_documented
      WalletPackage.simple_documented Cryptography.simple_hashWidth _ _
      (accepted_iff.mpr (creation_accepted 3)) (.inr (by decide))
      (List.replicate 51 1) rfl (List.replicate 51 1) rfl
  obtain ⟨_, result, -, -, -, resultMade, -⟩ :=
    signTransaction_succeeds (creation_accepted 3)
      WalletPackage.simple_documented seedRead rfl rfl (creation_fee 3)
      (by decide)
  obtain ⟨account, accountFound, addressRecovered⟩ :=
    recovered _ result (isHexString_hexlify _) seedRead resultMade
  exact ⟨submitted, result, account, resultMade, accountFound,
    addressRecovered⟩

/-- Parsing without options has the limit on init code. -/
theorem small_of_parsed (documented : rlp.Documented)
    {reparsed : FeeMarketEIP1559Transaction}
    (parsed : fromSerializedTx cryptography rlp (tx.serialize rlp) {} =
      .ok reparsed) : tx.«to».isSome = true ∨ tx.data.length ≤ 49152 := by
  rw [fromSerializedTx_serialize documented] at parsed
  have accepted := accepted_iff.mp parsed
  have sameTo := (recipient_bytes tx.«to»).symm.trans accepted.toRead
  have sameData : tx.data = reparsed.data := Except.ok.inj accepted.dataRead
  have initCode := accepted.initCode
  rw [← Except.ok.inj sameTo, ← sameData] at initCode
  exact checkInitCode_default.mp initCode

/-- Signing allows init code that parsing and recovering refuse. -/
theorem creation_not_recovered :
    ∃ signed result,
      (creation 49153).sign .simple .simple .simple (List.replicate 51 1) =
        .ok signed ∧
      (∀ reparsed, fromSerializedTx .simple .simple (signed.serialize .simple)
        {} ≠ .ok reparsed) ∧
      signTransaction .simple .simple .simple (creation 49153)
        (hexlify (List.replicate 51 1)) = .ok result ∧
      ∀ address, recoverTransaction .simple .simple .simple
        result.rawTransaction ≠ .ok address := by
  obtain ⟨signed, result, signedMade, sameTo, sameData, resultMade, raw⟩ :=
    signTransaction_succeeds (creation_accepted 49153)
      WalletPackage.simple_documented
      (hexToBytes_hexlify (List.replicate 51 1)) rfl rfl
      (creation_fee 49153) (by decide)
  have refused : ∀ reparsed, fromSerializedTx .simple .simple
      (signed.serialize .simple) {} ≠ .ok reparsed := by
    intro reparsed parsed
    rcases small_of_parsed RlpPackage.simple_documented parsed with
      call | small
    · rw [sameTo] at call
      cases call
    · rw [sameData, creation, List.length_replicate] at small
      omega
  refine ⟨signed, result, signedMade, refused, resultMade, ?_⟩
  intro address recovered
  rw [raw, recoverTransaction, hexToBytes_hexlify, Outcome.ok_bind] at recovered
  obtain ⟨tx, parsed, -⟩ := Outcome.bind_eq_ok.mp recovered
  exact refused tx parsed

end Results

end FeeMarketEIP1559Transaction

end Web3Js.Tx
