import Web3Js.Tx.Transaction

/-!
# What the constructor accepts

A transaction is built from data exactly when every field converts to the
transaction's own and the bounds hold.  What a transaction satisfies follows
from this once and for all; so does that a transaction is built again from its
own fields, in whatever form they are given.
-/

namespace Web3Js.Tx

variable {cryptography : Cryptography}

/-- The demands of the constructor. -/
structure Accepted (cryptography : Cryptography) (txData : TxData)
    (opts : TxOptions) (tx : FeeMarketEIP1559Transaction) : Prop where
  toRead : (recipientBytes cryptography txData.«to» >>= recipient) =
    .ok tx.«to»
  descriptorRead : readOptional txData.descriptor = .ok tx.descriptor
  extraParamsRead : readOptional txData.extraParams = .ok tx.extraParams
  signatureRead : readOptional txData.signature = .ok tx.signature
  publicKeyRead : readOptional txData.publicKey = .ok tx.publicKey
  nonceRead : readNumber txData.nonce = .ok tx.nonce
  gasLimitRead : readNumber txData.gasLimit = .ok tx.gasLimit
  valueRead : readNumber txData.value = .ok tx.value
  dataRead : toUint8Array txData.data.emptyAsHex = .ok tx.data
  maxFeeRead : readNumber txData.maxFeePerGas = .ok tx.maxFeePerGas
  maxPriorityFeeRead :
    readNumber txData.maxPriorityFeePerGas = .ok tx.maxPriorityFeePerGas
  accessListRead : readAccessList cryptography txData.accessList =
    .ok (tx.AccessListJSON, tx.accessList)
  commonRead : getCommon opts.common txData.chainId = .ok tx.common
  chainId : tx.chainId = tx.common.chainId
  options : tx.txOptions = opts
  valueBound : tx.value ≤ MAX_INTEGER
  gasLimitBound : tx.gasLimit ≤ MAX_UINT64
  nonceBound : tx.nonce < MAX_UINT64
  maxFeeBound : tx.maxFeePerGas ≤ MAX_INTEGER
  maxPriorityFeeBound : tx.maxPriorityFeePerGas ≤ MAX_INTEGER
  initCode : checkInitCode opts tx.«to» tx.data = .ok ()
  noArrays : validateNotArray txData.entries = .ok ()
  upfront : tx.gasLimit * tx.maxFeePerGas ≤ MAX_INTEGER
  ordered : tx.maxPriorityFeePerGas ≤ tx.maxFeePerGas

section Acceptance

theorem validateCannotExceedMaxInteger_256 {key : String} {value : Nat} :
    validateCannotExceedMaxInteger key value 256 false = .ok () ↔
      value ≤ MAX_INTEGER := by
  simp [validateCannotExceedMaxInteger, integerLimit]

theorem validateCannotExceedMaxInteger_64 {key : String} {value : Nat} :
    validateCannotExceedMaxInteger key value 64 false = .ok () ↔
      value ≤ MAX_UINT64 := by
  simp [validateCannotExceedMaxInteger, integerLimit]

theorem validateCannotExceedMaxInteger_below_64 {key : String} {value : Nat} :
    validateCannotExceedMaxInteger key value 64 true = .ok () ↔
      value < MAX_UINT64 := by
  simp [validateCannotExceedMaxInteger, integerLimit]

theorem accepted_iff {txData : TxData} {opts : TxOptions}
    {tx : FeeMarketEIP1559Transaction} :
    FeeMarketEIP1559Transaction.new cryptography txData opts = .ok tx ↔
      Accepted cryptography txData opts tx := by
  constructor
  · intro made
    obtain ⟨base, baseMade, made⟩ := Outcome.bind_eq_ok.mp made
    obtain ⟨common, commonRead, made⟩ := Outcome.bind_eq_ok.mp made
    obtain ⟨⟨json, accessList⟩, accessListRead, made⟩ :=
      Outcome.bind_eq_ok.mp made
    obtain ⟨maxFee, maxFeeRead, made⟩ := Outcome.bind_eq_ok.mp made
    obtain ⟨maxPriorityFee, maxPriorityFeeRead, made⟩ :=
      Outcome.bind_eq_ok.mp made
    obtain ⟨⟨⟩, maxFeeBound, made⟩ := Outcome.bind_eq_ok.mp made
    obtain ⟨⟨⟩, maxPriorityFeeBound, made⟩ := Outcome.bind_eq_ok.mp made
    obtain ⟨⟨⟩, noArrays, made⟩ := Outcome.bind_eq_ok.mp made
    obtain ⟨⟨⟩, upfront, made⟩ := Outcome.bind_eq_ok.mp made
    obtain ⟨⟨⟩, ordered, made⟩ := Outcome.bind_eq_ok.mp made
    cases made
    obtain ⟨toB, toBRead, made⟩ := Outcome.bind_eq_ok.mp baseMade
    obtain ⟨descriptor, descriptorRead, made⟩ := Outcome.bind_eq_ok.mp made
    obtain ⟨extraParams, extraParamsRead, made⟩ := Outcome.bind_eq_ok.mp made
    obtain ⟨signature, signatureRead, made⟩ := Outcome.bind_eq_ok.mp made
    obtain ⟨publicKey, publicKeyRead, made⟩ := Outcome.bind_eq_ok.mp made
    obtain ⟨nonce, nonceRead, made⟩ := Outcome.bind_eq_ok.mp made
    obtain ⟨gasLimit, gasLimitRead, made⟩ := Outcome.bind_eq_ok.mp made
    obtain ⟨recipient, recipientRead, made⟩ := Outcome.bind_eq_ok.mp made
    obtain ⟨value, valueRead, made⟩ := Outcome.bind_eq_ok.mp made
    obtain ⟨data, dataRead, made⟩ := Outcome.bind_eq_ok.mp made
    obtain ⟨⟨⟩, valueBound, made⟩ := Outcome.bind_eq_ok.mp made
    obtain ⟨⟨⟩, gasLimitBound, made⟩ := Outcome.bind_eq_ok.mp made
    obtain ⟨⟨⟩, nonceBound, made⟩ := Outcome.bind_eq_ok.mp made
    obtain ⟨⟨⟩, initCode, made⟩ := Outcome.bind_eq_ok.mp made
    cases made
    exact {
      toRead := Outcome.bind_eq_ok.mpr ⟨toB, toBRead, recipientRead⟩
      descriptorRead, extraParamsRead, signatureRead, publicKeyRead, nonceRead
      gasLimitRead, valueRead, dataRead, maxFeeRead, maxPriorityFeeRead
      accessListRead, commonRead, initCode, noArrays
      chainId := rfl
      options := rfl
      valueBound := validateCannotExceedMaxInteger_256.mp valueBound
      gasLimitBound := validateCannotExceedMaxInteger_64.mp gasLimitBound
      nonceBound := validateCannotExceedMaxInteger_below_64.mp nonceBound
      maxFeeBound := validateCannotExceedMaxInteger_256.mp maxFeeBound
      maxPriorityFeeBound :=
        validateCannotExceedMaxInteger_256.mp maxPriorityFeeBound
      upfront := require_eq_ok.mp upfront
      ordered := require_eq_ok.mp ordered }
  · intro accepted
    obtain ⟨toB, toBRead, recipientRead⟩ :=
      Outcome.bind_eq_ok.mp accepted.toRead
    have base : BaseTransaction.new cryptography txData opts =
        .ok tx.toBaseTransaction := by
      unfold BaseTransaction.new
      rw [toBRead, accepted.descriptorRead, accepted.extraParamsRead,
        accepted.signatureRead, accepted.publicKeyRead, accepted.nonceRead,
        accepted.gasLimitRead, accepted.valueRead, accepted.dataRead]
      simp only [Outcome.ok_bind, recipientRead,
        validateCannotExceedMaxInteger_256.mpr accepted.valueBound,
        validateCannotExceedMaxInteger_64.mpr accepted.gasLimitBound,
        validateCannotExceedMaxInteger_below_64.mpr accepted.nonceBound,
        accepted.initCode]
    unfold FeeMarketEIP1559Transaction.new
    rw [base, accepted.commonRead, accepted.accessListRead,
      accepted.maxFeeRead, accepted.maxPriorityFeeRead, accepted.noArrays]
    simp only [Outcome.ok_bind,
      validateCannotExceedMaxInteger_256.mpr accepted.maxFeeBound,
      validateCannotExceedMaxInteger_256.mpr accepted.maxPriorityFeeBound,
      require_eq_ok.mpr accepted.upfront, require_eq_ok.mpr accepted.ordered,
      ← accepted.chainId, ← accepted.options]

end Acceptance

section Fields

theorem readOptional_nonempty {input : Input} {field : Option Bytes}
    (read : readOptional input = .ok field) : field ≠ some [] := by
  obtain ⟨buf, -, done⟩ := Outcome.bind_eq_ok.mp read
  cases done
  split
  · rename_i positive
    rintro empty
    cases empty
    cases positive
  · simp

theorem readOptional_bytes {field : Option Bytes} (nonempty : field ≠ some []) :
    readOptional (.bytes (field.getD [])) = .ok field := by
  cases field with
  | none => rfl
  | some buf =>
      have positive : 0 < buf.length := by
        apply List.length_pos_iff.mpr
        rintro rfl
        exact nonempty rfl
      simp [readOptional, Input.emptyAsHex, toUint8Array, positive]

theorem readOptional_text {field : Option Bytes} (nonempty : field ≠ some []) :
    readOptional (FeeMarketEIP1559Transaction.optionalText
      (field.map hexlify)) = .ok field := by
  cases field with
  | none => rfl
  | some buf =>
      have positive : 0 < buf.length := by
        apply List.length_pos_iff.mpr
        rintro rfl
        exact nonempty rfl
      rw [readOptional, Option.map_some,
        FeeMarketEIP1559Transaction.optionalText, toUint8Array_hexlify,
        Outcome.ok_bind, if_pos positive]

theorem recipient_buf (address : Address) :
    recipient address.buf = .ok (some address) := by
  have positive : 0 < address.buf.length := by
    rw [address.width]
    decide
  rw [recipient, if_pos positive, Address.new_buf]
  rfl

theorem recipient_bytes (field : Option Address) :
    (recipientBytes cryptography
      (.bytes ((field.map Address.buf).getD [])) >>= recipient) =
        .ok field := by
  cases field with
  | none => rfl
  | some address => exact recipient_buf address

/-- The text of an address is read as the address. -/
theorem recipient_text (address : Address) :
    (recipientBytes cryptography (.text (addressText address.buf)) >>=
      recipient) = .ok (some address) := by
  have valid := Validator.isAddressString_addressText cryptography
    address.width true
  have filled : addressText address.buf ≠ "" := by
    simp [addressText]
  have notHex : Validator.isHexStrict (addressText address.buf) = false := by
    simp [Validator.isHexStrict, addressText]
  have notDigits : Validator.isHex (addressText address.buf) = false := by
    simp [Validator.isHex, addressText, Hex.isDigit, Hex.digitValue]
  have hex : Utils.toHex cryptography (addressText address.buf) =
      .ok (hexlify address.buf) := by
    rw [Utils.toHex, if_neg (by simp [addressText, List.isPrefixOf]),
      if_neg (by simp [notHex]), if_neg (by simp [notDigits]), if_pos valid]
    exact Utils.addressToHex_addressText cryptography address.width
  rw [recipientBytes, if_neg filled, if_pos valid, hex, Outcome.ok_bind,
    textToUint8Array_hexlify, Outcome.ok_bind, recipient_buf]

/-- The common object that a chain id leads to without options. -/
def defaultCommon (chainId : Nat) : Common :=
  if Common.isSupportedChainId chainId then .mainnet else .custom chainId

theorem defaultCommon_chainId (chainId : Nat) :
    (defaultCommon chainId).chainId = chainId := by
  unfold defaultCommon
  split
  · rename_i supported
    exact (beq_iff_eq.mp supported).symm
  · rfl

theorem getCommon_eq_ok {input : Input} {common : Common}
    (read : getCommon none input = .ok common) :
    common = defaultCommon common.chainId := by
  have given : ∀ number : Nat,
      (if Common.isSupportedChainId number then
        (.ok .mainnet : Except String Common)
      else .ok (.custom number)) = .ok common →
        common = defaultCommon common.chainId := by
    intro number made
    split at made
    · cases made
      rfl
    · rename_i unsupported
      cases made
      rw [defaultCommon, Common.custom, if_neg unsupported]
      rfl
  cases input with
  | undefined =>
      cases read
      rfl
  | null | bytes | array | text | number | fraction | bigint | address =>
      obtain ⟨buf, -, made⟩ := Outcome.bind_eq_ok.mp read
      exact given _ made

theorem getCommon_of_number {common : Option Common} {input : Input}
    {number : Nat} (defined : input ≠ .undefined)
    (read : (toUint8Array input).map uint8ArrayToBigInt = .ok number) :
    getCommon common input =
      match common with
      | some common =>
          if common.chainId ≠ number then
            .error "The chain ID does not match the chain ID of Common"
          else .ok common
      | none => .ok (defaultCommon number) := by
  cases converted : toUint8Array input with
  | error problem =>
      rw [converted] at read
      cases read
  | ok buf =>
      rw [converted] at read
      cases read
      cases input with
      | undefined => exact absurd rfl defined
      | null | bytes | array | text | number | fraction | bigint | address =>
          simp only [getCommon, converted, Outcome.ok_bind]
          cases common with
          | some common => rfl
          | none =>
              dsimp only
              rw [defaultCommon]
              split <;> rfl

/-- The common object has the chain id that was given. -/
theorem getCommon_chainId {given : Option Common} {input : Input}
    {number : Nat} {common : Common} (defined : input ≠ .undefined)
    (read : (toUint8Array input).map uint8ArrayToBigInt = .ok number)
    (found : getCommon given input = .ok common) :
    common.chainId = number := by
  rw [getCommon_of_number defined read] at found
  cases given with
  | none =>
      cases found
      exact defaultCommon_chainId number
  | some given =>
      dsimp only at found
      split at found
      · cases found
      · rename_i same
        cases found
        exact not_not.mp same

theorem number_bigint (number : Nat) :
    (toUint8Array (.bigint number)).map uint8ArrayToBigInt = .ok number := by
  have read := readNumber_bigint number
  have plain : (Input.bigint number).emptyAsHex = .bigint number := rfl
  rw [readNumber, plain] at read
  obtain ⟨buf, converted, done⟩ := Outcome.bind_eq_ok.mp read
  rw [converted]
  exact done

theorem number_bigIntToHex (number : Nat) :
    (toUint8Array (.text (Utils.bigIntToHex number))).map
      uint8ArrayToBigInt = .ok number := by
  have read := readNumber_bigIntToHex number
  rw [readNumber, Utils.bigIntToHex, emptyAsHex_hex] at read
  obtain ⟨buf, converted, done⟩ := Outcome.bind_eq_ok.mp read
  rw [Utils.bigIntToHex, converted]
  exact done

/-- No field that is looked at is an array. -/
theorem validateNotArray_entries {txData : TxData} :
    validateNotArray txData.entries = .ok () ↔
      txData.chainId.isArray = false ∧ txData.nonce.isArray = false ∧
        txData.maxFeePerGas.isArray = false ∧
        txData.gasLimit.isArray = false ∧ txData.«to».isArray = false ∧
        txData.value.isArray = false ∧ txData.data.isArray = false ∧
        txData.type.isArray = false := by
  rw [validateNotArray, Outcome.forM_eq_ok]
  simp [TxData.entries, txDataKeys]

end Fields

section Validity

/-- What a transaction satisfies, whatever it was built from. -/
structure FeeMarketEIP1559Transaction.Valid
    (tx : FeeMarketEIP1559Transaction) : Prop where
  descriptor : tx.descriptor ≠ some []
  extraParams : tx.extraParams ≠ some []
  signature : tx.signature ≠ some []
  publicKey : tx.publicKey ≠ some []
  shape : Shape tx.accessList
  chainId : tx.chainId = tx.common.chainId
  valueBound : tx.value ≤ MAX_INTEGER
  gasLimitBound : tx.gasLimit ≤ MAX_UINT64
  nonceBound : tx.nonce < MAX_UINT64
  maxFeeBound : tx.maxFeePerGas ≤ MAX_INTEGER
  maxPriorityFeeBound : tx.maxPriorityFeePerGas ≤ MAX_INTEGER
  initCode : checkInitCode tx.txOptions tx.«to» tx.data = .ok ()
  upfront : tx.gasLimit * tx.maxFeePerGas ≤ MAX_INTEGER
  ordered : tx.maxPriorityFeePerGas ≤ tx.maxFeePerGas

theorem Accepted.valid {txData : TxData} {opts : TxOptions}
    {tx : FeeMarketEIP1559Transaction}
    (accepted : Accepted cryptography txData opts tx) : tx.Valid where
  descriptor := readOptional_nonempty accepted.descriptorRead
  extraParams := readOptional_nonempty accepted.extraParamsRead
  signature := readOptional_nonempty accepted.signatureRead
  publicKey := readOptional_nonempty accepted.publicKeyRead
  shape := readAccessList_shape accepted.accessListRead
  chainId := accepted.chainId
  valueBound := accepted.valueBound
  gasLimitBound := accepted.gasLimitBound
  nonceBound := accepted.nonceBound
  maxFeeBound := accepted.maxFeeBound
  maxPriorityFeeBound := accepted.maxPriorityFeeBound
  initCode := by
    rw [accepted.options]
    exact accepted.initCode
  upfront := accepted.upfront
  ordered := accepted.ordered

end Validity

end Web3Js.Tx
