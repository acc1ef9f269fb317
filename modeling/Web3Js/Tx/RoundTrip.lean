import Web3Js.Tx.Construction

/-!
# Round trips of a transaction

A transaction is parsed back from its serialized form and rebuilt from its
JSON.  In both directions the fields are read by the same conversions that
wrote them, so the constructor accepts them again and gives the transaction
back; what it stores as the JSON of the access list is derived anew.
-/

namespace Web3Js.Tx

namespace FeeMarketEIP1559Transaction

variable {cryptography : Cryptography} {rlp : RlpPackage}
  {tx : FeeMarketEIP1559Transaction}

section Serialized

theorem hasLeadingZero_numberItem (number : Nat) :
    hasLeadingZero (numberItem number) = false := by
  have canonical := canonical_bigIntToUnpaddedUint8Array number
  rw [numberItem]
  cases written : bigIntToUnpaddedUint8Array number with
  | nil => rfl
  | cons byte bytes =>
      rw [written] at canonical
      rw [hasLeadingZero]
      rintro rest whole
      cases whole
      exact canonical rfl

theorem validateNoLeadingZeroes_numbers (values : List (String × Nat)) :
    validateNoLeadingZeroes
      (values.map fun (key, number) => (key, numberItem number)) =
        .ok () := by
  apply Outcome.forM_eq_ok.mpr
  intro value member
  obtain ⟨⟨key, number⟩, -, rfl⟩ := List.mem_map.mp member
  exact require_eq_ok.mpr (hasLeadingZero_numberItem number)

theorem readNumber_numberItem (number : Nat) :
    readNumber (.ofItem (numberItem number)) = .ok number := by
  rw [numberItem, Input.ofItem, readNumber_bytes,
    toNat_bigIntToUnpaddedUint8Array]

/-- The data that parsing makes of the thirteen fields. -/
def parsedData (tx : FeeMarketEIP1559Transaction) : TxData where
  chainId := .bigint tx.chainId
  nonce := .ofItem (numberItem tx.nonce)
  maxPriorityFeePerGas := .ofItem (numberItem tx.maxPriorityFeePerGas)
  maxFeePerGas := .ofItem (numberItem tx.maxFeePerGas)
  gasLimit := .ofItem (numberItem tx.gasLimit)
  «to» := .bytes ((tx.«to».map Address.buf).getD [])
  value := .ofItem (numberItem tx.value)
  data := .bytes tx.data
  accessList := .nested tx.accessList
  descriptor := .bytes (tx.descriptor.getD [])
  extraParams := .bytes (tx.extraParams.getD [])
  signature := .bytes (tx.signature.getD [])
  publicKey := .bytes (tx.publicKey.getD [])

theorem fromValuesArray_raw (opts : TxOptions) :
    fromValuesArray cryptography tx.raw opts =
      new cryptography tx.parsedData opts := by
  have noZeroes := validateNoLeadingZeroes_numbers
    [("chainId", tx.chainId), ("nonce", tx.nonce),
      ("maxPriorityFeePerGas", tx.maxPriorityFeePerGas),
      ("maxFeePerGas", tx.maxFeePerGas), ("gasLimit", tx.gasLimit),
      ("value", tx.value)]
  have number : uint8ArrayToBigInt (bigIntToUnpaddedUint8Array tx.chainId) =
      tx.chainId := toNat_bigIntToUnpaddedUint8Array tx.chainId
  change (validateNoLeadingZeroes _ >>= fun _ => new cryptography
    { tx.parsedData with
      chainId := .bigint (uint8ArrayToBigInt
        (bigIntToUnpaddedUint8Array tx.chainId)) } opts) = _
  rw [number]
  exact congrArg (· >>= fun _ => new cryptography tx.parsedData opts) noZeroes

theorem fromSerializedTx_serialize (documented : rlp.Documented)
    (opts : TxOptions) :
    fromSerializedTx cryptography rlp (tx.serialize rlp) opts =
      new cryptography tx.parsedData opts := by
  rw [serialize, fromSerializedTx, if_pos rfl, documented.inverse,
    ← fromValuesArray_raw]
  rfl

/-- Parsing with default options rebuilds a transaction, unless the limit on
init code stands against it. -/
theorem Valid.new_parsedData (cryptography : Cryptography) (valid : tx.Valid)
    (initCode : checkInitCode {} tx.«to» tx.data = .ok ()) :
    ∃ json, new cryptography tx.parsedData {} =
      .ok { tx with
            AccessListJSON := json, common := defaultCommon tx.chainId,
            txOptions := {} } := by
  obtain ⟨json, accessListRead⟩ := valid.shape.read cryptography
  refine ⟨json, accepted_iff.mpr ?_⟩
  exact {
    toRead := recipient_bytes tx.«to»
    descriptorRead := readOptional_bytes valid.descriptor
    extraParamsRead := readOptional_bytes valid.extraParams
    signatureRead := readOptional_bytes valid.signature
    publicKeyRead := readOptional_bytes valid.publicKey
    nonceRead := readNumber_numberItem tx.nonce
    gasLimitRead := readNumber_numberItem tx.gasLimit
    valueRead := readNumber_numberItem tx.value
    dataRead := rfl
    maxFeeRead := readNumber_numberItem tx.maxFeePerGas
    maxPriorityFeeRead := readNumber_numberItem tx.maxPriorityFeePerGas
    accessListRead
    commonRead := getCommon_of_number (by simp [parsedData])
      (number_bigint tx.chainId)
    chainId := (defaultCommon_chainId tx.chainId).symm
    options := rfl
    valueBound := valid.valueBound
    gasLimitBound := valid.gasLimitBound
    nonceBound := valid.nonceBound
    maxFeeBound := valid.maxFeeBound
    maxPriorityFeeBound := valid.maxPriorityFeeBound
    initCode
    noArrays := validateNotArray_entries.mpr
      ⟨rfl, rfl, rfl, rfl, rfl, rfl, rfl, rfl⟩
    upfront := valid.upfront
    ordered := valid.ordered }

end Serialized

section Json

theorem Valid.new_json (cryptography : Cryptography) (valid : tx.Valid)
    (listed : ListShape tx.accessList)
    (initCode : checkInitCode {} tx.«to» tx.data = .ok ()) :
    ∃ json, tx.toJSON = .ok json ∧
      new cryptography json.txData {} =
        .ok { tx with
              AccessListJSON := json.accessList,
              common := defaultCommon tx.chainId, txOptions := {} } := by
  obtain ⟨json, listWritten, accessListRead⟩ := listed.read_json cryptography
  have written : tx.toJSON = .ok (tx.writeJSON
      (tx.«to».map fun address => addressText address.buf) json) := by
    rw [toJSON, listWritten, Outcome.ok_bind]
    cases tx.«to» with
    | none => rfl
    | some address =>
        dsimp only
        rw [Address.toString, Utils.hexToAddress_hexlify address.width]
        rfl
  refine ⟨_, written, accepted_iff.mpr ?_⟩
  have toRead : (recipientBytes cryptography (optionalText
      (tx.«to».map fun address => addressText address.buf)) >>=
        recipient) = .ok tx.«to» := by
    cases tx.«to» with
    | none => rfl
    | some address => exact recipient_text address
  exact {
    toRead
    descriptorRead := readOptional_text valid.descriptor
    extraParamsRead := readOptional_text valid.extraParams
    signatureRead := readOptional_text valid.signature
    publicKeyRead := readOptional_text valid.publicKey
    nonceRead := readNumber_bigIntToHex tx.nonce
    gasLimitRead := readNumber_bigIntToHex tx.gasLimit
    valueRead := readNumber_bigIntToHex tx.value
    dataRead := toUint8Array_hexlify tx.data
    maxFeeRead := readNumber_bigIntToHex tx.maxFeePerGas
    maxPriorityFeeRead := readNumber_bigIntToHex tx.maxPriorityFeePerGas
    accessListRead
    commonRead := getCommon_of_number (by simp [JsonTx.txData])
      (number_bigIntToHex tx.chainId)
    chainId := (defaultCommon_chainId tx.chainId).symm
    options := rfl
    valueBound := valid.valueBound
    gasLimitBound := valid.gasLimitBound
    nonceBound := valid.nonceBound
    maxFeeBound := valid.maxFeeBound
    maxPriorityFeeBound := valid.maxPriorityFeeBound
    initCode
    noArrays := by
      apply validateNotArray_entries.mpr
      refine ⟨rfl, rfl, rfl, rfl, ?_, rfl, rfl, rfl⟩
      cases tx.«to» <;> rfl
    upfront := valid.upfront
    ordered := valid.ordered }

end Json

section Results

/-- Two transactions with the same fields. -/
structure Agrees (tx back : FeeMarketEIP1559Transaction) : Prop where
  chainId : back.chainId = tx.chainId
  nonce : back.nonce = tx.nonce
  maxPriorityFeePerGas : back.maxPriorityFeePerGas = tx.maxPriorityFeePerGas
  maxFeePerGas : back.maxFeePerGas = tx.maxFeePerGas
  gasLimit : back.gasLimit = tx.gasLimit
  «to» : back.«to» = tx.«to»
  value : back.value = tx.value
  data : back.data = tx.data
  accessList : back.accessList = tx.accessList
  descriptor : back.descriptor = tx.descriptor
  extraParams : back.extraParams = tx.extraParams
  signature : back.signature = tx.signature
  publicKey : back.publicKey = tx.publicKey

/-- What the JSON of an access list does not change. -/
theorem agrees_json (tx : FeeMarketEIP1559Transaction)
    (json : List AccessListItem) :
    tx.Agrees { tx with AccessListJSON := json } :=
  ⟨rfl, rfl, rfl, rfl, rfl, rfl, rfl, rfl, rfl, rfl, rfl, rfl, rfl⟩

/-- The serialized form and the JSON of a transaction are read back to the
same fields. -/
def RoundTrips (cryptography : Cryptography) (rlp : RlpPackage)
    (tx : FeeMarketEIP1559Transaction) : Prop :=
  (∃ back, fromSerializedTx cryptography rlp (tx.serialize rlp) {} =
    .ok back ∧ tx.Agrees back) ∧
  ∃ json back, tx.toJSON = .ok json ∧
    fromTxData cryptography json.txData {} = .ok back ∧ tx.Agrees back

theorem defaultCommon_of_accepted {txData : TxData}
    (accepted : Accepted cryptography txData {} tx) :
    defaultCommon tx.chainId = tx.common := by
  rw [accepted.valid.chainId]
  exact (getCommon_eq_ok accepted.commonRead).symm

/-- The serialized form gives back every transaction that was built with
default options. -/
theorem fromSerializedTx_of_accepted {txData : TxData}
    (accepted : Accepted cryptography txData {} tx)
    (documented : rlp.Documented) :
    ∃ json, fromSerializedTx cryptography rlp (tx.serialize rlp) {} =
      .ok { tx with AccessListJSON := json } := by
  obtain ⟨json, rebuilt⟩ :=
    accepted.valid.new_parsedData cryptography accepted.initCode
  refine ⟨json, ?_⟩
  rw [fromSerializedTx_serialize documented, rebuilt, defaultCommon_of_accepted accepted,
    ← accepted.options]

/-- The JSON gives back a transaction with lists where lists belong. -/
theorem fromJSON_of_accepted {txData : TxData}
    (accepted : Accepted cryptography txData {} tx)
    (listed : ListShape tx.accessList) :
    ∃ json, tx.toJSON = .ok json ∧
      fromTxData cryptography json.txData {} =
        .ok { tx with AccessListJSON := json.accessList } := by
  obtain ⟨json, written, rebuilt⟩ :=
    accepted.valid.new_json cryptography listed accepted.initCode
  refine ⟨json, written, ?_⟩
  rw [fromTxData, rebuilt, defaultCommon_of_accepted accepted, ← accepted.options]

/-- What is built from JSON has lists where lists belong. -/
theorem listShape_of_fromJSON {json : JsonTx}
    (made : fromTxData cryptography json.txData {} = .ok tx) :
    ListShape tx.accessList :=
  listShape_of_json (accepted_iff.mp made).accessListRead

/-- A transaction built with default options is given back by its serialized
form and by its JSON exactly if its access list was of the declared type. -/
theorem codec_round_trip_iff (documented : rlp.Documented) (txData : TxData)
    (tx : FeeMarketEIP1559Transaction)
    (made : fromTxData cryptography txData {} = .ok tx) :
    RoundTrips cryptography rlp tx ↔ txData.accessList.Typed := by
  have accepted := accepted_iff.mp made
  constructor
  · rintro ⟨-, json, back, -, rebuilt, agrees⟩
    have listed := listShape_of_fromJSON rebuilt
    rw [agrees.accessList] at listed
    exact listed.typed accepted.accessListRead
  · intro typed
    obtain ⟨parsed, serialized⟩ :=
      fromSerializedTx_of_accepted accepted documented
    obtain ⟨json, written, rebuilt⟩ :=
      fromJSON_of_accepted accepted (typed.listShape accepted.accessListRead)
    exact ⟨⟨_, serialized, tx.agrees_json parsed⟩,
      json, _, written, rebuilt, tx.agrees_json json.accessList⟩

/-- The transaction of a signed call. -/
def signedCall : FeeMarketEIP1559Transaction where
  nonce := 7
  gasLimit := 21000
  «to» := some ⟨List.replicate 64 1, rfl⟩
  value := 5
  data := [0, 1]
  descriptor := some [1, 0, 0]
  extraParams := none
  signature := some [9]
  publicKey := some [0, 9]
  chainId := 1
  maxPriorityFeePerGas := 0
  maxFeePerGas := 300
  accessList := .list []
  AccessListJSON := []
  common := .mainnet
  txOptions := {}

def signedCallData : TxData where
  nonce := .bytes [0, 7]
  gasLimit := .bytes [82, 8]
  «to» := .bytes (List.replicate 64 1)
  value := .bytes [5]
  data := .bytes [0, 1]
  maxFeePerGas := .bytes [1, 44]
  descriptor := .bytes [1, 0, 0]
  signature := .bytes [9]
  publicKey := .bytes [0, 9]

theorem fromTxData_signedCallData :
    fromTxData cryptography signedCallData {} = .ok signedCall := by
  apply accepted_iff.mpr
  constructor
  case noArrays =>
    exact validateNotArray_entries.mpr
      ⟨rfl, rfl, rfl, rfl, rfl, rfl, rfl, rfl⟩
  case valueBound | gasLimitBound | nonceBound | maxFeeBound
    | maxPriorityFeeBound | upfront | ordered => decide
  all_goals rfl

/-- The entry of a contract with one storage key. -/
def contractEntry : Entry where
  address := List.replicate 64 3
  storageKeys := [List.replicate 32 4]
  addressWidth := rfl
  keyWidth key member := by
    rw [List.mem_singleton.mp member]
    rfl

/-- The call with the entry in its access list. -/
def listedCall : FeeMarketEIP1559Transaction :=
  { signedCall with
    accessList := .list [contractEntry.item]
    AccessListJSON := [{
      address := hexlify (List.replicate 64 3)
      storageKeys := [hexlify (List.replicate 32 4)] }] }

def listedCallData : TxData :=
  { signedCallData with accessList := .nested (.list [contractEntry.item]) }

theorem fromTxData_listedCallData :
    fromTxData cryptography listedCallData {} = .ok listedCall := by
  have made : fromTxData cryptography signedCallData {} = .ok signedCall :=
    fromTxData_signedCallData
  exact accepted_iff.mpr { accepted_iff.mp made with accessListRead := rfl }

theorem codec_round_trip_iff_listedCall :
    RoundTrips .simple .simple listedCall ↔ listedCallData.accessList.Typed :=
  codec_round_trip_iff RlpPackage.simple_documented listedCallData listedCall
    fromTxData_listedCallData

/-- The call with an empty byte string in the place of the access list. -/
def unlistedCall : FeeMarketEIP1559Transaction :=
  { signedCall with accessList := .bytes [], AccessListJSON := [] }

theorem fromTxData_unlistedCall :
    fromTxData .simple unlistedCall.parsedData {} = .ok unlistedCall := by
  apply accepted_iff.mpr
  constructor
  case noArrays =>
    exact validateNotArray_entries.mpr
      ⟨rfl, rfl, rfl, rfl, rfl, rfl, rfl, rfl⟩
  case valueBound | gasLimitBound | nonceBound | maxFeeBound
    | maxPriorityFeeBound | upfront | ordered => decide
  all_goals rfl

/-- It is read from its bytes, but its JSON leads to an empty list. -/
theorem not_codec_round_trip :
    fromSerializedTx .simple .simple (unlistedCall.serialize .simple) {} =
      .ok unlistedCall ∧
    ¬RoundTrips .simple .simple unlistedCall := by
  constructor
  · rw [fromSerializedTx_serialize RlpPackage.simple_documented]
    exact fromTxData_unlistedCall
  · rintro ⟨-, json, back, -, rebuilt, agrees⟩
    obtain ⟨entries, whole⟩ := listShape_of_fromJSON rebuilt
    rw [agrees.accessList] at whole
    cases whole

end Results

end FeeMarketEIP1559Transaction

end Web3Js.Tx
