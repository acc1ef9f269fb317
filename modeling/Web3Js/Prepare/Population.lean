import Web3Js.Prepare.Validation
import Web3Js.Utils.Conversion

/-!
# What the builder fills in and the validation

A caller leaves out everything about the chain, and the builder fills it in
from the configuration.  The common object of the configuration comes with a
chain and a hardfork next to it, which the validation does not accept together;
without it, the fields that the caller gave decide.
-/

namespace Web3Js.Prepare

open Web3Js.Tx (SeedInput WalletPackage)

section Numbers

/-- A number that the validation takes, without a minus sign. -/
structure IsUnsigned (value : Numbers) : Prop where
  isUInt : isUInt value = true
  noMinus : hasMinus value = false

theorem isUInt_bigint (number : Int) :
    isUInt (.bigint number) = true ↔ 0 ≤ number ∧ number ≤ 2 ^ 512 - 1 := by
  simp [isUInt, -Int.reducePow]

theorem isUInt_numberToHex {number : Int}
    (bounds : 0 ≤ number ∧ number ≤ 2 ^ 512 - 1) :
    isUInt (.text (Utils.numberToHex number)) = true := by
  obtain ⟨strict, -, read⟩ := Utils.hexToNumber_numberToHex number
  have nonempty : Utils.numberToHex number ≠ "" := by
    intro isEmpty
    rw [isEmpty] at strict
    cases strict
  simp only [isUInt, if_neg nonempty, strict, if_true, read]
  exact decide_eq_true bounds

theorem hasMinus_numberToHex {number : Int} (natural : 0 ≤ number) :
    hasMinus (.text (Utils.numberToHex number)) = false := by
  rw [Utils.numberToHex, if_neg (Int.not_lt.mpr natural), Utils.bigIntToHex,
    hasMinus, String.toList_ofList]
  rfl

theorem trim_of_strict {content : String}
    (strict : Validator.isHexStrict content = true) :
    trim content.toList = content.toList := by
  have visible : ∀ digits : List Char, digits.all Hex.isDigit = true →
      ∀ char ∈ digits, isWhiteSpace char = false :=
    fun digits allDigits char member =>
      not_isWhiteSpace_of_isDigit (List.all_eq_true.mp allDigits char member)
  apply trim_of_visible
  unfold Validator.isHexStrict at strict
  split at strict
  · rename_i x digits chars
    simp only [Bool.and_eq_true, Bool.or_eq_true, beq_iff_eq] at strict
    simp only [chars, List.forall_mem_cons]
    refine ⟨rfl, rfl, ?_, visible digits strict.2⟩
    rcases strict.1.1 with rfl | rfl
    · rfl
    · rfl
  · rename_i x digits chars
    simp only [Bool.and_eq_true, Bool.or_eq_true, beq_iff_eq] at strict
    simp only [chars, List.forall_mem_cons]
    refine ⟨rfl, ?_, visible digits strict.2⟩
    rcases strict.1 with rfl | rfl
    · rfl
    · rfl
  · cases strict

/-- Strict hexadecimal text that is read as an integer is read as the number
of its digits. -/
theorem hexToNumber_of_bigInt {content : String} {number : Int}
    (strict : Validator.isHexStrict content = true)
    (read : bigIntOfString content = some number) :
    Validator.hexToNumber content = some number := by
  rw [bigIntOfString, trim_of_strict strict] at read
  unfold Validator.isHexStrict at strict
  split at strict
  · rename_i x digits chars
    simp only [Bool.and_eq_true, Bool.or_eq_true, beq_iff_eq] at strict
    rw [chars] at read
    exfalso
    rcases strict.1.1 with rfl | rfl
    · cases read
    · cases read
  · rename_i x digits chars
    simp only [Bool.and_eq_true, Bool.or_eq_true, beq_iff_eq] at strict
    rw [chars] at read
    rw [Validator.hexToNumber, chars]
    rcases strict.1 with rfl | rfl
    · exact read
    · exact read
  · cases strict

/-- What a valid number is converted to is in the bounds. -/
theorem bounds_of_isUInt {value : Numbers} (valid : isUInt value = true)
    {number : Int} (converted : Utils.toBigInt value = some number) :
    0 ≤ number ∧ number ≤ 2 ^ 512 - 1 := by
  cases value with
  | fraction => cases converted
  | number value =>
      cases converted
      exact of_decide_eq_true valid
  | bigint value =>
      cases converted
      exact of_decide_eq_true valid
  | text content =>
      rw [Utils.toBigInt] at converted
      split at converted
      · simp only [isUInt] at valid
        by_cases isEmpty : content = ""
        · rw [if_pos isEmpty] at valid
          cases valid
        rw [if_neg isEmpty] at valid
        by_cases strict : Validator.isHexStrict content = true
        · rw [if_pos strict, hexToNumber_of_bigInt strict converted] at valid
          exact of_decide_eq_true valid
        · rw [if_neg strict, converted] at valid
          exact of_decide_eq_true valid
      · cases converted

theorem isUInt_convertUint (format : FMT_NUMBER) {value : Numbers}
    (valid : isUInt value = true) : isUInt (convertUint format value) = true := by
  rw [convertUint]
  cases converted : Utils.toBigInt value with
  | none => exact valid
  | some number =>
      have bounds := bounds_of_isUInt valid converted
      cases format with
      | HEX => exact isUInt_numberToHex bounds
      | BIGINT => exact (isUInt_bigint number).mpr bounds

theorem IsUnsigned.convertUint (format : FMT_NUMBER) {value : Numbers}
    (unsigned : IsUnsigned value) : IsUnsigned (convertUint format value) := by
  refine ⟨isUInt_convertUint format unsigned.isUInt, ?_⟩
  rw [Web3Js.convertUint]
  cases converted : Utils.toBigInt value with
  | none => exact unsigned.noMinus
  | some number =>
      cases format with
      | HEX =>
          exact hasMinus_numberToHex
            (bounds_of_isUInt unsigned.isUInt converted).1
      | BIGINT => rfl

theorem IsUnsigned.startsWithMinus {value : Numbers}
    (unsigned : IsUnsigned value) :
    startsWithMinus (Web3Js.convertUint .HEX value) = .ok false := by
  have noMinus := (unsigned.convertUint .HEX).noMinus
  cases value with
  | number | bigint =>
      exact congrArg Except.ok noMinus
  | fraction => cases unsigned.isUInt
  | text content =>
      rw [Web3Js.convertUint] at noMinus ⊢
      cases converted : Utils.toBigInt (.text content) with
      | none =>
          rw [converted] at noMinus
          exact congrArg Except.ok noMinus
      | some number =>
          rw [converted] at noMinus
          exact congrArg Except.ok noMinus

end Numbers

section Callers

variable (cryptography : Cryptography) (node : Node)

/-- The caller leaves the chain to the builder. -/
structure Transaction.LeavesChain (transaction : Transaction) : Prop where
  common : transaction.common = none
  chain : transaction.chain = none
  hardfork : transaction.hardfork = none
  chainId : transaction.chainId = none
  networkId : transaction.networkId = none

/-- The gas, the fees and the nonce are given, and valid. -/
structure Transaction.HasFields (transaction : Transaction) : Prop where
  gas : ∃ gas, transaction.gasLimit.or transaction.gas = some gas ∧
    isUInt gas = true
  maxFeePerGas : ∃ fee, transaction.maxFeePerGas = some fee ∧ isUInt fee = true
  maxPriorityFeePerGas : ∃ fee,
    transaction.maxPriorityFeePerGas = some fee ∧ isUInt fee = true
  nonce : ∃ nonce, transaction.nonce = some nonce ∧ IsUnsigned nonce

/-- Data and input that are both given read the same after a missing prefix has
been put in front of the data. -/
def Transaction.KeepsData (transaction : Transaction) : Prop :=
  ∀ data input prefixed, transaction.data = some data →
    transaction.input = some input →
      withPrefix (convertBytes data) = .ok prefixed →
        ∃ hex, bytesToHexText cryptography (convertBytes prefixed) = .ok hex ∧
          bytesToHexText cryptography (convertBytes input) = .ok hex

/-- The node knows its chain id, a natural number. -/
def Node.KnowsChainId : Prop :=
  ∀ answer, node.getChainId = .ok answer →
    ∃ chainId, answer = some chainId ∧ IsUnsigned chainId

end Callers

section Steps

variable {Descriptor Wallet : Type} {cryptography : Cryptography}
  {wallets : WalletPackage Descriptor Wallet} {node : Node}
  {web3Context : Web3Context} {transaction populated : Transaction}

theorem populateFrom_eq {seed : Option SeedInput}
    (made : populateFrom cryptography wallets web3Context seed transaction =
      .ok populated) :
    ∃ sender, populated = { transaction with «from» := sender } := by
  rw [populateFrom] at made
  split at made
  · cases made
    exact ⟨transaction.«from», rfl⟩
  · obtain ⟨sender, -, done⟩ := Outcome.bind_eq_ok.mp made
    cases done
    exact ⟨sender, rfl⟩

theorem populateNonce_eq {nonce : Numbers}
    (given : transaction.nonce = some nonce)
    (made : populateNonce node transaction = .ok populated) :
    populated = transaction := by
  rw [populateNonce, given] at made
  exact (Except.ok.inj made).symm

/-- Data and input stay both given, equal and with a prefix for the data, or
not both given. -/
theorem populateData_eq
    (made : populateData transaction = .ok populated) :
    ∃ data input, populated = { transaction with data, input } ∧
      ((∃ given prefixed, transaction.data = some given ∧
        transaction.input = some given ∧ withPrefix given = .ok prefixed ∧
        data = some prefixed ∧ input = some given) ∨
      (transaction.data = none ∨ transaction.input = none) ∧
        (data = none ∨ input = none)) := by
  rw [populateData] at made
  split at made
  · rename_i data input isData isInput
    obtain ⟨⟨⟩, same, made⟩ := Outcome.bind_eq_ok.mp made
    obtain ⟨prefixed, converted, done⟩ := Outcome.bind_eq_ok.mp made
    cases done
    have equal : data = input := by
      by_contra different
      rw [requireSameData, if_pos different, dataAndInputError] at same
      obtain ⟨_, -, same⟩ := Outcome.bind_eq_ok.mp same
      obtain ⟨_, -, same⟩ := Outcome.bind_eq_ok.mp same
      cases same
    subst equal
    exact ⟨some prefixed, transaction.input, rfl,
      .inl ⟨data, prefixed, isData, isInput, converted, rfl, isInput⟩⟩
  · rename_i data isData isInput
    obtain ⟨prefixed, converted, done⟩ := Outcome.bind_eq_ok.mp made
    cases done
    exact ⟨some prefixed, transaction.input, rfl,
      .inr ⟨.inr isInput, .inr isInput⟩⟩
  · rename_i input isData isInput
    obtain ⟨prefixed, converted, done⟩ := Outcome.bind_eq_ok.mp made
    cases done
    exact ⟨transaction.data, some prefixed, rfl,
      .inr ⟨.inl isData, .inl isData⟩⟩
  · rename_i isData isInput
    cases made
    exact ⟨transaction.data, some (.text "0x"), rfl,
      .inr ⟨.inl isData, .inl isData⟩⟩

theorem populateCommon_eq (noCommon : transaction.common = none)
    (made : populateCommon web3Context transaction = .ok populated) :
    ∃ chain hardfork, populated = { transaction with
      common := web3Context.defaultCommon
      chain := some chain, hardfork := some hardfork } := by
  rw [populateCommon, noCommon] at made
  obtain ⟨common, configured, done⟩ := Outcome.bind_eq_ok.mp made
  cases done
  have same : common = web3Context.defaultCommon := by
    rw [configuredCommon] at configured
    split at configured
    · rename_i isNone
      cases configured
      exact isNone.symm
    · rename_i found isSome
      split at configured
      · cases configured
        exact isSome.symm
      · cases configured
  subst same
  refine ⟨transaction.chain.getD web3Context.defaultChain,
    transaction.hardfork.getD web3Context.defaultHardfork, ?_⟩
  cases transaction.chain <;> cases transaction.hardfork <;> rfl

/-- Without a common object the node is asked for the chain id. -/
theorem populateChainId_eq (noChainId : transaction.chainId = none)
    (knows : node.KnowsChainId)
    (made : populateChainId node transaction = .ok populated) :
    ∃ chainId, populated = { transaction with chainId } ∧
      (transaction.common = none → ∃ found, chainId = some found ∧
        IsUnsigned found) := by
  rw [populateChainId, noChainId] at made
  obtain ⟨customId, custom, made⟩ := Outcome.bind_eq_ok.mp made
  cases customId with
  | some customId =>
      cases made
      refine ⟨transaction.chainId, rfl, ?_⟩
      intro noCommon
      rw [customChainId, noCommon] at custom
      cases custom
  | none =>
      obtain ⟨answer, answered, done⟩ := Outcome.bind_eq_ok.mp made
      cases done
      obtain ⟨chainId, rfl, unsigned⟩ := knows answer answered
      exact ⟨some (convertUint .HEX chainId), rfl,
        fun _ => ⟨_, rfl, unsigned.convertUint .HEX⟩⟩

theorem populateNetworkId_eq
    (made : populateNetworkId node web3Context transaction = .ok populated) :
    ∃ networkId, populated = { transaction with networkId } := by
  rw [populateNetworkId] at made
  split at made
  · cases made
    exact ⟨transaction.networkId, rfl⟩
  · rename_i networkId _ _
    cases made
    exact ⟨some networkId, rfl⟩
  · obtain ⟨answer, -, done⟩ := Outcome.bind_eq_ok.mp made
    cases done
    exact ⟨_, rfl⟩

theorem populateAccessList_eq (transaction : Transaction) :
    ∃ accessList, populateAccessList transaction =
      { transaction with accessList } := by
  rw [populateAccessList]
  split
  · exact ⟨_, rfl⟩
  · exact ⟨transaction.accessList, rfl⟩

theorem natural_of_safeBigInt {value : Option Numbers} {label : String}
    {number : Int} (read : safeBigInt value label = .ok number) :
    0 ≤ number ∧ number ≤ MAX_UINT256 := by
  unfold safeBigInt at read
  split at read
  · cases read
  · split at read
    · cases read
    · split at read
      · cases read
      · split at read
        · cases read
        · cases read
          omega

/-- The fees are filled in as hexadecimal text. -/
theorem populateGasPrice_eq {fillGasPrice : Bool}
    (fields : transaction.HasFields)
    (made : populateGasPrice node web3Context fillGasPrice transaction =
      .ok populated) :
    ∃ priority fee, populated = { transaction with
        maxPriorityFeePerGas := some priority, maxFeePerGas := some fee } ∧
      isUInt priority = true ∧ isUInt fee = true := by
  obtain ⟨fee, givenFee, validFee⟩ := fields.maxFeePerGas
  obtain ⟨priority, givenPriority, validPriority⟩ := fields.maxPriorityFeePerGas
  have unchanged : transaction = { transaction with
      maxPriorityFeePerGas := some priority, maxFeePerGas := some fee } := by
    rw [← givenFee, ← givenPriority]
  rw [populateGasPrice] at made
  split at made
  · unfold getTransactionGasPricing at made
    split at made
    · cases made
      exact ⟨priority, fee, unchanged, validPriority, validFee⟩
    · split at made
      · rw [getEip1559GasPricing] at made
        obtain ⟨answer, -, made⟩ := Outcome.bind_eq_ok.mp made
        obtain ⟨baseFee, -, made⟩ := Outcome.bind_eq_ok.mp made
        obtain ⟨number, read, done⟩ := Outcome.bind_eq_ok.mp made
        cases done
        have bounds := natural_of_safeBigInt read
        rw [MAX_UINT256] at bounds
        refine ⟨_, _, rfl, ?_, ?_⟩
        · apply isUInt_convertUint
          rw [isUInt_bigint]
          omega
        · rw [givenFee]
          exact isUInt_convertUint .HEX validFee
      · cases made
    · cases made
  · cases made
    exact ⟨priority, fee, unchanged, validPriority, validFee⟩

theorem populateGas_eq {fillGasLimit : Bool} (fields : transaction.HasFields)
    (made : populateGas cryptography node fillGasLimit transaction =
      .ok populated) : populated = transaction := by
  obtain ⟨gas, given, -⟩ := fields.gas
  rw [populateGas, if_neg] at made
  · exact (Except.ok.inj made).symm
  · cases limit : transaction.gasLimit with
    | some value => simp
    | none =>
        rw [limit, Option.none_or] at given
        simp [given]

theorem Transaction.HasFields.format (format : FMT_NUMBER)
    (fields : transaction.HasFields) : (transaction.format format).HasFields := by
  obtain ⟨⟨gas, givenGas, validGas⟩, ⟨fee, givenFee, validFee⟩,
    ⟨priority, givenPriority, validPriority⟩, nonce, givenNonce, unsigned⟩ :=
    fields
  refine ⟨⟨convertUint format gas, ?_, isUInt_convertUint format validGas⟩,
    ⟨convertUint format fee, ?_, isUInt_convertUint format validFee⟩,
    ⟨convertUint format priority, ?_,
      isUInt_convertUint format validPriority⟩,
    ⟨convertUint format nonce, ?_, unsigned.convertUint format⟩⟩
  · change (transaction.gasLimit.map _).or (transaction.gas.map _) = _
    rw [← Option.map_or, givenGas]
    rfl
  · exact congrArg (Option.map _) givenFee
  · exact congrArg (Option.map _) givenPriority
  · exact congrArg (Option.map _) givenNonce

theorem Transaction.HasFields.aliasGas (fields : transaction.HasFields) :
    (aliasGas transaction).HasFields := by
  rw [Prepare.aliasGas]
  split
  · rename_i gasLimit given
    refine { fields with gas := ?_ }
    have gas := fields.gas
    rw [given] at gas
    exact gas
  · exact fields

/-- What the builder leaves to the validation. -/
structure IsPopulated (web3Context : Web3Context)
    (transaction populated : Transaction) : Prop where
  fields : populated.HasFields
  common : populated.common = web3Context.defaultCommon
  chain : populated.chain.isSome = true
  hardfork : populated.hardfork.isSome = true
  chainId : web3Context.defaultCommon = none →
    ∃ chainId, populated.chainId = some chainId ∧ IsUnsigned chainId
  data : (∃ data input prefixed, transaction.data = some data ∧
      transaction.input = some input ∧
      convertBytes data = convertBytes input ∧
      withPrefix (convertBytes data) = .ok prefixed ∧
      populated.data = some prefixed ∧
      populated.input = some (convertBytes input)) ∨
    (transaction.data = none ∨ transaction.input = none) ∧
      (populated.data = none ∨ populated.input = none)

/-- The fields that decide the validation are the same. -/
structure Untouched (before after : Transaction) : Prop where
  fields : before.HasFields → after.HasFields
  common : after.common = before.common
  chain : after.chain = before.chain
  hardfork : after.hardfork = before.hardfork
  chainId : after.chainId = before.chainId
  data : after.data = before.data
  input : after.input = before.input

theorem Untouched.trans {before middle after : Transaction}
    (first : Untouched before middle) (second : Untouched middle after) :
    Untouched before after where
  fields given := second.fields (first.fields given)
  common := second.common.trans first.common
  chain := second.chain.trans first.chain
  hardfork := second.hardfork.trans first.hardfork
  chainId := second.chainId.trans first.chainId
  data := second.data.trans first.data
  input := second.input.trans first.input

theorem untouched_populateFrom {seed : Option SeedInput}
    (made : populateFrom cryptography wallets web3Context seed transaction =
      .ok populated) : Untouched transaction populated := by
  obtain ⟨sender, rfl⟩ := populateFrom_eq made
  exact ⟨fun fields => { fields with }, rfl, rfl, rfl, rfl, rfl, rfl⟩

theorem untouched_populateNonce (fields : transaction.HasFields)
    (made : populateNonce node transaction = .ok populated) :
    Untouched transaction populated := by
  obtain ⟨nonce, given, -⟩ := fields.nonce
  obtain rfl := populateNonce_eq given made
  exact ⟨id, rfl, rfl, rfl, rfl, rfl, rfl⟩

theorem untouched_populateValue (transaction : Transaction) :
    Untouched transaction (populateValue transaction) :=
  ⟨fun fields => { fields with }, rfl, rfl, rfl, rfl, rfl, rfl⟩

theorem untouched_populateNetworkId
    (made : populateNetworkId node web3Context transaction = .ok populated) :
    Untouched transaction populated := by
  obtain ⟨networkId, rfl⟩ := populateNetworkId_eq made
  exact ⟨fun fields => { fields with }, rfl, rfl, rfl, rfl, rfl, rfl⟩

theorem untouched_populateGasLimit (transaction : Transaction) :
    Untouched transaction (populateGasLimit transaction) := by
  refine ⟨fun fields => { fields with gas := ?_ }, rfl, rfl, rfl, rfl, rfl,
    rfl⟩
  change ∃ gas, (transaction.gasLimit.or transaction.gas).or transaction.gas =
    some gas ∧ isUInt gas = true
  rw [Option.or_assoc, Option.or_self]
  exact fields.gas

theorem untouched_populateType (transaction : Transaction) :
    Untouched transaction (populateType web3Context transaction) :=
  ⟨fun fields => { fields with }, rfl, rfl, rfl, rfl, rfl, rfl⟩

theorem untouched_populateAccessList (transaction : Transaction) :
    Untouched transaction (populateAccessList transaction) := by
  obtain ⟨accessList, same⟩ := populateAccessList_eq transaction
  rw [same]
  exact ⟨fun fields => { fields with }, rfl, rfl, rfl, rfl, rfl, rfl⟩

theorem untouched_populateGasPrice {fillGasPrice : Bool}
    (fields : transaction.HasFields)
    (made : populateGasPrice node web3Context fillGasPrice transaction =
      .ok populated) : Untouched transaction populated := by
  obtain ⟨priority, fee, rfl, validPriority, validFee⟩ :=
    populateGasPrice_eq fields made
  exact ⟨fun fields => { fields with
    maxFeePerGas := ⟨fee, rfl, validFee⟩
    maxPriorityFeePerGas := ⟨priority, rfl, validPriority⟩ },
    rfl, rfl, rfl, rfl, rfl, rfl⟩

theorem untouched_populateGas {fillGasLimit : Bool}
    (fields : transaction.HasFields)
    (made : populateGas cryptography node fillGasLimit transaction =
      .ok populated) : Untouched transaction populated := by
  obtain rfl := populateGas_eq fields made
  exact ⟨id, rfl, rfl, rfl, rfl, rfl, rfl⟩

theorem isPopulated_of_built {seed : Option SeedInput}
    {fillGasPrice fillGasLimit : Bool} (leaves : transaction.LeavesChain)
    (fields : transaction.HasFields) (knows : node.KnowsChainId)
    (built : defaultTransactionBuilder cryptography wallets node web3Context
      transaction seed fillGasPrice fillGasLimit = .ok populated) :
    IsPopulated web3Context transaction populated := by
  have formatted := fields.format .BIGINT
  obtain ⟨sent, stepped, built⟩ := Outcome.bind_eq_ok.mp built
  have sentSame := untouched_populateFrom stepped
  obtain ⟨counted, stepped, built⟩ := Outcome.bind_eq_ok.mp built
  have valued := (sentSame.trans (untouched_populateNonce
    (sentSame.fields formatted) stepped)).trans
      (untouched_populateValue counted)
  obtain ⟨loaded, stepped, built⟩ := Outcome.bind_eq_ok.mp built
  obtain ⟨data, input, isLoaded, shaped⟩ := populateData_eq stepped
  obtain ⟨common, stepped, built⟩ := Outcome.bind_eq_ok.mp built
  have noCommon : loaded.common = none := by
    rw [isLoaded]
    exact valued.common.trans (congrArg (Option.map _) leaves.common)
  obtain ⟨chain, hardfork, isCommon⟩ := populateCommon_eq noCommon stepped
  obtain ⟨chained, stepped, built⟩ := Outcome.bind_eq_ok.mp built
  have noChainId : common.chainId = none := by
    rw [isCommon, isLoaded]
    exact valued.chainId.trans (congrArg (Option.map _) leaves.chainId)
  obtain ⟨chainId, isChained, found⟩ :=
    populateChainId_eq noChainId knows stepped
  have chainedFields : chained.HasFields := by
    have ready := valued.fields formatted
    rw [isChained, isCommon, isLoaded]
    exact { ready with }
  obtain ⟨networked, stepped, built⟩ := Outcome.bind_eq_ok.mp built
  have listed := (((untouched_populateNetworkId stepped).trans
    (untouched_populateGasLimit networked)).trans
      (@untouched_populateType web3Context _)).trans
        (untouched_populateAccessList _)
  obtain ⟨priced, stepped, built⟩ := Outcome.bind_eq_ok.mp built
  have pricedSame := listed.trans
    (untouched_populateGasPrice (listed.fields chainedFields) stepped)
  have same := pricedSame.trans
    (untouched_populateGas (pricedSame.fields chainedFields) built)
  have chainedCommon : chained.common = web3Context.defaultCommon := by
    rw [isChained, isCommon]
  have chainedData : chained.data = data ∧ chained.input = input := by
    rw [isChained, isCommon, isLoaded]
    exact ⟨rfl, rfl⟩
  constructor
  · exact same.fields chainedFields
  · exact same.common.trans chainedCommon
  · rw [same.chain, isChained, isCommon]
    rfl
  · rw [same.hardfork, isChained, isCommon]
    rfl
  · intro noDefault
    rw [same.chainId, isChained]
    apply found
    rw [isCommon]
    exact noDefault
  · rw [same.data, same.input, chainedData.1, chainedData.2]
    rw [valued.data, valued.input] at shaped
    rcases shaped with ⟨given, prefixed, isData, isInput, converted, left,
      other⟩ | ⟨given, left⟩
    · obtain ⟨first, isFirst, rfl⟩ := Option.map_eq_some_iff.mp isData
      obtain ⟨second, isSecond, alike⟩ := Option.map_eq_some_iff.mp isInput
      refine .inl ⟨first, second, prefixed, isFirst, isSecond, alike.symm,
        converted, left, ?_⟩
      rw [other, alike]
    · exact .inr ⟨given.imp Option.map_eq_none_iff.mp
        Option.map_eq_none_iff.mp, left⟩

/-! ## The validation of what was built -/

theorem convertBytes_convertBytes (value : BytesInput) :
    convertBytes (convertBytes value) = convertBytes value := by
  rw [convertBytes]
  cases read : Utils.bytesToUint8Array value with
  | error message =>
      have same : convertBytes value = value := by
        rw [convertBytes, read]
      simp only [same, read]
  | ok content =>
      have same : convertBytes value = .text (hexlify content) := by
        rw [convertBytes, read]
      have again : Utils.bytesToUint8Array (.text (hexlify content)) =
          .ok content := by
        simp [Utils.bytesToUint8Array, Utils.hexToUint8Array, hexlify]
      rw [same, again]

/-- Data and input are accepted if they are read alike once they are
formatted. -/
theorem checkDataAndInput_eq_ok :
    checkDataAndInput cryptography transaction = .ok () ↔
      ∀ data input, transaction.data = some data →
        transaction.input = some input →
          ∃ hex, bytesToHexText cryptography data = .ok hex ∧
            bytesToHexText cryptography input = .ok hex := by
  rw [checkDataAndInput]
  cases transaction.data with
  | none => exact iff_of_true rfl nofun
  | some data =>
      cases transaction.input with
      | none => exact iff_of_true rfl nofun
      | some input =>
          simp only [Outcome.bind_eq_ok, Option.some.injEq]
          constructor
          · rintro ⟨hex, read, other, alsoRead, same⟩ _ _ rfl rfl
            refine ⟨hex, read, ?_⟩
            by_cases equal : hex = other
            · rw [equal]
              exact alsoRead
            · rw [if_pos equal, dataAndInputError] at same
              obtain ⟨_, -, same⟩ := Outcome.bind_eq_ok.mp same
              obtain ⟨_, -, same⟩ := Outcome.bind_eq_ok.mp same
              cases same
          · intro alike
            obtain ⟨hex, read, alsoRead⟩ := alike data input rfl rfl
            exact ⟨hex, read, hex, alsoRead, if_neg (not_not_intro rfl)⟩

theorem formatTransaction_eq_ok {formatted : Transaction} :
    formatTransaction cryptography transaction = .ok formatted ↔
      checkDataAndInput cryptography (transaction.format .HEX) = .ok () ∧
        formatted = aliasGas (transaction.format .HEX) := by
  rw [formatTransaction]
  cases checkDataAndInput cryptography (transaction.format .HEX) with
  | error message => exact iff_of_false nofun fun both => nomatch both.1
  | ok done =>
      exact ⟨fun made => ⟨rfl, (Except.ok.inj made).symm⟩,
        fun both => congrArg Except.ok both.2.symm⟩

/-- The gas limit has taken the place of the gas. -/
theorem gas_aliasGas (fields : transaction.HasFields) :
    ∃ gas, (aliasGas transaction).gas = some gas ∧ isUInt gas = true := by
  obtain ⟨gas, given, valid⟩ := fields.gas
  rw [aliasGas]
  cases limit : transaction.gasLimit with
  | none =>
      rw [limit, Option.none_or] at given
      exact ⟨gas, given, valid⟩
  | some gasLimit =>
      rw [limit, Option.some_or] at given
      exact ⟨gas, given, valid⟩

theorem aliasGas_other (transaction : Transaction) :
    ∃ gas gasLimit, aliasGas transaction =
      { transaction with gas, gasLimit } := by
  rw [aliasGas]
  split
  · exact ⟨_, _, rfl⟩
  · exact ⟨transaction.gas, transaction.gasLimit, rfl⟩

theorem validateGas_of_fields (fields : transaction.HasFields) :
    validateGas (aliasGas transaction) = .ok () := by
  obtain ⟨gas, givenGas, validGas⟩ := gas_aliasGas fields
  obtain ⟨fee, givenFee, validFee⟩ := fields.aliasGas.maxFeePerGas
  obtain ⟨priority, givenPriority, validPriority⟩ :=
    fields.aliasGas.maxPriorityFeePerGas
  simp [validateGas, validateFeeMarketGas, givenGas, givenFee, givenPriority,
    validGas, validFee, validPriority]

/-- A common object next to a chain and a hardfork is refused. -/
theorem validateTransactionForSigning_of_common
    (common : transaction.common.isSome = true)
    (chain : transaction.chain.isSome = true)
    (hardfork : transaction.hardfork.isSome = true) :
    validateTransactionForSigning cryptography transaction ≠ .ok () := by
  intro passed
  obtain ⟨⟨⟩, -, passed⟩ := Outcome.bind_eq_ok.mp passed
  obtain ⟨⟨⟩, chainInfo, -⟩ := Outcome.bind_eq_ok.mp passed
  rw [validateChainInfo, if_pos (by simp [common, chain, hardfork])]
    at chainInfo
  cases chainInfo

/-- Without a common object the formatted transaction passes. -/
theorem validateTransactionForSigning_of_fields
    (fields : transaction.HasFields) (noCommon : transaction.common = none)
    (chain : transaction.chain.isSome = true)
    (hardfork : transaction.hardfork.isSome = true)
    (chainId : ∃ chainId, transaction.chainId = some chainId ∧
      IsUnsigned chainId)
    (checked : checkDataAndInput cryptography (transaction.format .HEX) =
      .ok ()) :
    validateTransactionForSigning cryptography transaction = .ok () := by
  have custom : validateCustomChainInfo transaction = .ok () := by
    rw [validateCustomChainInfo, noCommon]
  have chainInfo : validateChainInfo transaction = .ok () := by
    simp [validateChainInfo, noCommon, chain, hardfork]
  have baseChain : validateBaseChain transaction = .ok () := by
    rw [validateBaseChain, noCommon]
    cases transaction.chain <;> rfl
  have sameHardfork : validateHardfork transaction = .ok () := by
    rw [validateHardfork, noCommon]
    cases transaction.hardfork <;> rfl
  have formatted := formatTransaction_eq_ok.mpr ⟨checked, rfl⟩
  have gas := validateGas_of_fields (fields.format .HEX)
  have numbers :
      validateNonceAndChainId (aliasGas (transaction.format .HEX)) =
        .ok () := by
    obtain ⟨nonce, givenNonce, validNonce⟩ := fields.nonce
    obtain ⟨chainId, givenChainId, validChainId⟩ := chainId
    obtain ⟨gas, gasLimit, same⟩ := aliasGas_other (transaction.format .HEX)
    rw [same, validateNonceAndChainId]
    simp only [Transaction.format, givenNonce, givenChainId, Option.map_some,
      validNonce.startsWithMinus, validChainId.startsWithMinus,
      Outcome.ok_bind]
    rfl
  simp only [validateTransactionForSigning, custom, chainInfo, baseChain,
    sameHardfork, formatted, gas, numbers, Outcome.ok_bind]

theorem IsPopulated.checkDataAndInput
    (shaped : IsPopulated web3Context transaction populated) :
    checkDataAndInput cryptography (populated.format .HEX) = .ok () ↔
      transaction.KeepsData cryptography := by
  rw [checkDataAndInput_eq_ok]
  change (∀ data input, populated.data.map convertBytes = some data →
    populated.input.map convertBytes = some input → _) ↔ _
  rcases shaped.data with ⟨data, input, prefixed, isData, isInput, alike,
    converted, left, other⟩ | ⟨given, left⟩
  · rw [left, other, Option.map_some, Option.map_some,
      convertBytes_convertBytes]
    constructor
    · intro check other another prefixed' isOther isAnother convertedOther
      rw [isData] at isOther
      rw [isInput] at isAnother
      cases isOther
      cases isAnother
      rw [converted] at convertedOther
      cases convertedOther
      exact check _ _ rfl rfl
    · rintro keeps _ _ ⟨⟩ ⟨⟩
      exact keeps data input prefixed isData isInput converted
  · refine iff_of_true ?_ ?_
    · intro data input isData isInput
      rcases left with none | none
      · rw [none] at isData
        cases isData
      · rw [none] at isInput
        cases isInput
    · intro data input prefixed isData isInput
      rcases given with none | none
      · rw [none] at isData
        cases isData
      · rw [none] at isInput
        cases isInput

/-- Formatting a second time changes neither data nor input. -/
theorem checkDataAndInput_format_format (transaction : Transaction)
    (gas gasLimit : Option Numbers) :
    checkDataAndInput cryptography
        (Transaction.format .HEX
          { transaction.format .HEX with gas, gasLimit }) =
      checkDataAndInput cryptography (transaction.format .HEX) := by
  have twice : ∀ field : Option BytesInput,
      (field.map convertBytes).map convertBytes = field.map convertBytes := by
    intro field
    cases field with
    | none => rfl
    | some value => exact congrArg some (convertBytes_convertBytes value)
  simp only [checkDataAndInput, Transaction.format, twice]

/-- What the builder makes of a transaction that leaves the chain to it, from
valid gas, fees and nonce, passes the validation exactly if no common object is
configured and data and input, if both are given, still read the same. -/
theorem built_passes_validation_iff {seed : Option SeedInput}
    {fillGasPrice fillGasLimit : Bool} (leaves : transaction.LeavesChain)
    (fields : transaction.HasFields) (knows : node.KnowsChainId)
    (built : defaultTransactionBuilder cryptography wallets node web3Context
      transaction seed fillGasPrice fillGasLimit = .ok populated) :
    (∃ formatted, formatTransaction cryptography populated = .ok formatted ∧
      validateTransactionForSigning cryptography formatted = .ok ()) ↔
      web3Context.defaultCommon = none ∧
        transaction.KeepsData cryptography := by
  have shaped := isPopulated_of_built leaves fields knows built
  have checked :
      checkDataAndInput cryptography (populated.format .HEX) = .ok () ↔
        transaction.KeepsData cryptography := shaped.checkDataAndInput
  simp only [formatTransaction_eq_ok, checked]
  obtain ⟨gas, gasLimit, same⟩ := aliasGas_other (populated.format .HEX)
  have common : (aliasGas (populated.format .HEX)).common.isSome =
      web3Context.defaultCommon.isSome := by
    rw [same, ← shaped.common]
    exact Option.isSome_map ..
  have chain : (aliasGas (populated.format .HEX)).chain.isSome = true := by
    rw [same]
    exact shaped.chain
  have hardfork :
      (aliasGas (populated.format .HEX)).hardfork.isSome = true := by
    rw [same]
    exact shaped.hardfork
  constructor
  · rintro ⟨formatted, ⟨keeps, rfl⟩, passed⟩
    refine ⟨?_, keeps⟩
    by_contra configured
    refine validateTransactionForSigning_of_common ?_ chain hardfork passed
    rw [common]
    exact Option.isSome_iff_ne_none.mpr configured
  · rintro ⟨noCommon, keeps⟩
    refine ⟨_, ⟨keeps, rfl⟩, ?_⟩
    obtain ⟨chainId, given, unsigned⟩ := shaped.chainId noCommon
    apply validateTransactionForSigning_of_fields
      (shaped.fields.format .HEX).aliasGas _ chain hardfork
    · rw [same]
      exact ⟨convertUint .HEX chainId, congrArg (Option.map _) given,
        unsigned.convertUint .HEX⟩
    · rw [same, checkDataAndInput_format_format]
      exact checked.mpr keeps
    · rw [noCommon] at common
      exact Option.isSome_eq_false_iff.mp common |>
        Option.isNone_iff_eq_none.mp

end Steps

section Runs

/-- A transaction without anything about the chain. -/
def transfer : Transaction where
  «from» := some (addressText (List.replicate 64 1))
  «to» := some (addressText (List.replicate 64 2))
  gas := some (.number 21000)
  maxFeePerGas := some (.text "0x64")
  maxPriorityFeePerGas := some (.number 2)
  data := some (.text "0x00")
  nonce := some (.number 3)

/-- A node of the chain with the number seven. -/
def seventhChain : Node where
  getTransactionCount _ := .ok (some (.text "0x0"))
  getChainId := .ok (some (.text "0x7"))
  getId := .ok (some (.text "0x7"))
  getBaseFeePerGas := .ok (some (.text "0x1"))
  estimateGas _ := .ok (some (.text "0x5208"))

theorem built_passes_validation_transfer :
    ∃ populated, defaultTransactionBuilder .simple .simple seventhChain {}
        transfer none false false = .ok populated ∧
      ∃ formatted, formatTransaction .simple populated = .ok formatted ∧
        validateTransactionForSigning .simple formatted = .ok () := by
  have isOk : (defaultTransactionBuilder .simple .simple seventhChain {}
      transfer none false false).isOk = true := by
    decide +kernel
  cases built : defaultTransactionBuilder .simple .simple seventhChain {}
      transfer none false false with
  | error message =>
      rw [built] at isOk
      cases isOk
  | ok populated =>
      refine ⟨populated, rfl, (built_passes_validation_iff
        ⟨rfl, rfl, rfl, rfl, rfl⟩ ⟨⟨_, rfl, by decide +kernel⟩,
          ⟨_, rfl, by decide +kernel⟩, ⟨_, rfl, by decide +kernel⟩,
          ⟨_, rfl, by decide +kernel, rfl⟩⟩ ?_ built).mpr ⟨rfl, ?_⟩⟩
      · rintro answer ⟨⟩
        exact ⟨_, rfl, by decide +kernel, rfl⟩
      · intro data input prefixed _ noInput
        cases noInput

/-- A custom chain as the common object, with the default chain and hardfork. -/
def privateChain : Web3Context where
  defaultCommon := some {
    customChain := some {
      name := some "private"
      networkId := some (.number 7)
      chainId := some (.number 7) }
    baseChain := some "mainnet"
    hardfork := some "zond" }

theorem built_fails_validation :
    (do
      let populated ← defaultTransactionBuilder .simple .simple seventhChain
        privateChain transfer none false false
      let formatted ← formatTransaction .simple populated
      validateTransactionForSigning .simple formatted) =
    .error ("Please provide the common object or the chain and hardfork " ++
      "property but not all together.") := by
  decide +kernel

end Runs

end Web3Js.Prepare
