import Web3Js.Tx.RoundTrip

/-!
# Strictness of parsing

A byte string that parses is the serialized form of its transaction unless a
list stands in the place of one of five byte strings.  The number checks and
the array checks take care of the other fields; the access list is kept as it
was given, with an empty byte string in the place of a list or without.
-/

namespace Web3Js.Tx

section Shapes

/-- A byte string, as opposed to a list. -/
def IsBytes : Rlp.Item → Prop
  | .bytes _ => True
  | .list _ => False

/-- A byte string without a leading zero. -/
def IsInteger : Rlp.Item → Prop
  | .bytes content => BigEndian.Canonical content
  | .list _ => False

/-- A list of entries whose second places hold lists. -/
def HoldsLists : Rlp.Item → Prop
  | .bytes _ => False
  | .list entries => ∀ entry ∈ entries, ∀ address slots,
      entry = .list [address, slots] → ¬IsBytes slots

/-- The thirteen items of a transaction, each of the shape of its field. -/
def WellShaped : List Rlp.Item → Prop
  | [chainId, nonce, maxPriorityFeePerGas, maxFeePerGas, gasLimit, «to», value,
      data, accessList, descriptor, extraParams, signature, publicKey] =>
      (IsInteger chainId ∧ IsInteger nonce ∧ IsInteger maxPriorityFeePerGas ∧
        IsInteger maxFeePerGas ∧ IsInteger gasLimit ∧ IsInteger value) ∧
      (IsBytes «to» ∧ IsBytes data ∧ IsBytes descriptor ∧
        IsBytes extraParams ∧ IsBytes signature ∧ IsBytes publicKey) ∧
      ListShape accessList
  | _ => False

/-- The five items that no check looks at are byte strings. -/
def UncheckedBytes : List Rlp.Item → Prop
  | [_, _, maxPriorityFeePerGas, _, _, _, _, _, _, descriptor, extraParams,
      signature, publicKey] =>
      IsBytes maxPriorityFeePerGas ∧ IsBytes descriptor ∧
        IsBytes extraParams ∧ IsBytes signature ∧ IsBytes publicKey
  | _ => False

/-- The item of the access list. -/
def accessListItem (values : List Rlp.Item) : Rlp.Item :=
  (values[8]?).getD (.bytes [])

theorem ListShape.holdsLists {item : Rlp.Item} (listed : ListShape item) :
    HoldsLists item := by
  obtain ⟨entries, rfl⟩ := listed
  intro element member address slots whole isBytes
  obtain ⟨entry, -, rfl⟩ := List.mem_map.mp member
  cases whole
  exact isBytes

theorem Shape.listShape {item : Rlp.Item} (shape : Shape item)
    (holds : HoldsLists item) : ListShape item := by
  rcases shape with rfl | ⟨entries, rfl, shapes⟩
  · exact absurd holds id
  · have each : ∀ element ∈ entries,
        ∃ entry : Entry, element = entry.item := by
      intro element member
      rcases shapes element member with listed | ⟨address, -, rfl⟩
      · exact listed
      · exact absurd trivial (holds _ member _ _ rfl)
    obtain ⟨listed, whole⟩ := exists_entries each
    exact ⟨listed, congrArg Rlp.Item.list whole⟩

end Shapes

namespace FeeMarketEIP1559Transaction

variable {cryptography : Cryptography} {rlp : RlpPackage}
  {tx : FeeMarketEIP1559Transaction}

section Fields

theorem isBytes_of_ofItem {item : Rlp.Item}
    (notArray : (Input.ofItem item).isArray = false) : IsBytes item := by
  cases item with
  | bytes content => trivial
  | list items => cases notArray

/-- A number is written as the item it was read from. -/
theorem numberItem_of_read {item : Rlp.Item} {number : Nat}
    (noZero : hasLeadingZero item = false) (isBytes : IsBytes item)
    (read : readNumber (.ofItem item) = .ok number) :
    numberItem number = item ∧ IsInteger item := by
  cases item with
  | list items => cases isBytes
  | bytes content =>
      have canonical : BigEndian.Canonical content := by
        cases content with
        | nil => exact BigEndian.canonical_stripZeros []
        | cons byte bytes =>
            rintro starts
            cases starts
            cases noZero
      cases read
      constructor
      · exact congrArg Rlp.Item.bytes
          (bigIntToUnpaddedUint8Array_toNat canonical)
      · exact canonical

theorem optionalItem_of_read {item : Rlp.Item} {field : Option Bytes}
    (isBytes : IsBytes item) (read : readOptional (.ofItem item) = .ok field) :
    optionalItem field = item := by
  cases item with
  | list items => cases isBytes
  | bytes content =>
      cases read
      cases content with
      | nil => rfl
      | cons byte bytes => rfl

theorem recipient_of_read {item : Rlp.Item} {field : Option Address}
    (isBytes : IsBytes item)
    (read : (recipientBytes cryptography (.ofItem item) >>= recipient) =
      .ok field) : .bytes ((field.map Address.buf).getD []) = item := by
  cases item with
  | list items => cases isBytes
  | bytes content =>
      apply congrArg Rlp.Item.bytes
      change recipient content = .ok field at read
      rw [recipient] at read
      split at read
      · cases made : Address.new content with
        | error problem =>
            rw [made] at read
            cases read
        | ok address =>
            rw [made] at read
            cases read
            exact Address.new_eq_ok made
      · rename_i empty
        cases read
        exact (List.eq_nil_of_length_eq_zero (by omega)).symm

theorem data_of_read {item : Rlp.Item} {data : Bytes} (isBytes : IsBytes item)
    (read : toUint8Array (Input.ofItem item).emptyAsHex = .ok data) :
    .bytes data = item := by
  cases item with
  | list items => cases isBytes
  | bytes content =>
      cases read
      rfl

end Fields

section Items

/-- What parsing thirteen items checks: the chain id is a byte string, no
number has a leading zero, and the constructor accepts the rest. -/
theorem fromValuesArray_signed
    {chainId nonce maxPriorityFeePerGas maxFeePerGas gasLimit «to» value data
      accessList descriptor extraParams signature publicKey : Rlp.Item}
    {opts : TxOptions}
    (parsed : fromValuesArray cryptography
      [chainId, nonce, maxPriorityFeePerGas, maxFeePerGas, gasLimit, «to»,
        value, data, accessList, descriptor, extraParams, signature,
        publicKey] opts = .ok tx) :
    ∃ chainIdBytes, chainId = .bytes chainIdBytes ∧
      (hasLeadingZero chainId = false ∧ hasLeadingZero nonce = false ∧
        hasLeadingZero maxPriorityFeePerGas = false ∧
        hasLeadingZero maxFeePerGas = false ∧
        hasLeadingZero gasLimit = false ∧ hasLeadingZero value = false) ∧
      Accepted cryptography
        { chainId := .bigint (uint8ArrayToBigInt chainIdBytes)
          nonce := .ofItem nonce
          maxPriorityFeePerGas := .ofItem maxPriorityFeePerGas
          maxFeePerGas := .ofItem maxFeePerGas
          gasLimit := .ofItem gasLimit
          «to» := .ofItem «to»
          value := .ofItem value
          data := .ofItem data
          accessList := .nested accessList
          descriptor := .ofItem descriptor
          extraParams := .ofItem extraParams
          signature := .ofItem signature
          publicKey := .ofItem publicKey } opts tx := by
  cases chainId with
  | list items => cases parsed
  | bytes chainIdBytes =>
      obtain ⟨⟨⟩, noZeroes, made⟩ := Outcome.bind_eq_ok.mp parsed
      refine ⟨chainIdBytes, rfl, ?_, accepted_iff.mp made⟩
      have each := Outcome.forM_eq_ok.mp noZeroes
      simpa using each

theorem uncheckedBytes_raw : UncheckedBytes tx.raw :=
  ⟨trivial, trivial, trivial, trivial, trivial⟩

/-- A transaction writes the items it was parsed from when the unchecked ones
are byte strings. -/
theorem raw_of_unchecked {values : List Rlp.Item} {opts : TxOptions}
    (parsed : fromValuesArray cryptography values opts = .ok tx)
    (unchecked : UncheckedBytes values) :
    tx.raw = values ∧
      (HoldsLists (accessListItem values) → WellShaped values) := by
  match values, unchecked with
  | [chainId, nonce, maxPriorityFeePerGas, maxFeePerGas, gasLimit, «to», value,
      data, accessList, descriptor, extraParams, signature, publicKey],
    ⟨maxPriorityFeeBytes, descriptorBytes, extraParamsBytes, signatureBytes,
      publicKeyBytes⟩ =>
    obtain ⟨chainIdBytes, rfl, ⟨chainIdZero, nonceZero, maxPriorityFeeZero,
      maxFeeZero, gasLimitZero, valueZero⟩, accepted⟩ :=
      fromValuesArray_signed parsed
    obtain ⟨-, nonceBytes, maxFeeBytes, gasLimitBytes, toBytes, valueBytes,
      dataBytes, -⟩ := validateNotArray_entries.mp accepted.noArrays
    have chainIdRead : readNumber (.bytes chainIdBytes) = .ok tx.chainId := by
      rw [readNumber_bytes, accepted.chainId,
        getCommon_chainId (by simp) (number_bigint _) accepted.commonRead]
      rfl
    obtain ⟨chainIdWritten, chainIdInteger⟩ :=
      numberItem_of_read chainIdZero trivial chainIdRead
    obtain ⟨nonceWritten, nonceInteger⟩ := numberItem_of_read nonceZero
      (isBytes_of_ofItem nonceBytes) accepted.nonceRead
    obtain ⟨maxPriorityFeeWritten, maxPriorityFeeInteger⟩ :=
      numberItem_of_read maxPriorityFeeZero maxPriorityFeeBytes
        accepted.maxPriorityFeeRead
    obtain ⟨maxFeeWritten, maxFeeInteger⟩ := numberItem_of_read maxFeeZero
      (isBytes_of_ofItem maxFeeBytes) accepted.maxFeeRead
    obtain ⟨gasLimitWritten, gasLimitInteger⟩ := numberItem_of_read gasLimitZero
      (isBytes_of_ofItem gasLimitBytes) accepted.gasLimitRead
    obtain ⟨valueWritten, valueInteger⟩ := numberItem_of_read valueZero
      (isBytes_of_ofItem valueBytes) accepted.valueRead
    obtain ⟨listKept, shape⟩ := shape_of_nested accepted.accessListRead
    change tx.accessList = accessList at listKept
    constructor
    · rw [raw, payloadFields, chainIdWritten, nonceWritten,
        maxPriorityFeeWritten, maxFeeWritten, gasLimitWritten, valueWritten,
        recipient_of_read (isBytes_of_ofItem toBytes) accepted.toRead,
        data_of_read (isBytes_of_ofItem dataBytes) accepted.dataRead, listKept,
        optionalItem_of_read descriptorBytes accepted.descriptorRead,
        optionalItem_of_read extraParamsBytes accepted.extraParamsRead,
        optionalItem_of_read signatureBytes accepted.signatureRead,
        optionalItem_of_read publicKeyBytes accepted.publicKeyRead]
      rfl
    · intro holds
      refine ⟨⟨chainIdInteger, nonceInteger, maxPriorityFeeInteger,
        maxFeeInteger, gasLimitInteger, valueInteger⟩, ?_,
        shape.listShape holds⟩
      exact ⟨isBytes_of_ofItem toBytes, isBytes_of_ofItem dataBytes,
        descriptorBytes, extraParamsBytes, signatureBytes, publicKeyBytes⟩

theorem WellShaped.unchecked {values : List Rlp.Item}
    (shaped : WellShaped values) :
    UncheckedBytes values ∧ HoldsLists (accessListItem values) := by
  match values, shaped with
  | [_, _, maxPriorityFeePerGas, _, _, _, _, _, _, _, _, _, _],
    ⟨⟨_, _, isInteger, _⟩, ⟨_, _, descriptorBytes, extraParamsBytes,
      signatureBytes, publicKeyBytes⟩, listed⟩ =>
    have isBytes : IsBytes maxPriorityFeePerGas := by
      cases maxPriorityFeePerGas with
      | bytes content => trivial
      | list items => cases isInteger
    exact ⟨⟨isBytes, descriptorBytes, extraParamsBytes, signatureBytes,
      publicKeyBytes⟩, listed.holdsLists⟩

end Items

section Results

theorem fromSerializedTx_values {serialized : Bytes} {values : List Rlp.Item}
    {opts : TxOptions}
    (accepted : fromSerializedTx cryptography rlp serialized opts = .ok tx)
    (decoded : rlp.decode serialized.tail = .ok (.list values)) :
    serialized = TRANSACTION_TYPE :: serialized.tail ∧
      fromValuesArray cryptography values opts = .ok tx := by
  cases serialized with
  | nil => cases accepted
  | cons type payload =>
      rw [fromSerializedTx] at accepted
      split at accepted
      · rename_i isType
        rw [List.tail_cons] at decoded
        rw [decoded] at accepted
        exact ⟨by rw [isType, List.tail_cons], accepted⟩
      · cases accepted

/-- Only a list in an unchecked place is lost. -/
theorem serialize_eq_iff (documented : rlp.Documented) {serialized : Bytes}
    {values : List Rlp.Item} {opts : TxOptions}
    (accepted : fromSerializedTx cryptography rlp serialized opts = .ok tx)
    (decoded : rlp.decode serialized.tail = .ok (.list values)) :
    tx.serialize rlp = serialized ↔ UncheckedBytes values := by
  obtain ⟨typed, parsed⟩ := fromSerializedTx_values accepted decoded
  constructor
  · intro same
    rw [← same, serialize, List.tail_cons, documented.inverse] at decoded
    cases decoded
    exact uncheckedBytes_raw
  · intro unchecked
    rw [serialize, (raw_of_unchecked parsed unchecked).1,
      documented.strict _ _ decoded]
    exact typed.symm

/-- Items that are accepted with a signature are those that the transaction writes, all
of the shapes of their fields, exactly when the unchecked ones are byte strings
and the access list has lists where lists belong. -/
theorem strict_iff (documented : rlp.Documented) (serialized : Bytes)
    (values : List Rlp.Item) (opts : TxOptions)
    (accepted : fromSerializedTx cryptography rlp serialized opts = .ok tx)
    (decoded : rlp.decode serialized.tail = .ok (.list values)) :
    (tx.serialize rlp = serialized ∧ WellShaped values) ↔
      UncheckedBytes values ∧ HoldsLists (accessListItem values) := by
  constructor
  · rintro ⟨-, shaped⟩
    exact WellShaped.unchecked shaped
  · rintro ⟨unchecked, holds⟩
    constructor
    · exact (serialize_eq_iff documented accepted decoded).mpr unchecked
    · obtain ⟨-, parsed⟩ := fromSerializedTx_values accepted decoded
      exact (raw_of_unchecked parsed unchecked).2 holds

/-- The items of a call, with some item for its signature. -/
def callItems (signature : Rlp.Item) : List Rlp.Item :=
  [.bytes [1], .bytes [7], .bytes [], .bytes [1, 44], .bytes [82, 8],
    .bytes (List.replicate 64 1), .bytes [5], .bytes [0, 1], .list [],
    .bytes [1, 0, 0], .bytes [], signature, .bytes [0, 9]]

def serializedCall (signature : Rlp.Item) : Bytes :=
  TRANSACTION_TYPE :: RlpPackage.simple.encode (.list (callItems signature))

theorem fromSerializedTx_serializedCall {signature : Rlp.Item}
    {field : Option Bytes}
    (read : readOptional (.ofItem signature) = .ok field) :
    fromSerializedTx cryptography .simple (serializedCall signature) {} =
      .ok { signedCall with signature := field } := by
  rw [serializedCall, fromSerializedTx, if_pos rfl,
    RlpPackage.simple_documented.inverse, Outcome.ok_bind]
  refine Outcome.bind_eq_ok.mpr ⟨⟨⟩, rfl, accepted_iff.mpr ?_⟩
  constructor
  case signatureRead => exact read
  case noArrays =>
    exact validateNotArray_entries.mpr
      ⟨rfl, rfl, rfl, rfl, rfl, rfl, rfl, rfl⟩
  case valueBound | gasLimitBound | nonceBound | maxFeeBound
    | maxPriorityFeeBound | upfront | ordered =>
      dsimp only [signedCall]
      decide
  all_goals rfl

theorem strict_iff_serializedCall :
    (signedCall.serialize .simple = serializedCall (.bytes [9]) ∧
      WellShaped (callItems (.bytes [9]))) ↔
    UncheckedBytes (callItems (.bytes [9])) ∧
      HoldsLists (accessListItem (callItems (.bytes [9]))) := by
  have accepted : fromSerializedTx .simple .simple
      (serializedCall (.bytes [9])) {} = .ok signedCall :=
    fromSerializedTx_serializedCall rfl
  exact strict_iff RlpPackage.simple_documented (serializedCall (.bytes [9]))
    (callItems (.bytes [9])) {} accepted
    (RlpPackage.simple_documented.inverse _)

/-- A list for the signature is taken for no signature. -/
theorem list_signature_accepted :
    fromSerializedTx .simple .simple (serializedCall (.list [])) {} =
      .ok { signedCall with signature := none } ∧
    RlpPackage.simple.decode (serializedCall (.list [])).tail =
      .ok (.list (callItems (.list []))) ∧
    (callItems (.list [])).length = 13 ∧
    serialize .simple { signedCall with signature := none } ≠
      serializedCall (.list []) := by
  have accepted : fromSerializedTx .simple .simple
      (serializedCall (.list [])) {} =
        .ok { signedCall with signature := none } :=
    fromSerializedTx_serializedCall rfl
  have decoded : RlpPackage.simple.decode (serializedCall (.list [])).tail =
      .ok (.list (callItems (.list []))) :=
    RlpPackage.simple_documented.inverse _
  refine ⟨accepted, decoded, rfl, ?_⟩
  intro same
  have unchecked := (serialize_eq_iff RlpPackage.simple_documented accepted
    decoded).mp same
  exact unchecked.2.2.2.1

end Results

end FeeMarketEIP1559Transaction

end Web3Js.Tx
