import Web3Js.Prepare.Validation

/-!
# Fidelity of the prepared transaction

A field that the caller gave is formatted twice, moved to another name,
padded, written as text and read again.  Each of these steps keeps the field
in one sense: what the later form stands for, the earlier form stood for.  The
steps compose, so the fields of the finished transaction are the ones that
the caller's fields stand for.
-/

namespace Web3Js.Prepare

open Web3Js.Tx (AccessListItem SeedInput WalletPackage
  FeeMarketEIP1559Transaction Entry)

section Keeping

variable {α β : Type}

/-- A field that is given stays, and what it stands for afterwards it stood
for before. -/
def Kept (means : α → β → Prop) (before after : Option α) : Prop :=
  ∀ given, before = some given → ∃ kept, after = some kept ∧
    ∀ meant, means kept meant → means given meant

namespace Kept

variable {means : α → β → Prop} {before middle after : Option α}

theorem refl (field : Option α) : Kept means field field := by
  intro given isGiven
  exact ⟨given, isGiven, fun _ holds => holds⟩

theorem trans (first : Kept means before middle)
    (second : Kept means middle after) : Kept means before after := by
  intro given isGiven
  obtain ⟨between, isBetween, back⟩ := first given isGiven
  obtain ⟨kept, isKept, further⟩ := second between isBetween
  exact ⟨kept, isKept, fun meant holds => back meant (further meant holds)⟩

theorem map {step : α → α}
    (back : ∀ given meant, means (step given) meant → means given meant)
    (field : Option α) : Kept means field (field.map step) := by
  intro given isGiven
  subst isGiven
  exact ⟨step given, rfl, back given⟩

theorem or (field other : Option α) : Kept means field (field.or other) := by
  intro given isGiven
  subst isGiven
  exact ⟨given, rfl, fun _ holds => holds⟩

theorem of_none (absent : before = none) : Kept means before after := by
  intro given isGiven
  rw [absent] at isGiven
  cases isGiven

/-- Formatting two fields formats the first of them that is there. -/
theorem map_or {step : α → α}
    (back : ∀ given meant, means (step given) meant → means given meant)
    (first second : Option α) :
    Kept means (first.or second) ((first.map step).or (second.map step)) := by
  cases first with
  | none => exact map back second
  | some value => exact map back (some value)

end Kept

end Keeping

section Meanings

variable (cryptography : Cryptography)

def Numbers.Means (value : Numbers) (number : Int) : Prop :=
  value.integer = some number

def BytesInput.Means (value : BytesInput) (content : Bytes) : Prop :=
  value.content = some content

/-- The bytes of an address in an access list; other text is taken for what it
reads as in hexadecimal. -/
def listedAddress (text : String) : Option Bytes :=
  match addressContent text with
  | some content => some content
  | none => (Utils.toHex cryptography text >>= Tx.textToUint8Array).toOption

def AccessListItem.Means (item : AccessListItem) (entry : Entry) : Prop :=
  listedAddress cryptography item.address = some entry.address ∧
    List.Forall₂ (fun text key => storageKey text = some key)
      item.storageKeys entry.storageKeys

def AccessListMeans (items : List AccessListItem) (entries : List Entry) :
    Prop :=
  List.Forall₂ (AccessListItem.Means cryptography) items entries

end Meanings

/-- What a step of the preparation keeps of the fields.  The gas limit and the
data may be given under two names. -/
structure Keeps (cryptography : Cryptography) (before after : Transaction) :
    Prop where
  «to» : after.«to» = before.«to»
  value : Kept Numbers.Means before.value after.value
  nonce : Kept Numbers.Means before.nonce after.nonce
  chainId : Kept Numbers.Means before.chainId after.chainId
  maxFeePerGas : Kept Numbers.Means before.maxFeePerGas after.maxFeePerGas
  maxPriorityFeePerGas : Kept Numbers.Means before.maxPriorityFeePerGas
    after.maxPriorityFeePerGas
  gasLimit : Kept Numbers.Means (before.gasLimit.or before.gas)
    (after.gasLimit.or after.gas)
  data : Kept BytesInput.Means (before.data.or before.input)
    (after.data.or after.input)
  accessList : Kept (AccessListMeans cryptography) before.accessList
    after.accessList

namespace Keeps

variable {cryptography : Cryptography} {before middle after : Transaction}

theorem refl (transaction : Transaction) :
    Keeps cryptography transaction transaction where
  «to» := rfl
  value := Kept.refl _
  nonce := Kept.refl _
  chainId := Kept.refl _
  maxFeePerGas := Kept.refl _
  maxPriorityFeePerGas := Kept.refl _
  gasLimit := Kept.refl _
  data := Kept.refl _
  accessList := Kept.refl _

theorem trans (first : Keeps cryptography before middle)
    (second : Keeps cryptography middle after) :
    Keeps cryptography before after where
  «to» := second.«to».trans first.«to»
  value := first.value.trans second.value
  nonce := first.nonce.trans second.nonce
  chainId := first.chainId.trans second.chainId
  maxFeePerGas := first.maxFeePerGas.trans second.maxFeePerGas
  maxPriorityFeePerGas :=
    first.maxPriorityFeePerGas.trans second.maxPriorityFeePerGas
  gasLimit := first.gasLimit.trans second.gasLimit
  data := first.data.trans second.data
  accessList := first.accessList.trans second.accessList

end Keeps

section Formatting

variable {cryptography : Cryptography}

theorem accessListMeans_of_format {items : List AccessListItem}
    {entries : List Entry}
    (meant : AccessListMeans cryptography (items.map AccessListItem.format)
      entries) :
    AccessListMeans cryptography items entries := by
  rw [AccessListMeans, List.forall₂_map_left_iff] at meant
  apply List.Forall₂.imp _ meant
  rintro item entry ⟨address, keys⟩
  refine ⟨address, ?_⟩
  rw [AccessListItem.format, List.forall₂_map_left_iff] at keys
  exact keys.imp fun _ _ read => storageKey_of_convertBytes32 read

theorem means_of_convertBytes (value : BytesInput) (content : Bytes)
    (meant : BytesInput.Means (convertBytes value) content) :
    BytesInput.Means value content :=
  (content_convertBytes value).symm.trans meant

theorem keeps_format (format : FMT_NUMBER) (transaction : Transaction) :
    Keeps cryptography transaction (transaction.format format) := by
  have number : ∀ (value : Numbers) (number : Int),
      Numbers.Means (convertUint format value) number →
        Numbers.Means value number :=
    fun _ _ meant => integer_of_convertUint meant
  exact {
    «to» := rfl
    value := Kept.map number _
    nonce := Kept.map number _
    chainId := Kept.map number _
    maxFeePerGas := Kept.map number _
    maxPriorityFeePerGas := Kept.map number _
    gasLimit := Kept.map_or number _ _
    data := Kept.map_or means_of_convertBytes _ _
    accessList := Kept.map (fun _ _ => accessListMeans_of_format) _ }

theorem keeps_aliasGas (transaction : Transaction) :
    Keeps cryptography transaction (aliasGas transaction) := by
  rw [aliasGas]
  split
  · rename_i gasLimit given
    refine { Keeps.refl transaction with gasLimit := ?_ }
    rw [given]
    exact Kept.refl _
  · exact Keeps.refl transaction

theorem keeps_formatTransaction {transaction formatted : Transaction}
    (made : formatTransaction cryptography transaction = .ok formatted) :
    Keeps cryptography transaction formatted := by
  obtain ⟨⟨⟩, -, done⟩ := Outcome.bind_eq_ok.mp made
  cases done
  exact (keeps_format .HEX transaction).trans (keeps_aliasGas _)

end Formatting

section Steps

variable {Descriptor Wallet : Type} {cryptography : Cryptography}
  {wallets : WalletPackage Descriptor Wallet} {node : Node}
  {web3Context : Web3Context} {transaction populated : Transaction}

theorem keeps_populateFrom {seed : Option SeedInput}
    (made : populateFrom cryptography wallets web3Context seed transaction =
      .ok populated) : Keeps cryptography transaction populated := by
  rw [populateFrom] at made
  split at made
  · cases made
    exact Keeps.refl _
  · obtain ⟨sender, -, done⟩ := Outcome.bind_eq_ok.mp made
    cases done
    exact { Keeps.refl transaction with }

theorem keeps_populateNonce
    (made : populateNonce node transaction = .ok populated) :
    Keeps cryptography transaction populated := by
  rw [populateNonce] at made
  split at made
  · cases made
    exact Keeps.refl _
  · rename_i absent
    split at made
    · cases made
    · obtain ⟨answer, -, done⟩ := Outcome.bind_eq_ok.mp made
      cases done
      exact { Keeps.refl transaction with nonce := Kept.of_none absent }

theorem keeps_populateValue (transaction : Transaction) :
    Keeps cryptography transaction (populateValue transaction) :=
  { Keeps.refl transaction with value := Kept.or _ _ }

/-- Only text that is no prefix and digits with a capital letter stands for
more with a prefix than without. -/
theorem content_of_prefixed {text : List Char} {content : Bytes}
    (notPrefixed : ['0', 'x'].isPrefixOf text = false)
    (meant : (BytesInput.text (String.ofList ('0' :: 'x' :: text))).content =
      some content) :
    (BytesInput.text (String.ofList text)).content = some content := by
  rw [BytesInput.content, String.toList_ofList, unprefixed,
    if_pos (.inl rfl)] at meant
  rw [BytesInput.content, String.toList_ofList, ← meant]
  congr 2
  rw [unprefixed.eq_def]
  split
  · rename_i x digits
    split
    · rename_i isPrefix
      rcases isPrefix with rfl | rfl
      · cases notPrefixed
      · exfalso
        have digit : Hex.isDigit 'X' = true := by
          apply List.all_eq_true.mp (Hex.isDigit_of_decode meant)
          rw [Hex.padToEven]
          split
          · exact .tail _ (.tail _ (.head _))
          · exact .tail _ (.head _)
        exact absurd digit (by decide)
    · rfl
  · rfl

theorem means_of_withPrefix {value prefixed : BytesInput}
    (made : withPrefix value = .ok prefixed) (content : Bytes)
    (meant : BytesInput.Means prefixed content) :
    BytesInput.Means value content := by
  cases value with
  | bytes given => cases made
  | text given =>
      rw [withPrefix] at made
      split at made
      · cases made
        exact meant
      · rename_i notPrefixed
        cases made
        have whole := content_of_prefixed
          (Bool.eq_false_iff.mpr notPrefixed) meant
        rwa [String.ofList_toList] at whole

theorem keeps_populateData
    (made : populateData transaction = .ok populated) :
    Keeps cryptography transaction populated := by
  rw [populateData] at made
  split at made
  · rename_i data input isData isInput
    obtain ⟨⟨⟩, -, made⟩ := Outcome.bind_eq_ok.mp made
    obtain ⟨prefixed, converted, done⟩ := Outcome.bind_eq_ok.mp made
    cases done
    refine { Keeps.refl transaction with data := ?_ }
    rw [isData]
    rintro given ⟨⟩
    exact ⟨prefixed, rfl, means_of_withPrefix converted⟩
  · rename_i data isData isInput
    obtain ⟨prefixed, converted, done⟩ := Outcome.bind_eq_ok.mp made
    cases done
    refine { Keeps.refl transaction with data := ?_ }
    rw [isData]
    rintro given ⟨⟩
    exact ⟨prefixed, rfl, means_of_withPrefix converted⟩
  · rename_i input isData isInput
    obtain ⟨prefixed, converted, done⟩ := Outcome.bind_eq_ok.mp made
    cases done
    refine { Keeps.refl transaction with data := ?_ }
    rw [isData, isInput]
    rintro given ⟨⟩
    exact ⟨prefixed, rfl, means_of_withPrefix converted⟩
  · rename_i isData isInput
    cases made
    refine { Keeps.refl transaction with data := Kept.of_none ?_ }
    rw [isData, isInput]
    rfl

theorem keeps_populateCommon
    (made : populateCommon web3Context transaction = .ok populated) :
    Keeps cryptography transaction populated := by
  rw [populateCommon] at made
  split at made
  · cases made
    exact Keeps.refl _
  · obtain ⟨common, -, done⟩ := Outcome.bind_eq_ok.mp made
    cases done
    exact { Keeps.refl transaction with }

theorem keeps_populateChainId
    (made : populateChainId node transaction = .ok populated) :
    Keeps cryptography transaction populated := by
  rw [populateChainId] at made
  split at made
  · cases made
    exact Keeps.refl _
  · rename_i absent
    obtain ⟨customId, -, made⟩ := Outcome.bind_eq_ok.mp made
    split at made
    · cases made
      exact Keeps.refl _
    · obtain ⟨answer, -, done⟩ := Outcome.bind_eq_ok.mp made
      cases done
      exact { Keeps.refl transaction with chainId := Kept.of_none absent }

theorem keeps_populateNetworkId
    (made : populateNetworkId node web3Context transaction = .ok populated) :
    Keeps cryptography transaction populated := by
  rw [populateNetworkId] at made
  split at made
  · cases made
    exact Keeps.refl _
  · cases made
    exact { Keeps.refl transaction with }
  · obtain ⟨answer, -, done⟩ := Outcome.bind_eq_ok.mp made
    cases done
    exact { Keeps.refl transaction with }

theorem keeps_populateGasLimit (transaction : Transaction) :
    Keeps cryptography transaction (populateGasLimit transaction) :=
  { Keeps.refl transaction with gasLimit := Kept.or _ _ }

theorem keeps_populateType (transaction : Transaction) :
    Keeps cryptography transaction
      (populateType web3Context transaction) :=
  { Keeps.refl transaction with }

theorem keeps_populateAccessList (transaction : Transaction) :
    Keeps cryptography transaction (populateAccessList transaction) := by
  rw [populateAccessList]
  split
  · have same : Keeps cryptography transaction transaction := Keeps.refl _
    exact { same with accessList := Kept.or _ _ }
  · exact Keeps.refl _

theorem means_of_safeBigInt {value : Option Numbers} {label : String}
    {number : Int} (read : safeBigInt value label = .ok number) :
    ∃ given, value = some given ∧ Numbers.Means given number := by
  cases value with
  | none => cases read
  | some given =>
      refine ⟨given, rfl, ?_⟩
      rw [safeBigInt] at read
      split at read
      · cases read
      split at read
      · cases read
      rename_i result converted
      split at read
      · cases read
      cases read
      cases given with
      | number | bigint => exact converted
      | fraction => cases converted
      | text content =>
          rw [Numbers.Means, Numbers.integer, if_neg]
          · exact converted
          · rintro rfl
            cases bigIntOfString_bareHex.symm.trans converted

theorem keeps_getEip1559GasPricing
    (made : getEip1559GasPricing node transaction web3Context =
      .ok populated) : Keeps cryptography transaction populated := by
  obtain ⟨answer, -, made⟩ := Outcome.bind_eq_ok.mp made
  obtain ⟨baseFee, -, made⟩ := Outcome.bind_eq_ok.mp made
  obtain ⟨priorityFee, priorityRead, done⟩ := Outcome.bind_eq_ok.mp made
  cases done
  refine { Keeps.refl transaction with
    maxFeePerGas := ?_, maxPriorityFeePerGas := ?_ }
  · intro given isGiven
    refine ⟨_, rfl, ?_⟩
    rw [isGiven]
    exact fun _ meant => integer_of_convertUint meant
  · intro given isGiven
    refine ⟨_, rfl, ?_⟩
    intro meant holds
    have same : some priorityFee = some meant := integer_of_convertUint holds
    obtain ⟨found, isFound, foundMeans⟩ := means_of_safeBigInt priorityRead
    rw [isGiven] at isFound
    cases isFound
    cases same
    exact foundMeans

theorem keeps_populateGasPrice {fillGasPrice : Bool}
    (made : populateGasPrice node web3Context fillGasPrice transaction =
      .ok populated) : Keeps cryptography transaction populated := by
  rw [populateGasPrice] at made
  split at made
  · rw [getTransactionGasPricing] at made
    split at made
    · cases made
      exact Keeps.refl _
    · split at made
      · exact keeps_getEip1559GasPricing made
      · cases made
    · cases made
  · cases made
    exact Keeps.refl _

theorem keeps_populateGas {fillGasLimit : Bool}
    (made : populateGas cryptography node fillGasLimit transaction =
      .ok populated) : Keeps cryptography transaction populated := by
  rw [populateGas] at made
  split at made
  · rename_i absent
    simp only [Bool.and_eq_true, Option.isNone_iff_eq_none] at absent
    obtain ⟨formatted, -, made⟩ := Outcome.bind_eq_ok.mp made
    obtain ⟨answer, -, done⟩ := Outcome.bind_eq_ok.mp made
    cases done
    refine { Keeps.refl transaction with gasLimit := Kept.of_none ?_ }
    rw [absent.1.1, absent.1.2]
    rfl
  · cases made
    exact Keeps.refl _

/-- The builder keeps what the caller gave. -/
theorem keeps_defaultTransactionBuilder {seed : Option SeedInput}
    {fillGasPrice fillGasLimit : Bool}
    (made : defaultTransactionBuilder cryptography wallets node web3Context
      transaction seed fillGasPrice fillGasLimit = .ok populated) :
    Keeps cryptography transaction populated := by
  obtain ⟨withFrom, madeFrom, made⟩ := Outcome.bind_eq_ok.mp made
  obtain ⟨withNonce, madeNonce, made⟩ := Outcome.bind_eq_ok.mp made
  obtain ⟨withData, madeData, made⟩ := Outcome.bind_eq_ok.mp made
  obtain ⟨withCommon, madeCommon, made⟩ := Outcome.bind_eq_ok.mp made
  obtain ⟨withChainId, madeChainId, made⟩ := Outcome.bind_eq_ok.mp made
  obtain ⟨withNetworkId, madeNetworkId, made⟩ := Outcome.bind_eq_ok.mp made
  obtain ⟨withGasPrice, madeGasPrice, madeGas⟩ := Outcome.bind_eq_ok.mp made
  apply (keeps_format .BIGINT transaction).trans
  apply (keeps_populateFrom madeFrom).trans
  apply (keeps_populateNonce madeNonce).trans
  apply (keeps_populateValue withNonce).trans
  apply (keeps_populateData madeData).trans
  apply (keeps_populateCommon madeCommon).trans
  apply (keeps_populateChainId madeChainId).trans
  apply (keeps_populateNetworkId madeNetworkId).trans
  apply (keeps_populateGasLimit withNetworkId).trans
  apply (keeps_populateType _).trans
  apply (keeps_populateAccessList _).trans
  apply (keeps_populateGasPrice madeGasPrice).trans
  exact keeps_populateGas madeGas

end Steps

section Reading

variable {cryptography : Cryptography}

/-- What is read of an address in an access list is what the address stands
for; the text of an invalid one is too long to be an address itself. -/
theorem listedAddress_of_read {text hex : String} {address : Bytes}
    (converted : Utils.toHex cryptography text = .ok hex)
    (read : Tx.textToUint8Array hex = .ok address)
    (width : address.length = 64) :
    listedAddress cryptography text = some address := by
  rw [listedAddress]
  split
  · rename_i content isAddress
    by_cases valid : Validator.qrlAddressRegex text = true
    · rw [Utils.toHex_of_regex valid] at converted
      split at converted
      · obtain ⟨bytes, ownContent, -, rfl⟩ := addressContent_of_addressToHex
          (Utils.addressToHex_eq_ok converted)
        rw [Tx.textToUint8Array_hexlify] at read
        cases read
        exact isAddress.symm.trans ownContent
      · exfalso
        cases converted
        obtain ⟨bytes, written, long⟩ := Utils.utf8ToHex_bytes text
        rw [written, Tx.textToUint8Array_hexlify] at read
        cases read
        obtain ⟨own, -, ownWidth, body⟩ := exists_addressContent valid
        have bodyLength := congrArg List.length body
        rw [Hex.length_encode, List.length_map, List.length_tail,
          String.length_toList] at bodyLength
        omega
    · rw [addressContent, if_neg valid] at isAddress
      cases isAddress
  · rw [converted, Outcome.ok_bind, read]
    rfl

theorem storageKeys_of_read {texts : List String} {keys : List Bytes}
    (read : texts.mapM Tx.textToUint8Array = .ok keys)
    (widths : ∀ key ∈ keys, key.length = 32) :
    List.Forall₂ (fun text key => storageKey text = some key) texts keys := by
  have related := Outcome.mapM_eq_ok.mp read
  clear read
  induction related with
  | nil => exact .nil
  | cons first _ induction =>
      apply List.Forall₂.cons
      · exact storageKey_of_read first (widths _ List.mem_cons_self)
      · exact induction fun key member =>
          widths key (List.mem_cons_of_mem _ member)

theorem entry_of_json {item : AccessListItem} {element : Rlp.Item}
    (read : Tx.entryOfJson cryptography item = .ok element)
    (verified : Tx.verifyEntry element = .ok ()) :
    ∃ entry : Entry, element = entry.item ∧
      AccessListItem.Means cryptography item entry := by
  obtain ⟨hex, converted, rest⟩ := Outcome.bind_eq_ok.mp read
  obtain ⟨address, addressRead, rest⟩ := Outcome.bind_eq_ok.mp rest
  obtain ⟨keys, keysRead, done⟩ := Outcome.bind_eq_ok.mp rest
  cases done
  obtain ⟨width, slotsVerified⟩ := Tx.verifyEntry_eq_ok.mp verified
  have widths : ∀ key ∈ keys, key.length = 32 := by
    intro key member
    exact Tx.verifyStorageSlots_list.mp slotsVerified (.bytes key)
      (List.mem_map.mpr ⟨key, member, rfl⟩)
  refine ⟨⟨address, keys, width, widths⟩, rfl, ?_, ?_⟩
  · exact listedAddress_of_read converted addressRead width
  · exact storageKeys_of_read keysRead widths

theorem entries_of_json {items : List AccessListItem}
    {elements : List Rlp.Item}
    (read : items.mapM (Tx.entryOfJson cryptography) = .ok elements)
    (verified : ∀ element ∈ elements, Tx.verifyEntry element = .ok ()) :
    ∃ entries : List Entry, elements = entries.map Entry.item ∧
      AccessListMeans cryptography items entries := by
  have related := Outcome.mapM_eq_ok.mp read
  clear read
  induction related with
  | nil => exact ⟨[], rfl, .nil⟩
  | cons first _ induction =>
      obtain ⟨entry, rfl, meant⟩ :=
        entry_of_json first (verified _ List.mem_cons_self)
      obtain ⟨entries, rfl, allMeant⟩ := induction fun element member =>
        verified element (List.mem_cons_of_mem _ member)
      exact ⟨entry :: entries, rfl, .cons meant allMeant⟩

/-- The access list of a transaction is the one that was given. -/
theorem accessListMeans_of_read {items : List AccessListItem}
    {data : List AccessListItem × Rlp.Item}
    (read : Tx.readAccessList cryptography (.json items) = .ok data) :
    ∃ entries : List Entry, data.2 = .list (entries.map Entry.item) ∧
      AccessListMeans cryptography items entries := by
  obtain ⟨found, converted, checked⟩ := Outcome.bind_eq_ok.mp read
  obtain ⟨⟨⟩, verified, done⟩ := Outcome.bind_eq_ok.mp checked
  cases done
  cases items with
  | nil =>
      cases converted
      exact ⟨[], rfl, .nil⟩
  | cons first others =>
      obtain ⟨elements, mapped, done⟩ := Outcome.bind_eq_ok.mp converted
      cases done
      obtain ⟨entries, rfl, meant⟩ :=
        entries_of_json mapped (Tx.verifyAccessList_list.mp verified)
      exact ⟨entries, rfl, meant⟩

theorem recipient_of_read {text : String} {recipient : Option Tx.Address}
    (read : (Tx.recipientBytes cryptography (.text text) >>= Tx.recipient) =
      .ok recipient) :
    (text = "" ∧ recipient = none) ∨ ∃ address, recipient = some address ∧
      addressContent text = some address.buf := by
  obtain ⟨bytes, bytesRead, addressed⟩ := Outcome.bind_eq_ok.mp read
  rw [Tx.recipientBytes] at bytesRead
  split at bytesRead
  · rename_i empty
    cases bytesRead
    cases addressed
    exact .inl ⟨empty, rfl⟩
  split at bytesRead
  · rename_i valid
    obtain ⟨hex, converted, hexRead⟩ := Outcome.bind_eq_ok.mp bytesRead
    have regex : Validator.qrlAddressRegex text = true := by
      rw [Validator.isAddressString, Bool.and_eq_true] at valid
      exact valid.1
    rw [Utils.toHex_of_regex regex, if_pos valid] at converted
    obtain ⟨content, isContent, width, rfl⟩ := addressContent_of_addressToHex
      (Utils.addressToHex_eq_ok converted)
    rw [Tx.textToUint8Array_hexlify] at hexRead
    cases hexRead
    have positive : 0 < bytes.length := by omega
    rw [Tx.recipient, if_pos positive] at addressed
    cases made : Tx.Address.new bytes with
    | error problem =>
        rw [made] at addressed
        cases addressed
    | ok address =>
        rw [made] at addressed
        cases addressed
        refine .inr ⟨address, rfl, ?_⟩
        rw [Tx.Address.new_eq_ok made]
        exact isContent
  · cases bytesRead

theorem readNumber_of_toUint8Array {value : Numbers} {buf : Bytes}
    (read : Tx.toUint8Array value.input = .ok buf) :
    Tx.readNumber value.input = .ok (Tx.uint8ArrayToBigInt buf) := by
  cases value with
  | number | fraction | bigint =>
      exact Outcome.bind_eq_ok.mpr ⟨buf, read, rfl⟩
  | text content =>
      by_cases empty : content = ""
      · subst empty
        cases read
      · refine Outcome.bind_eq_ok.mpr ⟨buf, ?_, rfl⟩
        rw [Numbers.input, Tx.Input.emptyAsHex, if_neg empty]
        exact read

/-- The chain id of the common object is the one that was given. -/
theorem chainId_of_getCommon {value : Numbers}
    {given : Option Tx.Common} {common : Tx.Common}
    (read : Tx.getCommon given value.input = .ok common) :
    Numbers.Means value (common.chainId : Int) := by
  have defined : value.input ≠ .undefined := by
    cases value <;> simp [Numbers.input]
  cases converted : Tx.toUint8Array value.input with
  | error problem =>
      exfalso
      cases value with
      | number | fraction | bigint | text =>
          rw [Numbers.input] at converted read
          simp only [Tx.getCommon, converted, Outcome.error_bind] at read
          cases read
  | ok buf =>
      have number : (Tx.toUint8Array value.input).map Tx.uint8ArrayToBigInt =
          .ok (Tx.uint8ArrayToBigInt buf) := by
        rw [converted]
        rfl
      rw [Tx.getCommon_chainId defined number read]
      exact integer_of_readNumber (readNumber_of_toUint8Array converted)

/-- A field that was kept and then read is the one that was given. -/
theorem means_of_kept {before after : Option Numbers} {number : Nat}
    (kept : Kept Numbers.Means before after)
    (read : Tx.readNumber (numberInput after) = .ok number) :
    ∀ given, before = some given → Numbers.Means given (number : Int) := by
  intro given isGiven
  obtain ⟨field, rfl, back⟩ := kept given isGiven
  exact back _ (integer_of_readNumber read)

end Reading

section Fidelity

variable {Descriptor Wallet : Type} {cryptography : Cryptography}
  {wallets : WalletPackage Descriptor Wallet} {node : Node}
  {web3Context : Web3Context}

/-- The transaction has the fields that the caller gave. -/
structure Faithful (cryptography : Cryptography)
    (wallets : WalletPackage Descriptor Wallet) (transaction : Transaction)
    (seed : Option SeedInput) (tx : FeeMarketEIP1559Transaction) : Prop where
  noRecipient : transaction.«to» = none → tx.«to» = none
  recipient : ∀ text, transaction.«to» = some text →
    (text = "" ∧ tx.«to» = none) ∨ ∃ address, tx.«to» = some address ∧
      addressContent text = some address.buf
  data : ∀ given, transaction.data.or transaction.input = some given →
    given.content = some tx.data
  value : ∀ given, transaction.value = some given →
    given.integer = some (tx.value : Int)
  nonce : ∀ given, transaction.nonce = some given →
    given.integer = some (tx.nonce : Int)
  chainId : ∀ given, transaction.chainId = some given →
    given.integer = some (tx.chainId : Int)
  maxFeePerGas : ∀ given, transaction.maxFeePerGas = some given →
    given.integer = some (tx.maxFeePerGas : Int)
  maxPriorityFeePerGas : ∀ given,
    transaction.maxPriorityFeePerGas = some given →
      given.integer = some (tx.maxPriorityFeePerGas : Int)
  gasLimit : ∀ given, transaction.gasLimit.or transaction.gas = some given →
    given.integer = some (tx.gasLimit : Int)
  accessList : ∀ items, transaction.accessList = some items →
    ∃ entries : List Entry, tx.accessList = .list (entries.map Entry.item) ∧
      AccessListMeans cryptography items entries
  sender : ∀ sender seedInput, transaction.«from» = some sender →
    seed = some seedInput → ∃ account content,
      Tx.seedToAccount cryptography wallets seedInput = .ok account ∧
      addressContent account.address = some content ∧
      addressContent sender = some content

theorem sender_of_check {transaction : Transaction} {seed : Option SeedInput}
    (checked : checkSender cryptography wallets transaction seed = .ok ())
    (sender : String) (seedInput : SeedInput)
    (isSender : transaction.«from» = some sender)
    (isSeed : seed = some seedInput) :
    ∃ account content,
      Tx.seedToAccount cryptography wallets seedInput = .ok account ∧
      addressContent account.address = some content ∧
      addressContent sender = some content := by
  subst isSeed
  simp only [checkSender, isSender] at checked
  obtain ⟨account, made, checked⟩ := Outcome.bind_eq_ok.mp checked
  obtain ⟨given, givenRead, checked⟩ := Outcome.bind_eq_ok.mp checked
  obtain ⟨derived, derivedRead, checked⟩ := Outcome.bind_eq_ok.mp checked
  split at checked
  · rename_i same
    subst same
    obtain ⟨content, senderContent, accountContent⟩ :=
      addressContent_of_checksum givenRead derivedRead
    exact ⟨account, content, made, accountContent, senderContent⟩
  · cases checked

/-- A kept transaction that the constructor accepts is the one the caller
described. -/
theorem faithful_of_keeps {transaction formatted : Transaction}
    {seed : Option SeedInput} {options : Tx.TxOptions}
    {tx : FeeMarketEIP1559Transaction}
    (checked : checkSender cryptography wallets transaction seed = .ok ())
    (keeps : Keeps cryptography transaction formatted)
    (accepted : Tx.Accepted cryptography
      (getQRLjsTxDataFromTransaction formatted) options tx) :
    Faithful cryptography wallets transaction seed tx where
  noRecipient absent := by
    have read := accepted.toRead
    rw [getQRLjsTxDataFromTransaction, keeps.«to», absent] at read
    have none : Except.ok none = Except.ok tx.«to» := read
    exact (Except.ok.inj none).symm
  recipient text isTo := by
    have read := accepted.toRead
    rw [getQRLjsTxDataFromTransaction, keeps.«to», isTo] at read
    exact recipient_of_read read
  data given isGiven := by
    obtain ⟨kept, isKept, back⟩ := keeps.data given isGiven
    have read := accepted.dataRead
    rw [getQRLjsTxDataFromTransaction, isKept] at read
    exact back _ (content_of_toUint8Array read)
  value := means_of_kept keeps.value accepted.valueRead
  nonce := means_of_kept keeps.nonce accepted.nonceRead
  chainId given isGiven := by
    obtain ⟨kept, isKept, back⟩ := keeps.chainId given isGiven
    have read := accepted.commonRead
    rw [getQRLjsTxDataFromTransaction, isKept] at read
    rw [accepted.chainId]
    exact back _ (chainId_of_getCommon read)
  maxFeePerGas := means_of_kept keeps.maxFeePerGas accepted.maxFeeRead
  maxPriorityFeePerGas := means_of_kept keeps.maxPriorityFeePerGas
    accepted.maxPriorityFeeRead
  gasLimit := means_of_kept keeps.gasLimit accepted.gasLimitRead
  accessList items isGiven := by
    obtain ⟨kept, isKept, back⟩ := keeps.accessList items isGiven
    have read := accepted.accessListRead
    rw [getQRLjsTxDataFromTransaction, isKept] at read
    obtain ⟨entries, whole, meant⟩ := accessListMeans_of_read read
    exact ⟨entries, whole, back entries meant⟩
  sender := sender_of_check checked

/-- The transaction that is prepared for signing has the fields that the
caller gave. -/
theorem prepareTransactionForSigning_faithful {transaction : Transaction}
    {seed : Option SeedInput} {fillGasPrice fillGasLimit : Bool}
    {tx : FeeMarketEIP1559Transaction}
    (prepared : prepareTransactionForSigning cryptography wallets node
      web3Context transaction seed fillGasPrice fillGasLimit = .ok tx) :
    Faithful cryptography wallets transaction seed tx := by
  obtain ⟨⟨⟩, checked, made⟩ := Outcome.bind_eq_ok.mp prepared
  obtain ⟨populated, built, made⟩ := Outcome.bind_eq_ok.mp made
  obtain ⟨formatted, formattedMade, made⟩ := Outcome.bind_eq_ok.mp made
  obtain ⟨⟨⟩, -, made⟩ := Outcome.bind_eq_ok.mp made
  obtain ⟨options, -, made⟩ := Outcome.bind_eq_ok.mp made
  obtain ⟨type, -, made⟩ := Outcome.bind_eq_ok.mp made
  dsimp only at made
  split at made
  · have keeps : Keeps cryptography transaction formatted :=
      (keeps_defaultTransactionBuilder built).trans
        (keeps_formatTransaction formattedMade)
    exact faithful_of_keeps checked keeps (Tx.accepted_iff.mp made)
  · cases made

/-- A node that is never asked. -/
def silentNode : Node where
  getTransactionCount _ := .error "no answer"
  getChainId := .error "no answer"
  getId := .error "no answer"
  getBaseFeePerGas := .error "no answer"
  estimateGas _ := .error "no answer"

/-- A contract creation whose fields are given in different forms. -/
def deployment : Transaction where
  «from» := some (addressText (List.replicate 64 1))
  value := some (.bigint 5)
  accessList := some []
  gas := some (.text "30000")
  maxFeePerGas := some (.text "0x64")
  maxPriorityFeePerGas := some (.number 2)
  input := some (.text "abcd")
  nonce := some (.number 3)
  chainId := some (.text "0x7")
  networkId := some (.number 7)

theorem deployment_prepared :
    (prepareTransactionForSigning .simple .simple silentNode {} deployment none
      false true).isOk = true := by
  decide +kernel

theorem prepareTransactionForSigning_faithful_deployment :
    ∃ tx, prepareTransactionForSigning .simple .simple silentNode {} deployment
        none false true = .ok tx ∧
      Faithful .simple .simple deployment none tx := by
  have isOk := deployment_prepared
  cases prepared : prepareTransactionForSigning .simple .simple silentNode {}
      deployment none false true with
  | error problem =>
      rw [prepared] at isOk
      cases isOk
  | ok tx => exact ⟨tx, rfl, prepareTransactionForSigning_faithful prepared⟩

end Fidelity

end Web3Js.Prepare
