import Web3Js.Tx.Common
import Web3Js.Tx.Values

/-!
# Access lists

An access list arrives as JSON, with addresses and storage keys as text, or as
nested arrays.  Nested arrays are kept as they are once every entry was
written as text and its lengths were checked, so what a transaction holds is a
list of addresses with their storage keys; only an empty byte string passes in
the place of a list.
-/

namespace Web3Js.Tx

structure AccessListItem where
  address : String
  storageKeys : List String

inductive AccessListInput
  | nullish
  | json (items : List AccessListItem)
  | nested (item : Rlp.Item)

/-- An address of 64 bytes with storage keys of 32 bytes. -/
structure Entry where
  address : Bytes
  storageKeys : List Bytes
  addressWidth : address.length = 64
  keyWidth : ∀ key ∈ storageKeys, key.length = 32

namespace Entry

def keysItem (entry : Entry) : Rlp.Item :=
  .list (entry.storageKeys.map .bytes)

def item (entry : Entry) : Rlp.Item :=
  .list [.bytes entry.address, entry.keysItem]

end Entry

def ADDRESS_BYTES : Nat := 64

section Conversion

/-- `bytesToHex` of an element; an empty array counts as no bytes. -/
def elementToHex : Option Rlp.Item → Except String String
  | some (.bytes content) => .ok (hexlify content)
  | some (.list []) => .ok "0x"
  | some (.list _) | none => .error "must pass \"bytes\" validation"

/-- The storage keys of an entry as text; a byte of a byte string is not
converted. -/
def storageKeysToHex : Option Rlp.Item → Except String (List String)
  | some (.list keys) => keys.mapM fun key => elementToHex (some key)
  | some (.bytes []) => .ok []
  | some (.bytes _) => .error "must pass \"bytes\" validation"
  | none => .error "Cannot read properties of undefined (reading 'length')"

def entryToJson : Rlp.Item → Except String AccessListItem
  | .list fields => do
      let address ← elementToHex fields[0]?
      let storageKeys ← storageKeysToHex fields[1]?
      .ok { address, storageKeys }
  | .bytes _ => .error "must pass \"bytes\" validation"

def entryOfJson (cryptography : Cryptography) (item : AccessListItem) :
    Except String Rlp.Item := do
  let address ← Utils.toHex cryptography item.address
  let addressBytes ← textToUint8Array address
  let storageItems ← item.storageKeys.mapM textToUint8Array
  .ok (.list [.bytes addressBytes, .list (storageItems.map .bytes)])

/-- `getAccessListData` of `accessList ?? []`: the JSON and the nested
arrays.  What is not an array at the front is taken for JSON, where a byte or
a byte string has no address. -/
def getAccessListData (cryptography : Cryptography) :
    AccessListInput → Except String (List AccessListItem × Rlp.Item)
  | .nullish | .json [] => .ok ([], .list [])
  | .json items => do
      let entries ← items.mapM (entryOfJson cryptography)
      .ok (items, .list entries)
  | .nested (.bytes []) => .ok ([], .bytes [])
  | .nested (.bytes _) => .error "Invalid value given \"undefined\"."
  | .nested (.list (.bytes _ :: _)) =>
      .error "Invalid value given \"undefined\"."
  | .nested (.list entries) => do
      let json ← entries.mapM entryToJson
      .ok (json, .list entries)

/-- `.length` of an element. -/
def elementLength : Rlp.Item → Nat
  | .bytes content => content.length
  | .list items => items.length

def verifyStorageSlots : Rlp.Item → Except String Unit
  | .bytes [] => .ok ()
  | .bytes _ =>
      .error "Invalid EIP-2930 transaction: storage slot length should be 32 bytes"
  | .list slots =>
      if slots.all fun slot => elementLength slot = 32 then .ok ()
      else
        .error
          "Invalid EIP-2930 transaction: storage slot length should be 32 bytes"

def verifyEntry : Rlp.Item → Except String Unit
  | .list [address, storageSlots] =>
      if elementLength address = ADDRESS_BYTES then
        verifyStorageSlots storageSlots
      else
        .error
          "Invalid EIP-2930 transaction: address length should be 64 bytes"
  | .list (_ :: _ :: _ :: _) =>
      .error ("Access list item cannot have 3 elements. It can only have an " ++
        "address, and an array of storage slots.")
  | .list _ | .bytes _ =>
      .error "Cannot read properties of undefined (reading 'length')"

def verifyAccessList : Rlp.Item → Except String Unit
  | .bytes [] => .ok ()
  | .bytes _ => .error "Cannot read properties of undefined (reading 'length')"
  | .list entries => forM entries verifyEntry

/-- What a transaction keeps of its access list. -/
def readAccessList (cryptography : Cryptography) (input : AccessListInput) :
    Except String (List AccessListItem × Rlp.Item) := do
  let data ← getAccessListData cryptography input
  verifyAccessList data.2
  .ok data

def setLengthLeft (msg : Bytes) (length : Nat) : Bytes :=
  if msg.length < length then List.replicate (length - msg.length) 0 ++ msg
  else msg.drop (msg.length - length)

/-- The JSON of an entry of the nested arrays; only a byte string is
padded. -/
def entryToPaddedJson : Rlp.Item → Except String AccessListItem
  | .list [.bytes address, .list slots] => do
      let storageKeys ← slots.mapM fun slot =>
        match slot with
        | .bytes key => .ok (hexlify (setLengthLeft key 32))
        | .list _ => .error "This method only supports Uint8Array"
      .ok { address := hexlify (setLengthLeft address ADDRESS_BYTES),
            storageKeys }
  | .list [.bytes address, .bytes []] =>
      .ok { address := hexlify (setLengthLeft address ADDRESS_BYTES),
            storageKeys := [] }
  | _ => .error "This method only supports Uint8Array"

def getAccessListJSON : Rlp.Item → Except String (List AccessListItem)
  | .list entries => entries.mapM entryToPaddedJson
  | .bytes [] => .ok []
  | .bytes _ => .error "This method only supports Uint8Array"

/-- The number of storage keys of an entry. -/
def slotCount : Rlp.Item → Nat
  | .list (_ :: slots :: _) => elementLength slots
  | _ => 0

def getDataFeeEIP2930 (accessList : Rlp.Item) (common : Common) :
    Except String Nat := do
  let accessListStorageKeyCost ← common.param .accessListStorageKeyCost
  let accessListAddressCost ← common.param .accessListAddressCost
  let entries := match accessList with
    | .list entries => entries
    | .bytes _ => []
  .ok (elementLength accessList * accessListAddressCost +
    (entries.map slotCount).sum * accessListStorageKeyCost)

end Conversion

section Shapes

/-- An entry as decoded data may have it. -/
def EntryShape (item : Rlp.Item) : Prop :=
  (∃ entry : Entry, item = entry.item) ∨
    ∃ address : Bytes, address.length = 64 ∧
      item = .list [.bytes address, .bytes []]

/-- An access list that is accepted: a list of entries, or no bytes. -/
def Shape (item : Rlp.Item) : Prop :=
  item = .bytes [] ∨ ∃ entries, item = .list entries ∧
    ∀ entry ∈ entries, EntryShape entry

/-- An access list with lists where lists belong. -/
def ListShape (item : Rlp.Item) : Prop :=
  ∃ entries : List Entry, item = .list (entries.map Entry.item)

/-- Input of the declared type: JSON, or nested arrays with lists where lists
belong. -/
def AccessListInput.Typed : AccessListInput → Prop
  | .nullish | .json _ => True
  | .nested item => ∃ entries : List (Bytes × List Bytes),
      item = .list (entries.map fun (address, keys) =>
        .list [.bytes address, .list (keys.map .bytes)])

theorem verifyAccessList_list {entries : List Rlp.Item} :
    verifyAccessList (.list entries) = .ok () ↔
      ∀ entry ∈ entries, verifyEntry entry = .ok () :=
  Outcome.forM_eq_ok

theorem verifyEntry_eq_ok {address slots : Rlp.Item} :
    verifyEntry (.list [address, slots]) = .ok () ↔
      elementLength address = 64 ∧ verifyStorageSlots slots = .ok () := by
  rw [verifyEntry, ADDRESS_BYTES]
  split
  · rename_i width
    simp [width]
  · rename_i width
    simp [width]

theorem verifyStorageSlots_list {slots : List Rlp.Item} :
    verifyStorageSlots (.list slots) = .ok () ↔
      ∀ slot ∈ slots, elementLength slot = 32 := by
  rw [verifyStorageSlots]
  split
  · rename_i widths
    simpa using widths
  · rename_i widths
    simpa using widths

/-- A byte string of some length is what its length and its text allow. -/
theorem bytes_of_element {element : Rlp.Item} {hex : String}
    (converted : elementToHex (some element) = .ok hex)
    (nonempty : elementLength element ≠ 0) :
    ∃ content, element = .bytes content := by
  cases element with
  | bytes content => exact ⟨content, rfl⟩
  | list items =>
      cases items with
      | nil => exact absurd rfl nonempty
      | cons item items => cases converted

theorem bytes_of_elements {keys : List Rlp.Item} {texts : List String}
    (converted : keys.mapM (fun key => elementToHex (some key)) = .ok texts)
    (widths : ∀ key ∈ keys, elementLength key = 32) :
    ∃ contents : List Bytes, keys = contents.map .bytes ∧
      ∀ content ∈ contents, content.length = 32 := by
  have related := Outcome.mapM_eq_ok.mp converted
  induction related with
  | nil => exact ⟨[], rfl, by simp⟩
  | cons first _ induction =>
      rename_i key text keys texts others
      have width := widths key List.mem_cons_self
      obtain ⟨content, rfl⟩ := bytes_of_element first (by omega)
      obtain ⟨contents, rfl, contentWidths⟩ := induction
        (Outcome.mapM_eq_ok.mpr others)
        (fun other member => widths other (List.mem_cons_of_mem _ member))
      refine ⟨content :: contents, rfl, ?_⟩
      intro other member
      rcases List.mem_cons.mp member with rfl | later
      · exact width
      · exact contentWidths other later

theorem entryShape_of_checked {item : Rlp.Item} {json : AccessListItem}
    (converted : entryToJson item = .ok json)
    (verified : verifyEntry item = .ok ()) : EntryShape item := by
  cases item with
  | bytes content => cases converted
  | list fields =>
      match fields with
      | [] | [_] => cases verified
      | _ :: _ :: _ :: _ => cases verified
      | [address, slots] =>
          obtain ⟨addressWidth, slotsVerified⟩ := verifyEntry_eq_ok.mp verified
          simp only [entryToJson, List.getElem?_cons_zero,
            List.getElem?_cons_succ] at converted
          obtain ⟨hex, addressRead, rest⟩ := Outcome.bind_eq_ok.mp converted
          obtain ⟨texts, slotsRead, -⟩ := Outcome.bind_eq_ok.mp rest
          obtain ⟨content, rfl⟩ := bytes_of_element addressRead (by omega)
          cases slots with
          | bytes keys =>
              cases keys with
              | nil => exact .inr ⟨content, addressWidth, rfl⟩
              | cons key keys => cases slotsRead
          | list keys =>
              obtain ⟨contents, rfl, widths⟩ := bytes_of_elements slotsRead
                (verifyStorageSlots_list.mp slotsVerified)
              exact .inl ⟨⟨content, contents, addressWidth, widths⟩, rfl⟩

theorem elementToHex_keys (keys : List Bytes) :
    (keys.map Rlp.Item.bytes).mapM (fun key => elementToHex (some key)) =
      .ok (keys.map hexlify) := by
  apply Outcome.mapM_eq_ok.mpr
  induction keys with
  | nil => exact .nil
  | cons key keys induction => exact .cons rfl induction

theorem EntryShape.checked {item : Rlp.Item} (shape : EntryShape item) :
    (∃ json, entryToJson item = .ok json) ∧ verifyEntry item = .ok () := by
  rcases shape with ⟨entry, rfl⟩ | ⟨address, width, rfl⟩
  · constructor
    · refine ⟨⟨hexlify entry.address, entry.storageKeys.map hexlify⟩, ?_⟩
      have keysRead : storageKeysToHex (some entry.keysItem) =
          .ok (entry.storageKeys.map hexlify) :=
        elementToHex_keys entry.storageKeys
      change (storageKeysToHex (some entry.keysItem) >>= fun storageKeys =>
        Except.ok (AccessListItem.mk (hexlify entry.address) storageKeys)) = _
      rw [keysRead]
      rfl
    · apply verifyEntry_eq_ok.mpr
      refine ⟨entry.addressWidth, verifyStorageSlots_list.mpr ?_⟩
      intro slot member
      obtain ⟨key, keyMember, rfl⟩ := List.mem_map.mp member
      exact entry.keyWidth key keyMember
  · constructor
    · exact ⟨_, rfl⟩
    · exact verifyEntry_eq_ok.mpr ⟨width, rfl⟩

theorem entryOfJson_shape {cryptography : Cryptography}
    {json : AccessListItem} {item : Rlp.Item}
    (converted : entryOfJson cryptography json = .ok item)
    (verified : verifyEntry item = .ok ()) :
    ∃ entry : Entry, item = entry.item := by
  obtain ⟨address, -, rest⟩ := Outcome.bind_eq_ok.mp converted
  obtain ⟨addressBytes, -, rest⟩ := Outcome.bind_eq_ok.mp rest
  obtain ⟨storageItems, -, done⟩ := Outcome.bind_eq_ok.mp rest
  cases done
  obtain ⟨addressWidth, slotsVerified⟩ := verifyEntry_eq_ok.mp verified
  refine ⟨⟨addressBytes, storageItems, addressWidth, ?_⟩, rfl⟩
  intro key member
  exact verifyStorageSlots_list.mp slotsVerified (.bytes key)
    (List.mem_map.mpr ⟨key, member, rfl⟩)

theorem exists_entries {items : List Rlp.Item}
    (each : ∀ item ∈ items, ∃ entry : Entry, item = entry.item) :
    ∃ entries : List Entry, items = entries.map Entry.item := by
  induction items with
  | nil => exact ⟨[], rfl⟩
  | cons item items induction =>
      obtain ⟨entry, rfl⟩ := each item List.mem_cons_self
      obtain ⟨entries, rfl⟩ := induction fun other member =>
        each other (List.mem_cons_of_mem _ member)
      exact ⟨entry :: entries, rfl⟩

theorem ListShape.shape {item : Rlp.Item} (listed : ListShape item) :
    Shape item := by
  obtain ⟨entries, rfl⟩ := listed
  refine .inr ⟨_, rfl, ?_⟩
  intro element member
  obtain ⟨entry, -, rfl⟩ := List.mem_map.mp member
  exact .inl ⟨entry, rfl⟩

section Reading

variable {cryptography : Cryptography}

theorem listShape_of_json {items : List AccessListItem}
    {data : List AccessListItem × Rlp.Item}
    (read : readAccessList cryptography (.json items) = .ok data) :
    ListShape data.2 := by
  obtain ⟨found, converted, checked⟩ := Outcome.bind_eq_ok.mp read
  obtain ⟨⟨⟩, verified, done⟩ := Outcome.bind_eq_ok.mp checked
  cases done
  cases items with
  | nil =>
      cases converted
      exact ⟨[], rfl⟩
  | cons first others =>
      obtain ⟨entries, mapped, done⟩ := Outcome.bind_eq_ok.mp converted
      cases done
      have each : ∀ item ∈ entries, ∃ entry : Entry, item = entry.item := by
        intro item member
        obtain ⟨json, -, made⟩ := (Outcome.exists_of_mapM mapped).2 item member
        exact entryOfJson_shape made
          (verifyAccessList_list.mp verified item member)
      obtain ⟨listed, whole⟩ := exists_entries each
      exact ⟨listed, congrArg Rlp.Item.list whole⟩

theorem shape_of_nested {item : Rlp.Item}
    {data : List AccessListItem × Rlp.Item}
    (read : readAccessList cryptography (.nested item) = .ok data) :
    data.2 = item ∧ Shape item := by
  obtain ⟨found, converted, checked⟩ := Outcome.bind_eq_ok.mp read
  obtain ⟨⟨⟩, verified, done⟩ := Outcome.bind_eq_ok.mp checked
  cases done
  match item with
  | .bytes [] =>
      cases converted
      exact ⟨rfl, .inl rfl⟩
  | .bytes (_ :: _) => cases converted
  | .list (.bytes _ :: _) => cases converted
  | .list [] =>
      cases converted
      exact ⟨rfl, .inr ⟨[], rfl, by simp⟩⟩
  | .list (.list fields :: others) =>
      obtain ⟨json, mapped, done⟩ := Outcome.bind_eq_ok.mp converted
      cases done
      refine ⟨rfl, .inr ⟨_, rfl, ?_⟩⟩
      intro entry member
      obtain ⟨text, made⟩ := (Outcome.exists_of_mapM mapped).1 entry member
      exact entryShape_of_checked made
        (verifyAccessList_list.mp verified entry member)

/-- A transaction's access list has the shape of one. -/
theorem readAccessList_shape {input : AccessListInput}
    {data : List AccessListItem × Rlp.Item}
    (read : readAccessList cryptography input = .ok data) : Shape data.2 := by
  cases input with
  | nullish =>
      cases read
      exact .inr ⟨[], rfl, by simp⟩
  | json items => exact (listShape_of_json read).shape
  | nested item =>
      obtain ⟨same, shape⟩ := shape_of_nested read
      rwa [same]

/-- Input of the declared type leads to lists where lists belong. -/
theorem AccessListInput.Typed.listShape {input : AccessListInput}
    (typed : input.Typed) {data : List AccessListItem × Rlp.Item}
    (read : readAccessList cryptography input = .ok data) :
    ListShape data.2 := by
  cases input with
  | nullish =>
      cases read
      exact ⟨[], rfl⟩
  | json items => exact listShape_of_json read
  | nested item =>
      obtain ⟨same, shape⟩ := shape_of_nested read
      rw [same]
      obtain ⟨pairs, rfl⟩ := typed
      rcases shape with isBytes | ⟨entries, whole, shapes⟩
      · cases isBytes
      · have each : ∀ item ∈ entries, ∃ entry : Entry, item = entry.item := by
          intro item member
          rcases shapes item member with listed | ⟨address, -, rfl⟩
          · exact listed
          · cases whole
            obtain ⟨⟨_, keys⟩, -, made⟩ := List.mem_map.mp member
            cases made
        obtain ⟨listed, entriesListed⟩ := exists_entries each
        exact ⟨listed, by rw [whole, entriesListed]⟩

/-- Lists where lists belong come from input of the declared type. -/
theorem ListShape.typed {input : AccessListInput}
    {data : List AccessListItem × Rlp.Item} (listed : ListShape data.2)
    (read : readAccessList cryptography input = .ok data) :
    input.Typed := by
  cases input with
  | nullish | json => trivial
  | nested item =>
      obtain ⟨same, -⟩ := shape_of_nested read
      obtain ⟨entries, whole⟩ := listed
      refine ⟨entries.map fun entry => (entry.address, entry.storageKeys), ?_⟩
      rw [← same, whole, List.map_map]
      rfl

/-- An access list that was accepted is accepted again as it is. -/
theorem Shape.read (cryptography : Cryptography) {item : Rlp.Item}
    (shape : Shape item) :
    ∃ json, readAccessList cryptography (.nested item) = .ok (json, item) := by
  rcases shape with rfl | ⟨entries, rfl, shapes⟩
  · exact ⟨[], rfl⟩
  · have verified : verifyAccessList (.list entries) = .ok () :=
      verifyAccessList_list.mpr fun entry member =>
        (shapes entry member).checked.2
    obtain ⟨json, mapped⟩ := Outcome.mapM_of_forall fun entry member =>
      (shapes entry member).checked.1
    have converted : getAccessListData cryptography (.nested (.list entries)) =
        .ok (json, .list entries) := by
      match entries with
      | [] =>
          cases mapped
          rfl
      | .bytes _ :: _ =>
          rcases shapes _ List.mem_cons_self with
            ⟨entry, listed⟩ | ⟨_, -, listed⟩
          · cases listed
          · cases listed
      | .list fields :: others =>
          simp only [getAccessListData, mapped]
          rfl
    refine ⟨json, ?_⟩
    rw [readAccessList, converted, Outcome.ok_bind, verified]
    rfl

theorem setLengthLeft_of_length {msg : Bytes} {length : Nat}
    (width : msg.length = length) : setLengthLeft msg length = msg := by
  simp [setLengthLeft, width]

/-- The JSON of an entry. -/
def Entry.json (entry : Entry) : AccessListItem where
  address := hexlify entry.address
  storageKeys := entry.storageKeys.map hexlify

theorem entryToPaddedJson_item (entry : Entry) :
    entryToPaddedJson entry.item = .ok entry.json := by
  have keys : ∀ keys : List Bytes, (∀ key ∈ keys, key.length = 32) →
      (keys.map Rlp.Item.bytes).mapM (fun slot =>
        match slot with
        | .bytes key => Except.ok (hexlify (setLengthLeft key 32))
        | .list _ => Except.error "This method only supports Uint8Array") =
      .ok (keys.map hexlify) := by
    intro keys widths
    apply Outcome.mapM_eq_ok.mpr
    induction keys with
    | nil => exact .nil
    | cons key keys induction =>
        refine .cons ?_ (induction fun other member =>
          widths other (List.mem_cons_of_mem _ member))
        dsimp only
        rw [setLengthLeft_of_length (widths key List.mem_cons_self)]
  rw [Entry.item, Entry.keysItem, entryToPaddedJson,
    keys _ entry.keyWidth, Outcome.ok_bind, ADDRESS_BYTES,
    setLengthLeft_of_length entry.addressWidth]
  rfl

theorem isHexStrict_hexlify (bytes : Bytes) :
    Validator.isHexStrict (hexlify bytes) = true := by
  simp [Validator.isHexStrict, hexlify, Hex.isDigit_encode]

theorem toHex_hexlify (bytes : Bytes) :
    Utils.toHex cryptography (hexlify bytes) = .ok (hexlify bytes) := by
  have positive : ¬(['-', '0', 'x'].isPrefixOf (hexlify bytes).toList ||
      ['-', '0', 'X'].isPrefixOf (hexlify bytes).toList) = true := by
    simp [hexlify, List.isPrefixOf]
  rw [Utils.toHex, if_neg positive, if_pos (isHexStrict_hexlify bytes)]

theorem entryOfJson_json (entry : Entry) :
    entryOfJson cryptography entry.json = .ok entry.item := by
  have keys : ∀ keys : List Bytes,
      (keys.map hexlify).mapM textToUint8Array = .ok keys := by
    intro keys
    apply Outcome.mapM_eq_ok.mpr
    induction keys with
    | nil => exact .nil
    | cons key keys induction =>
        exact .cons (textToUint8Array_hexlify key) induction
  rw [entryOfJson, Entry.json, toHex_hexlify, Outcome.ok_bind,
    textToUint8Array_hexlify, Outcome.ok_bind, keys]
  rfl

/-- An access list survives its JSON. -/
theorem ListShape.read_json (cryptography : Cryptography) {item : Rlp.Item}
    (listed : ListShape item) :
    ∃ json, getAccessListJSON item = .ok json ∧
      readAccessList cryptography (.json json) = .ok (json, item) := by
  obtain ⟨entries, rfl⟩ := listed
  refine ⟨entries.map Entry.json, ?_, ?_⟩
  · rw [getAccessListJSON]
    apply Outcome.mapM_eq_ok.mpr
    induction entries with
    | nil => exact .nil
    | cons entry entries induction =>
        exact .cons (entryToPaddedJson_item entry) induction
  · have converted : getAccessListData cryptography
        (.json (entries.map Entry.json)) =
          .ok (entries.map Entry.json, .list (entries.map Entry.item)) := by
      cases entries with
      | nil => rfl
      | cons first others =>
          have mapped : ((first :: others).map Entry.json).mapM
              (entryOfJson cryptography) =
                .ok ((first :: others).map Entry.item) := by
            apply Outcome.mapM_eq_ok.mpr
            generalize first :: others = entries
            induction entries with
            | nil => exact .nil
            | cons entry entries induction =>
                exact .cons (entryOfJson_json entry) induction
          rw [List.map_cons] at mapped
          simp only [List.map_cons, getAccessListData, mapped]
          rfl
    have verified :
        verifyAccessList (.list (entries.map Entry.item)) = .ok () := by
      apply verifyAccessList_list.mpr
      intro element member
      obtain ⟨entry, -, rfl⟩ := List.mem_map.mp member
      exact (EntryShape.checked (.inl ⟨entry, rfl⟩)).2
    rw [readAccessList, converted, Outcome.ok_bind, verified]
    rfl

end Reading

end Shapes

end Web3Js.Tx
