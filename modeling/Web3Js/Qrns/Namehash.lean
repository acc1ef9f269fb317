import Web3Js.Lib.HashChain
import Web3Js.Hash

/-!
# Nodes of names

A name is normalized and split at its dots; its node is the end of the hash
chain over its labels, the last label first.  Labels go through a hash that
reads hexadecimal text as the bytes it spells.  Two names have different nodes
exactly when all of their labels can be read and do not read the same.
-/

namespace Web3Js.Qrns

open Utils (HashInput sha3Raw readText hexDigits? updatedData)

def labels (name : String) : List String :=
  (name.toList.splitOn '.').map String.ofList

/-- One turn of the loop over the labels. -/
def absorb (cryptography : Cryptography) (node : List Char) (label : String) :
    Except String (List Char) := do
  let labelHash ← sha3Raw cryptography (.text label)
  let labelSha := labelHash.toList.drop 2
  let hash ← sha3Raw cryptography
    (.text (String.ofList ('0' :: 'x' :: (node ++ labelSha))))
  pure (hash.toList.drop 2)

/-- `normalize` is the normalization of names, which may throw. -/
def namehash (cryptography : Cryptography)
    (normalize : String → Except String String) (inputName : String) :
    Except String String := do
  let node := List.replicate 64 '0'
  let node ←
    if inputName = "" then pure node
    else do
      let name ← normalize inputName
      (labels name).reverse.foldlM (absorb cryptography) node
  pure (String.ofList ('0' :: 'x' :: node))

def rootNode : Bytes := List.replicate 32 0

/-- The chain over the labels of a name, as they are read. -/
def chainLabels (name : String) : List Bytes :=
  (labels name).reverse.filterMap readText

/-- The byte strings that are hashed for a name. -/
def hashed (cryptography : Cryptography) (name : String) : List Bytes :=
  HashChain.messages cryptography.keccak256 rootNode (chainLabels name)

/-- The hash keeps the byte strings for both names apart, and apart from the
node of the empty name. -/
def CollisionFree (cryptography : Cryptography) (left right : String) : Prop :=
  HashChain.CollisionFree cryptography.keccak256 rootNode
    (hashed cryptography left ++ hashed cryptography right)

/-- The label is `0x` followed by hexadecimal digits of odd number. -/
def OddHexLabel (label : String) : Prop :=
  ∃ digits, hexDigits? label = some digits ∧ digits.length % 2 = 1

/-- Every label of the one name spells the same bytes as that of the
other. -/
def SameReading (left right : String) : Prop :=
  (labels left).map readText = (labels right).map readText

theorem readText_eq_none_iff (label : String) :
    readText label = none ↔ OddHexLabel label := by
  unfold readText OddHexLabel
  cases found : hexDigits? label with
  | none => exact ⟨nofun, fun ⟨_, isSome, _⟩ => nomatch isSome⟩
  | some digits =>
      obtain ⟨-, allDigits⟩ := Utils.toList_of_hexDigits found
      constructor
      · intro unreadable
        refine ⟨digits, rfl, ?_⟩
        by_contra even
        obtain ⟨bytes, read, -⟩ := Hex.exists_decode (digits.length / 2)
          (by omega) allDigits
        change Hex.decode digits = none at unreadable
        rw [read] at unreadable
        cases unreadable
      · rintro ⟨others, same, odd⟩
        cases same
        change Hex.decode digits = none
        cases read : Hex.decode digits with
        | none => rfl
        | some bytes =>
            have even := Hex.length_of_decode read
            omega

instance (label : String) : Decidable (OddHexLabel label) :=
  decidable_of_iff _ (readText_eq_none_iff label)

section Chain

variable {cryptography : Cryptography}

theorem sha3Raw_text (utf8 : cryptography.EncodesUtf8) {text : String}
    {bytes : Bytes} (read : readText text = some bytes) :
    sha3Raw cryptography (.text text) =
      .ok (hexlify (cryptography.keccak256 bytes)) := by
  rw [Utils.sha3Raw_eq, Utils.updatedData_text utf8, read]
  rfl

theorem drop_hexlify (bytes : Bytes) :
    (hexlify bytes).toList.drop 2 = Hex.encode bytes := by
  rw [hexlify, String.toList_ofList]
  rfl

theorem readText_hexlify (bytes : Bytes) :
    readText (hexlify bytes) = some bytes := by
  rw [readText, Utils.hexDigits_hexlify]
  exact Hex.decode_encode_bytes bytes

/-- A label that can be read extends the chain. -/
theorem absorb_read (utf8 : cryptography.EncodesUtf8) (node : Bytes)
    {label : String} {bytes : Bytes} (read : readText label = some bytes) :
    absorb cryptography (Hex.encode node) label =
      .ok (Hex.encode (cryptography.keccak256
        (node ++ cryptography.keccak256 bytes))) := by
  have joined : String.ofList ('0' :: 'x' :: (Hex.encode node ++
      Hex.encode (cryptography.keccak256 bytes))) =
        hexlify (node ++ cryptography.keccak256 bytes) := by
    rw [hexlify, Hex.encode_append]
  rw [absorb, sha3Raw_text utf8 read]
  change (sha3Raw cryptography _ >>= fun hash => _) = _
  rw [drop_hexlify, joined, sha3Raw_text utf8 (readText_hexlify _)]
  change Except.ok (List.drop 2 _) = _
  rw [drop_hexlify]

theorem absorb_unreadable (utf8 : cryptography.EncodesUtf8)
    (node : List Char) {label : String} (unreadable : readText label = none) :
    ∃ message, absorb cryptography node label = .error message := by
  rw [absorb, Utils.sha3Raw_eq, Utils.updatedData_text utf8, unreadable]
  exact ⟨_, rfl⟩

theorem foldlM_read (utf8 : cryptography.EncodesUtf8) (node : Bytes)
    {read : List String} (readable : ∀ label ∈ read, ¬ OddHexLabel label) :
    read.foldlM (absorb cryptography) (Hex.encode node) =
      .ok (Hex.encode (HashChain.chain cryptography.keccak256 node
        (read.filterMap readText))) := by
  induction read generalizing node with
  | nil => rfl
  | cons label read induction =>
      have notOdd := readable label List.mem_cons_self
      rw [← readText_eq_none_iff, ← ne_eq, Option.ne_none_iff_exists']
        at notOdd
      obtain ⟨bytes, isRead⟩ := notOdd
      rw [List.foldlM_cons, absorb_read utf8 node isRead,
        List.filterMap_cons_some isRead]
      exact induction _ fun other member =>
        readable other (List.mem_cons_of_mem _ member)

theorem foldlM_unreadable (utf8 : cryptography.EncodesUtf8) (node : Bytes)
    {read : List String} {label : String} (member : label ∈ read)
    (odd : OddHexLabel label) :
    ∃ message, read.foldlM (absorb cryptography) (Hex.encode node) =
      .error message := by
  induction read generalizing node with
  | nil => nomatch member
  | cons first read induction =>
      rw [List.foldlM_cons]
      cases isRead : readText first with
      | none =>
          obtain ⟨message, throws⟩ :=
            absorb_unreadable utf8 (Hex.encode node) isRead
          rw [throws]
          exact ⟨message, rfl⟩
      | some bytes =>
          rw [absorb_read utf8 node isRead]
          have later : label ∈ read := by
            rcases List.mem_cons.mp member with rfl | later
            · rw [(readText_eq_none_iff label).mpr odd] at isRead
              cases isRead
            · exact later
          exact induction _ later

variable {normalize : String → Except String String}
  {inputName name : String}

private theorem encode_rootNode :
    List.replicate 64 '0' = Hex.encode rootNode :=
  (Hex.encode_replicate_zero 32).symm

/-- The node of a name whose labels can be read. -/
theorem namehash_read (utf8 : cryptography.EncodesUtf8)
    (nonempty : inputName ≠ "") (normal : normalize inputName = .ok name)
    (readable : ∀ label ∈ labels name, ¬ OddHexLabel label) :
    namehash cryptography normalize inputName =
      .ok (hexlify (HashChain.chain cryptography.keccak256 rootNode
        (chainLabels name))) := by
  have reversed : ∀ label ∈ (labels name).reverse, ¬ OddHexLabel label :=
    fun label member => readable label (List.mem_reverse.mp member)
  rw [namehash]
  simp only [if_neg nonempty, normal, encode_rootNode]
  change (List.foldlM (absorb cryptography) _ _ >>= fun node => _) = _
  rw [foldlM_read utf8 rootNode reversed]
  rfl

theorem namehash_unreadable (utf8 : cryptography.EncodesUtf8)
    (nonempty : inputName ≠ "") (normal : normalize inputName = .ok name)
    {label : String} (member : label ∈ labels name)
    (odd : OddHexLabel label) :
    ∃ message, namehash cryptography normalize inputName = .error message := by
  obtain ⟨message, throws⟩ := foldlM_unreadable utf8 rootNode
    (List.mem_reverse.mpr member) odd
  refine ⟨message, ?_⟩
  rw [namehash]
  simp only [if_neg nonempty, normal, encode_rootNode]
  change (List.foldlM (absorb cryptography) _ _ >>= fun node => _) = _
  rw [throws]
  rfl

theorem hexlify_injective {left right : Bytes}
    (same : hexlify left = hexlify right) : left = right := by
  have digits := congrArg (fun text => text.toList.drop 2) same
  simp only [drop_hexlify] at digits
  exact Hex.encode_injective digits

/-- Readable names that hash the same have the same labels, as they are
read. -/
theorem sameReading_of_chainLabels {left right : String}
    (leftReadable : ∀ label ∈ labels left, ¬ OddHexLabel label)
    (rightReadable : ∀ label ∈ labels right, ¬ OddHexLabel label) :
    chainLabels left = chainLabels right ↔ SameReading left right := by
  have reading : ∀ read : List String,
      (∀ label ∈ read, ¬ OddHexLabel label) →
        read.map readText = (read.filterMap readText).map some := by
    intro read readable
    induction read with
    | nil => rfl
    | cons label read induction =>
        have notOdd := readable label List.mem_cons_self
        rw [← readText_eq_none_iff, ← ne_eq, Option.ne_none_iff_exists']
          at notOdd
        obtain ⟨bytes, isRead⟩ := notOdd
        rw [List.map_cons, List.filterMap_cons_some isRead, List.map_cons,
          isRead, induction fun other member =>
            readable other (List.mem_cons_of_mem _ member)]
  rw [SameReading, reading _ leftReadable, reading _ rightReadable,
    (List.map_injective_iff.mpr (Option.some_injective _)).eq_iff,
    chainLabels, chainLabels, List.filterMap_reverse, List.filterMap_reverse,
    List.reverse_inj]

/-- A label is hashed by its UTF-8 unless it reads as hexadecimal. -/
theorem updatedData_utf8_iff (utf8 : cryptography.EncodesUtf8)
    (label : String) :
    updatedData cryptography (.text label) = .ok (utf8Bytes label) ↔
      hexDigits? label = none := by
  rw [Utils.updatedData_text utf8, readText]
  cases found : hexDigits? label with
  | none => exact ⟨fun _ => rfl, fun _ => rfl⟩
  | some digits =>
      refine ⟨?_, nofun⟩
      intro same
      cases read : Hex.decode digits with
      | none =>
          simp only [read] at same
          cases same
      | some bytes =>
          simp only [read, Except.ok.injEq] at same
          have even := Hex.length_of_decode read
          have characters := (Utils.toList_of_hexDigits found).1
          have long := length_le_length_utf8Bytes label
          rw [← same, characters, List.length_cons, List.length_cons] at long
          omega

/-- Two names have different nodes exactly when their labels can be read and
read differently; a label is hashed by its UTF-8 exactly when it is not
hexadecimal text. -/
theorem namehash_distinct_iff (utf8 : cryptography.EncodesUtf8)
    (width : cryptography.KeccakWidth) {left right leftName rightName : String}
    (leftNonempty : left ≠ "") (rightNonempty : right ≠ "")
    (leftNormal : normalize left = .ok leftName)
    (rightNormal : normalize right = .ok rightName)
    (free : CollisionFree cryptography leftName rightName) :
    ((∃ leftNode rightNode,
        namehash cryptography normalize left = .ok leftNode ∧
        namehash cryptography normalize right = .ok rightNode ∧
        leftNode ≠ rightNode) ↔
      (∀ label ∈ labels leftName ++ labels rightName, ¬ OddHexLabel label) ∧
        ¬ SameReading leftName rightName) ∧
    ∀ label, updatedData cryptography (.text label) = .ok (utf8Bytes label) ↔
      hexDigits? label = none := by
  refine ⟨?_, updatedData_utf8_iff utf8⟩
  constructor
  · rintro ⟨leftNode, rightNode, leftHashed, rightHashed, different⟩
    have leftReadable : ∀ label ∈ labels leftName, ¬ OddHexLabel label := by
      intro label member odd
      obtain ⟨message, throws⟩ :=
        namehash_unreadable utf8 leftNonempty leftNormal member odd
      rw [throws] at leftHashed
      cases leftHashed
    have rightReadable : ∀ label ∈ labels rightName, ¬ OddHexLabel label := by
      intro label member odd
      obtain ⟨message, throws⟩ :=
        namehash_unreadable utf8 rightNonempty rightNormal member odd
      rw [throws] at rightHashed
      cases rightHashed
    constructor
    · intro label member
      rcases List.mem_append.mp member with inLeft | inRight
      · exact leftReadable label inLeft
      · exact rightReadable label inRight
    · intro sameReading
      rw [← sameReading_of_chainLabels leftReadable rightReadable]
        at sameReading
      rw [namehash_read utf8 leftNonempty leftNormal leftReadable]
        at leftHashed
      rw [namehash_read utf8 rightNonempty rightNormal rightReadable,
        ← sameReading, leftHashed] at rightHashed
      exact different (Except.ok.inj rightHashed)
  · rintro ⟨readable, otherReading⟩
    have leftReadable : ∀ label ∈ labels leftName, ¬ OddHexLabel label :=
      fun label member => readable label (List.mem_append_left _ member)
    have rightReadable : ∀ label ∈ labels rightName, ¬ OddHexLabel label :=
      fun label member => readable label (List.mem_append_right _ member)
    refine ⟨_, _, namehash_read utf8 leftNonempty leftNormal leftReadable,
      namehash_read utf8 rightNonempty rightNormal rightReadable, ?_⟩
    intro sameNode
    apply otherReading
    rw [← sameReading_of_chainLabels leftReadable rightReadable]
    exact HashChain.chain_injective width List.length_replicate free
      (hexlify_injective sameNode)

end Chain

/-! ## The names `ab` and `cd` -/

def hashOfAb : Bytes :=
  [0x67, 0xfa, 0xd3, 0xbf, 0xa1, 0xe0, 0x32, 0x1b, 0xd0, 0x21, 0xca, 0x80,
   0x5c, 0xe1, 0x48, 0x76, 0xe5, 0x0a, 0xca, 0xc8, 0xca, 0x85, 0x32, 0xed,
   0xa8, 0xcb, 0xf9, 0x24, 0xda, 0x56, 0x51, 0x60]

def nodeOfAb : Bytes :=
  [0x23, 0x15, 0xeb, 0x76, 0x50, 0xe3, 0xff, 0xe2, 0xd2, 0xd1, 0x61, 0x58,
   0x00, 0x9f, 0x8b, 0x84, 0x12, 0x47, 0xce, 0x01, 0x1a, 0xd5, 0x31, 0x2d,
   0xa3, 0xd4, 0x08, 0xc7, 0x1f, 0x48, 0x47, 0xf5]

def hashOfCd : Bytes :=
  [0xb1, 0xce, 0x0b, 0xbc, 0xe3, 0xfe, 0x79, 0x6d, 0xaa, 0x4b, 0xc8, 0x5a,
   0x7d, 0x85, 0x6b, 0x91, 0xf3, 0x29, 0xea, 0x0a, 0x8f, 0x78, 0xd9, 0xb1,
   0x43, 0xa7, 0x30, 0x73, 0x26, 0xf6, 0xe0, 0xf9]

def nodeOfCd : Bytes :=
  [0x10, 0x2f, 0x4e, 0x18, 0x87, 0x0a, 0x15, 0xd5, 0x6c, 0xca, 0x91, 0x49,
   0x9a, 0xae, 0xaf, 0xba, 0xe1, 0xa9, 0xd0, 0x5d, 0xee, 0x97, 0xe0, 0x15,
   0x8e, 0xd9, 0xfe, 0x0d, 0x58, 0x08, 0x9f, 0x39]

/-- The hash on the byte strings for the names `ab` and `cd`. -/
def tabled : Cryptography where
  shake256 _ dkLen := List.replicate dkLen 0
  keccak256 input :=
    if input = utf8Bytes "ab" then hashOfAb
    else if input = rootNode ++ hashOfAb then nodeOfAb
    else if input = utf8Bytes "cd" then hashOfCd
    else if input = rootNode ++ hashOfCd then nodeOfCd
    else List.replicate 32 1
  utf8ToBytes := utf8Bytes
  bytesToUtf8 bytes := String.fromUTF8? ⟨bytes.toArray⟩

theorem tabled_encodesUtf8 : tabled.EncodesUtf8 := fun _ => rfl

theorem tabled_keccakWidth : tabled.KeccakWidth := by
  intro input
  simp only [tabled]
  repeat' split
  all_goals rfl

theorem collisionFree_tabled : CollisionFree tabled "ab" "cd" where
  distinct := by decide
  notRoot := by decide

theorem namehash_distinct_iff_abCd :
    ((∃ leftNode rightNode,
        namehash tabled .ok "ab" = .ok leftNode ∧
        namehash tabled .ok "cd" = .ok rightNode ∧ leftNode ≠ rightNode) ↔
      (∀ label ∈ labels "ab" ++ labels "cd", ¬ OddHexLabel label) ∧
        ¬ SameReading "ab" "cd") ∧
    ∀ label, updatedData tabled (.text label) = .ok (utf8Bytes label) ↔
      hexDigits? label = none :=
  namehash_distinct_iff tabled_encodesUtf8 tabled_keccakWidth (by decide)
    (by decide) rfl rfl collisionFree_tabled

/-- The name `0x6162` has the node of the name `ab`. -/
theorem not_namehash_distinct :
    "0x6162" ≠ "ab" ∧ tabled.EncodesUtf8 ∧ tabled.KeccakWidth ∧
      CollisionFree tabled "0x6162" "ab" ∧
      namehash tabled .ok "0x6162" = .ok (hexlify nodeOfAb) ∧
      namehash tabled .ok "ab" = .ok (hexlify nodeOfAb) := by
  have hexRead : HashChain.chain tabled.keccak256 rootNode
      (chainLabels "0x6162") = nodeOfAb := by decide
  have textRead : HashChain.chain tabled.keccak256 rootNode
      (chainLabels "ab") = nodeOfAb := by decide
  refine ⟨by decide, tabled_encodesUtf8, tabled_keccakWidth, ⟨?_, ?_⟩, ?_, ?_⟩
  · decide
  · decide
  · rw [← hexRead]
    exact namehash_read tabled_encodesUtf8 (by decide) rfl (by decide)
  · rw [← textRead]
    exact namehash_read tabled_encodesUtf8 (by decide) rfl (by decide)

end Web3Js.Qrns
