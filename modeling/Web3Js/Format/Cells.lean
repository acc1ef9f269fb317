import Web3Js.Format.Sharing

/-!
# Cells of values

The cell of a value lists its properties.  A working value is laid out when
every cell of it has the contents that the value says, each at the address of
its place and of whose it is.
-/

namespace Web3Js.Format

section Entries

theorem mem_elementEntries {items : List Data} {index : Nat}
    {entry : String × Data} (member : entry ∈ elementEntries index items) :
    entry.2 ∈ items ∧ ∃ place, index ≤ place ∧ entry.1 = toString place := by
  induction items generalizing index with
  | nil => cases member
  | cons item items induction =>
      rw [elementEntries] at member
      split at member
      · obtain ⟨listed, place, above, key⟩ := induction member
        exact ⟨List.mem_cons_of_mem _ listed, place, by omega, key⟩
      · rcases List.mem_cons.mp member with rfl | later
        · exact ⟨List.mem_cons_self, index, Nat.le_refl _, rfl⟩
        · obtain ⟨listed, place, above, key⟩ := induction later
          exact ⟨List.mem_cons_of_mem _ listed, place, by omega, key⟩

theorem nodup_elementEntries (items : List Data) (index : Nat) :
    ((elementEntries index items).map Prod.fst).Nodup := by
  induction items generalizing index with
  | nil => exact List.nodup_nil
  | cons item items induction =>
      rw [elementEntries]
      split
      · exact induction (index + 1)
      · rw [List.map_cons, List.nodup_cons]
        refine ⟨?_, induction (index + 1)⟩
        intro listed
        obtain ⟨entry, member, key⟩ := List.mem_map.mp listed
        obtain ⟨-, place, above, name⟩ := mem_elementEntries member
        have same := Decimal.toString_injective (name.symm.trans key)
        omega

def Data.present (data : Data) : Option Data :=
  if data.isHole then none else some data

theorem lookup_elementEntries_below (items : List Data) {index place : Nat}
    (below : place < index) :
    (elementEntries index items).lookup (toString place) = none := by
  rw [List.lookup_eq_none_iff]
  intro entry member
  obtain ⟨-, other, above, key⟩ := mem_elementEntries member
  rw [key, bne_iff_ne]
  intro same
  have equal := Decimal.toString_injective same
  omega

/-- The property at an index is the element there, unless it is a hole. -/
theorem lookup_elementEntries (items : List Data) (index place : Nat) :
    (elementEntries index items).lookup (toString (index + place)) =
      items[place]?.bind Data.present := by
  induction items generalizing index place with
  | nil => rfl
  | cons item items induction =>
      cases place with
      | zero =>
          rw [elementEntries]
          by_cases hole : item.isHole
          · rw [if_pos hole, Nat.add_zero,
              lookup_elementEntries_below items (Nat.lt_succ_self index)]
            simp [Data.present, hole]
          · rw [if_neg hole, Nat.add_zero, List.lookup_cons_self]
            simp [Data.present, hole]
      | succ place =>
          have further := induction (index + 1) place
          have shifted : index + 1 + place = index + (place + 1) := by omega
          rw [shifted] at further
          rw [List.getElem?_cons_succ, ← further, elementEntries]
          split
          · rfl
          · have other : (toString (index + (place + 1)) == toString index) =
                false := by
              rw [beq_eq_false_iff_ne]
              intro same
              have equal := Decimal.toString_injective same
              omega
            rw [List.lookup_cons, other]

theorem sizeOf_entry_lt {data : Data} {entry : String × Data}
    (member : entry ∈ data.entries) : sizeOf entry.2 < sizeOf data := by
  cases data with
  | scalar value => cases member
  | array items =>
      have listed := (mem_elementEntries member).1
      have smaller := List.sizeOf_lt_of_mem listed
      simp only [Data.array.sizeOf_spec]
      omega
  | object entries =>
      have listed : entry ∈ entries := member
      have smaller := List.sizeOf_lt_of_mem listed
      have part : sizeOf entry.2 < sizeOf entry := by
        cases entry
        simp only [Prod.mk.sizeOf_spec]
        omega
      simp only [Data.object.sizeOf_spec]
      omega

theorem Data.Distinct.keys {data : Data} (distinct : data.Distinct) :
    (data.entries.map Prod.fst).Nodup := by
  cases distinct with
  | scalar value => exact List.nodup_nil
  | array below => exact nodup_elementEntries _ 0
  | object keys below => exact keys

theorem Data.Distinct.entry {data : Data} (distinct : data.Distinct)
    {entry : String × Data} (member : entry ∈ data.entries) :
    entry.2.Distinct := by
  cases distinct with
  | scalar value => cases member
  | array below => exact below _ (mem_elementEntries member).1
  | object keys below => exact below entry member

end Entries

namespace InPlace

section Laid

/-- The cell of a working value at a place. -/
def cellOf (sharing : Sharing) (path : List String) (data : Data) : Cell :=
  ⟨data.length, data.entries.map fun entry =>
    (entry.1,
      slotOf (sharing.ofValue entry.2).owner (path ++ [entry.1]) entry.2)⟩

inductive Laid (heap : Heap) : Sharing → List String → Data → Prop
  | scalar {sharing : Sharing} {path : List String} (value : Scalar) :
      Laid heap sharing path (.scalar value)
  | composite {sharing : Sharing} {path : List String} {data : Data}
      (isComposite : data.isComposite = true)
      (cell : heap ⟨sharing.owner, path⟩ = some (cellOf sharing path data))
      (below : ∀ entry ∈ data.entries,
        Laid heap (sharing.ofValue entry.2) (path ++ [entry.1]) entry.2) :
      Laid heap sharing path data

/-- Nothing changes but at the addresses inside. -/
def Frame (inside : Address → Prop) (heap after : Heap) : Prop :=
  ∀ address, ¬ inside address → after address = heap address

theorem Frame.refl (inside : Address → Prop) (heap : Heap) :
    Frame inside heap heap := fun _ _ => rfl

theorem Frame.trans {inside : Address → Prop} {heap middle after : Heap}
    (first : Frame inside heap middle) (second : Frame inside middle after) :
    Frame inside heap after :=
  fun address outside =>
    (second address outside).trans (first address outside)

theorem Frame.weaken {inside larger : Address → Prop} {heap after : Heap}
    (frame : Frame inside heap after)
    (contains : ∀ address, inside address → larger address) :
    Frame larger heap after :=
  fun address outside =>
    frame address fun within => outside (contains address within)

theorem Laid.of_agree {heap after : Heap} {sharing : Sharing}
    {path : List String} {data : Data} (laid : Laid heap sharing path data)
    (agree : ∀ address : Address, path <+: address.path →
      after address = heap address) : Laid after sharing path data := by
  induction laid with
  | scalar value => exact .scalar value
  | composite isComposite cell below induction =>
      refine .composite isComposite ?_ ?_
      · rw [agree _ (List.prefix_refl _), cell]
      · intro entry member
        apply induction entry member
        intro address beneath
        exact agree address ((List.prefix_append _ _).trans beneath)

/-- The caller's cells at a place and below it have the contents that they
had. -/
def Kept (path : List String) (heap after : Heap) : Prop :=
  ∀ place, path <+: place → after ⟨.caller, place⟩ = heap ⟨.caller, place⟩

theorem Kept.refl (path : List String) (heap : Heap) : Kept path heap heap :=
  fun _ _ => rfl

end Laid

section Views

theorem convertNumber_scalar {data result : Data} {format : FMT_NUMBER}
    (converted : convertNumber data format = some result) :
    ∃ value, result = .scalar value ∧ value ≠ .hole := by
  rw [convertNumber, Option.bind_eq_bind, Option.bind_eq_some_iff] at converted
  obtain ⟨number, -, written⟩ := converted
  cases format with
  | NUMBER =>
      refine ⟨_, (Option.some.inj written).symm, ?_⟩
      rw [numberOfBigInt]
      split
      · exact nofun
      · exact nofun
  | HEX => exact ⟨_, (Option.some.inj written).symm, nofun⟩
  | STR => exact ⟨_, (Option.some.inj written).symm, nofun⟩
  | BIGINT => exact ⟨_, (Option.some.inj written).symm, nofun⟩

theorem convertBytes_scalar {data result : Data}
    {size : Option (Option Int)} {format : FMT_BYTES}
    (converted : convertBytes data size format = some result) :
    ∃ value, result = .scalar value ∧ value ≠ .hole := by
  simp only [convertBytes, Option.bind_eq_bind, Option.bind_eq_some_iff]
    at converted
  obtain ⟨padded, -, bytes, -, written⟩ := converted
  cases format with
  | HEX => exact ⟨_, (Option.some.inj written).symm, nofun⟩
  | UINT8ARRAY => exact ⟨_, (Option.some.inj written).symm, nofun⟩

/-- A value is converted to a scalar or stays. -/
theorem convertScalarValue_cases (data : Data) (qrlType : Option String)
    (format : DataFormat) :
    convertScalarValue data qrlType format = data ∨
      ∃ value, convertScalarValue data qrlType format = .scalar value ∧
        value ≠ .hole := by
  rw [convertScalarValue]
  split
  · exact .inl rfl
  · split
    · cases converted : convertNumber data format.number with
      | none => exact .inl rfl
      | some result => exact .inr (convertNumber_scalar converted)
    · cases converted : convertNumber data format.number with
      | none => exact .inl rfl
      | some result => exact .inr (convertNumber_scalar converted)
    · rename_i type _ _ _
      cases converted : convertBytes data type.baseTypeSize format.bytes with
      | none => exact .inl rfl
      | some result => exact .inr (convertBytes_scalar converted)
    · exact .inl rfl

theorem convertScalarValue_scalar (value : Scalar) (qrlType : Option String)
    (format : DataFormat) :
    ∃ result, convertScalarValue (.scalar value) qrlType format =
      .scalar result := by
  rcases convertScalarValue_cases (.scalar value) qrlType format with
    same | ⟨result, changed, -⟩
  · exact ⟨value, same⟩
  · exact ⟨result, changed⟩

/-- What is written to the place of a hole is no hole. -/
theorem convertScalarValue_seen {item : Data} {qrlType : Option String}
    {format : DataFormat}
    (same : convertScalarValue item.seen qrlType format = item) :
    item.isHole = false := by
  by_contra hole
  rw [Bool.not_eq_false] at hole
  rw [Data.seen, if_pos hole] at same
  rcases convertScalarValue_cases (.scalar .undefined) qrlType format with
    stays | ⟨result, changed, notHole⟩
  · rw [← same, stays] at hole
    cases hole
  · rw [← same, changed] at hole
    cases result with
    | hole => exact notHole rfl
    | _ => cases hole

theorem convertBytes_object (entries : List (String × Data))
    (size : Option (Option Int)) (format : FMT_BYTES) :
    convertBytes (.object entries) size format = none := by
  rw [convertBytes, paddedValue]
  cases size.join with
  | none => rfl
  | some width =>
      simp only
      split
      · rfl
      · rfl

theorem convertScalarValue_object (entries : List (String × Data))
    (qrlType : Option String) (format : DataFormat) :
    convertScalarValue (.object entries) qrlType format = .object entries := by
  rw [convertScalarValue]
  split
  · rfl
  · split
    · rfl
    · rfl
    · rw [convertBytes_object]
      rfl
    · rfl

/-- Of an array only the bytes that it lists matter. -/
theorem convertScalarValue_array {items others : List Data}
    (same : items.mapM Data.byte? = others.mapM Data.byte?)
    (qrlType : Option String) (format : DataFormat) :
    (convertScalarValue (.array items) qrlType format = .array items ∧
        convertScalarValue (.array others) qrlType format = .array others) ∨
      ∃ value, convertScalarValue (.array items) qrlType format =
          .scalar value ∧
        convertScalarValue (.array others) qrlType format = .scalar value := by
  have bytes : ∀ size, convertBytes (.array items) size format.bytes =
      convertBytes (.array others) size format.bytes := by
    intro size
    rw [convertBytes, convertBytes, paddedValue, paddedValue]
    cases size.join with
    | none =>
        simp only [Option.bind_eq_bind, Option.bind_some, bytesToUint8Array,
          same]
    | some width =>
        simp only
        split
        · simp only [Option.bind_eq_bind, Option.bind_some, bytesToUint8Array,
            same]
        · rfl
  rw [convertScalarValue, convertScalarValue]
  split
  · exact .inl ⟨rfl, rfl⟩
  · split
    · exact .inl ⟨rfl, rfl⟩
    · exact .inl ⟨rfl, rfl⟩
    · rename_i type _ _ _
      rw [bytes]
      cases converted : convertBytes (.array others) type.baseTypeSize
          format.bytes with
      | none => exact .inl ⟨rfl, rfl⟩
      | some result =>
          obtain ⟨value, rfl, -⟩ := convertBytes_scalar converted
          exact .inr ⟨value, rfl, rfl⟩
    · exact .inl ⟨rfl, rfl⟩

/-- The value in a place as the cell of the place shows it. -/
def shown (data : Data) : Data :=
  match data.seen with
  | .scalar value => .scalar value
  | _ => .object []

theorem lookup_map_entries {α β : Type} (content : String × α → β)
    (entries : List (String × α)) (key : String) :
    (entries.map fun entry => (entry.1, content entry)).lookup key =
      (entries.lookup key).map fun value => content (key, value) := by
  induction entries with
  | nil => rfl
  | cons entry entries induction =>
      rw [List.map_cons, List.lookup_cons, List.lookup_cons]
      cases found : key == entry.1 with
      | false => exact induction
      | true =>
          have same : key = entry.1 := eq_of_beq found
          subst same
          rfl

/-- The place of an element holds the element. -/
theorem itemAt_cellOf (sharing : Sharing) (path : List String)
    (items : List Data) {index : Nat} {item : Data}
    (found : items[index]? = some item) :
    (cellOf sharing path (.array items)).itemAt index =
      slotOf (sharing.ofValue item).owner (path ++ [toString index])
        item.seen := by
  have lookup := lookup_elementEntries items 0 index
  rw [Nat.zero_add, found, Option.bind_some] at lookup
  have entries : (Data.array items).entries = elementEntries 0 items := rfl
  rw [Cell.itemAt, cellOf, lookup_map_entries, entries, lookup, Data.present,
    Data.seen]
  split
  · rfl
  · rfl

theorem view_slotOf (owner : Owner) (path : List String) (item : Data) :
    (slotOf owner path item.seen).view = shown item := by
  rw [shown]
  cases item.seen with
  | scalar value => rfl
  | array items => rfl
  | object entries => rfl

theorem items_cellOf (sharing : Sharing) (path : List String)
    (items : List Data) :
    (cellOf sharing path (.array items)).items items.length =
      items.map shown := by
  apply List.ext_getElem
  · simp [Cell.items]
  · intro index below _
    have bound : index < items.length := by simpa [Cell.items] using below
    have item := itemAt_cellOf sharing path items
      (List.getElem?_eq_getElem bound)
    simp [Cell.items, item, view_slotOf]

theorem selectOneOf_shown (schemaProp : JsonSchema) (items : List Data) :
    selectOneOf schemaProp (items.map shown) =
      selectOneOf schemaProp items := by
  have starts : startsWithObject (items.map shown) = startsWithObject items ∧
      startsWithString (items.map shown) = startsWithString items := by
    cases items with
    | nil => exact ⟨rfl, rfl⟩
    | cons item items =>
        cases item with
        | scalar value => cases value <;> exact ⟨rfl, rfl⟩
        | array below => exact ⟨rfl, rfl⟩
        | object entries => exact ⟨rfl, rfl⟩
  rw [selectOneOf, selectOneOf, starts.1, starts.2]

theorem mapM_byte_shown (items : List Data) :
    (items.map shown).mapM Data.byte? = items.mapM Data.byte? := by
  have single : ∀ item : Data, (shown item).byte? = item.byte? := by
    intro item
    cases item with
    | scalar value => cases value <;> rfl
    | array below => rfl
    | object entries => rfl
  induction items with
  | nil => rfl
  | cons item items induction =>
      rw [List.map_cons, List.mapM_cons, List.mapM_cons, single, induction]

/-- A slot is converted to itself when its value is. -/
theorem convertSlot_slotOf {heap : Heap} {sharing : Sharing}
    {path : List String} {data : Data} (laid : Laid heap sharing path data)
    (qrlType : Option String) (format : DataFormat) :
    convertSlot heap (slotOf sharing.owner path data) qrlType format =
        slotOf sharing.owner path data ↔
      convertScalarValue data qrlType format = data := by
  cases laid with
  | scalar value =>
      obtain ⟨result, converted⟩ :=
        convertScalarValue_scalar value qrlType format
      rw [slotOf, convertSlot, converted]
      simp
  | composite isComposite cell below =>
      have holds : heap.cell ⟨sharing.owner, path⟩ =
          cellOf sharing path data := by
        rw [Heap.cell, cell]
        rfl
      cases data with
      | scalar value => cases isComposite
      | object entries =>
          have view : (cellOf sharing path (.object entries)).view =
              .object [] := rfl
          rw [convertScalarValue_object]
          simp only [slotOf, convertSlot, holds, view,
            convertScalarValue_object]
      | array items =>
          have view : (cellOf sharing path (.array items)).view =
              .array (items.map shown) := by
            rw [← items_cellOf sharing path items]
            rfl
          simp only [slotOf, convertSlot, holds, view]
          rcases convertScalarValue_array (mapM_byte_shown items) qrlType
              format with ⟨viewed, stays⟩ | ⟨value, viewed, changed⟩
          · simp only [viewed, stays]
          · simp only [viewed, changed]
            exact iff_of_false nofun nofun

end Views

end InPlace

end Web3Js.Format
