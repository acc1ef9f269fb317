import Web3Js.Format.Cells

/-!
# The loops of the conversion

Each loop writes to the cell that it runs over and to the cells below it, so
what one round leaves as it is stays so in the later rounds.
-/

namespace Web3Js.Format.InPlace

def thrown {α : Type} (outcome : Except String α) : Except Failure α :=
  outcome.mapError .thrown

section Writing

theorem lookup_setEntry_self (key : String) (value : Slot)
    (entries : List (String × Slot)) :
    (setEntry key value entries).lookup key = some value := by
  induction entries with
  | nil => simp [setEntry]
  | cons entry entries induction =>
      rw [setEntry]
      split
      · exact List.lookup_cons_self
      · rename_i other
        have distinct : (key == entry.1) = false :=
          beq_eq_false_iff_ne.mpr (Ne.symm other)
        rw [List.lookup_cons, distinct]
        exact induction

theorem lookup_setEntry_of_ne {key other : String} (distinct : other ≠ key)
    (value : Slot) (entries : List (String × Slot)) :
    (setEntry key value entries).lookup other = entries.lookup other := by
  induction entries with
  | nil =>
      have foreign : (other == key) = false :=
        beq_eq_false_iff_ne.mpr distinct
      rw [setEntry, List.lookup_cons, foreign]
  | cons entry entries induction =>
      rw [setEntry]
      split
      · rename_i same
        have foreign : (other == key) = false :=
          beq_eq_false_iff_ne.mpr distinct
        rw [List.lookup_cons, List.lookup_cons, same, foreign]
      · rw [List.lookup_cons, List.lookup_cons, induction]

theorem setEntry_self {key : String} {value : Slot}
    {entries : List (String × Slot)}
    (found : entries.lookup key = some value) :
    setEntry key value entries = entries := by
  induction entries with
  | nil => cases found
  | cons entry entries induction =>
      obtain ⟨other, old⟩ := entry
      rw [setEntry]
      by_cases same : other = key
      · subst same
        rw [List.lookup_cons_self] at found
        rw [if_pos rfl, Option.some.inj found]
      · have distinct : (key == other) = false :=
          beq_eq_false_iff_ne.mpr (Ne.symm same)
        rw [List.lookup_cons, distinct] at found
        rw [if_neg same, induction found]

/-- The entry of a key that is no key before it. -/
theorem setEntry_append {key : String} {before : List (String × Slot)}
    (fresh : key ∉ before.map Prod.fst) (old value : Slot)
    (behind : List (String × Slot)) :
    setEntry key value (before ++ (key, old) :: behind) =
      before ++ (key, value) :: behind := by
  induction before with
  | nil => simp [setEntry]
  | cons entry before induction =>
      rw [List.map_cons, List.mem_cons, not_or] at fresh
      rw [List.cons_append, setEntry, if_neg (Ne.symm fresh.1),
        induction fresh.2, List.cons_append]

theorem filter_key_of_fresh {key : String} {entries : List (String × Slot)}
    (fresh : key ∉ entries.map Prod.fst) :
    entries.filter (·.1 ≠ key) = entries := by
  rw [List.filter_eq_self]
  intro entry member
  rw [decide_eq_true_iff]
  rintro rfl
  exact fresh (List.mem_map_of_mem member)

theorem deleteEntry_append {key : String} {before behind : List (String × Slot)}
    (fresh : key ∉ before.map Prod.fst) (later : key ∉ behind.map Prod.fst)
    (old : Slot) :
    (before ++ (key, old) :: behind).filter (·.1 ≠ key) =
      before ++ behind := by
  rw [List.filter_append, List.filter_cons_of_neg (by simp),
    filter_key_of_fresh fresh, filter_key_of_fresh later]

end Writing

section Places

theorem not_prefix_append (path : List String) (key : String) :
    ¬ path ++ [key] <+: path := by
  intro beneath
  have longer := beneath.length_le
  rw [List.length_append, List.length_singleton] at longer
  omega

/-- Places below two properties are below one property. -/
theorem key_eq_of_below {path place : List String} {left right : String}
    (first : path ++ [left] <+: place) (second : path ++ [right] <+: place) :
    left = right := by
  obtain ⟨rest, rfl⟩ := first
  rw [List.append_assoc] at second
  have heads := (List.prefix_append_right_inj path).mp second
  rw [List.singleton_append, List.cons_prefix_cons] at heads
  exact heads.1.symm

theorem Kept.congr {path : List String} {heap heap' after after' : Heap}
    (start : ∀ place, path <+: place →
      heap' ⟨.caller, place⟩ = heap ⟨.caller, place⟩)
    (finish : ∀ place, path <+: place →
      after' ⟨.caller, place⟩ = after ⟨.caller, place⟩) :
    Kept path heap after ↔ Kept path heap' after' := by
  constructor
  · intro kept place beneath
    rw [finish place beneath, start place beneath, kept place beneath]
  · intro kept place beneath
    rw [← finish place beneath, ← start place beneath, kept place beneath]

/-- The addresses of a cell and of everything below some of its keys. -/
def Within (owner : Owner) (path keys : List String) (address : Address) :
    Prop :=
  address = ⟨owner, path⟩ ∨ ∃ key ∈ keys, path ++ [key] <+: address.path

theorem kept_iff {owner : Owner} {path keys : List String}
    {heap after : Heap} (frame : Frame (Within owner path keys) heap after) :
    Kept path heap after ↔
      (owner = .caller →
        after ⟨.caller, path⟩ = heap ⟨.caller, path⟩) ∧
        ∀ key ∈ keys, Kept (path ++ [key]) heap after := by
  constructor
  · intro kept
    refine ⟨fun _ => kept path (List.prefix_refl _), ?_⟩
    intro key _ place beneath
    exact kept place ((List.prefix_append _ _).trans beneath)
  · rintro ⟨own, below⟩ place beneath
    by_cases within : Within owner path keys ⟨.caller, place⟩
    · rcases within with same | ⟨key, listed, under⟩
      · cases same
        exact own rfl
      · exact below key listed place under
    · exact frame _ within

end Places

section ConvertPlaces

variable {format : DataFormat}

theorem exec_setProperty (object : Address) (key : String) (value : Slot)
    (heap : Heap) :
    Program.exec (setProperty object key value) heap =
      (.ok ⟨⟩, Function.update heap object (some
        { heap.cell object with
          entries := setEntry key value (heap.cell object).entries })) :=
  rfl

theorem exec_deleteProperty (object : Address) (key : String) (heap : Heap) :
    Program.exec (deleteProperty object key) heap =
      (.ok ⟨⟩, Function.update heap object (some
        { heap.cell object with
          entries := (heap.cell object).entries.filter (·.1 ≠ key) })) :=
  rfl

theorem exec_readCell (address : Address) (heap : Heap) :
    Program.exec (readCell address) heap = (.ok (heap.cell address), heap) :=
  rfl

theorem Heap.cell_eq {heap : Heap} {address : Address} {cell : Cell}
    (found : heap address = some cell) : heap.cell address = cell := by
  rw [Heap.cell, found]
  rfl

/-- One round of the loop over places. -/
theorem exec_convertPlaces_cons (array : Address)
    (typeAt : Nat → Option (Option String)) (index : Nat)
    (indices : List Nat) (heap : Heap) :
    Program.exec (convertPlaces format array typeAt (index :: indices)) heap =
      match typeAt index with
      | none => (.error (.thrown
          "Cannot read properties of undefined (reading 'format')"), heap)
      | some qrlType =>
          Program.exec (convertPlaces format array typeAt indices)
            (Function.update heap array (some
              { heap.cell array with
                entries := setEntry (toString index)
                  (convertSlot heap ((heap.cell array).itemAt index) qrlType
                    format)
                  (heap.cell array).entries })) := by
  rw [convertPlaces, Program.exec_bind, exec_readCell]
  cases typeAt index with
  | none => rfl
  | some qrlType => rfl

/-- The places from an index on hold the elements, which are the caller's. -/
structure Holds (heap : Heap) (path : List String)
    (entries : List (String × Slot)) (index : Nat) (items : List Data) :
    Prop where
  lookup : ∀ place, entries.lookup (toString (index + place)) =
    (items[place]?.bind Data.present).map
      (slotOf .caller (path ++ [toString (index + place)]))
  laid : ∀ place item, items[place]? = some item →
    Laid heap .shared (path ++ [toString (index + place)]) item

theorem Holds.head {heap : Heap} {path : List String}
    {entries : List (String × Slot)} {index : Nat} {item : Data}
    {items : List Data} (holds : Holds heap path entries index (item :: items)) :
    entries.lookup (toString index) = item.present.map
        (slotOf .caller (path ++ [toString index])) ∧
      Laid heap .shared (path ++ [toString index]) item :=
  ⟨holds.lookup 0, holds.laid 0 item rfl⟩

theorem Holds.tail {heap after : Heap} {path : List String}
    {entries entries' : List (String × Slot)} {index : Nat} {item : Data}
    {items : List Data} (holds : Holds heap path entries index (item :: items))
    (same : ∀ place, index < place →
      entries'.lookup (toString place) = entries.lookup (toString place))
    (agree : ∀ place, index < place → ∀ address : Address,
      path ++ [toString place] <+: address.path →
        after address = heap address) :
    Holds after path entries' (index + 1) items := by
  have shifted : ∀ place, index + 1 + place = index + (place + 1) := by
    intro place
    omega
  constructor
  · intro place
    rw [shifted, same _ (by omega)]
    exact holds.lookup (place + 1)
  · intro place later found
    rw [shifted]
    exact (holds.laid (place + 1) later found).of_agree
      (agree _ (by omega))

theorem slot_itemAt {length : Option Nat} {entries : List (String × Slot)}
    {path : List String} {index : Nat} {item : Data}
    (found : entries.lookup (toString index) = item.present.map
      (slotOf .caller (path ++ [toString index]))) :
    (⟨length, entries⟩ : Cell).itemAt index =
      slotOf .caller (path ++ [toString index]) item.seen := by
  rw [Cell.itemAt, found, Data.present, Data.seen]
  split
  · rfl
  · rfl

theorem Laid.seen {heap : Heap} {sharing : Sharing} {path : List String}
    {item : Data} (laid : Laid heap sharing path item) :
    Laid heap sharing path item.seen := by
  rw [Data.seen]
  split
  · exact .scalar _
  · exact laid

theorem convertPlaces_spec {owner : Owner} {path : List String}
    {length : Option Nat} {typeAt : Nat → Option (Option String)}
    (items : List Data) (index : Nat) (heap : Heap)
    (entries : List (String × Slot))
    (cell : heap ⟨owner, path⟩ = some ⟨length, entries⟩)
    (holds : Holds heap path entries index items) :
    ∃ after entries',
      Program.exec (convertPlaces format ⟨owner, path⟩ typeAt
          (List.range' index items.length)) heap =
        (thrown (choosePlaces typeAt (List.range' index items.length)),
          after) ∧
      after ⟨owner, path⟩ = some ⟨length, entries'⟩ ∧
      Frame (· = ⟨owner, path⟩) heap after ∧
      (∀ place, place < index →
        entries'.lookup (toString place) =
          entries.lookup (toString place)) ∧
      (entries' = entries ↔ SparesPlaces format typeAt index items) := by
  induction items generalizing index heap entries with
  | nil =>
      exact ⟨heap, entries, rfl, cell, Frame.refl _ _, fun _ _ => rfl,
        iff_of_true rfl trivial⟩
  | cons item items induction =>
      obtain ⟨here, laid⟩ := holds.head
      have value := @slot_itemAt length entries path index item here
      rw [List.length_cons, List.range'_succ, exec_convertPlaces_cons,
        choosePlaces, SparesPlaces]
      cases typed : typeAt index with
      | none =>
          exact ⟨heap, entries, rfl, cell, Frame.refl _ _, fun _ _ => rfl,
            iff_of_true rfl nofun⟩
      | some qrlType =>
          simp only [Heap.cell_eq cell, value]
          have stays : convertSlot heap
                (slotOf .caller (path ++ [toString index]) item.seen) qrlType
                format = slotOf .caller (path ++ [toString index]) item.seen ↔
              convertScalarValue item.seen qrlType format = item.seen :=
            convertSlot_slotOf laid.seen qrlType format
          generalize converted : convertSlot heap
            (slotOf .caller (path ++ [toString index]) item.seen) qrlType
            format = result
          have written : Function.update heap ⟨owner, path⟩ (some
              (⟨length, setEntry (toString index) result entries⟩ : Cell))
                ⟨owner, path⟩ =
              some ⟨length, setEntry (toString index) result entries⟩ :=
            Function.update_self _ _ _
          obtain ⟨after, entries', ran, finished, frame, earlier, exact⟩ :=
            induction (index + 1) _ _ written (holds.tail
              (fun place later => lookup_setEntry_of_ne
                (fun same => absurd (Decimal.toString_injective same)
                  (by omega)) _ _)
              (fun place _ address beneath =>
                Function.update_of_ne (by
                  rintro rfl
                  exact not_prefix_append path _ beneath) _ _))
          refine ⟨after, entries', ran, finished, ?_, ?_, ?_⟩
          · apply Frame.trans _ frame
            intro address outside
            exact Function.update_of_ne outside _ _
          · intro place below
            rw [earlier place (by omega), lookup_setEntry_of_ne
              (fun same => absurd (Decimal.toString_injective same)
                (by omega))]
          · constructor
            · intro same other isType
              cases isType
              have last := earlier index (Nat.lt_succ_self _)
              rw [lookup_setEntry_self, same, here, Data.present] at last
              split at last
              · cases last
              · rename_i solid
                rw [Option.map_some, Option.some.injEq] at last
                have seen : item.seen = item := if_neg solid
                rw [seen] at stays converted ⊢
                have kept := setEntry_self (here.trans (by
                  rw [Data.present, if_neg solid, Option.map_some, last]))
                refine ⟨stays.mp (converted.trans last.symm), ?_⟩
                exact exact.mp (same.trans kept.symm)
            · intro spares
              obtain ⟨same, later⟩ := spares qrlType rfl
              have solid := convertScalarValue_seen same
              have seen : item.seen = item := by
                rw [Data.seen, solid]
                rfl
              rw [seen] at same stays converted
              have kept := setEntry_self (here.trans (by
                rw [Data.present, solid, if_neg Bool.false_ne_true,
                  Option.map_some, ← stays.mpr same, converted]))
              rw [exact.mpr later, kept]

end ConvertPlaces

section ConvertItems

variable {schema : JsonSchema} {format : DataFormat}

/-- A conversion of laid out values smaller than a bound writes below their
places only, and leaves the caller's own as they are when it spares them. -/
def Converts (schema : JsonSchema) (format : DataFormat) (bound : Nat)
    (recurse : List String → OneOfPath → Slot → Run (Slot × OneOfPath)) :
    Prop :=
  ∀ (sharing : Sharing) (path : List String) (data : Data)
    (dataPath : List String) (oneOfPath : OneOfPath) (heap : Heap),
    sizeOf data < bound → data.Distinct → Laid heap sharing path data →
      ∃ result after,
        Program.exec (recurse dataPath oneOfPath
            (slotOf sharing.owner path data)) heap =
          (thrown ((choose schema dataPath oneOfPath data).map (result, ·)),
            after) ∧
        Frame (fun address => path <+: address.path) heap after ∧
        (Kept path heap after ↔
          Spares schema format sharing dataPath oneOfPath data)

theorem exec_convertItems_cons
    (recurse : OneOfPath → Slot → Run (Slot × OneOfPath)) (array : Address)
    (index : Nat) (indices : List Nat) (oneOfPath : OneOfPath) (heap : Heap) :
    Program.exec (convertItems recurse array (index :: indices) oneOfPath)
        heap =
      match Program.exec (recurse oneOfPath ((heap.cell array).itemAt index))
          heap with
      | (.ok result, after) =>
          Program.exec (convertItems recurse array indices result.2) after
      | (.error problem, after) => (.error problem, after) := by
  rw [convertItems, Program.exec_bind, exec_readCell]
  simp only
  rw [Program.exec_bind]
  cases Program.exec (recurse oneOfPath ((heap.cell array).itemAt index))
      heap with
  | mk ending after =>
      cases ending with
      | ok result => rfl
      | error problem => rfl

theorem choose_seen (dataPath : List String) (oneOfPath : OneOfPath)
    (item : Data) :
    choose schema dataPath oneOfPath item.seen =
      choose schema dataPath oneOfPath item := by
  rw [Data.seen]
  split
  · rename_i hole
    cases item with
    | scalar value => rw [choose, choose]
    | array items => cases hole
    | object entries => cases hole
  · rfl

theorem spares_seen (sharing : Sharing) (dataPath : List String)
    (oneOfPath : OneOfPath) (item : Data) :
    Spares schema format sharing dataPath oneOfPath item.seen ↔
      Spares schema format sharing dataPath oneOfPath item := by
  rw [Data.seen]
  split
  · rename_i hole
    cases item with
    | scalar value => rw [Spares, Spares]
    | array items => cases hole
    | object entries => cases hole
  · rfl

theorem Data.Distinct.seen {item : Data} (distinct : item.Distinct) :
    item.seen.Distinct := by
  rw [Data.seen]
  split
  · exact .scalar _
  · exact distinct

theorem sizeOf_seen (item : Data) : sizeOf item.seen = sizeOf item := by
  cases item with
  | scalar value => cases value <;> rfl
  | array items => rfl
  | object entries => rfl

theorem convertItems_spec {bound : Nat}
    {recurse : List String → OneOfPath → Slot → Run (Slot × OneOfPath)}
    (converts : Converts schema format bound recurse) {owner : Owner}
    {path dataPath : List String} {length : Option Nat}
    {entries : List (String × Slot)} (items : List Data) (index : Nat)
    (oneOfPath : OneOfPath) (heap : Heap)
    (cell : heap ⟨owner, path⟩ = some ⟨length, entries⟩)
    (holds : Holds heap path entries index items)
    (small : ∀ item ∈ items, sizeOf item < bound)
    (distinct : ∀ item ∈ items, item.Distinct) :
    ∃ after,
      Program.exec (convertItems (recurse dataPath) ⟨owner, path⟩
          (List.range' index items.length) oneOfPath) heap =
        (thrown (chooseItems schema dataPath oneOfPath items), after) ∧
      Frame (fun address => ∃ place, index ≤ place ∧
        path ++ [toString place] <+: address.path) heap after ∧
      ((∀ place, index ≤ place →
          Kept (path ++ [toString place]) heap after) ↔
        SparesItems schema format dataPath oneOfPath items) := by
  induction items generalizing index oneOfPath heap with
  | nil =>
      exact ⟨heap, rfl, Frame.refl _ _,
        iff_of_true (fun _ _ => Kept.refl _ _) trivial⟩
  | cons item items induction =>
      obtain ⟨here, laid⟩ := holds.head
      have value := @slot_itemAt length entries path index item here
      obtain ⟨result, middle, ran, frame, exact⟩ :=
        converts .shared _ item.seen dataPath oneOfPath heap
          ((sizeOf_seen item).trans_lt (small item List.mem_cons_self))
          (Data.Distinct.seen (distinct item List.mem_cons_self)) laid.seen
      have ran' : Program.exec (recurse dataPath oneOfPath
          (slotOf .caller (path ++ [toString index]) item.seen)) heap =
        (thrown ((choose schema dataPath oneOfPath item.seen).map
          (result, ·)), middle) := ran
      rw [choose_seen] at ran'
      rw [spares_seen] at exact
      rw [List.length_cons, List.range'_succ, exec_convertItems_cons,
        Heap.cell_eq cell, value, ran', chooseItems, SparesItems]
      have apart : ∀ {place : Nat} {address : Address}, index < place →
          path ++ [toString place] <+: address.path →
            middle address = heap address := by
        intro place address later beneath
        apply frame
        intro under
        have same := Decimal.toString_injective
          (key_eq_of_below under beneath)
        omega
      cases chosen : choose schema dataPath oneOfPath item with
      | error message =>
          refine ⟨middle, rfl, ?_, ?_⟩
          · exact frame.weaken fun address beneath =>
              ⟨index, Nat.le_refl _, beneath⟩
          · constructor
            · intro kept
              exact ⟨exact.mp (kept index (Nat.le_refl _)), nofun⟩
            · intro spares place above
              rcases Nat.eq_or_lt_of_le above with rfl | later
              · exact exact.mpr spares.1
              · intro address beneath
                exact apart later beneath
      | ok next =>
          have container : middle ⟨owner, path⟩ =
              some ⟨length, entries⟩ := by
            rw [frame _ (not_prefix_append path _), cell]
          obtain ⟨after, finished, further, others⟩ :=
            induction (index + 1) next middle container
              (holds.tail (fun _ _ => rfl)
                (fun place later address beneath => apart later beneath))
              (fun other member => small other
                (List.mem_cons_of_mem _ member))
              (fun other member => distinct other
                (List.mem_cons_of_mem _ member))
          refine ⟨after, finished, ?_, ?_⟩
          · apply Frame.trans
            · exact frame.weaken fun address beneath =>
                ⟨index, Nat.le_refl _, beneath⟩
            · apply further.weaken
              rintro address ⟨place, above, beneath⟩
              exact ⟨place, by omega, beneath⟩
          · have first : Kept (path ++ [toString index]) heap after ↔
                Kept (path ++ [toString index]) heap middle := by
              apply Kept.congr
              · exact fun _ _ => rfl
              · intro address beneath
                apply (further _ _).symm
                rintro ⟨place, above, under⟩
                have same := Decimal.toString_injective
                  (key_eq_of_below beneath under)
                omega
            have rest : (∀ place, index + 1 ≤ place →
                  Kept (path ++ [toString place]) heap after) ↔
                ∀ place, index + 1 ≤ place →
                  Kept (path ++ [toString place]) middle after := by
              apply forall_congr'
              intro place
              apply imp_congr_right
              intro later
              apply Kept.congr
              · intro address beneath
                exact apart later beneath
              · exact fun _ _ => rfl
            constructor
            · intro kept
              refine ⟨exact.mp (first.mp (kept index (Nat.le_refl _))), ?_⟩
              intro other same
              cases same
              exact others.mp (rest.mp fun place later =>
                kept place (by omega))
            · rintro ⟨spares, later⟩ place above
              rcases Nat.eq_or_lt_of_le above with rfl | below
              · exact first.mpr (exact.mpr spares)
              · exact rest.mpr (others.mpr (later next rfl)) place below

end ConvertItems

end Web3Js.Format.InPlace
