import Web3Js.Format.Loops

/-!
# Formatting and the caller's data

A round of the loop over properties writes to one property and to what lies
below it.  So the caller's data stay as they are exactly if every round leaves
the caller's own as they are.
-/

namespace Web3Js.Format.InPlace

variable {schema : JsonSchema} {format : DataFormat}

section Property

theorem Sharing.ofValue_ofArray (sharing : Sharing) (value : Data) :
    sharing.ofArray.ofValue value = .shared := by
  cases sharing <;> cases value <;> rfl

/-- The elements of an array are the caller's. -/
theorem holds_of_laid {heap : Heap} {sharing : Sharing} {path : List String}
    {items : List Data}
    (shares : ∀ item, sharing.ofValue item = .shared)
    (laid : Laid heap sharing path (.array items)) :
    Holds heap path (cellOf sharing path (.array items)).entries 0 items := by
  cases laid with
  | composite isComposite cell below =>
      constructor
      · intro place
        have found := lookup_elementEntries items 0 place
        have entries : (Data.array items).entries =
          elementEntries 0 items := rfl
        rw [cellOf, lookup_map_entries, entries, found]
        congr 1
        funext item
        rw [shares]
        rfl
      · intro place item found
        by_cases hole : item.isHole
        · cases item with
          | scalar value => exact .scalar value
          | array items => cases hole
          | object entries => cases hole
        · have lookup := lookup_elementEntries items 0 place
          rw [found, Option.bind_some, Data.present, if_neg hole] at lookup
          have member : (toString (0 + place), item) ∈
              elementEntries 0 items := by
            obtain ⟨before, behind, split, -⟩ :=
              List.lookup_eq_some_iff.mp lookup
            rw [split]
            exact List.mem_append_right _ List.mem_cons_self
          have laid := below _ member
          rw [shares] at laid
          exact laid

theorem frame_update {owner : Owner} {path keys : List String} (heap : Heap)
    (cell : Option Cell) :
    Frame (Within owner path keys) heap
      (Function.update heap ⟨owner, path⟩ cell) := by
  intro address outside
  apply Function.update_of_ne
  intro same
  exact outside (.inl same)

theorem kept_update (owner : Owner) (path : List String) (key : String)
    (heap : Heap) (cell : Option Cell) :
    Kept (path ++ [key]) heap
      (Function.update heap ⟨owner, path⟩ cell) := by
  intro place beneath
  apply Function.update_of_ne
  intro same
  cases same
  exact not_prefix_append path key beneath

/-- What a round of the loop makes of the entry of its key. -/
structure PropertyRun (sharing : Sharing) (path : List String)
    (length : Option Nat) (before behind : List (String × Slot))
    (key : String) (slot : Slot) (heap after : Heap)
    (middle : List (String × Slot)) : Prop where
  cell : after ⟨sharing.owner, path⟩ =
    some ⟨length, before ++ middle ++ behind⟩
  entry : middle = [] ∨ ∃ other, middle = [(key, other)]
  frame : Frame (Within sharing.owner path [key]) heap after

section Rounds

variable {sharing : Sharing} {path : List String} {length : Option Nat}
  {before behind : List (String × Slot)} {key : String} {slot : Slot}
  {heap : Heap}
  (cell : heap ⟨sharing.owner, path⟩ =
    some ⟨length, before ++ (key, slot) :: behind⟩)

include cell

theorem PropertyRun.unchanged {after : Heap}
    (container : after ⟨sharing.owner, path⟩ = heap ⟨sharing.owner, path⟩)
    (frame : Frame (Within sharing.owner path [key]) heap after) :
    PropertyRun sharing path length before behind key slot heap after
      [(key, slot)] where
  cell := by
    rw [container, cell, List.append_assoc]
    rfl
  entry := .inr ⟨slot, rfl⟩
  frame := frame

theorem PropertyRun.set (fresh : key ∉ before.map Prod.fst) (value : Slot) :
    PropertyRun sharing path length before behind key slot heap
      (Program.exec (setProperty ⟨sharing.owner, path⟩ key value) heap).2
      [(key, value)] where
  cell := by
    rw [exec_setProperty, Heap.cell_eq cell]
    simp only [setEntry_append fresh]
    rw [Function.update_self, List.append_assoc]
    rfl
  entry := .inr ⟨value, rfl⟩
  frame := frame_update _ _

theorem PropertyRun.delete (fresh : key ∉ before.map Prod.fst)
    (later : key ∉ behind.map Prod.fst) :
    PropertyRun sharing path length before behind key slot heap
      (Program.exec (deleteProperty ⟨sharing.owner, path⟩ key) heap).2
      [] where
  cell := by
    rw [exec_deleteProperty, Heap.cell_eq cell]
    simp only [deleteEntry_append fresh later]
    rw [Function.update_self, List.append_nil]
  entry := .inl rfl
  frame := frame_update _ _

end Rounds

/-- A round that ends without a schema deletes the property. -/
theorem spared_of_delete {sharing : Sharing} {path : List String}
    {key : String} {slot : Slot} {heap : Heap} :
    ((sharing = .shared → [] = [(key, slot)]) ∧
        Kept (path ++ [key]) heap (Program.exec
          (deleteProperty ⟨sharing.owner, path⟩ key) heap).2) ↔
      sharing ≠ .shared := by
  constructor
  · rintro ⟨own, -⟩ shared
    cases own shared
  · intro copied
    exact ⟨fun shared => absurd shared copied, kept_update _ _ _ _ _⟩

/-- A round that converts a value sets the property. -/
theorem spared_of_set {sharing : Sharing} {path : List String} {key : String}
    {value : Data} {heap : Heap}
    (laid : Laid heap (sharing.ofValue value) (path ++ [key]) value)
    (qrlType : Option String) :
    ((sharing = .shared → [(key, convertSlot heap
            (slotOf (sharing.ofValue value).owner (path ++ [key]) value)
            qrlType format)] =
          [(key, slotOf (sharing.ofValue value).owner (path ++ [key])
            value)]) ∧
        Kept (path ++ [key]) heap (Program.exec
          (setProperty ⟨sharing.owner, path⟩ key (convertSlot heap
            (slotOf (sharing.ofValue value).owner (path ++ [key]) value)
            qrlType format)) heap).2) ↔
      (sharing = .shared →
        convertScalarValue value qrlType format = value) := by
  rw [← convertSlot_slotOf laid]
  constructor
  · rintro ⟨own, -⟩ shared
    exact congrArg Prod.snd (List.cons.inj (own shared)).1
  · intro same
    refine ⟨fun shared => ?_, kept_update _ _ _ _ _⟩
    rw [same shared]

theorem Laid.cell {heap : Heap} {sharing : Sharing} {path : List String}
    {data : Data} (laid : Laid heap sharing path data)
    (isComposite : data.isComposite = true) :
    heap.cell ⟨sharing.owner, path⟩ = cellOf sharing path data := by
  cases laid with
  | scalar value => cases isComposite
  | composite isComposite cell below => exact Heap.cell_eq cell

section Arrays

variable {sharing : Sharing} {path : List String} {items : List Data}
  {heap : Heap}

/-- Converting the places of an array writes to its cell alone. -/
theorem convertPlaces_array {key : String}
    (laid : Laid heap sharing.ofArray (path ++ [key]) (.array items))
    (typeAt : Nat → Option (Option String)) :
    ∃ after,
      Program.exec (convertPlaces format ⟨sharing.ofArray.owner,
          path ++ [key]⟩ typeAt (List.range items.length)) heap =
        (thrown (choosePlaces typeAt (List.range items.length)), after) ∧
      Frame (fun address => path ++ [key] <+: address.path) heap after ∧
      (Kept (path ++ [key]) heap after ↔
        (sharing.ofArray = .shared →
          SparesPlaces format typeAt 0 items)) := by
  have holds := holds_of_laid (Sharing.ofValue_ofArray sharing) laid
  cases laid with
  | composite isComposite cell below =>
      obtain ⟨after, entries', ran, finished, frame, -, exact⟩ :=
        @convertPlaces_spec format sharing.ofArray.owner (path ++ [key]) _
          typeAt items 0 heap _ cell holds
      rw [← List.range_eq_range'] at ran
      refine ⟨after, ran, ?_, ?_⟩
      · apply frame.weaken
        rintro address rfl
        exact List.prefix_refl _
      · have within : Frame
            (Within sharing.ofArray.owner (path ++ [key]) []) heap after :=
          frame.weaken fun address same => .inl same
        rw [kept_iff within, ← exact]
        constructor
        · rintro ⟨own, -⟩ shared
          have owner : sharing.ofArray.owner = .caller := by
            rw [shared]
            rfl
          rw [owner] at finished cell
          have same := finished.symm.trans ((own owner).trans cell)
          exact congrArg Cell.entries (Option.some.inj same)
        · intro spares
          refine ⟨fun owner => ?_, nofun⟩
          have shared : sharing.ofArray = .shared := by
            cases sharing with
            | deep => cases owner
            | shallow => rfl
            | shared => rfl
          rw [owner, spares shared] at finished
          rw [owner] at cell
          exact finished.trans cell.symm

/-- Converting the objects of an array writes below its places. -/
theorem convertItems_array {bound : Nat}
    {recurse : List String → OneOfPath → Slot → Run (Slot × OneOfPath)}
    (converts : Converts schema format bound recurse)
    {dataPath : List String} (oneOfPath : OneOfPath)
    (laid : Laid heap sharing.ofArray path (.array items))
    (small : sizeOf (Data.array items) ≤ bound)
    (distinct : (Data.array items).Distinct) :
    ∃ after,
      Program.exec (convertItems (recurse dataPath)
          ⟨sharing.ofArray.owner, path⟩ (List.range items.length) oneOfPath)
          heap =
        (thrown (chooseItems schema dataPath oneOfPath items), after) ∧
      Frame (fun address => path <+: address.path) heap after ∧
      (Kept path heap after ↔
        SparesItems schema format dataPath oneOfPath items) := by
  have holds := holds_of_laid (Sharing.ofValue_ofArray sharing) laid
  cases laid with
  | composite isComposite cell below =>
      have smaller : ∀ item ∈ items, sizeOf item < bound := by
        intro item member
        have less := List.sizeOf_lt_of_mem member
        simp only [Data.array.sizeOf_spec] at small
        omega
      have each : ∀ item ∈ items, item.Distinct := by
        cases distinct with
        | array below => exact below
      obtain ⟨after, ran, frame, exact⟩ :=
        @convertItems_spec schema format bound recurse converts
          sharing.ofArray.owner path dataPath _ _ items 0 oneOfPath heap cell
          holds smaller each
      rw [← List.range_eq_range'] at ran
      refine ⟨after, ran, ?_, ?_⟩
      · apply frame.weaken
        rintro address ⟨place, -, beneath⟩
        exact (List.prefix_append _ _).trans beneath
      · rw [← exact]
        constructor
        · intro kept place _ other beneath
          exact kept other ((List.prefix_append _ _).trans beneath)
        · intro kept place beneath
          by_cases within : ∃ index, 0 ≤ index ∧
              path ++ [toString index] <+: place
          · obtain ⟨index, above, under⟩ := within
            exact kept index above place under
          · exact frame ⟨.caller, place⟩ within

end Arrays

theorem exec_then_pure {program : Run PUnit} {chosen : Except String PUnit}
    {heap after : Heap}
    (ran : Program.exec program heap = (thrown chosen, after))
    (value : OneOfPath) :
    Program.exec (do program; pure value) heap =
      (thrown (do chosen; .ok value), after) := by
  rw [Program.exec_bind, ran]
  cases chosen with
  | error message => rfl
  | ok done => rfl

theorem choosePlaces_ok (qrlType : Option String) (indices : List Nat) :
    choosePlaces (fun _ => some qrlType) indices = .ok ⟨⟩ := by
  induction indices with
  | nil => rfl
  | cons index indices induction => exact induction

/-- A round of the loop over properties. -/
theorem convertProperty_spec {bound : Nat}
    {recurse : List String → OneOfPath → Slot → Run (Slot × OneOfPath)}
    (converts : Converts schema format bound recurse) {sharing : Sharing}
    {path dataPath : List String} {oneOfPath : OneOfPath} {key : String}
    {value : Data} {heap : Heap} {length : Option Nat}
    {before behind : List (String × Slot)}
    (cell : heap ⟨sharing.owner, path⟩ = some ⟨length, before ++
      (key, slotOf (sharing.ofValue value).owner (path ++ [key]) value) ::
        behind⟩)
    (fresh : key ∉ before.map Prod.fst) (later : key ∉ behind.map Prod.fst)
    (laid : Laid heap (sharing.ofValue value) (path ++ [key]) value)
    (small : sizeOf value < bound) (distinct : value.Distinct) :
    ∃ after middle,
      Program.exec (convertProperty schema format recurse dataPath oneOfPath
          ⟨sharing.owner, path⟩ key
          (slotOf (sharing.ofValue value).owner (path ++ [key]) value))
          heap =
        (thrown (chooseProperty schema dataPath oneOfPath key value),
          after) ∧
      PropertyRun sharing path length before behind key
        (slotOf (sharing.ofValue value).owner (path ++ [key]) value) heap
        after middle ∧
      (((sharing = .shared → middle = [(key,
            slotOf (sharing.ofValue value).owner (path ++ [key]) value)]) ∧
          Kept (path ++ [key]) heap after) ↔
        SparesProperty schema format sharing dataPath oneOfPath key value)
    := by
  -- What is done below the property leaves its entry as it is.
  have below : ∀ {after : Heap},
      Frame (fun address => path ++ [key] <+: address.path) heap after →
        PropertyRun sharing path length before behind key
          (slotOf (sharing.ofValue value).owner (path ++ [key]) value) heap
          after [(key,
            slotOf (sharing.ofValue value).owner (path ++ [key]) value)] := by
    intro after frame
    apply PropertyRun.unchanged cell
    · exact frame _ (not_prefix_append path key)
    · apply frame.weaken
      intro address beneath
      exact .inr ⟨key, List.mem_singleton_self key, beneath⟩
  have still := below (Frame.refl _ heap)
  cases found : findSchemaByDataPath schema (dataPath ++ [key]) oneOfPath with
  | error message =>
      refine ⟨heap, _, ?_, still, ?_⟩
      · cases value <;>
          simp only [convertProperty, chooseProperty, found] <;> rfl
      · have spares : SparesProperty schema format sharing dataPath oneOfPath
            key value := by
          cases value <;> simp only [SparesProperty, found]
        exact iff_of_true ⟨fun _ => rfl, Kept.refl _ _⟩ spares
  | ok schemaProp =>
      cases schemaProp with
      | none =>
          refine ⟨_, [], ?_, PropertyRun.delete cell fresh later, ?_⟩
          · cases value <;>
              simp only [convertProperty, chooseProperty, found] <;> rfl
          · cases value <;> simp only [SparesProperty, found] <;>
              exact spared_of_delete
      | some schemaProp =>
          cases value with
          | scalar content =>
              refine ⟨_, _, ?_, PropertyRun.set cell fresh (convertSlot heap
                (.scalar content) schemaProp.format format), ?_⟩
              · simp only [convertProperty, chooseProperty, found]
                rfl
              · simp only [SparesProperty, found]
                exact spared_of_set laid schemaProp.format
          | object entries =>
              obtain ⟨result, after, ran, frame, exact⟩ :=
                converts sharing.ofObject (path ++ [key]) (.object entries)
                  (dataPath ++ [key]) [] heap small distinct laid
              refine ⟨after, _, ?_, below frame, ?_⟩
              · have ran' : Program.exec (recurse (dataPath ++ [key]) []
                    (.ref ⟨sharing.ofObject.owner, path ++ [key]⟩)) heap =
                    (thrown ((choose schema (dataPath ++ [key]) []
                      (.object entries)).map (result, ·)), after) := ran
                have kind : (heap.cell
                    ⟨sharing.ofObject.owner, path ++ [key]⟩).length = none :=
                  congrArg Cell.length (laid.cell rfl)
                simp only [convertProperty, chooseProperty, found, slotOf,
                  Sharing.ofValue]
                rw [Program.exec_bind, exec_readCell]
                simp only [kind]
                rw [Program.exec_bind, ran', choose]
                cases chooseEntries schema (dataPath ++ [key]) [] entries with
                | error message => rfl
                | ok next => rfl
              · have unfolded : SparesProperty schema format sharing dataPath
                      oneOfPath key (.object entries) ↔
                    SparesEntries schema format sharing.ofObject
                      (dataPath ++ [key]) [] entries := by
                  simp only [SparesProperty, found]
                rw [Spares] at exact
                rw [unfolded, ← exact]
                exact ⟨fun both => both.2, fun kept => ⟨fun _ => rfl, kept⟩⟩
          | array items =>
              have length' : (heap.cell
                  ⟨sharing.ofArray.owner, path ++ [key]⟩).length =
                  some items.length :=
                congrArg Cell.length (laid.cell rfl)
              have seen : (heap.cell
                    ⟨sharing.ofArray.owner, path ++ [key]⟩).items
                    items.length = items.map shown := by
                rw [← items_cellOf sharing.ofArray (path ++ [key]) items]
                exact congrArg (Cell.items · items.length) (laid.cell rfl)
              simp only [convertProperty, chooseProperty, SparesProperty,
                found, slotOf, Sharing.ofValue]
              rw [Program.exec_bind, exec_readCell]
              simp only [length', seen, selectOneOf_shown,
                Outcome.ok_bind]
              cases declared : (selectOneOf schemaProp items).1.items with
              | none =>
                  exact ⟨_, [], rfl, PropertyRun.delete cell fresh later,
                    spared_of_delete⟩
              | some either =>
                  cases either with
                  | inr schemas =>
                      obtain ⟨after, ran, frame, exact⟩ :=
                        @convertPlaces_array format sharing path items heap
                          key laid fun index => schemas[index]?.map (·.format)
                      refine ⟨after, _, ?_, below frame, ?_⟩
                      · exact exec_then_pure ran _
                      · simp only
                        rw [← exact]
                        exact ⟨fun both => both.2,
                          fun kept => ⟨fun _ => rfl, kept⟩⟩
                  | inl itemSchema =>
                      simp only
                      split
                      · obtain ⟨after, ran, frame, exact⟩ :=
                          @convertPlaces_array format sharing path items heap
                            key laid fun _ => some itemSchema.format
                        rw [choosePlaces_ok] at ran
                        refine ⟨after, _, exec_then_pure ran _, below frame,
                          ?_⟩
                        rw [← exact]
                        exact ⟨fun both => both.2,
                          fun kept => ⟨fun _ => rfl, kept⟩⟩
                      · split
                        · obtain ⟨after, ran, frame, exact⟩ :=
                            @convertItems_array schema format sharing
                              (path ++ [key]) items heap bound recurse
                              converts (dataPath ++ [key]) _ laid
                              (Nat.le_of_lt small) distinct
                          refine ⟨after, _, ran, below frame, ?_⟩
                          rw [← exact]
                          exact ⟨fun both => both.2,
                            fun kept => ⟨fun _ => rfl, kept⟩⟩
                        · refine ⟨_, _, rfl, PropertyRun.set cell fresh
                            (convertSlot heap (.ref
                              ⟨sharing.ofArray.owner, path ++ [key]⟩)
                              schemaProp.format format), ?_⟩
                          exact spared_of_set laid schemaProp.format

end Property

section Entries

/-- The entries of the cell of a working value. -/
def slotsOf (sharing : Sharing) (path : List String)
    (entries : List (String × Data)) : List (String × Slot) :=
  entries.map fun entry =>
    (entry.1, slotOf (sharing.ofValue entry.2).owner (path ++ [entry.1])
      entry.2)

theorem exec_convertEntries_cons
    (recurse : List String → OneOfPath → Slot → Run (Slot × OneOfPath))
    (dataPath : List String) (object : Address) (oneOfPath : OneOfPath)
    (key : String) (value : Slot) (entries : List (String × Slot))
    (heap : Heap) :
    Program.exec (convertEntries schema format recurse dataPath object
        oneOfPath ((key, value) :: entries)) heap =
      match Program.exec (convertProperty schema format recurse dataPath
          oneOfPath object key value) heap with
      | (.ok next, after) =>
          Program.exec (convertEntries schema format recurse dataPath object
            next entries) after
      | (.error problem, after) => (.error problem, after) := by
  rw [convertEntries, Program.exec_bind]
  cases Program.exec (convertProperty schema format recurse dataPath
      oneOfPath object key value) heap with
  | mk ending after =>
      cases ending with
      | ok next => rfl
      | error problem => rfl

theorem within_cons {owner : Owner} {path keys : List String} {key : String}
    {address : Address} :
    Within owner path (key :: keys) address ↔
      Within owner path [key] address ∨ Within owner path keys address := by
  simp only [Within, List.mem_cons, List.not_mem_nil, or_false,
    exists_eq_or_imp, exists_eq_left]
  tauto

/-- The loop over the properties of an object. -/
theorem convertEntries_spec {bound : Nat}
    {recurse : List String → OneOfPath → Slot → Run (Slot × OneOfPath)}
    (converts : Converts schema format bound recurse) {sharing : Sharing}
    {path dataPath : List String} {length : Option Nat}
    (entries : List (String × Data)) (oneOfPath : OneOfPath) (heap : Heap)
    (before : List (String × Slot))
    (cell : heap ⟨sharing.owner, path⟩ =
      some ⟨length, before ++ slotsOf sharing path entries⟩)
    (keys : (before.map Prod.fst ++ entries.map Prod.fst).Nodup)
    (laid : ∀ entry ∈ entries,
      Laid heap (sharing.ofValue entry.2) (path ++ [entry.1]) entry.2)
    (small : ∀ entry ∈ entries, sizeOf entry.2 < bound)
    (distinct : ∀ entry ∈ entries, entry.2.Distinct) :
    ∃ after behind,
      Program.exec (convertEntries schema format recurse dataPath
          ⟨sharing.owner, path⟩ oneOfPath (slotsOf sharing path entries))
          heap =
        (thrown (chooseEntries schema dataPath oneOfPath entries), after) ∧
      after ⟨sharing.owner, path⟩ = some ⟨length, before ++ behind⟩ ∧
      (∀ entry ∈ behind, entry.1 ∈ entries.map Prod.fst) ∧
      Frame (Within sharing.owner path (entries.map Prod.fst)) heap after ∧
      (((sharing = .shared → behind = slotsOf sharing path entries) ∧
          ∀ key ∈ entries.map Prod.fst,
            Kept (path ++ [key]) heap after) ↔
        SparesEntries schema format sharing dataPath oneOfPath entries) := by
  induction entries generalizing oneOfPath heap before with
  | nil =>
      refine ⟨heap, [], rfl, cell, nofun, Frame.refl _ _, ?_⟩
      exact iff_of_true ⟨fun _ => rfl, nofun⟩ trivial
  | cons entry entries induction =>
      obtain ⟨key, value⟩ := entry
      rw [List.map_cons, List.nodup_append] at keys
      obtain ⟨beforeKeys, ownKeys, apart⟩ := keys
      obtain ⟨later, restKeys⟩ := List.nodup_cons.mp ownKeys
      have fresh : key ∉ before.map Prod.fst := fun member =>
        apart key member key List.mem_cons_self rfl
      have slots : slotsOf sharing path ((key, value) :: entries) =
          (key, slotOf (sharing.ofValue value).owner (path ++ [key]) value) ::
            slotsOf sharing path entries := rfl
      have slotKeys : (slotsOf sharing path entries).map Prod.fst =
          entries.map Prod.fst := by
        rw [slotsOf, List.map_map]
        rfl
      rw [slots] at cell ⊢
      obtain ⟨middleHeap, middle, ran, round, exact⟩ :=
        @convertProperty_spec schema format bound recurse converts sharing path
          dataPath oneOfPath key value heap length before _ cell fresh
          (slotKeys ▸ later) (laid _ List.mem_cons_self)
          (small _ List.mem_cons_self) (distinct _ List.mem_cons_self)
      generalize slotOf (sharing.ofValue value).owner (path ++ [key]) value =
        slot at cell ran round exact ⊢
      have untouched : ∀ other ∈ entries.map Prod.fst,
          ∀ address : Address, path ++ [other] <+: address.path →
            middleHeap address = heap address := by
        intro other member address beneath
        apply round.frame
        rintro (rfl | ⟨name, listed, under⟩)
        · exact not_prefix_append path other beneath
        · rw [List.mem_singleton.mp listed] at under
          exact later (key_eq_of_below under beneath ▸ member)
      rw [exec_convertEntries_cons, ran, chooseEntries, SparesEntries,
        List.map_cons]
      cases chosen : chooseProperty schema dataPath oneOfPath key value with
      | error message =>
          refine ⟨middleHeap, middle ++ slotsOf sharing path entries, rfl, ?_,
            ?_, ?_, ?_⟩
          · rw [round.cell, List.append_assoc]
          · intro entry member
            rcases List.mem_append.mp member with first | rest
            · rcases round.entry with none | ⟨other, single⟩
              · rw [none] at first
                cases first
              · rw [single, List.mem_singleton] at first
                rw [first]
                exact List.mem_cons_self
            · rw [← slotKeys]
              exact List.mem_cons_of_mem _ (List.mem_map_of_mem rest)
          · exact round.frame.weaken fun address within =>
              within_cons.mpr (.inl within)
          · rw [← exact]
            constructor
            · rintro ⟨own, kept⟩
              refine ⟨⟨fun shared => ?_, kept key List.mem_cons_self⟩, nofun⟩
              exact List.append_cancel_right (own shared)
            · rintro ⟨⟨own, kept⟩, -⟩
              refine ⟨fun shared => ?_, ?_⟩
              · rw [own shared]
                rfl
              · intro other member
                rcases List.mem_cons.mp member with rfl | rest
                · exact kept
                · intro place beneath
                  exact untouched other rest _ beneath
      | ok next =>
          have container : middleHeap ⟨sharing.owner, path⟩ =
              some ⟨length, (before ++ middle) ++
                slotsOf sharing path entries⟩ := round.cell
          have middleKeys : (middle.map Prod.fst).Sublist [key] := by
            rcases round.entry with none | ⟨other, single⟩
            · rw [none]
              exact List.nil_sublist _
            · rw [single]
              exact List.Sublist.refl _
          have nodup : ((before ++ middle).map Prod.fst ++
              entries.map Prod.fst).Nodup := by
            have whole : (before.map Prod.fst ++
                ([key] ++ entries.map Prod.fst)).Nodup :=
              List.nodup_append.mpr ⟨beforeKeys, ownKeys, apart⟩
            rw [List.map_append, List.append_assoc]
            exact whole.sublist ((List.Sublist.refl _).append
              (middleKeys.append (List.Sublist.refl _)))
          obtain ⟨after, behind, finished, last, behindKeys, frame, others⟩ :=
            induction next middleHeap (before ++ middle) container nodup
              (fun entry member =>
                (laid entry (List.mem_cons_of_mem _ member)).of_agree
                  (untouched entry.1 (List.mem_map_of_mem member)))
              (fun entry member => small entry
                (List.mem_cons_of_mem _ member))
              (fun entry member => distinct entry
                (List.mem_cons_of_mem _ member))
          refine ⟨after, middle ++ behind, finished, ?_, ?_, ?_, ?_⟩
          · rw [last, List.append_assoc]
          · intro entry member
            rcases List.mem_append.mp member with first | rest
            · have listed := middleKeys.subset (List.mem_map_of_mem first)
              rw [List.mem_singleton.mp listed]
              exact List.mem_cons_self
            · exact List.mem_cons_of_mem _ (behindKeys entry rest)
          · apply Frame.trans
            · exact round.frame.weaken fun address within =>
                within_cons.mpr (.inl within)
            · exact frame.weaken fun address within =>
                within_cons.mpr (.inr within)
          · have first : Kept (path ++ [key]) heap after ↔
                Kept (path ++ [key]) heap middleHeap := by
              apply Kept.congr
              · exact fun _ _ => rfl
              · intro place beneath
                apply (frame _ _).symm
                rintro (same | ⟨other, member, under⟩)
                · have placed : place = path := congrArg Address.path same
                  rw [placed] at beneath
                  exact not_prefix_append path key beneath
                · exact later (key_eq_of_below under beneath ▸ member)
            have rest : ∀ other ∈ entries.map Prod.fst,
                (Kept (path ++ [other]) heap after ↔
                  Kept (path ++ [other]) middleHeap after) := by
              intro other member
              apply Kept.congr
              · intro place beneath
                exact untouched other member _ beneath
              · exact fun _ _ => rfl
            rw [← exact]
            constructor
            · rintro ⟨own, kept⟩
              have parts : sharing = .shared →
                  middle = [(key, slot)] ∧
                    behind = slotsOf sharing path entries := by
                intro shared
                have whole := own shared
                rcases round.entry with none | ⟨other, single⟩
                · rw [none, List.nil_append] at whole
                  have member := behindKeys (key, slot) (by
                    rw [whole]
                    exact List.mem_cons_self)
                  exact absurd member later
                · rw [single, List.singleton_append] at whole
                  obtain ⟨head, tail⟩ := List.cons.inj whole
                  exact ⟨by rw [single, head], tail⟩
              refine ⟨⟨fun shared => (parts shared).1,
                first.mp (kept key List.mem_cons_self)⟩, ?_⟩
              intro other same
              cases same
              exact others.mp ⟨fun shared => (parts shared).2,
                fun other member => (rest other member).mp
                  (kept other (List.mem_cons_of_mem _ member))⟩
            · rintro ⟨⟨own, keptFirst⟩, spares⟩
              obtain ⟨ownRest, keptRest⟩ := others.mpr (spares next rfl)
              refine ⟨fun shared => ?_, ?_⟩
              · rw [own shared, ownRest shared]
                rfl
              · intro other member
                rcases List.mem_cons.mp member with rfl | later
                · exact first.mpr keptFirst
                · exact (rest other later).mpr (keptRest other later)

end Entries

section Conversion

/-- The elements of an array are chosen like its properties. -/
theorem chooseElements_eq (dataPath : List String) (items : List Data)
    (oneOfPath : OneOfPath) (index : Nat) :
    chooseElements schema dataPath oneOfPath index items =
      chooseEntries schema dataPath oneOfPath
        (elementEntries index items) := by
  induction items generalizing oneOfPath index with
  | nil => rfl
  | cons item items induction =>
      rw [chooseElements, elementEntries]
      split
      · exact induction oneOfPath (index + 1)
      · rw [chooseEntries]
        cases chooseProperty schema dataPath oneOfPath (toString index)
            item with
        | error message => rfl
        | ok next => exact induction next (index + 1)

theorem sparesElements_iff (sharing : Sharing) (dataPath : List String)
    (items : List Data) (oneOfPath : OneOfPath) (index : Nat) :
    SparesElements schema format sharing dataPath oneOfPath index items ↔
      SparesEntries schema format sharing dataPath oneOfPath
        (elementEntries index items) := by
  induction items generalizing oneOfPath index with
  | nil => exact Iff.rfl
  | cons item items induction =>
      rw [SparesElements, elementEntries]
      split
      · exact induction oneOfPath (index + 1)
      · rw [SparesEntries]
        apply and_congr_right
        intro _
        apply forall_congr'
        intro next
        apply imp_congr_right
        intro _
        exact induction next (index + 1)

theorem choose_composite (dataPath : List String) (oneOfPath : OneOfPath)
    {data : Data} (isComposite : data.isComposite = true) :
    choose schema dataPath oneOfPath data =
      chooseEntries schema dataPath oneOfPath data.entries := by
  cases data with
  | scalar value => cases isComposite
  | array items => rw [choose, chooseElements_eq, Data.entries]
  | object entries => rw [choose, Data.entries]

theorem spares_composite (sharing : Sharing) (dataPath : List String)
    (oneOfPath : OneOfPath) {data : Data}
    (isComposite : data.isComposite = true) :
    Spares schema format sharing dataPath oneOfPath data ↔
      SparesEntries schema format sharing dataPath oneOfPath
        data.entries := by
  cases data with
  | scalar value => cases isComposite
  | array items => rw [Spares, sparesElements_iff, Data.entries]
  | object entries => rw [Spares, Data.entries]

theorem slotOf_composite (owner : Owner) (path : List String) {data : Data}
    (isComposite : data.isComposite = true) :
    slotOf owner path data = .ref ⟨owner, path⟩ := by
  cases data with
  | scalar value => cases isComposite
  | array items => rfl
  | object entries => rfl

/-- The conversion, with as much fuel as the value is large. -/
theorem convert_converts (fuel : Nat) :
    Converts schema format fuel (convert schema format fuel) := by
  induction fuel with
  | zero => exact fun _ _ _ _ _ _ small => absurd small (Nat.not_lt_zero _)
  | succ fuel induction =>
      intro sharing path data dataPath oneOfPath heap small distinct laid
      cases laid with
      | scalar value =>
          refine ⟨_, heap, rfl, Frame.refl _ _, ?_⟩
          exact iff_of_true (Kept.refl _ _) (by rw [Spares]; trivial)
      | composite isComposite cell below =>
          have smaller : ∀ entry ∈ data.entries, sizeOf entry.2 < fuel := by
            intro entry member
            have less := sizeOf_entry_lt member
            omega
          obtain ⟨after, behind, ran, last, -, frame, exact⟩ :=
            @convertEntries_spec schema format fuel _ induction sharing path
              dataPath data.length data.entries oneOfPath heap [] cell
              distinct.keys below smaller
              (fun entry member => distinct.entry member)
          refine ⟨.ref ⟨sharing.owner, path⟩, after, ?_, ?_, ?_⟩
          · rw [slotOf_composite _ _ isComposite, convert, Program.exec_bind,
              exec_readCell, choose_composite _ _ isComposite]
            simp only [Heap.cell_eq cell]
            rw [Program.exec_bind]
            have ran' : Program.exec (convertEntries schema format
                (convert schema format fuel) dataPath ⟨sharing.owner, path⟩
                oneOfPath (cellOf sharing path data).entries) heap =
              (thrown (chooseEntries schema dataPath oneOfPath data.entries),
                after) := ran
            rw [ran']
            cases chooseEntries schema dataPath oneOfPath data.entries with
            | error message => rfl
            | ok next => rfl
          · apply frame.weaken
            rintro address (rfl | ⟨key, -, beneath⟩)
            · exact List.prefix_refl _
            · exact (List.prefix_append _ _).trans beneath
          · rw [spares_composite _ _ _ isComposite, ← exact, kept_iff frame]
            apply and_congr_left
            intro _
            constructor
            · intro own shared
              subst shared
              have same := last.symm.trans ((own rfl).trans cell)
              exact congrArg Cell.entries (Option.some.inj same)
            · intro own caller
              have shared : sharing = .shared := by
                cases sharing with
                | deep => cases caller
                | shallow => cases caller
                | shared => rfl
              subst shared
              exact last.trans ((congrArg (fun entries =>
                some (⟨data.length, entries⟩ : Cell)) (own rfl)).trans
                  cell.symm)

end Conversion

end Web3Js.Format.InPlace
