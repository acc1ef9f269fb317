import Web3Js.Format.Unmodified

/-!
# The copy and the caller's data

The copy of an object has copies of the objects below it, and copies of the
places of the arrays.  It is laid out beside the caller's data, which stay as
they are, and what is written to it later is not written to them.
-/

namespace Web3Js.Format.InPlace

section Merging

/-- The addresses of the copy at a place and below it. -/
def Copied (path : List String) (address : Address) : Prop :=
  address.owner = .copy ∧ path <+: address.path

/-- A copy of laid out objects smaller than a bound writes its own cells
only, which are then laid out. -/
def Copies (bound : Nat) (recurse : List String → Address → Run Slot) :
    Prop :=
  ∀ (path : List String) (entries : List (String × Data)) (heap : Heap),
    sizeOf (Data.object entries) < bound → (Data.object entries).Distinct →
      Laid heap .shared path (.object entries) →
        ∃ after,
          Program.exec (recurse path ⟨.caller, path⟩) heap =
            (.ok (.ref ⟨.copy, path⟩), after) ∧
          Frame (Copied path) heap after ∧
          Laid after .deep path (.object (Format.mergeDeep entries))

/-- What the copy has for a property. -/
def mergedValue (key : String) (value : Data) : Option Data :=
  if key ∈ forbiddenKeys then none else Format.mergeValue key value

theorem mergeDeep_cons (key : String) (value : Data)
    (entries : List (String × Data)) :
    Format.mergeDeep ((key, value) :: entries) =
      match mergedValue key value with
      | some copy => (key, copy) :: Format.mergeDeep entries
      | none => Format.mergeDeep entries := by
  rw [Format.mergeDeep, mergedValue]
  split
  · rfl
  · rfl

theorem mem_mergeDeep {entries : List (String × Data)}
    {entry : String × Data} (member : entry ∈ Format.mergeDeep entries) :
    ∃ value, (entry.1, value) ∈ entries ∧
      mergedValue entry.1 value = some entry.2 := by
  induction entries with
  | nil =>
      rw [Format.mergeDeep] at member
      cases member
  | cons first entries induction =>
      obtain ⟨key, value⟩ := first
      have further : entry ∈ Format.mergeDeep entries →
          ∃ value', (entry.1, value') ∈ (key, value) :: entries ∧
            mergedValue entry.1 value' = some entry.2 := by
        intro later
        obtain ⟨other, listed, merged⟩ := induction later
        exact ⟨other, List.mem_cons_of_mem _ listed, merged⟩
      rw [mergeDeep_cons] at member
      split at member
      · rename_i copy merged
        rcases List.mem_cons.mp member with rfl | later
        · exact ⟨value, List.mem_cons_self, merged⟩
        · exact further later
      · exact further member

theorem keys_mergeDeep (entries : List (String × Data)) :
    ((Format.mergeDeep entries).map Prod.fst).Sublist
      (entries.map Prod.fst) := by
  induction entries with
  | nil => rw [Format.mergeDeep]
  | cons first entries induction =>
      obtain ⟨key, value⟩ := first
      rw [mergeDeep_cons, List.map_cons]
      split
      · exact induction.cons_cons key
      · exact induction.cons key

/-- The copy of an object has no more properties of one name. -/
theorem mergeValue_distinct {key : String} {value copy : Data}
    (distinct : value.Distinct)
    (merged : Format.mergeValue key value = some copy) : copy.Distinct := by
  induction distinct generalizing key copy with
  | scalar content =>
      rw [Format.mergeValue] at merged
      split at merged
      · cases merged
      · cases merged
        exact .scalar content
  | array below =>
      rw [Format.mergeValue] at merged
      cases merged
      exact .array below
  | object keys below induction =>
      rw [Format.mergeValue] at merged
      split at merged
      · cases merged
        exact .scalar _
      · cases merged
        refine .object (keys.sublist (keys_mergeDeep _)) ?_
        intro entry member
        obtain ⟨value, listed, copied⟩ := mem_mergeDeep member
        rw [mergedValue] at copied
        split at copied
        · cases copied
        · exact induction _ listed copied

/-- The cell of a copied array is that of the caller's. -/
theorem cellOf_array (path : List String) (items : List Data) :
    cellOf .shallow path (.array items) =
      cellOf .shared path (.array items) := by
  have shares : ∀ value : Data, Sharing.shallow.ofValue value =
      Sharing.shared.ofValue value := by
    intro value
    cases value <;> rfl
  rw [cellOf, cellOf]
  simp only [shares]

theorem mergeValue_spec {bound : Nat}
    {recurse : List String → Address → Run Slot}
    (copies : Copies bound recurse) {path : List String} {key : String}
    {value : Data} {heap : Heap} (small : sizeOf value < bound)
    (distinct : value.Distinct)
    (laid : Laid heap .shared (path ++ [key]) value) :
    ∃ after,
      Program.exec (mergeValue recurse path key
          (slotOf .caller (path ++ [key]) value)) heap =
        (.ok ((mergedValue key value).map (slotOf .copy (path ++ [key]))),
          after) ∧
      Frame (Copied (path ++ [key])) heap after ∧
      ∀ copy, mergedValue key value = some copy →
        Laid after (Sharing.deep.ofValue copy) (path ++ [key]) copy := by
  rw [InPlace.mergeValue.eq_def, mergedValue]
  by_cases forbidden : key ∈ forbiddenKeys
  · rw [if_pos forbidden, if_pos forbidden]
    exact ⟨heap, rfl, Frame.refl _ _, nofun⟩
  · rw [if_neg forbidden, if_neg forbidden]
    cases value with
    | scalar content =>
        rw [Format.mergeValue]
        simp only [slotOf]
        split
        · exact ⟨heap, rfl, Frame.refl _ _, nofun⟩
        · refine ⟨heap, rfl, Frame.refl _ _, ?_⟩
          intro copy same
          cases same
          exact .scalar content
    | object entries =>
        have kind : (heap.cell ⟨.caller, path ++ [key]⟩).length = none :=
          congrArg Cell.length (laid.cell rfl)
        rw [Format.mergeValue]
        simp only [slotOf]
        rw [Program.exec_bind, exec_readCell]
        simp only [kind]
        by_cases inherited : key ∈ inheritedKeys
        · rw [if_pos inherited, if_pos inherited]
          refine ⟨heap, rfl, Frame.refl _ _, ?_⟩
          intro copy same
          cases same
          exact .scalar _
        · rw [if_neg inherited, if_neg inherited]
          obtain ⟨after, ran, frame, copied⟩ :=
            copies (path ++ [key]) entries heap small distinct laid
          refine ⟨after, ?_, frame, ?_⟩
          · rw [Program.exec_bind, ran]
            rfl
          · intro copy same
            cases same
            exact copied
    | array items =>
        have there : heap.cell ⟨.caller, path ++ [key]⟩ =
            cellOf .shared (path ++ [key]) (.array items) := laid.cell rfl
        have kind : (cellOf .shared (path ++ [key]) (.array items)).length =
            some items.length := rfl
        rw [Format.mergeValue]
        simp only [slotOf]
        rw [Program.exec_bind, exec_readCell]
        simp only [there, kind]
        refine ⟨_, rfl, ?_, ?_⟩
        · intro address outside
          apply Function.update_of_ne
          rintro rfl
          exact outside ⟨rfl, List.prefix_refl _⟩
        · intro copy same
          cases same
          cases laid with
          | composite isComposite cell below =>
              apply Laid.composite isComposite
              · rw [← cellOf_array]
                exact Function.update_self _ _ _
              · intro entry member
                have element := below entry member
                have shares : Sharing.shared.ofValue entry.2 =
                    (Sharing.deep.ofValue (.array items)).ofValue
                      entry.2 := by
                  cases entry.2 <;> rfl
                rw [shares] at element
                apply element.of_agree
                intro address beneath
                apply Function.update_of_ne
                rintro rfl
                exact not_prefix_append _ _ beneath

theorem exec_mergeEntries_cons (recurse : List String → Address → Run Slot)
    (path : List String) (key : String) (value : Slot)
    (entries : List (String × Slot)) {heap middle after : Heap}
    {copied : Option Slot} {others : List (String × Slot)}
    (first : Program.exec (mergeValue recurse path key value) heap =
      (.ok copied, middle))
    (rest : Program.exec (mergeEntries recurse path entries) middle =
      (.ok others, after)) :
    Program.exec (mergeEntries recurse path ((key, value) :: entries)) heap =
      (.ok (copied.elim others fun slot => (key, slot) :: others),
        after) := by
  rw [mergeEntries, Program.exec_bind, first]
  simp only
  rw [Program.exec_bind, rest]
  cases copied with
  | none => rfl
  | some slot => rfl

theorem mergeEntries_spec {bound : Nat}
    {recurse : List String → Address → Run Slot}
    (copies : Copies bound recurse) {path : List String}
    (entries : List (String × Data)) (heap : Heap)
    (keys : (entries.map Prod.fst).Nodup)
    (small : ∀ entry ∈ entries, sizeOf entry.2 < bound)
    (distinct : ∀ entry ∈ entries, entry.2.Distinct)
    (laid : ∀ entry ∈ entries,
      Laid heap .shared (path ++ [entry.1]) entry.2) :
    ∃ after,
      Program.exec (mergeEntries recurse path (entries.map fun entry =>
          (entry.1, slotOf .caller (path ++ [entry.1]) entry.2))) heap =
        (.ok ((Format.mergeDeep entries).map fun entry =>
          (entry.1, slotOf .copy (path ++ [entry.1]) entry.2)), after) ∧
      Frame (fun address => ∃ key ∈ entries.map Prod.fst,
        Copied (path ++ [key]) address) heap after ∧
      ∀ entry ∈ Format.mergeDeep entries,
        Laid after (Sharing.deep.ofValue entry.2) (path ++ [entry.1])
          entry.2 := by
  induction entries generalizing heap with
  | nil =>
      refine ⟨heap, rfl, Frame.refl _ _, ?_⟩
      intro entry member
      rw [Format.mergeDeep] at member
      cases member
  | cons entry entries induction =>
      obtain ⟨key, value⟩ := entry
      rw [List.map_cons, List.nodup_cons] at keys
      obtain ⟨middle, first, frame, copied⟩ :=
        mergeValue_spec copies (small _ List.mem_cons_self)
          (distinct _ List.mem_cons_self) (laid _ List.mem_cons_self)
      have untouched : ∀ other ∈ entries.map Prod.fst,
          ∀ address : Address, path ++ [other] <+: address.path →
            middle address = heap address := by
        intro other member address beneath
        apply frame
        rintro ⟨-, under⟩
        exact keys.1 (key_eq_of_below under beneath ▸ member)
      obtain ⟨after, rest, further, others⟩ := induction middle keys.2
        (fun entry member => small entry (List.mem_cons_of_mem _ member))
        (fun entry member => distinct entry (List.mem_cons_of_mem _ member))
        (fun entry member =>
          (laid entry (List.mem_cons_of_mem _ member)).of_agree
            (untouched entry.1 (List.mem_map_of_mem member)))
      refine ⟨after, ?_, ?_, ?_⟩
      · rw [List.map_cons, exec_mergeEntries_cons recurse path key _ _ first
          rest, mergeDeep_cons]
        cases mergedValue key value with
        | none => rfl
        | some copy => rfl
      · apply Frame.trans
        · apply frame.weaken
          intro address within
          exact ⟨key, List.mem_cons_self, within⟩
        · apply further.weaken
          rintro address ⟨other, member, within⟩
          exact ⟨other, List.mem_cons_of_mem _ member, within⟩
      · rw [mergeDeep_cons]
        cases merged : mergedValue key value with
        | none => exact others
        | some copy =>
            intro entry member
            rcases List.mem_cons.mp member with rfl | later
            · apply (copied copy merged).of_agree
              intro address beneath
              apply further
              rintro ⟨other, listed, -, under⟩
              exact keys.1 (key_eq_of_below under beneath ▸ listed)
            · exact others entry later

theorem mergeDeep_copies (fuel : Nat) : Copies fuel (mergeDeep fuel) := by
  induction fuel with
  | zero => exact fun _ _ _ small => absurd small (Nat.not_lt_zero _)
  | succ fuel induction =>
      intro path entries heap small distinct laid
      have smaller : ∀ entry ∈ entries, sizeOf entry.2 < fuel := by
        intro entry member
        have less := sizeOf_entry_lt
          (show entry ∈ (Data.object entries).entries from member)
        omega
      have there := laid.cell rfl
      cases laid with
      | composite isComposite cell below =>
          have shares : ∀ entry ∈ entries,
              Laid heap .shared (path ++ [entry.1]) entry.2 := by
            intro entry member
            have element := below entry member
            have shared : Sharing.shared.ofValue entry.2 = .shared := by
              cases entry.2 <;> rfl
            rw [shared] at element
            exact element
          obtain ⟨middle, ran, frame, copied⟩ :=
            mergeEntries_spec induction entries heap distinct.keys smaller
              (fun entry member => distinct.entry member) shares
          have slots : (cellOf .shared path (.object entries)).entries =
              entries.map fun entry =>
                (entry.1, slotOf .caller (path ++ [entry.1]) entry.2) := by
            rw [cellOf]
            apply List.map_congr_left
            intro entry member
            cases entry.2 <;> rfl
          have there' : heap.cell ⟨.caller, path⟩ =
              cellOf .shared path (.object entries) := there
          refine ⟨Function.update middle ⟨.copy, path⟩ (some ⟨none,
            (Format.mergeDeep entries).map fun entry =>
              (entry.1, slotOf .copy (path ++ [entry.1]) entry.2)⟩), ?_, ?_,
            ?_⟩
          · rw [mergeDeep, Program.exec_bind, exec_readCell]
            simp only [there', slots]
            rw [Program.exec_bind, ran]
            rfl
          · apply Frame.trans
            · apply frame.weaken
              rintro address ⟨key, -, owner, beneath⟩
              exact ⟨owner, (List.prefix_append _ _).trans beneath⟩
            · intro address outside
              apply Function.update_of_ne
              rintro rfl
              exact outside ⟨rfl, List.prefix_refl _⟩
          · apply Laid.composite rfl
            · have whole : cellOf .deep path
                  (.object (Format.mergeDeep entries)) = ⟨none,
                    (Format.mergeDeep entries).map fun entry =>
                      (entry.1,
                        slotOf .copy (path ++ [entry.1]) entry.2)⟩ := by
                rw [cellOf]
                congr 1
                apply List.map_congr_left
                intro entry member
                cases entry.2 <;> rfl
              rw [whole]
              exact Function.update_self _ _ _
            · intro entry member
              apply (copied entry member).of_agree
              intro address beneath
              apply Function.update_of_ne
              rintro rfl
              exact not_prefix_append _ _ beneath

end Merging

section Layout

theorem lookup_of_mem {entries : List (String × Data)}
    (keys : (entries.map Prod.fst).Nodup) {entry : String × Data}
    (member : entry ∈ entries) :
    entries.lookup entry.1 = some entry.2 := by
  induction entries with
  | nil => cases member
  | cons first entries induction =>
      rw [List.map_cons, List.nodup_cons] at keys
      rcases List.mem_cons.mp member with rfl | later
      · exact List.lookup_cons_self
      · have other : (entry.1 == first.1) = false := by
          rw [beq_eq_false_iff_ne]
          intro same
          exact keys.1 (same ▸ List.mem_map_of_mem later)
        rw [List.lookup_cons, other]
        exact induction keys.2 later

theorem at_append {data value : Data} {path : List String}
    (found : data.at path = some value) (key : String) :
    data.at (path ++ [key]) = value.entries.lookup key := by
  induction path generalizing data with
  | nil =>
      cases found
      rw [List.nil_append, Data.at]
      cases value.entries.lookup key with
      | none => rfl
      | some below => rfl
  | cons first path induction =>
      rw [Data.at] at found
      rw [List.cons_append, Data.at]
      cases lookup : data.entries.lookup first with
      | none =>
          rw [lookup] at found
          cases found
      | some below =>
          rw [lookup] at found
          exact induction found

theorem cellOf_shared (path : List String) (value : Data) :
    cellOf .shared path value = ⟨value.length, value.entries.map fun entry =>
      (entry.1, slotOf .caller (path ++ [entry.1]) entry.2)⟩ := by
  have shares : ∀ below : Data, Sharing.shared.ofValue below = .shared := by
    intro below
    cases below <;> rfl
  rw [cellOf]
  simp only [shares]
  rfl

/-- The caller's data are laid out. -/
theorem laid_layout {data value : Data} {path : List String}
    (found : data.at path = some value) (distinct : value.Distinct) :
    Laid (layout data) .shared path value := by
  induction size : sizeOf value using Nat.strongRecOn generalizing value path with
  | ind bound induction =>
      cases shape : value.isComposite with
      | false =>
          cases value with
          | scalar content => exact .scalar content
          | array items => cases shape
          | object entries => cases shape
      | true =>
          apply Laid.composite shape
          · have whole : layout data ⟨.caller, path⟩ =
                some ⟨value.length, value.entries.map fun entry =>
                  (entry.1, slotOf .caller (path ++ [entry.1]) entry.2)⟩ := by
              simp only [layout, found, shape, if_true]
            rw [cellOf_shared]
            exact whole
          · intro entry member
            have shared : Sharing.shared.ofValue entry.2 = .shared := by
              cases entry.2 <;> rfl
            rw [shared]
            apply induction (sizeOf entry.2)
            · rw [← size]
              exact sizeOf_entry_lt member
            · rw [at_append found]
              exact lookup_of_mem distinct.keys member
            · exact distinct.entry member
            · rfl

end Layout

end Web3Js.Format.InPlace
