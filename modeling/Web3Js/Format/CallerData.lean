import Web3Js.Format.Copies

/-!
# What formatting does to the data it is given

The data that are converted are laid out beside the caller's, so the caller's
stay as they are exactly if the conversion spares what it shares with them:
everything that lies inside an array.
-/

namespace Web3Js.Format.InPlace

section Working

theorem isHole_seen (item : Data) : item.seen.isHole = false := by
  rw [Data.seen]
  split
  · rfl
  · rename_i solid
    exact Bool.not_eq_true _ ▸ solid

theorem elementEntries_seen (items : List Data) (index : Nat) :
    elementEntries index (items.map Data.seen) =
      (items.zipIdx index).map fun place =>
        (toString place.2, place.1.seen) := by
  induction items generalizing index with
  | nil => rfl
  | cons item items induction =>
      rw [List.map_cons, elementEntries, isHole_seen, List.zipIdx_cons,
        List.map_cons, if_neg Bool.false_ne_true, induction]

/-- The copy of the places of an array has the elements of the array. -/
theorem cellOf_seen (items : List Data) :
    (⟨some items.length, (List.range items.length).map fun index =>
        (toString index,
          (cellOf .shared [] (.array items)).itemAt index)⟩ : Cell) =
      cellOf .shallow [] (.array (items.map Data.seen)) := by
  have shares : ∀ value : Data, Sharing.shallow.ofValue value = .shared := by
    intro value
    cases value <;> rfl
  have entries : (Data.array (items.map Data.seen)).entries =
      (items.zipIdx 0).map fun place => (toString place.2, place.1.seen) :=
    elementEntries_seen items 0
  have length : (Data.array (items.map Data.seen)).length =
      some items.length := by
    rw [Data.length, List.length_map]
  rw [cellOf.eq_1 .shallow, entries, length, List.map_map]
  congr 1
  apply List.ext_getElem
  · simp
  · intro index below _
    have bound : index < items.length := by simpa using below
    have item := itemAt_cellOf .shared [] items
      (List.getElem?_eq_getElem bound)
    have shared : Sharing.shared.ofValue items[index] = .shared := by
      cases items[index] <;> rfl
    rw [shared] at item
    simp [item, shares]

theorem workingData_distinct {data : Data} (distinct : data.Distinct) :
    (workingData data).Distinct := by
  cases distinct with
  | scalar value => exact .scalar value
  | array below =>
      refine .array fun item member => ?_
      obtain ⟨original, listed, rfl⟩ := List.mem_map.mp member
      exact Data.Distinct.seen (below original listed)
  | object keys below =>
      refine .object (keys.sublist (keys_mergeDeep _)) ?_
      intro entry member
      obtain ⟨value, listed, merged⟩ := mem_mergeDeep member
      rw [mergedValue] at merged
      split at merged
      · cases merged
      · exact mergeValue_distinct (below _ listed) merged

/-- What is converted is laid out, and the caller's data are as they were. -/
theorem copyData_spec {data : Data} (distinct : data.Distinct) {fuel : Nat}
    (small : sizeOf data < fuel) :
    ∃ after,
      Program.exec (copyData fuel (slotOf .caller [] data)) (layout data) =
        (.ok (slotOf (workingSharing data).owner [] (workingData data)),
          after) ∧
      (∀ place, after ⟨.caller, place⟩ = layout data ⟨.caller, place⟩) ∧
      Laid after (workingSharing data) [] (workingData data) := by
  have laid := @laid_layout data data [] rfl distinct
  cases data with
  | scalar value => exact ⟨_, rfl, fun _ => rfl, .scalar value⟩
  | object entries =>
      have kind : ((layout (.object entries)).cell ⟨.caller, []⟩).length =
          none := congrArg Cell.length (laid.cell rfl)
      obtain ⟨after, ran, frame, copied⟩ :=
        mergeDeep_copies fuel [] entries _ small distinct laid
      refine ⟨after, ?_, ?_, copied⟩
      · simp only [slotOf, copyData]
        rw [Program.exec_bind, exec_readCell]
        simp only [kind]
        exact ran
      · intro place
        apply frame
        rintro ⟨owner, -⟩
        cases owner
  | array items =>
      have there : (layout (.array items)).cell ⟨.caller, []⟩ =
          cellOf .shared [] (.array items) := laid.cell rfl
      have kind : (cellOf .shared [] (.array items)).length =
          some items.length := rfl
      have holds := holds_of_laid
        (fun item => by cases item <;> rfl) laid
      refine ⟨Function.update (layout (.array items)) ⟨.copy, []⟩
        (some (cellOf .shallow [] (.array (items.map Data.seen)))), ?_, ?_,
        ?_⟩
      · simp only [slotOf, copyData]
        rw [Program.exec_bind, exec_readCell]
        simp only [there, kind]
        rw [cellOf_seen]
        rfl
      · intro place
        apply Function.update_of_ne
        rintro ⟨⟩
      · apply Laid.composite rfl
        · exact Function.update_self _ _ _
        · intro entry member
          have entries : (Data.array (items.map Data.seen)).entries =
              (items.zipIdx 0).map fun place =>
                (toString place.2, place.1.seen) :=
            elementEntries_seen items 0
          change entry ∈ (Data.array (items.map Data.seen)).entries at member
          rw [entries] at member
          obtain ⟨⟨item, index⟩, listed, rfl⟩ := List.mem_map.mp member
          have found := List.mem_zipIdx_iff_getElem?.mp listed
          have element := (holds.laid index item found).seen
          have shares : (workingSharing (.array items)).ofValue item.seen =
              .shared := by
            cases item.seen <;> rfl
          simp only [shares]
          rw [Nat.zero_add] at element
          apply element.of_agree
          intro address beneath
          apply Function.update_of_ne
          rintro rfl
          exact not_prefix_append _ _ beneath

end Working

section Example

/-- An object with a number `b`. -/
def numbered : JsonSchema :=
  ⟨some "object", none,
    some [("b", ⟨none, some "uint", none, none, none⟩)], none, none⟩

/-- A list of such objects under `a`. -/
def listed : JsonSchema :=
  ⟨some "object", none,
    some [("a", ⟨some "array", none, none, some (.inl numbered), none⟩)],
    none, none⟩

def listedData : Data :=
  .object [("a", .array [.object [("b", .scalar (.text "0x1"))]])]

theorem listedData_distinct : listedData.Distinct := by
  refine .object (by decide) fun entry member => ?_
  cases List.mem_singleton.mp member
  refine .array fun item member => ?_
  cases List.mem_singleton.mp member
  refine .object (by decide) fun entry member => ?_
  cases List.mem_singleton.mp member
  exact .scalar _

end Example

end Web3Js.Format.InPlace
