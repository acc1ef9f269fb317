import Web3Js.Lib.OrderedMap

/-!
# Indexes of positions

A list of items with keys comes with a map from keys to positions.  The map
indexes the list when it finds exactly the positions of the items; keys are
then distinct.  Appending an item with a new key and replacing the item of a
key keep the index, and indexing the items of a list one by one builds it.
-/

namespace Web3Js

universe u v

variable {α : Type u} {κ : Type v} [DecidableEq κ]

/-- The map finds exactly the positions of the items, by their keys. -/
def Indexes (key : α → κ) (items : List α) (index : OrderedMap κ Nat) :
    Prop :=
  ∀ wanted position, index.get? wanted = some position ↔
    ∃ item, items[position]? = some item ∧ key item = wanted

/-- Enters the items from a position on. -/
def indexFrom (key : α → κ) :
    (items : List α) → (position : Nat) → OrderedMap κ Nat → OrderedMap κ Nat
  | [], _, index => index
  | item :: items, position, index =>
      indexFrom key items (position + 1) (index.set (key item) position)

namespace Indexes

variable {key : α → κ} {items : List α} {index : OrderedMap κ Nat}

theorem empty (key : α → κ) : Indexes key [] ∅ := by
  intro wanted position
  rw [OrderedMap.get?_empty, List.getElem?_nil]
  constructor
  · intro found
    cases found
  · rintro ⟨item, found, -⟩
    cases found

theorem position_unique (indexes : Indexes key items index)
    {left right : Nat} {first second : α}
    (leftFound : items[left]? = some first)
    (rightFound : items[right]? = some second)
    (same : key first = key second) : left = right := by
  have atLeft : index.get? (key first) = some left :=
    (indexes _ _).mpr ⟨first, leftFound, rfl⟩
  have atRight : index.get? (key first) = some right :=
    (indexes _ _).mpr ⟨second, rightFound, same.symm⟩
  exact Option.some.inj (atLeft.symm.trans atRight)

theorem nodup (indexes : Indexes key items index) :
    (items.map key).Nodup := by
  rw [List.nodup_iff_getElem?_ne_getElem?]
  intro left right order inRange same
  rw [List.length_map] at inRange
  have leftFound : items[left]? = some items[left] :=
    List.getElem?_eq_getElem (by omega)
  have rightFound : items[right]? = some items[right] :=
    List.getElem?_eq_getElem inRange
  rw [List.getElem?_map, List.getElem?_map, leftFound, rightFound,
    Option.map_some, Option.map_some] at same
  have equal : left = right :=
    indexes.position_unique leftFound rightFound (Option.some.inj same)
  omega

theorem absent_iff (indexes : Indexes key items index) {wanted : κ} :
    index.get? wanted = none ↔ wanted ∉ items.map key := by
  rw [← not_iff_not, not_not, ← ne_eq, Option.ne_none_iff_exists']
  constructor
  · rintro ⟨position, found⟩
    obtain ⟨item, itemFound, same⟩ := (indexes _ _).mp found
    exact List.mem_map.mpr ⟨item, List.mem_of_getElem? itemFound, same⟩
  · intro member
    obtain ⟨item, itemMember, same⟩ := List.mem_map.mp member
    obtain ⟨position, itemFound⟩ := List.getElem?_of_mem itemMember
    exact ⟨position, (indexes _ _).mpr ⟨item, itemFound, same⟩⟩

/-- Looking up by key is searching the items. -/
theorem find_eq (indexes : Indexes key items index) (wanted : κ) :
    (index.get? wanted).bind (items[·]?) =
      items.find? (decide <| key · = wanted) := by
  cases found : index.get? wanted with
  | none =>
      rw [Option.bind_none, eq_comm, List.find?_eq_none]
      intro item member
      rw [decide_eq_true_iff]
      intro same
      exact indexes.absent_iff.mp found
        (List.mem_map.mpr ⟨item, member, same⟩)
  | some position =>
      obtain ⟨item, itemFound, same⟩ := (indexes _ _).mp found
      rw [Option.bind_some, itemFound, eq_comm, List.find?_eq_some_iff_getElem]
      obtain ⟨inRange, element⟩ := List.getElem?_eq_some_iff.mp itemFound
      refine ⟨decide_eq_true same, position, inRange, element, ?_⟩
      intro earlier before
      have earlierFound : items[earlier]? = some items[earlier] :=
        List.getElem?_eq_getElem (by omega)
      rw [Bool.not_eq_true', decide_eq_false_iff_not]
      intro equal
      have positions : earlier = position :=
        indexes.position_unique earlierFound itemFound (equal.trans same.symm)
      omega

theorem append (indexes : Indexes key items index) {item : α}
    (fresh : index.get? (key item) = none) :
    Indexes key (items ++ [item]) (index.set (key item) items.length) := by
  intro wanted position
  rw [OrderedMap.get?_set]
  have absent := indexes.absent_iff.mp fresh
  rcases Nat.lt_trichotomy position items.length with before | here | behind
  · rw [List.getElem?_append_left before, ← indexes wanted position]
    split
    · rename_i same
      rw [same, fresh]
      constructor
      · intro atEnd
        exact absurd (Option.some.inj atEnd) (by omega)
      · intro found
        cases found
    · exact Iff.rfl
  · subst here
    rw [List.getElem?_concat_length]
    split
    · rename_i same
      exact ⟨fun _ => ⟨item, rfl, same.symm⟩, fun _ => rfl⟩
    · rename_i other
      constructor
      · intro found
        obtain ⟨old, oldFound, -⟩ := (indexes _ _).mp found
        rw [List.getElem?_eq_none (Nat.le_refl _)] at oldFound
        cases oldFound
      · rintro ⟨last, isLast, same⟩
        cases isLast
        exact absurd same.symm other
  · have beyond : (items ++ [item])[position]? = none := by
      apply List.getElem?_eq_none
      rw [List.length_append, List.length_singleton]
      omega
    rw [beyond]
    constructor
    · split
      · intro atEnd
        exact absurd (Option.some.inj atEnd) (by omega)
      · intro found
        obtain ⟨old, oldFound, -⟩ := (indexes _ _).mp found
        rw [List.getElem?_eq_none (by omega)] at oldFound
        cases oldFound
    · rintro ⟨last, found, -⟩
      cases found

theorem replace (indexes : Indexes key items index) {item : α} {place : Nat}
    (present : index.get? (key item) = some place) :
    Indexes key (items.set place item) (index.set (key item) place) := by
  obtain ⟨old, oldFound, oldKey⟩ := (indexes _ _).mp present
  have inRange : place < items.length :=
    (List.getElem?_eq_some_iff.mp oldFound).1
  intro wanted position
  rw [OrderedMap.get?_set]
  have unchanged : (if wanted = key item then some place
      else index.get? wanted) = index.get? wanted := by
    split
    · rename_i same
      rw [same, present]
    · rfl
  rw [unchanged, indexes wanted position]
  by_cases here : place = position
  · subst here
    rw [List.getElem?_set_self inRange, oldFound]
    constructor
    · rintro ⟨found, isOld, same⟩
      cases isOld
      exact ⟨item, rfl, oldKey.symm.trans same⟩
    · rintro ⟨found, isNew, same⟩
      cases isNew
      exact ⟨old, rfl, oldKey.trans same⟩
  · rw [List.getElem?_set_ne here]

end Indexes

section Building

variable (key : α → κ)

theorem indexes_indexFrom {before items : List α}
    {index : OrderedMap κ Nat} (indexes : Indexes key before index)
    (distinct : ((before ++ items).map key).Nodup) :
    Indexes key (before ++ items)
      (indexFrom key items before.length index) := by
  induction items generalizing before index with
  | nil =>
      rw [List.append_nil]
      exact indexes
  | cons item items induction =>
      have fresh : index.get? (key item) = none := by
        apply indexes.absent_iff.mpr
        intro member
        rw [List.map_append, List.map_cons] at distinct
        exact (List.nodup_append.mp distinct).2.2 _ member _
          List.mem_cons_self rfl
      have grown := indexes.append fresh
      have regrouped : before ++ item :: items = before ++ [item] ++ items := by
        rw [List.append_assoc]
        rfl
      rw [regrouped] at distinct ⊢
      have later := induction grown distinct
      rw [List.length_append, List.length_singleton] at later
      exact later

/-- Entering all items of a list with distinct keys indexes it. -/
theorem indexes_of_nodup {items : List α}
    (distinct : (items.map key).Nodup) :
    Indexes key items (indexFrom key items 0 ∅) :=
  indexes_indexFrom key (Indexes.empty key) distinct

end Building

end Web3Js
