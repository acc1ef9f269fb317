import Mathlib.Data.List.Nodup
import Mathlib.Data.List.Basic

/-!
# Insertion-ordered maps

A map is the list of its entries in the order of their first insertion, with
distinct keys.  Setting a present key replaces its value in place.  Lookup
determines membership of entries and keys; sizes change by at most one.
-/

namespace Web3Js

universe u v

structure OrderedMap (κ : Type u) (ν : Type v) where
  entries : List (κ × ν)
  distinct : (entries.map Prod.fst).Nodup

namespace OrderedMap

variable {κ : Type u} {ν : Type v}

def empty : OrderedMap κ ν where
  entries := []
  distinct := List.nodup_nil

instance : EmptyCollection (OrderedMap κ ν) := ⟨empty⟩

def size (map : OrderedMap κ ν) : Nat := map.entries.length

def keys (map : OrderedMap κ ν) : List κ := map.entries.map Prod.fst

@[simp] theorem size_empty : (∅ : OrderedMap κ ν).size = 0 := rfl

@[simp] theorem entries_empty : (∅ : OrderedMap κ ν).entries = [] := rfl

variable [DecidableEq κ]

/-- The value of the first entry with a key. -/
def find (key : κ) : List (κ × ν) → Option ν
  | [] => none
  | (other, value) :: entries =>
      if other = key then some value else find key entries

/-- The entries with the value of a key replaced. -/
def replace (key : κ) (value : ν) : List (κ × ν) → List (κ × ν)
  | [] => []
  | (other, old) :: entries =>
      (other, if other = key then value else old) ::
        replace key value entries

private theorem keys_replace (key : κ) (value : ν) (entries : List (κ × ν)) :
    (replace key value entries).map Prod.fst = entries.map Prod.fst := by
  induction entries with
  | nil => rfl
  | cons entry entries induction => simp [replace, induction]

private theorem find_eq_none {key : κ} {entries : List (κ × ν)} :
    find key entries = none ↔ key ∉ entries.map Prod.fst := by
  induction entries with
  | nil => simp [find]
  | cons entry entries induction =>
      by_cases same : entry.1 = key
      · simp [find, same]
      · simp [find, same, induction, Ne.symm same]

def get? (map : OrderedMap κ ν) (key : κ) : Option ν :=
  find key map.entries

def contains (map : OrderedMap κ ν) (key : κ) : Bool :=
  (map.get? key).isSome

def set (map : OrderedMap κ ν) (key : κ) (value : ν) : OrderedMap κ ν :=
  if absent : map.get? key = none then
    { entries := map.entries ++ [(key, value)]
      distinct := by
        rw [List.map_append, List.map_singleton]
        exact List.Nodup.append map.distinct (List.nodup_singleton key)
          (by simpa using find_eq_none.mp absent) }
  else
    { entries := replace key value map.entries
      distinct := by
        rw [keys_replace]
        exact map.distinct }

def erase (map : OrderedMap κ ν) (key : κ) : OrderedMap κ ν where
  entries := map.entries.filter (·.1 ≠ key)
  distinct := map.distinct.sublist (List.filter_sublist.map Prod.fst)

@[simp] theorem get?_empty (key : κ) : (∅ : OrderedMap κ ν).get? key = none :=
  rfl

theorem get?_eq_none {map : OrderedMap κ ν} {key : κ} :
    map.get? key = none ↔ key ∉ map.keys :=
  find_eq_none

theorem mem_keys_of_get? {map : OrderedMap κ ν} {key : κ} {value : ν}
    (found : map.get? key = some value) : key ∈ map.keys := by
  by_contra absent
  rw [get?_eq_none.mpr absent] at found
  cases found

private theorem find_eq_some {key : κ} {value : ν} {entries : List (κ × ν)}
    (distinct : (entries.map Prod.fst).Nodup) :
    find key entries = some value ↔ (key, value) ∈ entries := by
  induction entries with
  | nil => simp [find]
  | cons entry entries induction =>
      obtain ⟨first, second⟩ := entry
      obtain ⟨fresh, rest⟩ := List.nodup_cons.mp distinct
      by_cases same : first = key
      · subst same
        have absent : (first, value) ∉ entries := by
          intro member
          exact fresh (List.mem_map.mpr ⟨(first, value), member, rfl⟩)
        simp [find, absent, eq_comm]
      · simp [find, same, Ne.symm same, induction rest]

theorem mem_entries {map : OrderedMap κ ν} {key : κ} {value : ν} :
    (key, value) ∈ map.entries ↔ map.get? key = some value :=
  (find_eq_some map.distinct).symm

private theorem find_append (key : κ) (left right : List (κ × ν)) :
    find key (left ++ right) = (find key left).or (find key right) := by
  induction left with
  | nil => rfl
  | cons entry left induction =>
      by_cases same : entry.1 = key
      · simp [find, same]
      · simp [find, same, induction]

private theorem find_replace (key other : κ) (value : ν)
    (entries : List (κ × ν)) :
    find other (replace key value entries) =
      if other = key then (find other entries).map fun _ => value
      else find other entries := by
  induction entries with
  | nil => simp [replace, find]
  | cons entry entries induction =>
      by_cases found : entry.1 = other
      · by_cases equal : other = key
        · simp [replace, find, found, equal]
        · simp [replace, find, found, equal]
      · simp [replace, find, found, induction]

theorem get?_set (map : OrderedMap κ ν) (key other : κ) (value : ν) :
    (map.set key value).get? other =
      if other = key then some value else map.get? other := by
  unfold set
  split
  · rename_i absent
    simp only [get?] at absent ⊢
    rw [find_append]
    by_cases equal : other = key
    · simp [equal, absent, find]
    · simp [equal, find, Ne.symm equal]
  · rename_i present
    obtain ⟨old, found⟩ := Option.ne_none_iff_exists'.mp present
    simp only [get?] at found ⊢
    rw [find_replace]
    by_cases equal : other = key
    · simp [equal, found]
    · simp [equal]

private theorem replace_eq_self {key : κ} {value : ν} {entries : List (κ × ν)}
    (distinct : (entries.map Prod.fst).Nodup)
    (found : find key entries = some value) :
    replace key value entries = entries := by
  have stays : ∀ (rest : List (κ × ν)), key ∉ rest.map Prod.fst →
      replace key value rest = rest := by
    intro rest absent
    induction rest with
    | nil => rfl
    | cons entry rest induction =>
        rw [List.map_cons, List.mem_cons, not_or] at absent
        rw [replace, if_neg (Ne.symm absent.1), induction absent.2]
  induction entries with
  | nil => rfl
  | cons entry entries induction =>
      obtain ⟨fresh, rest⟩ := List.nodup_cons.mp distinct
      by_cases same : entry.1 = key
      · rw [find, if_pos same] at found
        cases found
        rw [replace, if_pos same, stays entries (same ▸ fresh)]
      · rw [find, if_neg same] at found
        rw [replace, if_neg same, induction rest found]

/-- Setting what is there changes nothing, not even the order. -/
theorem set_eq_self {map : OrderedMap κ ν} {key : κ} {value : ν}
    (found : map.get? key = some value) : map.set key value = map := by
  have present : map.get? key ≠ none := by
    rw [found]
    exact Option.some_ne_none value
  obtain ⟨entries, distinct⟩ := map
  rw [set, dif_neg present]
  congr 1
  exact replace_eq_self distinct found

theorem keys_set_of_absent {map : OrderedMap κ ν} {key : κ}
    (absent : map.get? key = none) (value : ν) :
    (map.set key value).keys = map.keys ++ [key] := by
  rw [set, dif_pos absent, keys, List.map_append, List.map_singleton]
  rfl

theorem get?_erase (map : OrderedMap κ ν) (key other : κ) :
    (map.erase key).get? other =
      if other = key then none else map.get? other := by
  simp only [get?, erase]
  induction map.entries with
  | nil => simp [find]
  | cons entry entries induction =>
      by_cases same : entry.1 = key
      · by_cases equal : other = key
        · simpa [same, equal, find] using induction
        · simpa [same, equal, find, Ne.symm equal] using induction
      · by_cases found : entry.1 = other
        · have kept : other ≠ key := found ▸ same
          simp [found, find, kept]
        · simpa [same, found, find] using induction

private theorem length_replace (key : κ) (value : ν)
    (entries : List (κ × ν)) :
    (replace key value entries).length = entries.length := by
  induction entries with
  | nil => rfl
  | cons entry entries induction => simp [replace, induction]

theorem size_set_le (map : OrderedMap κ ν) (key : κ) (value : ν) :
    (map.set key value).size ≤ map.size + 1 := by
  unfold set
  split
  · simp [size]
  · simp [size, length_replace]

theorem size_erase_le (map : OrderedMap κ ν) (key : κ) :
    (map.erase key).size ≤ map.size :=
  List.length_filter_le _ _

theorem size_erase_lt {map : OrderedMap κ ν} {key : κ}
    (present : map.contains key = true) :
    (map.erase key).size < map.size := by
  obtain ⟨value, found⟩ := Option.isSome_iff_exists.mp present
  exact List.length_filter_lt_length_iff_exists.mpr
    ⟨(key, value), mem_entries.mpr found, by simp⟩

section Folds

/-- Setting several keys to one value. -/
def setAll (map : OrderedMap κ ν) (keys : List κ) (value : ν) :
    OrderedMap κ ν :=
  keys.foldl (fun map key => map.set key value) map

def eraseAll (map : OrderedMap κ ν) (keys : List κ) : OrderedMap κ ν :=
  keys.foldl (fun map key => map.erase key) map

theorem get?_setAll (map : OrderedMap κ ν) (keys : List κ) (other : κ)
    (value : ν) :
    (map.setAll keys value).get? other =
      if other ∈ keys then some value else map.get? other := by
  unfold setAll
  induction keys generalizing map with
  | nil => simp
  | cons key keys induction =>
      rw [List.foldl_cons, induction, get?_set]
      by_cases member : other ∈ keys <;> by_cases equal : other = key <;>
        simp [member, equal]

theorem get?_eraseAll (map : OrderedMap κ ν) (keys : List κ) (other : κ) :
    (map.eraseAll keys).get? other =
      if other ∈ keys then none else map.get? other := by
  unfold eraseAll
  induction keys generalizing map with
  | nil => simp
  | cons key keys induction =>
      rw [List.foldl_cons, induction, get?_erase]
      by_cases member : other ∈ keys <;> by_cases equal : other = key <;>
        simp [member, equal]

theorem size_setAll_le (map : OrderedMap κ ν) (keys : List κ) (value : ν) :
    (map.setAll keys value).size ≤ map.size + keys.length := by
  unfold setAll
  induction keys generalizing map with
  | nil => simp
  | cons key keys induction =>
      have later := induction (map.set key value)
      have now := size_set_le map key value
      rw [List.foldl_cons, List.length_cons]
      omega

theorem size_eraseAll_le (map : OrderedMap κ ν) (keys : List κ) :
    (map.eraseAll keys).size ≤ map.size := by
  unfold eraseAll
  induction keys generalizing map with
  | nil => simp
  | cons key keys induction =>
      rw [List.foldl_cons]
      exact Nat.le_trans (induction (map.erase key)) (size_erase_le map key)

end Folds

end OrderedMap

end Web3Js
