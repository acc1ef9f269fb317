import Mathlib.Data.List.Basic

/-!
# Cuts of a list

Searches from the front and from the back, said as the parts that they split
their list into.  In a list in whose order a property only comes on, the cut at
the first entry that has it parts those that have it from those that do not.
-/

namespace Web3Js

variable {α : Type} {p : α → Bool} {entries before after : List α}

/-- The list is cut where the property first holds. -/
structure IsCut (p : α → Bool) (entries before after : List α) : Prop where
  whole : entries = before ++ after
  before : ∀ entry ∈ before, p entry = false
  after : ∀ entry ∈ after.head?, p entry = true

theorem exists_isCut (p : α → Bool) (entries : List α) :
    ∃ before after, IsCut p entries before after := by
  induction entries with
  | nil => exact ⟨[], [], rfl, by rintro _ ⟨⟩, by rintro _ ⟨⟩⟩
  | cons entry entries induction =>
      cases holds : p entry with
      | true =>
          refine ⟨[], entry :: entries, rfl, by rintro _ ⟨⟩, ?_⟩
          rintro _ ⟨⟩
          exact holds
      | false =>
          obtain ⟨before, after, cut⟩ := induction
          refine ⟨entry :: before, after, ?_, ?_, cut.after⟩
          · rw [cut.whole, List.cons_append]
          · exact List.forall_mem_cons.mpr ⟨holds, cut.before⟩

namespace IsCut

theorem findIdx? (cut : IsCut p entries before after) :
    entries.findIdx? p =
      if after.isEmpty then none else some before.length := by
  rw [cut.whole, List.findIdx?_append, List.findIdx?_eq_none_iff.mpr cut.before,
    Option.none_or]
  cases next : after with
  | nil => rfl
  | cons entry rest =>
      have holds : p entry = true := cut.after entry (by rw [next]; rfl)
      rw [List.findIdx?_cons, if_pos holds, Option.map_some, Nat.zero_add]
      rfl

/-- The index of the first entry that has the property, or the length. -/
theorem getD_findIdx? (cut : IsCut p entries before after) :
    (entries.findIdx? p).getD entries.length = before.length := by
  rw [cut.findIdx?]
  cases rest : after with
  | nil =>
      rw [cut.whole, rest, List.append_nil]
      rfl
  | cons entry rest => rfl

end IsCut

/-- The entry is the last one that has the property. -/
structure IsLast (p : α → Bool) (entries before : List α) (entry : α)
    (after : List α) : Prop where
  whole : entries = before ++ entry :: after
  holds : p entry = true
  after : ∀ other ∈ after, p other = false

theorem exists_isLast {entries : List α}
    (found : ∃ entry ∈ entries, p entry = true) :
    ∃ before entry after, IsLast p entries before entry after := by
  induction entries with
  | nil =>
      obtain ⟨entry, isMember, -⟩ := found
      cases isMember
  | cons first entries induction =>
      by_cases later : ∃ entry ∈ entries, p entry = true
      · obtain ⟨before, entry, after, last⟩ := induction later
        refine ⟨first :: before, entry, after, ?_, last.holds, last.after⟩
        rw [last.whole, List.cons_append]
      · obtain ⟨entry, isMember, holds⟩ := found
        rcases List.mem_cons.mp isMember with rfl | among
        · refine ⟨[], entry, entries, rfl, holds, fun other among => ?_⟩
          rw [← Bool.not_eq_true]
          exact fun otherHolds => later ⟨other, among, otherHolds⟩
        · exact absurd ⟨entry, among, holds⟩ later

namespace IsLast

variable {entry : α}

theorem findIdx?_reverse (last : IsLast p entries before entry after) :
    entries.reverse.findIdx? p = some after.length := by
  have none : after.reverse.findIdx? p = none := by
    rw [List.findIdx?_eq_none_iff]
    intro other among
    exact last.after other (List.mem_reverse.mp among)
  rw [last.whole, List.reverse_append, List.reverse_cons, List.append_assoc,
    List.findIdx?_append, none, Option.none_or, List.singleton_append,
    List.findIdx?_cons, if_pos last.holds, Option.map_some, Nat.zero_add,
    List.length_reverse]

theorem getLast?_filter (last : IsLast p entries before entry after) :
    (entries.filter p).getLast? = some entry := by
  have none : after.filter p = [] := by
    rw [List.filter_eq_nil_iff]
    intro other among
    rw [last.after other among]
    exact Bool.false_ne_true
  rw [last.whole, List.filter_append, List.filter_cons_of_pos last.holds, none,
    List.getLast?_concat]

theorem mem (last : IsLast p entries before entry after) :
    entry ∈ entries := by
  rw [last.whole]
  exact List.mem_append_right before List.mem_cons_self

end IsLast

end Web3Js
