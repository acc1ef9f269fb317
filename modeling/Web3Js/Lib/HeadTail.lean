import Mathlib.Data.List.Basic

/-!
# Head and tail layout

A sequence of parts is laid out in two sections.  Every part has a place in
the head: an inline part its own contents, an outlined part a slot of fixed
width that holds the offset of its contents from the start of the head.  The
contents of the outlined parts follow, in order and without gaps.

The layout is polymorphic in its symbols and in the way a slot writes an
offset.  `Cursor` is the position of a reader that walks the head; its rules
say what the reader finds there and where it stands afterwards.
-/

namespace Web3Js

namespace HeadTail

variable {α : Type*}

/-- One component of a layout. -/
structure Part (α : Type*) where
  outlined : Bool
  contents : List α

section Layout

variable (width : Nat) (slot : Nat → List α)

/-- The head places of the parts take this many symbols. -/
def headLength : List (Part α) → Nat
  | [] => 0
  | part :: parts =>
      (if part.outlined then width else part.contents.length) +
        headLength parts

/-- The head section when the next outlined contents start at `offset`. -/
def heads (offset : Nat) : List (Part α) → List α
  | [] => []
  | part :: parts =>
      if part.outlined then
        slot offset ++ heads (offset + part.contents.length) parts
      else
        part.contents ++ heads offset parts

/-- The outlined contents, in order. -/
def tails : List (Part α) → List α
  | [] => []
  | part :: parts =>
      (if part.outlined then part.contents else []) ++ tails parts

def layout (parts : List (Part α)) : List α :=
  heads slot (headLength width parts) parts ++ tails parts

@[simp] theorem headLength_nil : headLength width ([] : List (Part α)) = 0 :=
  rfl

@[simp] theorem heads_nil (offset : Nat) :
    heads slot offset ([] : List (Part α)) = [] := rfl

@[simp] theorem tails_nil : tails ([] : List (Part α)) = [] := rfl

theorem headLength_append (left right : List (Part α)) :
    headLength width (left ++ right) =
      headLength width left + headLength width right := by
  induction left with
  | nil => simp
  | cons part left induction =>
      simp [headLength, induction, Nat.add_assoc]

theorem tails_append (left right : List (Part α)) :
    tails (left ++ right) = tails left ++ tails right := by
  induction left with
  | nil => rfl
  | cons part left induction => simp [tails, induction]

/-- The slots of the later parts count the contents outlined before them. -/
theorem heads_append (offset : Nat) (left right : List (Part α)) :
    heads slot offset (left ++ right) =
      heads slot offset left ++
        heads slot (offset + (tails left).length) right := by
  induction left generalizing offset with
  | nil => simp
  | cons part left induction =>
      cases outlined : part.outlined <;>
        simp [heads, tails, outlined, induction, Nat.add_assoc]

@[simp] theorem layout_nil : layout width slot ([] : List (Part α)) = [] :=
  rfl

variable {width slot}

theorem length_heads (slotWidth : ∀ offset, (slot offset).length = width)
    (offset : Nat) (parts : List (Part α)) :
    (heads slot offset parts).length = headLength width parts := by
  induction parts generalizing offset with
  | nil => rfl
  | cons part parts induction =>
      cases outlined : part.outlined with
      | true => simp [heads, headLength, outlined, slotWidth, induction]
      | false => simp [heads, headLength, outlined, induction]

theorem length_layout (slotWidth : ∀ offset, (slot offset).length = width)
    (parts : List (Part α)) :
    (layout width slot parts).length =
      headLength width parts + (tails parts).length := by
  rw [layout, List.length_append, length_heads slotWidth]

/-- A layout is aligned when its slots and all of its parts are. -/
theorem dvd_length_layout {unit : Nat}
    (slotWidth : ∀ offset, (slot offset).length = width)
    (unitWidth : unit ∣ width) (parts : List (Part α))
    (aligned : ∀ part ∈ parts, unit ∣ part.contents.length) :
    unit ∣ (layout width slot parts).length := by
  rw [length_layout slotWidth]
  induction parts with
  | nil => simp
  | cons part parts induction =>
      have head := aligned part List.mem_cons_self
      have tail := induction fun other member =>
        aligned other (List.mem_cons_of_mem part member)
      have sum : headLength width (part :: parts) +
            (tails (part :: parts)).length =
          ((if part.outlined then width else 0) + part.contents.length) +
            (headLength width parts + (tails parts).length) := by
        cases outlined : part.outlined <;>
          simp [headLength, tails, outlined] <;> omega
      rw [sum]
      refine Nat.dvd_add (Nat.dvd_add ?_ head) tail
      split
      · exact unitWidth
      · exact Nat.dvd_zero unit

end Layout

/-- A reader stands before the head places of `parts`: `ahead` is what lies
ahead of it, `base` what lies after the start of the head. -/
structure Cursor (slot : Nat → List α) (offset : Nat)
    (parts : List (Part α)) (ahead base : List α) : Prop where
  within : offset ≤ base.length
  head : heads slot offset parts <+: ahead
  tail : tails parts <+: base.drop offset

namespace Cursor

variable {width : Nat} {slot : Nat → List α} {offset : Nat}
  {part : Part α} {parts : List (Part α)} {ahead base : List α}

/-- A reader at the start of a layout. -/
theorem start (slotWidth : ∀ offset, (slot offset).length = width)
    (present : layout width slot parts <+: base) :
    Cursor slot (headLength width parts) parts base base := by
  obtain ⟨rest, rfl⟩ := present
  constructor
  · simp [layout, length_heads slotWidth]
  · exact ⟨tails parts ++ rest, by simp [layout]⟩
  · refine ⟨rest, ?_⟩
    have length := length_heads slotWidth (headLength width parts) parts
    rw [layout, List.append_assoc]
    exact (List.drop_left' length).symm

/-- An inline part lies directly ahead. -/
theorem inline (cursor : Cursor slot offset (part :: parts) ahead base)
    (plain : part.outlined = false) : part.contents <+: ahead := by
  have head := cursor.head
  simp only [heads, plain, Bool.false_eq_true, if_false] at head
  exact (List.prefix_append _ _).trans head

theorem after_inline
    (cursor : Cursor slot offset (part :: parts) ahead base)
    (plain : part.outlined = false) :
    Cursor slot offset parts (ahead.drop part.contents.length) base := by
  obtain ⟨within, ⟨rest, head⟩, tail⟩ := cursor
  simp only [heads, plain, Bool.false_eq_true, if_false] at head
  refine ⟨within, ⟨rest, ?_⟩, ?_⟩
  · rw [← head, List.append_assoc, List.drop_left]
  · simpa [tails, plain] using tail

/-- The slot of an outlined part lies directly ahead. -/
theorem slot_ahead (cursor : Cursor slot offset (part :: parts) ahead base)
    (outlined : part.outlined = true) : slot offset <+: ahead := by
  have head := cursor.head
  simp only [heads, outlined, if_true] at head
  exact (List.prefix_append _ _).trans head

/-- The offset in the slot leads to the contents. -/
theorem outlined_at
    (cursor : Cursor slot offset (part :: parts) ahead base)
    (outlined : part.outlined = true) :
    part.contents <+: base.drop offset := by
  have tail := cursor.tail
  simp only [tails, outlined, if_true] at tail
  exact (List.prefix_append _ _).trans tail

theorem after_outlined (slotWidth : ∀ offset, (slot offset).length = width)
    (cursor : Cursor slot offset (part :: parts) ahead base)
    (outlined : part.outlined = true) :
    Cursor slot (offset + part.contents.length) parts
      (ahead.drop width) base := by
  have contents := (cursor.outlined_at outlined).length_le
  obtain ⟨within, ⟨rest, head⟩, ⟨more, tail⟩⟩ := cursor
  simp only [heads, outlined, if_true] at head
  simp only [tails, outlined, if_true] at tail
  rw [List.length_drop] at contents
  refine ⟨by omega, ⟨rest, ?_⟩, ⟨more, ?_⟩⟩
  · rw [← head, List.append_assoc, ← slotWidth offset, List.drop_left]
  · rw [← List.drop_drop, ← tail, List.append_assoc, List.drop_left]

end Cursor

end HeadTail

end Web3Js
