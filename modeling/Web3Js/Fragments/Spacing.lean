import Mathlib.Data.Bool.AllAny
import Mathlib.Data.List.TakeWhile
import Web3Js.Fragments.Fragment

/-!
# Spaces in texts

A text that neither begins nor ends with white space is what is left when the
white space around it is trimmed.
-/

namespace Web3Js.Fragments

/-- Neither the first nor the last character is white space. -/
structure Trimmed (text : Text) : Prop where
  first : ∀ char ∈ text.head?, isWhiteSpace char = false
  last : ∀ char ∈ text.getLast?, isWhiteSpace char = false

theorem dropWhile_visible {text : Text}
    (first : ∀ char ∈ text.head?, isWhiteSpace char = false) :
    text.dropWhile isWhiteSpace = text := by
  cases text with
  | nil => rfl
  | cons char text =>
      have visible := first char rfl
      rw [List.dropWhile_cons, visible]
      rfl

namespace Trimmed

theorem trim_eq {text : Text} (trimmed : Trimmed text) : trim text = text := by
  have last : ∀ char ∈ text.reverse.head?, isWhiteSpace char = false := by
    rw [List.head?_reverse]
    exact trimmed.last
  rw [trim, dropWhile_visible trimmed.first, dropWhile_visible last,
    List.reverse_reverse]

/-- What stands between two visible ends does not matter. -/
theorem enclosed {before after : Text} (left : Trimmed before)
    (right : Trimmed after) (leftNonempty : before ≠ [])
    (rightNonempty : after ≠ []) (between : Text) :
    Trimmed (before ++ between ++ after) := by
  constructor
  · rw [List.append_assoc, List.head?_append_of_ne_nil _ leftNonempty]
    exact left.first
  · rw [List.getLast?_append_of_ne_nil _ rightNonempty]
    exact right.last

end Trimmed

theorem isWhiteSpace_blank : ∀ char ∈ [' '], isWhiteSpace char = true :=
  List.all_iff_forall_prop.mp (by decide)

theorem dropWhile_blank {before : Text}
    (blank : ∀ char ∈ before, isWhiteSpace char = true) (text : Text) :
    (before ++ text).dropWhile isWhiteSpace = text.dropWhile isWhiteSpace := by
  rw [List.dropWhile_append_of_pos blank]

theorem trim_append_blank (text : Text) {after : Text}
    (blank : ∀ char ∈ after, isWhiteSpace char = true) :
    trim (text ++ after) = trim text := by
  rw [trim, trim, List.dropWhile_append]
  split
  · rename_i empty
    have gone : after.dropWhile isWhiteSpace = [] :=
      List.dropWhile_eq_nil_iff.mpr blank
    rw [List.isEmpty_iff.mp empty, gone]
  · have reversed : ∀ char ∈ after.reverse, isWhiteSpace char = true :=
      fun char member => blank char (List.mem_reverse.mp member)
    rw [List.reverse_append, dropWhile_blank reversed]

theorem trim_blank_append {before : Text}
    (blank : ∀ char ∈ before, isWhiteSpace char = true) (text : Text) :
    trim (before ++ text) = trim text := by
  rw [trim, dropWhile_blank blank, trim]

/-! ## Even spacing -/

/-- No white space comes next. -/
def Ready (rest : Text) : Prop :=
  ∀ char ∈ rest.head?, isWhiteSpace char = false

theorem ready_cons {char : Char} (visible : isWhiteSpace char = false)
    (rest : Text) : Ready (char :: rest) := by
  intro first member
  obtain rfl := Option.some.inj member
  exact visible

theorem collapse_visible {char : Char} (visible : isWhiteSpace char = false)
    (rest : Text) : collapse (char :: rest) = char :: collapse rest := by
  cases rest with
  | nil =>
      change [if isWhiteSpace char then ' ' else char] = [char]
      rw [visible]
      rfl
  | cons next rest =>
      rw [collapse, visible]
      rfl

theorem collapse_space {rest : Text} (ready : Ready rest) :
    collapse (' ' :: rest) = ' ' :: collapse rest := by
  cases rest with
  | nil => rfl
  | cons next rest =>
      rw [collapse, if_pos (by decide), ready next rfl]
      rfl

theorem collapse_spaces (rest : Text) :
    collapse (' ' :: ' ' :: rest) = collapse (' ' :: rest) := by
  rw [collapse, if_pos (by decide), if_pos (by decide)]

/-- A text is spaced evenly as another one, before a text that does not begin
with white space. -/
def Tidies (input output : Text) : Prop :=
  ∀ rest, Ready rest →
    collapse (input.flatMap spread ++ rest) = output ++ collapse rest

/-- White space may follow as well. -/
def Solid (word : Text) : Prop :=
  ∀ rest, collapse (word.flatMap spread ++ rest) = word ++ collapse rest

theorem Solid.append {word text output : Text} (solid : Solid word)
    (tidies : Tidies text output) : Tidies (word ++ text) (word ++ output) := by
  intro rest ready
  rw [List.flatMap_append, List.append_assoc, solid, tidies rest ready,
    List.append_assoc]

theorem Tidies.append {text text' output output' : Text}
    (tidies : Tidies text output) (tidies' : Tidies text' output')
    (follows : ∀ rest, Ready (text'.flatMap spread ++ rest)) :
    Tidies (text ++ text') (output ++ output') := by
  intro rest ready
  rw [List.flatMap_append, List.append_assoc, tidies _ (follows rest),
    tidies' rest ready, List.append_assoc]

theorem Solid.append_solid {word word' : Text} (solid : Solid word)
    (solid' : Solid word') : Solid (word ++ word') := by
  intro rest
  rw [List.flatMap_append, List.append_assoc, solid, solid',
    List.append_assoc]

theorem solid_char {char : Char} (visible : isWhiteSpace char = false)
    (other : char ≠ '(' ∧ char ≠ ')') : Solid [char] := by
  intro rest
  have spread : spread char = [char] := by
    rw [spread, if_neg other.1, if_neg other.2, visible]
    rfl
  rw [List.flatMap_cons, spread]
  exact collapse_visible visible rest

/-- Words are kept. -/
theorem solid_word {word : Text}
    (visible : ∀ char ∈ word, isWhiteSpace char = false)
    (other : ∀ char ∈ word, char ≠ '(' ∧ char ≠ ')') : Solid word := by
  induction word with
  | nil => exact fun rest => rfl
  | cons char word induction =>
      obtain ⟨first, rest⟩ := List.forall_mem_cons.mp visible
      obtain ⟨firstOther, restOther⟩ := List.forall_mem_cons.mp other
      exact (solid_char first firstOther).append_solid (induction rest restOther)

/-- Parentheses are spaced on the outside. -/
theorem Tidies.parenthesized {text output : Text}
    (tidies : Tidies text output) (rest : Text) :
    collapse (('(' :: text ++ [')']).flatMap spread ++ rest) =
      " (".toList ++ output ++ ')' :: collapse (' ' :: rest) := by
  have opens : spread '(' = [' ', '('] := by decide
  have closes : spread ')' = [')', ' '] := by decide
  have spread : ('(' :: text ++ [')']).flatMap spread ++ rest =
      ' ' :: '(' :: (text.flatMap spread ++ ')' :: ' ' :: rest) := by
    simp [opens, closes]
  have readyOpening : ∀ rest : Text, Ready ('(' :: rest) :=
    ready_cons (by decide)
  have readyClosing : ∀ rest : Text, Ready (')' :: rest) :=
    ready_cons (by decide)
  have shown : " (".toList = [' ', '('] := by decide
  rw [spread, collapse_space (readyOpening _),
    collapse_visible (by decide), tidies _ (readyClosing _),
    collapse_visible (by decide), shown]
  rfl

/-- A single space is kept. -/
theorem tidies_space {text output : Text} (tidies : Tidies text output)
    (nonempty : text ≠ [])
    (first : ∀ char ∈ text.head?, isWhiteSpace char = false ∧ char ≠ '(') :
    Tidies (' ' :: text) (' ' :: output) := by
  intro rest ready
  cases text with
  | nil => exact absurd rfl nonempty
  | cons char text =>
      obtain ⟨visible, other⟩ := first char rfl
      have next : ∃ after, spread char = char :: after := by
        rw [spread, if_neg other]
        split
        · rename_i isClosing
          subst isClosing
          exact ⟨[' '], by decide⟩
        · rw [visible]
          exact ⟨[], rfl⟩
      obtain ⟨after, begins⟩ := next
      have readyText : Ready ((char :: text).flatMap spread ++ rest) := by
        rw [List.flatMap_cons, begins]
        exact ready_cons visible _
      have blank : spread ' ' = [' '] := by decide
      rw [List.flatMap_cons, blank]
      exact (collapse_space readyText).trans
        (congrArg (' ' :: ·) (tidies rest ready))

end Web3Js.Fragments
