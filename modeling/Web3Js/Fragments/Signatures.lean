import Web3Js.Fragments.Lists

/-!
# Texts of fragments

The full format of a fragment is a name with parameters in parentheses, behind
a word for its kind and before the words for its state, its outputs and its
gas.  Even spacing puts a space before and after the parentheses.
-/

namespace Web3Js.Fragments

/-! ## Even spacing of a signature -/

theorem solid_spaced_text {text : Text} (nonempty : text ≠ [])
    (visible : ∀ char ∈ text, isWhiteSpace char = false)
    (other : ∀ char ∈ text, char ≠ '(' ∧ char ≠ ')') :
    Solid (' ' :: text) := by
  intro rest
  have blank : spread ' ' = [' '] := by decide
  have ready : Ready (text.flatMap spread ++ rest) := by
    cases text with
    | nil => exact absurd rfl nonempty
    | cons char text =>
        have shown := visible char List.mem_cons_self
        obtain ⟨opening, closing⟩ := other char List.mem_cons_self
        have kept : spread char = [char] := by
          rw [spread, if_neg opening, if_neg closing, shown]
          rfl
        rw [List.flatMap_cons, kept]
        exact ready_cons shown _
  rw [List.flatMap_cons, blank]
  exact (collapse_space ready).trans
    (congrArg (' ' :: ·) (solid_word visible other rest))

theorem solid_spaced {word : Text} (isWord : Word word) :
    Solid (' ' :: word) := by
  apply solid_spaced_text isWord.nonempty isWord.visible
  intro char member
  have other := isTextChar_delimiters (isWord.isTextChar char member)
  exact ⟨other.2.1, other.2.2.1⟩

/-- What follows a signature, spaced evenly; a space may be left at its end. -/
structure Follows (text output : Text) : Prop where
  begins : text = [] ∨ ∃ rest, text = ' ' :: rest
  collapsed : ∃ blank, (∀ char ∈ blank, isWhiteSpace char = true) ∧
    collapse (text.flatMap spread) = output ++ blank
  visible : EndsVisible output

theorem Solid.follows {text : Text} (solid : Solid text)
    (begins : text = [] ∨ ∃ rest, text = ' ' :: rest)
    (visible : EndsVisible text) : Follows text text := by
  refine ⟨begins, ⟨[], List.forall_mem_nil _, ?_⟩, visible⟩
  have collapsed := solid []
  rw [List.append_nil] at collapsed
  exact collapsed

/-- The space behind a closing parenthesis is the one that follows. -/
theorem Follows.collapse_space {text output : Text}
    (follows : Follows text output) :
    ∃ blank, (∀ char ∈ blank, isWhiteSpace char = true) ∧
      collapse (' ' :: text.flatMap spread) = output ++ blank := by
  obtain ⟨blank, white, collapsed⟩ := follows.collapsed
  rcases follows.begins with empty | ⟨rest, begins⟩
  · subst empty
    have nothing := List.append_eq_nil_iff.mp collapsed.symm
    refine ⟨[' '], isWhiteSpace_blank, ?_⟩
    rw [nothing.1]
    rfl
  · refine ⟨blank, white, ?_⟩
    rw [begins] at collapsed ⊢
    exact (collapse_spaces _).trans collapsed

/-- Even spacing of a signature. -/
theorem respace_signature {front text text' output : Text}
    {parameters : List Parameter}
    (plain : ∀ parameter ∈ parameters, parameter.Plain)
    (solid : Solid front) (nonempty : front ≠ [])
    (first : ∀ char ∈ front.head?, isWhiteSpace char = false)
    (follows : Follows text output)
    (spelled : text' = front ++
      ('(' :: Parameter.joined false parameters ++ [')']) ++ text) :
    respace text' = front ++ (" (".toList ++
      Parameter.joined true parameters ++ ')' :: output) := by
  have tidied := tidies_joined fun parameter member =>
    tidies_layout (plain parameter member)
  obtain ⟨blank, white, collapsed⟩ := follows.collapse_space
  have inside := tidied.parenthesized (text.flatMap spread)
  rw [collapsed] at inside
  have whole : collapse (text'.flatMap spread) =
      front ++ (" (".toList ++ Parameter.joined true parameters ++
        ')' :: output) ++ blank := by
    rw [spelled, List.append_assoc, List.flatMap_append, solid,
      List.flatMap_append, inside]
    simp
  have ends : EndsVisible (')' :: output) :=
    endsVisible_parenthesis.append follows.visible
  have trimmed : Trimmed (front ++ (" (".toList ++
      Parameter.joined true parameters ++ ')' :: output)) := by
    constructor
    · rw [List.head?_append_of_ne_nil _ nonempty]
      exact first
    · exact (ends.prepend (List.cons_ne_nil _ _) _).prepend (by simp) _
  rw [respace, whole, trim_append_blank _ white, trimmed.trim_eq]

theorem formatParams_full (parameters : List Parameter) :
    formatParams .full (Parameter.paramTypes parameters) =
      Parameter.joined false parameters := by
  have same : Parameter.layouts false parameters =
      Parameter.texts .full parameters := by
    rw [Parameter.layouts_eq_map, Parameter.texts_eq_map]
    exact List.map_congr_left fun parameter _ => parameter.layout_false
  rw [formatParams, Parameter.joined, same, ParamType.formatAll_eq_map,
    Parameter.paramTypes_eq_map, Parameter.texts_eq_map, List.map_map]
  congr 1
  exact List.map_congr_left fun parameter _ =>
    format_paramType .full parameter

end Web3Js.Fragments
