import Web3Js.Fragments.Layout

/-!
# Lists of parameters in a signature

The text between the parentheses of a signature is split at the commas that no
inner parentheses enclose, and each piece is read as a parameter.
-/

namespace Web3Js.Fragments

open Abi (Error)

/-! ## The outer parentheses -/

def Unparenthesized (text : Text) : Prop :=
  ∀ char ∈ text, char ≠ '(' ∧ char ≠ ')'

theorem Unparenthesized.all {text : Text} (plain : Unparenthesized text) :
    text.all (fun char => !isParenthesis char) = true := by
  rw [List.all_eq_true]
  intro char member
  obtain ⟨opening, closing⟩ := plain char member
  rw [isParenthesis, beq_eq_false_iff_ne.mpr opening,
    beq_eq_false_iff_ne.mpr closing]
  rfl

/-- The outermost parentheses are those with none on their outer sides. -/
theorem matchParen_call {before after : Text} (front : Unparenthesized before)
    (back : Unparenthesized after) (inner : Text) :
    matchParen (before ++ '(' :: (inner ++ ')' :: after)) =
      some (before, inner, after) := by
  have opens : Words.Stops (fun char => !isParenthesis char)
      ('(' :: (inner ++ ')' :: after)) := Words.stops_cons (by decide) _
  have closes : Words.Stops (fun char => !isParenthesis char)
      (')' :: inner.reverse) := Words.stops_cons (by decide) _
  have reversed : (inner ++ ')' :: after).reverse =
      after.reverse ++ ')' :: inner.reverse := by
    simp
  have backward : after.reverse.all (fun char => !isParenthesis char) =
      true := by
    rw [List.all_reverse]
    exact back.all
  rw [matchParen, Words.dropWhile_word front.all opens,
    Words.takeWhile_word front.all opens]
  simp only [reversed, Words.dropWhile_word backward closes,
    Words.takeWhile_word backward closes, List.reverse_reverse]

/-! ## Trimmed lists -/

namespace Parameter

/-- Something stands behind the parentheses. -/
def hasTail (parameter : Parameter) : Bool := !parameter.tail.isEmpty

/-- Parameters without a space at their end. -/
def trimmed : List Parameter → Text
  | [] => []
  | [parameter] => parameter.layout true parameter.hasTail
  | first :: next :: parameters =>
      first.layout true true ++ ',' :: ' ' :: trimmed (next :: parameters)

/-- The pieces between the commas, the first one behind a text. -/
def pieces (lead : Text) : List Parameter → List Text
  | [] => []
  | [parameter] => [lead ++ parameter.layout true parameter.hasTail]
  | first :: next :: parameters =>
      (lead ++ first.layout true true) :: pieces [' '] (next :: parameters)

/-- A space stands behind a tuple without anything else behind it. -/
theorem layout_hasTail (parameter : Parameter) :
    ∃ blank, (∀ char ∈ blank, isWhiteSpace char = true) ∧
      parameter.layout true true =
        parameter.layout true parameter.hasTail ++ blank := by
  cases parameter with
  | value name indexed type lengths =>
      exact ⟨[], List.forall_mem_nil _, (List.append_nil _).symm⟩
  | tuple name indexed components lengths =>
      rw [layout, layout, hasTail]
      cases (tuple name indexed components lengths).tail with
      | nil =>
          refine ⟨[' '], isWhiteSpace_blank, ?_⟩
          simp [closing]
      | cons char rest =>
          refine ⟨[], List.forall_mem_nil _, ?_⟩
          rw [List.append_nil]
          rfl

theorem joined_eq_trimmed (parameters : List Parameter) :
    ∃ blank, (∀ char ∈ blank, isWhiteSpace char = true) ∧
      joined true parameters = trimmed parameters ++ blank := by
  induction parameters with
  | nil => exact ⟨[], List.forall_mem_nil _, rfl⟩
  | cons first parameters induction =>
      cases parameters with
      | nil =>
          rw [joined_singleton, trimmed]
          exact first.layout_hasTail
      | cons next parameters =>
          obtain ⟨blank, white, same⟩ := induction
          refine ⟨blank, white, ?_⟩
          rw [joined_cons_cons, same, trimmed]
          simp

end Parameter

/-- The last character is visible. -/
def EndsVisible (text : Text) : Prop :=
  ∀ char ∈ text.getLast?, isWhiteSpace char = false

theorem EndsVisible.append {before after : Text} (left : EndsVisible before)
    (right : EndsVisible after) : EndsVisible (before ++ after) := by
  cases after with
  | nil =>
      rw [List.append_nil]
      exact left
  | cons char after =>
      intro last member
      rw [List.getLast?_append_of_ne_nil _ (List.cons_ne_nil _ _)] at member
      exact right last member

theorem EndsVisible.prepend {text : Text} (visible : EndsVisible text)
    (nonempty : text ≠ []) (before : Text) : EndsVisible (before ++ text) := by
  intro last member
  rw [List.getLast?_append_of_ne_nil _ nonempty] at member
  exact visible last member

theorem endsVisible_of_visible {text : Text}
    (visible : ∀ char ∈ text, isWhiteSpace char = false) :
    EndsVisible text :=
  fun char member => visible char (List.mem_of_mem_getLast? member)

theorem endsVisible_parenthesis : EndsVisible [')'] :=
  endsVisible_of_visible (List.all_iff_forall_prop.mp (by decide))

theorem Word.visible {word : Text} (isWord : Word word) :
    ∀ char ∈ word, isWhiteSpace char = false :=
  fun char member => (isTextChar_delimiters (isWord.isTextChar char member)).1

theorem endsVisible_words {words : List Text}
    (all : ∀ word ∈ words, Word word) :
    EndsVisible (words.flatMap (' ' :: ·)) := by
  induction words with
  | nil => exact endsVisible_of_visible (List.forall_mem_nil _)
  | cons word words induction =>
      obtain ⟨isWord, rest⟩ := List.forall_mem_cons.mp all
      have visible := (endsVisible_of_visible isWord.visible).prepend
        isWord.nonempty [' ']
      exact visible.append (induction rest)

theorem endsVisible_tail {parameter : Parameter}
    (plain : ∀ name ∈ parameter.name, PlainName name) :
    EndsVisible parameter.tail := by
  have brackets := isTextChar_printedBrackets parameter.lengths
  rw [List.all_eq_true] at brackets
  rw [Parameter.tail_eq plain]
  exact (endsVisible_of_visible fun char member =>
    (isTextChar_delimiters (brackets char member)).1).append
      (endsVisible_words (word_of_suffixWords plain parameter.indexed))

theorem endsVisible_closing {text : Text} (visible : EndsVisible text)
    (nonempty : text ≠ []) (behind : Bool) :
    EndsVisible (closing behind text) := by
  rw [closing]
  split
  · exact visible.prepend nonempty [' ']
  · exact visible

theorem endsVisible_layout {parameter : Parameter}
    (plain : ∀ name ∈ parameter.name, PlainName name) :
    EndsVisible (parameter.layout true parameter.hasTail) := by
  have tail := endsVisible_tail plain
  cases parameter with
  | value name indexed type lengths =>
      exact (endsVisible_of_visible (word_chars _).visible).append tail
  | tuple name indexed components lengths =>
      have behind : EndsVisible (')' :: closing
          (Parameter.tuple name indexed components lengths).hasTail
          (Parameter.tuple name indexed components lengths).tail) := by
        apply endsVisible_parenthesis.append
        rw [Parameter.hasTail]
        cases text : (Parameter.tuple name indexed components lengths).tail with
        | nil => exact endsVisible_of_visible (List.forall_mem_nil _)
        | cons char rest =>
            rw [text] at tail
            exact endsVisible_closing tail (List.cons_ne_nil _ _) _
      rw [Parameter.layout]
      exact ((behind.prepend (List.cons_ne_nil _ _) _).prepend
        (by simp) _).prepend (by simp [opening]) _

theorem Parameter.Plain.named {parameter : Parameter}
    (plain : parameter.Plain) : ∀ name ∈ parameter.name, PlainName name := by
  cases parameter with
  | value name indexed type lengths =>
      exact Parameter.forall_parts_value.mp plain
  | tuple name indexed components lengths =>
      exact (Parameter.forall_parts_tuple.mp plain).1

theorem head_trimmed (first : Parameter) (parameters : List Parameter) :
    ∃ char rest, Parameter.trimmed (first :: parameters) = char :: rest ∧
      char ∈ "basuit".toList := by
  cases parameters with
  | nil => exact first.layout_head true first.hasTail
  | cons next parameters =>
      obtain ⟨char, rest, begins, letter⟩ := first.layout_head true true
      rw [Parameter.trimmed, begins]
      exact ⟨char, _, rfl, letter⟩

theorem endsVisible_trimmed {parameters : List Parameter}
    (plain : ∀ parameter ∈ parameters, parameter.Plain) :
    EndsVisible (Parameter.trimmed parameters) := by
  induction parameters with
  | nil => exact endsVisible_of_visible (List.forall_mem_nil _)
  | cons first parameters induction =>
      obtain ⟨firstPlain, rest⟩ := List.forall_mem_cons.mp plain
      cases parameters with
      | nil => exact endsVisible_layout firstPlain.named
      | cons next parameters =>
          have nonempty : Parameter.trimmed (next :: parameters) ≠ [] := by
            obtain ⟨char, rest, begins, -⟩ := head_trimmed next parameters
            rw [begins]
            exact List.cons_ne_nil _ _
          rw [Parameter.trimmed]
          exact ((induction rest).prepend nonempty [',', ' ']).prepend
            (List.cons_ne_nil _ _) _

theorem trimmed_trimmed {parameters : List Parameter}
    (plain : ∀ parameter ∈ parameters, parameter.Plain) :
    Trimmed (Parameter.trimmed parameters) := by
  refine ⟨?_, endsVisible_trimmed plain⟩
  cases parameters with
  | nil =>
      intro char member
      cases member
  | cons first parameters =>
      obtain ⟨char, rest, begins, letter⟩ := head_trimmed first parameters
      rw [begins]
      intro other member
      obtain rfl := Option.some.inj member
      exact (visible_letters char letter).1

theorem trim_joined {parameters : List Parameter}
    (plain : ∀ parameter ∈ parameters, parameter.Plain) :
    trim (Parameter.joined true parameters) = Parameter.trimmed parameters := by
  obtain ⟨blank, white, same⟩ := Parameter.joined_eq_trimmed parameters
  rw [same, trim_append_blank _ white, (trimmed_trimmed plain).trim_eq]

/-! ## Pieces -/

theorem splitNestingFrom_trimmed {first : Parameter}
    {parameters : List Parameter}
    (plain : ∀ parameter ∈ first :: parameters, parameter.Plain)
    (lead : Text) :
    splitNestingFrom lead 0 (Parameter.trimmed (first :: parameters)) =
      .ok (Parameter.pieces lead (first :: parameters)) := by
  induction parameters generalizing first lead with
  | nil =>
      have balanced := balanced_layout (plain first List.mem_cons_self)
        first.hasTail lead 0 []
      have nonempty : lead ++ first.layout true first.hasTail ≠ [] := by
        obtain ⟨char, rest, begins, -⟩ :=
          first.layout_head true first.hasTail
        rw [begins]
        simp
      rw [List.append_nil] at balanced
      rw [Parameter.trimmed, balanced, splitNestingFrom, if_neg nonempty]
      rfl
  | cons next parameters induction =>
      obtain ⟨firstPlain, rest⟩ := List.forall_mem_cons.mp plain
      have blank : Balanced [' '] := balanced_char (by decide)
      have space := blank [] 0 (Parameter.trimmed (next :: parameters))
      rw [Parameter.trimmed, balanced_layout firstPlain true, splitNestingFrom,
        if_pos ⟨rfl, rfl⟩]
      rw [List.singleton_append, List.nil_append] at space
      rw [space, induction rest]
      rfl

theorem splitNesting_joined {parameters : List Parameter}
    (plain : ∀ parameter ∈ parameters, parameter.Plain) :
    splitNesting (Parameter.joined true parameters) =
      .ok (Parameter.pieces [] parameters) := by
  rw [splitNesting, trim_joined plain]
  cases parameters with
  | nil => rfl
  | cons first parameters => exact splitNestingFrom_trimmed plain []

theorem ReadsAs.lead {allowIndexed : Bool} {text : Text}
    {result : Option JsonFragmentType}
    (reads : ReadsAs allowIndexed .root text result) :
    ReadsAs allowIndexed .root ([' '] ++ text) result :=
  fun parents => reads parents

/-- Each piece is read as its parameter. -/
theorem readsAs_pieces (allowIndexed : Bool) {parameters : List Parameter}
    (plain : ∀ parameter ∈ parameters, parameter.Plain) {lead : Text}
    (leads : lead = [] ∨ lead = [' ']) :
    List.Forall₂ (fun parameter piece => ReadsAs allowIndexed .root piece
        (parameter.reread allowIndexed none))
      parameters (Parameter.pieces lead parameters) := by
  have read : ∀ (parameter : Parameter) (lead : Text) (behind : Bool),
      parameter.Plain → lead = [] ∨ lead = [' '] →
        ReadsAs allowIndexed .root (lead ++ parameter.layout true behind)
          (parameter.reread allowIndexed none) := by
    intro parameter lead behind named leads
    have reads : ReadsAs allowIndexed .root (parameter.layout true behind)
        (parameter.reread allowIndexed none) :=
      readsAs_layout true behind named.readable (by decide)
    rcases leads with rfl | rfl
    · exact reads
    · exact reads.lead
  induction parameters generalizing lead with
  | nil => exact .nil
  | cons first parameters induction =>
      obtain ⟨firstPlain, rest⟩ := List.forall_mem_cons.mp plain
      cases parameters with
      | nil => exact .cons (read first lead _ firstPlain leads) .nil
      | cons next parameters =>
          exact .cons (read first lead _ firstPlain leads)
            (induction rest (.inr rfl))

/-- The parameters of a signature are read one by one. -/
theorem parseParams_eq_ok {allowIndexed : Bool} {parameters : List Parameter}
    (plain : ∀ parameter ∈ parameters, parameter.Plain)
    {params : List ParamType} :
    parseParams (Parameter.joined true parameters) allowIndexed = .ok params ↔
      List.Forall₂ (fun parameter param =>
        (parameter.reread allowIndexed none).map ParamType.fromObject =
          some param) parameters params := by
  rw [parseParams, splitNesting_joined plain, Outcome.ok_bind,
    Outcome.mapM_eq_ok]
  have reads := readsAs_pieces allowIndexed plain (.inl rfl : ([] : Text) = [] ∨ _)
  have each : ∀ (parameter : Parameter) (piece : Text) (param : ParamType),
      ReadsAs allowIndexed .root piece (parameter.reread allowIndexed none) →
        (ParamType.fromString piece allowIndexed = .ok param ↔
          (parameter.reread allowIndexed none).map ParamType.fromObject =
            some param) := by
    intro parameter piece param read
    rw [← toOption_fromString read, Outcome.toOption_eq_some]
  generalize Parameter.pieces [] parameters = pieces at reads
  induction reads generalizing params with
  | nil =>
      constructor
      · intro all
        cases all
        exact .nil
      · intro all
        cases all
        exact .nil
  | cons read rest induction =>
      have plainRest := (List.forall_mem_cons.mp plain).2
      constructor
      · intro all
        cases all with
        | cons first others =>
            exact .cons ((each _ _ _ read).mp first)
              ((induction plainRest).mp others)
      · intro all
        cases all with
        | cons first others =>
            exact .cons ((each _ _ _ read).mpr first)
              ((induction plainRest).mpr others)

end Web3Js.Fragments
