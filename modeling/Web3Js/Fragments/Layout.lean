import Web3Js.Fragments.TypeRoundTrip

/-!
# Texts of parameters in a signature

The parameters of a fragment are printed with their names and spaced evenly.
Their text is balanced, has no gas annotation and does not announce outputs,
whatever the parameters are named.
-/

namespace Web3Js.Fragments

open Validator (Elementary)

/-! ## The parts of a text -/

/-- The flag and the name behind a type. -/
def suffixWords (name : Option Text) (indexed : Option Bool) : List Text :=
  (if indexed = some true then ["indexed".toList] else []) ++ name.toList

theorem formatSuffix_eq {name : Option Text}
    (plain : ∀ given ∈ name, PlainName given) (indexed : Option Bool) :
    ParamType.formatSuffix .full name indexed =
      (suffixWords name indexed).flatMap (' ' :: ·) := by
  rw [suffixWords, List.flatMap_append]
  cases name with
  | none =>
      by_cases flagged : indexed = some true <;>
        simp [ParamType.formatSuffix, flagged]
  | some name =>
      have nonempty := (isNameChar_of_isIdentifier (plain name rfl).1).1
      by_cases flagged : indexed = some true <;>
        simp [ParamType.formatSuffix, flagged, nonempty]

/-- A word of a text: it has letters, digits and the like only. -/
structure Word (word : Text) : Prop where
  nonempty : word ≠ []
  named : word.all isNameChar = true

theorem PlainName.word {name : Text} (plain : PlainName name) : Word name :=
  let ⟨nonempty, named⟩ := isNameChar_of_isIdentifier plain.1
  ⟨nonempty, named⟩

theorem word_of_isAlphanum {word : Text} (nonempty : word ≠ [])
    (alphanum : word.all Char.isAlphanum = true) : Word word := by
  refine ⟨nonempty, ?_⟩
  rw [List.all_eq_true] at alphanum ⊢
  intro char member
  rw [isNameChar, alphanum char member]
  rfl

theorem word_of_suffixWords {name : Option Text}
    (plain : ∀ given ∈ name, PlainName given) (indexed : Option Bool) :
    ∀ word ∈ suffixWords name indexed, Word word := by
  intro word member
  rcases List.mem_append.mp member with flag | named
  · split at flag
    · obtain rfl := List.mem_singleton.mp flag
      exact ⟨by decide, by decide⟩
    · cases flag
  · exact (plain word (Option.mem_toList.mp named)).word

/-- A character of a text of parameters that is no delimiter. -/
def isTextChar (char : Char) : Bool :=
  isNameChar char || char == '.' || char == '+' || char == '[' || char == ']'

theorem isTextChar_of_isNameChar {char : Char}
    (named : isNameChar char = true) : isTextChar char = true := by
  rw [isTextChar, named]
  rfl

theorem isTextChar_printedBrackets (lengths : List Length) :
    (printedBrackets lengths).all isTextChar = true := by
  rw [List.all_eq_true]
  intro char member
  obtain ⟨length, -, inside⟩ := List.mem_flatMap.mp member
  have plain : (readLength length.digits).text.all Double.isPlain = true :=
    length.isPlain_text
  rw [List.all_eq_true] at plain
  rcases List.mem_append.mp inside with opened | closed
  · rcases List.mem_cons.mp opened with rfl | inside
    · decide
    · have ordinary := plain char inside
      rw [Double.isPlain, Bool.or_eq_true, Bool.or_eq_true] at ordinary
      rcases ordinary with (word | point) | plus
      · apply isTextChar_of_isNameChar
        rw [isNameChar, word]
        rfl
      · obtain rfl := eq_of_beq point
        decide
      · obtain rfl := eq_of_beq plus
        decide
  · obtain rfl := List.mem_singleton.mp closed
    decide

/-- The delimiters between the words of parameters are none of their
characters. -/
theorem isTextChar_delimiters {char : Char} (named : isTextChar char = true) :
    isWhiteSpace char = false ∧ char ≠ '(' ∧ char ≠ ')' ∧ char ≠ ',' ∧
      char ≠ '@' ∧ char ≠ ' ' := by
  have other : ∀ special ∈ "(),@ ".toList, char ≠ special := by
    intro special member same
    subst same
    have none : ∀ special ∈ "(),@ ".toList, isTextChar special = false :=
      List.all_iff_forall_prop.mp (by decide)
    rw [none char member] at named
    cases named
  refine ⟨?_, other '(' (by decide), other ')' (by decide),
    other ',' (by decide), other '@' (by decide), other ' ' (by decide)⟩
  simp only [isTextChar, Bool.or_eq_true] at named
  rcases named with (((word | point) | plus) | opened) | closed
  · exact not_isWhiteSpace_of_isNameChar word
  · obtain rfl := eq_of_beq point
    decide
  · obtain rfl := eq_of_beq plus
    decide
  · obtain rfl := eq_of_beq opened
    decide
  · obtain rfl := eq_of_beq closed
    decide

theorem Word.isTextChar {word : Text} (isWord : Word word) :
    ∀ char ∈ word, isTextChar char = true := by
  have named := isWord.named
  rw [List.all_eq_true] at named
  exact fun char member => isTextChar_of_isNameChar (named char member)

theorem Parameter.tail_eq {parameter : Parameter}
    (plain : ∀ name ∈ parameter.name, PlainName name) :
    parameter.tail = printedBrackets parameter.lengths ++
      (suffixWords parameter.name parameter.indexed).flatMap (' ' :: ·) := by
  rw [← formatSuffix_eq plain]
  cases parameter <;> rfl

/-! ## Spacing -/

theorem solid_of_isTextChar {text : Text}
    (plain : ∀ char ∈ text, isTextChar char = true) : Solid text := by
  apply solid_word
  · exact fun char member => (isTextChar_delimiters (plain char member)).1
  · intro char member
    have other := isTextChar_delimiters (plain char member)
    exact ⟨other.2.1, other.2.2.1⟩

theorem Word.solid {word : Text} (isWord : Word word) : Solid word :=
  solid_of_isTextChar isWord.isTextChar

theorem Word.first {word : Text} (isWord : Word word) (rest : Text) :
    ∀ char ∈ (word ++ rest).head?, isWhiteSpace char = false ∧ char ≠ '(' := by
  rw [List.head?_append_of_ne_nil _ isWord.nonempty]
  intro char member
  have other := isTextChar_delimiters
    (isWord.isTextChar char (List.mem_of_mem_head? member))
  exact ⟨other.1, other.2.1⟩

theorem tidies_nil : Tidies [] [] :=
  fun _ _ => rfl

/-- Words behind single spaces stay as they are. -/
theorem tidies_words {words : List Text} (all : ∀ word ∈ words, Word word) :
    Tidies (words.flatMap (' ' :: ·)) (words.flatMap (' ' :: ·)) := by
  induction words with
  | nil => exact tidies_nil
  | cons word words induction =>
      obtain ⟨isWord, rest⟩ := List.forall_mem_cons.mp all
      have both := isWord.solid.append (induction rest)
      exact tidies_space both
        (List.append_ne_nil_of_left_ne_nil isWord.nonempty _)
        (isWord.first _)

theorem Parameter.tidies_tail {parameter : Parameter}
    (plain : ∀ name ∈ parameter.name, PlainName name) :
    Tidies parameter.tail parameter.tail := by
  have brackets := isTextChar_printedBrackets parameter.lengths
  rw [List.all_eq_true] at brackets
  rw [Parameter.tail_eq plain]
  exact (solid_of_isTextChar brackets).append
    (tidies_words (word_of_suffixWords plain parameter.indexed))

/-- What follows the parentheses starts with a bracket or a space, if there is
anything. -/
theorem Parameter.head_tail {parameter : Parameter}
    (plain : ∀ name ∈ parameter.name, PlainName name) :
    parameter.tail = [] ∨ (∃ rest, parameter.tail = ' ' :: rest) ∨
      ∃ rest, parameter.tail = '[' :: rest := by
  rw [Parameter.tail_eq plain]
  cases parameter.lengths with
  | cons length lengths => exact .inr (.inr ⟨_, rfl⟩)
  | nil =>
      cases suffixWords parameter.name parameter.indexed with
      | nil => exact .inl rfl
      | cons word words => exact .inr (.inl ⟨_, rfl⟩)

/-- One space or none stands behind a closing parenthesis. -/
theorem Parameter.collapse_tail {parameter : Parameter}
    (plain : ∀ name ∈ parameter.name, PlainName name) {rest : Text}
    (ready : Ready rest) :
    collapse (' ' :: (parameter.tail.flatMap spread ++ rest)) =
      closing true parameter.tail ++ collapse rest := by
  have tidied := Parameter.tidies_tail plain rest ready
  rcases Parameter.head_tail plain with empty | ⟨more, spaced⟩ |
    ⟨more, bracketed⟩
  · rw [empty] at tidied ⊢
    exact collapse_space ready
  · rw [spaced] at tidied ⊢
    exact (collapse_spaces _).trans tidied
  · rw [bracketed] at tidied ⊢
    have opens : Ready (('[' :: more).flatMap spread ++ rest) :=
      ready_cons (by decide) _
    exact (collapse_space opens).trans (congrArg (' ' :: ·) tidied)

/-- A layout begins with a letter of its type. -/
theorem Parameter.layout_head (spaced behind : Bool) (parameter : Parameter) :
    ∃ char rest, parameter.layout spaced behind = char :: rest ∧
      char ∈ "basuit".toList := by
  cases parameter with
  | tuple name indexed components lengths =>
      exact ⟨'t', _, rfl, by decide⟩
  | value name indexed type lengths =>
      obtain ⟨char, rest, begins, letter⟩ :
          ∃ char rest, (canonical type).baseType.text.toList = char :: rest ∧
            char ∈ "basuit".toList := by
        cases (canonical type).baseType with
        | bool => exact ⟨'b', "ool".toList, by decide, by decide⟩
        | int => exact ⟨'i', "nt".toList, by decide, by decide⟩
        | uint => exact ⟨'u', "int".toList, by decide, by decide⟩
        | bytes => exact ⟨'b', "ytes".toList, by decide, by decide⟩
        | string => exact ⟨'s', "tring".toList, by decide, by decide⟩
        | address => exact ⟨'a', "ddress".toList, by decide, by decide⟩
        | tuple => exact ⟨'t', "uple".toList, by decide, by decide⟩
      rw [Parameter.layout, Elementary.chars, begins]
      exact ⟨char, _, rfl, letter⟩

theorem visible_letters : ∀ char ∈ "basuit".toList,
    isWhiteSpace char = false ∧ char ≠ '(' :=
  List.all_iff_forall_prop.mp (by decide)

theorem word_chars (type : Elementary) : Word type.chars :=
  word_of_isAlphanum (chars_ne_nil type) (isAlphanum_chars type)

theorem Parameter.head_joined (spaced : Bool) (first : Parameter)
    (parameters : List Parameter) :
    ∃ char rest, joined spaced (first :: parameters) = char :: rest ∧
      char ∈ "basuit".toList := by
  obtain ⟨char, rest, begins, letter⟩ := first.layout_head spaced spaced
  cases parameters with
  | nil =>
      rw [joined_singleton]
      exact ⟨char, rest, begins, letter⟩
  | cons next parameters =>
      rw [joined_cons_cons, begins]
      exact ⟨char, _, rfl, letter⟩

/-- Parameters that are each spaced evenly are so one after the other. -/
theorem tidies_joined {parameters : List Parameter}
    (each : ∀ parameter ∈ parameters,
      Tidies (parameter.layout false false) (parameter.layout true true)) :
    Tidies (Parameter.joined false parameters)
      (Parameter.joined true parameters) := by
  induction parameters with
  | nil => exact tidies_nil
  | cons first parameters induction =>
      obtain ⟨tidies, rest⟩ := List.forall_mem_cons.mp each
      cases parameters with
      | nil =>
          rw [Parameter.joined_singleton, Parameter.joined_singleton]
          exact tidies
      | cons next parameters =>
          obtain ⟨char, more, begins, letter⟩ :=
            Parameter.head_joined false next parameters
          have spaced : Tidies
              (' ' :: Parameter.joined false (next :: parameters))
              (' ' :: Parameter.joined true (next :: parameters)) := by
            apply tidies_space (induction rest)
            · rw [begins]
              exact List.cons_ne_nil _ _
            · rw [begins]
              intro first member
              obtain rfl := Option.some.inj member
              exact visible_letters char letter
          have comma : Solid [','] := solid_char (by decide) (by decide)
          have follows : ∀ text after, Ready
              (([','] ++ text).flatMap spread ++ after) :=
            fun _ _ => ready_cons (by decide) _
          rw [Parameter.joined_cons_cons, Parameter.joined_cons_cons]
          exact tidies.append (comma.append spaced) (follows _)

/-- The full text of a parameter is spaced evenly. -/
theorem tidies_layout {parameter : Parameter} (plain : parameter.Plain) :
    Tidies (parameter.layout false false) (parameter.layout true true) := by
  induction parameter using Parameter.induction with
  | value name indexed type lengths =>
      have named := Parameter.forall_parts_value.mp plain
      exact (word_chars _).solid.append (Parameter.tidies_tail named)
  | tuple name indexed components lengths induction =>
      obtain ⟨named, inner⟩ := Parameter.forall_parts_tuple.mp plain
      have tidied := tidies_joined fun component member =>
        induction component member (inner component member)
      have word : Word tupleWord := ⟨by decide, by decide⟩
      rw [Parameter.layout, Parameter.layout]
      apply word.solid.append
      intro rest ready
      have inside := tidied.parenthesized
        ((Parameter.tuple name indexed components lengths).tail.flatMap
          spread ++ rest)
      rw [Parameter.collapse_tail named ready] at inside
      simpa [opening, closing, Parameter.joined] using inside

/-! ## Characters -/

/-- A character of a text of parameters. -/
def isLayoutChar (char : Char) : Bool :=
  isTextChar char || "(), ".toList.contains char

theorem isLayoutChar_of_isTextChar {text : Text}
    (plain : ∀ char ∈ text, isTextChar char = true) :
    text.all isLayoutChar = true := by
  rw [List.all_eq_true]
  intro char member
  rw [isLayoutChar, plain char member]
  rfl

theorem isLayoutChar_tail {parameter : Parameter}
    (plain : ∀ name ∈ parameter.name, PlainName name) :
    parameter.tail.all isLayoutChar = true := by
  have brackets := isTextChar_printedBrackets parameter.lengths
  rw [List.all_eq_true] at brackets
  have words := word_of_suffixWords plain parameter.indexed
  rw [Parameter.tail_eq plain, List.all_append,
    isLayoutChar_of_isTextChar brackets, Bool.true_and, List.all_eq_true]
  intro char member
  obtain ⟨word, given, inside⟩ := List.mem_flatMap.mp member
  rcases List.mem_cons.mp inside with rfl | inside
  · decide
  · have all := isLayoutChar_of_isTextChar (words word given).isTextChar
    exact List.all_eq_true.mp all char inside

theorem isLayoutChar_joined {spaced : Bool} {parameters : List Parameter}
    (each : ∀ parameter ∈ parameters,
      (parameter.layout spaced spaced).all isLayoutChar = true) :
    (Parameter.joined spaced parameters).all isLayoutChar = true := by
  induction parameters with
  | nil => rfl
  | cons first parameters induction =>
      obtain ⟨all, rest⟩ := List.forall_mem_cons.mp each
      cases parameters with
      | nil =>
          rw [Parameter.joined_singleton]
          exact all
      | cons next parameters =>
          rw [Parameter.joined_cons_cons, List.all_append, all,
            List.all_cons, List.all_cons, induction rest]
          decide

theorem isLayoutChar_layout {parameter : Parameter} (plain : parameter.Plain)
    (spaced behind : Bool) :
    (parameter.layout spaced behind).all isLayoutChar = true := by
  induction parameter using Parameter.induction generalizing behind with
  | value name indexed type lengths =>
      have named := Parameter.forall_parts_value.mp plain
      have chars := isLayoutChar_of_isTextChar
        (word_chars (canonical type)).isTextChar
      rw [Parameter.layout, List.all_append, chars, isLayoutChar_tail named]
      rfl
  | tuple name indexed components lengths induction =>
      obtain ⟨named, inner⟩ := Parameter.forall_parts_tuple.mp plain
      have parts := isLayoutChar_joined fun component member =>
        induction component member (inner component member) spaced
      have tail := isLayoutChar_tail named
      have word : tupleWord.all isLayoutChar = true := by decide
      have opens : (opening spaced).all isLayoutChar = true := by
        cases spaced <;> decide
      have closes : (closing behind (Parameter.tuple name indexed components
          lengths).tail).all isLayoutChar = true := by
        rw [closing]
        split
        · rw [List.all_cons, tail]
          decide
        · exact tail
      have parenthesis : isLayoutChar ')' = true := by decide
      rw [Parameter.layout, ← Parameter.joined, List.all_append,
        List.all_append, List.all_append, List.all_cons, word, opens, parts,
        closes, parenthesis]
      rfl

/-! ## Commas and parentheses -/

/-- The text is read as part of one piece at any depth. -/
def Balanced (text : Text) : Prop :=
  ∀ accum depth rest, splitNestingFrom accum depth (text ++ rest) =
    splitNestingFrom (accum ++ text) depth rest

/-- The text is read as part of one piece inside parentheses. -/
def Nested (text : Text) : Prop :=
  ∀ accum depth rest, splitNestingFrom accum (depth + 1) (text ++ rest) =
    splitNestingFrom (accum ++ text) (depth + 1) rest

theorem Balanced.append {text text' : Text} (balanced : Balanced text)
    (balanced' : Balanced text') : Balanced (text ++ text') := by
  intro accum depth rest
  rw [List.append_assoc, balanced, balanced', List.append_assoc]

theorem Nested.append {text text' : Text} (nested : Nested text)
    (nested' : Nested text') : Nested (text ++ text') := by
  intro accum depth rest
  rw [List.append_assoc, nested, nested', List.append_assoc]

theorem Balanced.nested {text : Text} (balanced : Balanced text) :
    Nested text :=
  fun accum depth rest => balanced accum (depth + 1) rest

theorem balanced_nil : Balanced [] := by
  intro accum depth rest
  rw [List.nil_append, List.append_nil]

theorem balanced_char {char : Char}
    (other : char ≠ '(' ∧ char ≠ ')' ∧ char ≠ ',') : Balanced [char] := by
  intro accum depth rest
  rw [List.singleton_append, splitNestingFrom,
    if_neg fun comma => other.2.2 comma.1, if_neg other.1, if_neg other.2.1]

theorem balanced_text {text : Text}
    (other : ∀ char ∈ text, char ≠ '(' ∧ char ≠ ')' ∧ char ≠ ',') :
    Balanced text := by
  induction text with
  | nil => exact balanced_nil
  | cons char text induction =>
      obtain ⟨first, rest⟩ := List.forall_mem_cons.mp other
      exact (balanced_char first).append (induction rest)

theorem nested_comma : Nested [','] := by
  intro accum depth rest
  rw [List.singleton_append, splitNestingFrom,
    if_neg fun comma => Nat.succ_ne_zero depth comma.2,
    if_neg (by decide), if_neg (by decide)]

theorem splitNestingFrom_opening (accum : Text) (depth : Nat) (rest : Text) :
    splitNestingFrom accum depth ('(' :: rest) =
      splitNestingFrom (accum ++ ['(']) (depth + 1) rest := by
  simp [splitNestingFrom]

theorem splitNestingFrom_closing (accum : Text) (depth : Nat) (rest : Text) :
    splitNestingFrom accum (depth + 1) (')' :: rest) =
      splitNestingFrom (accum ++ [')']) depth rest := by
  simp [splitNestingFrom]

theorem Nested.parenthesized {text : Text} (nested : Nested text) :
    Balanced ('(' :: text ++ [')']) := by
  intro accum depth rest
  have spelled : ('(' :: text ++ [')']) ++ rest =
      '(' :: (text ++ ')' :: rest) := by
    simp
  rw [spelled, splitNestingFrom_opening, nested, splitNestingFrom_closing]
  simp

theorem balanced_tail {parameter : Parameter}
    (plain : ∀ name ∈ parameter.name, PlainName name) :
    Balanced parameter.tail := by
  have brackets := isTextChar_printedBrackets parameter.lengths
  rw [List.all_eq_true] at brackets
  have words := word_of_suffixWords plain parameter.indexed
  rw [Parameter.tail_eq plain]
  apply balanced_text
  intro char member
  rcases List.mem_append.mp member with bracket | suffix
  · have other := isTextChar_delimiters (brackets char bracket)
    exact ⟨other.2.1, other.2.2.1, other.2.2.2.1⟩
  · obtain ⟨word, given, inside⟩ := List.mem_flatMap.mp suffix
    rcases List.mem_cons.mp inside with rfl | inside
    · decide
    · have other := isTextChar_delimiters
        ((words word given).isTextChar char inside)
      exact ⟨other.2.1, other.2.2.1, other.2.2.2.1⟩

theorem nested_joined {parameters : List Parameter}
    (each : ∀ parameter ∈ parameters,
      Balanced (parameter.layout true true)) :
    Nested (Parameter.joined true parameters) := by
  induction parameters with
  | nil => exact balanced_nil.nested
  | cons first parameters induction =>
      obtain ⟨balanced, rest⟩ := List.forall_mem_cons.mp each
      cases parameters with
      | nil =>
          rw [Parameter.joined_singleton]
          exact balanced.nested
      | cons next parameters =>
          have space : Balanced [' '] := balanced_char (by decide)
          rw [Parameter.joined_cons_cons]
          exact balanced.nested.append
            (nested_comma.append (space.nested.append (induction rest)))

theorem balanced_layout {parameter : Parameter} (plain : parameter.Plain)
    (behind : Bool) : Balanced (parameter.layout true behind) := by
  induction parameter using Parameter.induction generalizing behind with
  | value name indexed type lengths =>
      have named := Parameter.forall_parts_value.mp plain
      have chars : Balanced (canonical type).chars := by
        apply balanced_text
        intro char member
        have other := isTextChar_delimiters
          ((word_chars (canonical type)).isTextChar char member)
        exact ⟨other.2.1, other.2.2.1, other.2.2.2.1⟩
      exact chars.append (balanced_tail named)
  | tuple name indexed components lengths induction =>
      obtain ⟨named, inner⟩ := Parameter.forall_parts_tuple.mp plain
      have parts := nested_joined fun component member =>
        induction component member (inner component member) true
      have word : Balanced (tupleWord ++ [' ']) := by
        apply balanced_text
        exact List.all_iff_forall_prop.mp (by decide)
      have behindTail : Balanced (closing behind (Parameter.tuple name indexed
          components lengths).tail) := by
        have tail := balanced_tail named
        have space : Balanced [' '] := balanced_char (by decide)
        rw [closing]
        split
        · exact space.append tail
        · exact tail
      have whole := word.append (parts.parenthesized.append behindTail)
      simpa [Parameter.layout, opening, Parameter.joined] using whole

/-! ## The word that announces outputs -/

/-- `' returns '` -/
def returnsWord : Text := " returns ".toList

theorem returnsWord_eq : returnsWord = ' ' :: "returns ".toList := by decide

theorem isPrefixOf_cons (first char : Char) (word rest : Text) :
    (first :: word).isPrefixOf (char :: rest) =
      (first == char && word.isPrefixOf rest) :=
  rfl

/-- The pieces with a text in front of the first one. -/
def prepend (text : Text) : List Text → List Text
  | piece :: pieces => (text ++ piece) :: pieces
  | [] => [text]

theorem prepend_prepend (text text' : Text) (pieces : List Text) :
    prepend text (prepend text' pieces) = prepend (text ++ text') pieces := by
  cases pieces with
  | nil => rfl
  | cons piece pieces => rw [prepend, prepend, prepend, List.append_assoc]

/-- The text belongs to the piece before what follows it. -/
def Passes (text rest : Text) : Prop :=
  splitFrom returnsWord 0 (text ++ rest) =
    prepend text (splitFrom returnsWord 0 rest)

theorem splitFrom_char {separator : Text} {char : Char} {rest : Text}
    (other : separator.isPrefixOf (char :: rest) = false) :
    splitFrom separator 0 (char :: rest) =
      prepend [char] (splitFrom separator 0 rest) := by
  rw [splitFrom, other, if_neg Bool.false_ne_true]
  cases splitFrom separator 0 rest <;> rfl

theorem splitFrom_ne_nil (separator : Text) (skip : Nat) (text : Text) :
    splitFrom separator skip text ≠ [] := by
  induction text generalizing skip with
  | nil => cases skip <;> exact List.cons_ne_nil _ _
  | cons char text induction =>
      cases skip with
      | succ skip => exact induction skip
      | zero =>
          rw [splitFrom]
          split
          · exact List.cons_ne_nil _ _
          · split
            · exact List.cons_ne_nil _ _
            · exact List.cons_ne_nil _ _

theorem passes_nil (rest : Text) : Passes [] rest := by
  rw [Passes, List.nil_append]
  cases pieces : splitFrom returnsWord 0 rest with
  | nil => exact absurd pieces (splitFrom_ne_nil _ _ _)
  | cons piece pieces => rfl

theorem Passes.append {text text' rest : Text}
    (passes : Passes text (text' ++ rest)) (passes' : Passes text' rest) :
    Passes (text ++ text') rest := by
  rw [Passes, List.append_assoc, passes, passes', prepend_prepend]

theorem passes_visible {text : Text} (other : ∀ char ∈ text, char ≠ ' ')
    (rest : Text) : Passes text rest := by
  induction text with
  | nil => exact passes_nil rest
  | cons char text induction =>
      obtain ⟨first, others⟩ := List.forall_mem_cons.mp other
      have unmatched : returnsWord.isPrefixOf (char :: (text ++ rest)) =
          false := by
        have differs : (' ' == char) = false :=
          beq_eq_false_iff_ne.mpr first.symm
        rw [returnsWord_eq, isPrefixOf_cons, differs]
        rfl
      have passes := induction others
      rw [Passes] at passes ⊢
      rw [List.cons_append, splitFrom_char unmatched, passes,
        prepend_prepend]
      rfl

theorem passes_space {rest : Text}
    (other : "returns ".toList.isPrefixOf rest = false) : Passes [' '] rest := by
  have unmatched : returnsWord.isPrefixOf (' ' :: rest) = false := by
    rw [returnsWord_eq, isPrefixOf_cons, other]
    rfl
  exact splitFrom_char unmatched

/-- A word that begins otherwise does not announce outputs. -/
theorem not_returns_of_head {char : Char} (other : char ≠ 'r')
    (rest : Text) : "returns ".toList.isPrefixOf (char :: rest) = false := by
  have differs : ('r' == char) = false := beq_eq_false_iff_ne.mpr other.symm
  have spelled : "returns ".toList = 'r' :: "eturns ".toList := by decide
  rw [spelled, isPrefixOf_cons, differs]
  rfl

/-- A comma or a parenthesis follows. -/
def Delimited (rest : Text) : Prop :=
  ∀ char ∈ rest.head?, char = ',' ∨ char = ')'

theorem not_returns_of_delimited {rest : Text} (delimited : Delimited rest) :
    "returns ".toList.isPrefixOf rest = false := by
  cases rest with
  | nil => decide
  | cons char rest =>
      apply not_returns_of_head
      rcases delimited char rfl with rfl | rfl
      · decide
      · decide

/-- A name before a delimiter does not announce outputs. -/
theorem not_returns_of_word {word rest : Text} (isWord : Word word)
    (delimited : Delimited rest) :
    "returns ".toList.isPrefixOf (word ++ rest) = false := by
  rw [Bool.eq_false_iff]
  intro isPrefix
  obtain ⟨after, same⟩ := List.isPrefixOf_iff_prefix.mp isPrefix
  have named : ∀ char ∈ word, isNameChar char = true := by
    have all := isWord.named
    rw [List.all_eq_true] at all
    exact all
  have stops : Words.Stops isNameChar rest := by
    intro char member
    rcases delimited char member with rfl | rfl
    · decide
    · decide
  have spelled : "returns".toList ++ ' ' :: after = word ++ rest := by
    rw [← same]
    have split : "returns ".toList = "returns".toList ++ [' '] := by decide
    rw [split]
    simp
  have both := Words.cut (by decide : "returns".toList.all isNameChar = true)
    isWord.named (Words.stops_cons (by decide) after) stops spelled
  have head : rest.head? = some ' ' := by
    rw [← both.2]
    rfl
  rcases delimited ' ' head with comma | parenthesis
  · cases comma
  · cases parenthesis

/-- Only the last word before a delimiter can be a name. -/
theorem passes_suffix {name : Option Text}
    (plain : ∀ given ∈ name, PlainName given) (indexed : Option Bool)
    {rest : Text} (delimited : Delimited rest) :
    Passes ((suffixWords name indexed).flatMap (' ' :: ·)) rest := by
  have words := word_of_suffixWords plain indexed
  have one : ∀ word rest, Word word →
      "returns ".toList.isPrefixOf (word ++ rest) = false →
        Passes (' ' :: word) rest := by
    intro word rest isWord other
    have visible : ∀ char ∈ word, char ≠ ' ' := fun char member =>
      (isTextChar_delimiters (isWord.isTextChar char member)).2.2.2.2.2
    exact (passes_space other).append (passes_visible visible rest)
  have flag : ∀ rest, Passes (' ' :: "indexed".toList) rest := by
    intro rest
    apply one _ _ ⟨by decide, by decide⟩
    have spelled : "indexed".toList = 'i' :: "ndexed".toList := by decide
    rw [spelled]
    exact not_returns_of_head (by decide) _
  have named : Passes (name.toList.flatMap (' ' :: ·)) rest := by
    cases name with
    | none => exact passes_nil rest
    | some given =>
        have isWord := (plain given rfl).word
        have single : (some given).toList.flatMap (' ' :: ·) =
            ' ' :: given := by
          simp
        rw [single]
        exact one given rest isWord (not_returns_of_word isWord delimited)
  rw [suffixWords, List.flatMap_append]
  split
  · have single : ["indexed".toList].flatMap (' ' :: ·) =
        ' ' :: "indexed".toList := by
      simp
    rw [single]
    exact (flag _).append named
  · exact named

theorem passes_tail {parameter : Parameter}
    (plain : ∀ name ∈ parameter.name, PlainName name) {rest : Text}
    (delimited : Delimited rest) : Passes parameter.tail rest := by
  have brackets := isTextChar_printedBrackets parameter.lengths
  rw [List.all_eq_true] at brackets
  have visible : ∀ char ∈ printedBrackets parameter.lengths, char ≠ ' ' :=
    fun char member =>
      (isTextChar_delimiters (brackets char member)).2.2.2.2.2
  rw [Parameter.tail_eq plain]
  exact (passes_visible visible _).append
    (passes_suffix plain parameter.indexed delimited)

theorem delimited_cons {char : Char} (delimiter : char = ',' ∨ char = ')')
    (rest : Text) : Delimited (char :: rest) := by
  intro first member
  obtain rfl := Option.some.inj member
  exact delimiter

theorem ne_returns_letters : ∀ char ∈ "basuit".toList, char ≠ 'r' :=
  List.all_iff_forall_prop.mp (by decide)

theorem passes_joined {parameters : List Parameter}
    (each : ∀ parameter ∈ parameters, ∀ rest, Delimited rest →
      Passes (parameter.layout true true) rest) {rest : Text}
    (delimited : Delimited rest) :
    Passes (Parameter.joined true parameters) rest := by
  induction parameters with
  | nil => exact passes_nil rest
  | cons first parameters induction =>
      obtain ⟨passes, others⟩ := List.forall_mem_cons.mp each
      cases parameters with
      | nil =>
          rw [Parameter.joined_singleton]
          exact passes rest delimited
      | cons next parameters =>
          obtain ⟨char, more, begins, letter⟩ :=
            Parameter.head_joined true next parameters
          have comma : ∀ rest, Passes [','] rest :=
            passes_visible (List.all_iff_forall_prop.mp (by decide))
          have space : Passes [' ']
              (Parameter.joined true (next :: parameters) ++ rest) := by
            rw [begins]
            exact passes_space
              (not_returns_of_head (ne_returns_letters char letter) _)
          rw [Parameter.joined_cons_cons]
          exact (passes _ (delimited_cons (.inl rfl) _)).append
            ((comma _).append (space.append (induction others)))

/-- The parameters of a signature do not announce outputs. -/
theorem passes_layout {parameter : Parameter} (plain : parameter.Plain) :
    ∀ rest, Delimited rest → Passes (parameter.layout true true) rest := by
  induction parameter using Parameter.induction with
  | value name indexed type lengths =>
      intro rest delimited
      have named := Parameter.forall_parts_value.mp plain
      have visible : ∀ char ∈ (canonical type).chars, char ≠ ' ' :=
        fun char member => (isTextChar_delimiters
          ((word_chars (canonical type)).isTextChar char member)).2.2.2.2.2
      exact (passes_visible visible _).append (passes_tail named delimited)
  | tuple name indexed components lengths induction =>
      intro rest delimited
      obtain ⟨named, inner⟩ := Parameter.forall_parts_tuple.mp plain
      have word : ∀ rest, Passes tupleWord rest := passes_visible (List.all_iff_forall_prop.mp (by decide))
      have opens : ∀ rest, Passes (opening true) rest := by
        intro rest
        have space : Passes [' '] ('(' :: rest) :=
          passes_space (not_returns_of_head (by decide) rest)
        have parenthesis : Passes ['('] rest := passes_visible (List.all_iff_forall_prop.mp (by decide)) rest
        exact space.append parenthesis
      have closes : ∀ rest, Passes [')'] rest := passes_visible (List.all_iff_forall_prop.mp (by decide))
      have tail := passes_tail named delimited
      have behind : Passes (closing true (Parameter.tuple name indexed
          components lengths).tail) rest := by
        rw [closing]
        split
        · have space : Passes [' '] ((Parameter.tuple name indexed components
              lengths).tail ++ rest) := by
            apply passes_space
            rcases Parameter.head_tail named with empty | ⟨more, spaced⟩ |
              ⟨more, bracketed⟩
            · rw [empty]
              exact not_returns_of_delimited delimited
            · rw [spaced]
              exact not_returns_of_head (by decide) _
            · rw [bracketed]
              exact not_returns_of_head (by decide) _
          exact space.append tail
        · exact tail
      have parts : ∀ rest, Delimited rest →
          Passes (Parameter.joined true components) rest :=
        fun rest delimited => passes_joined (fun component member =>
          induction component member (inner component member)) delimited
      have whole := (word _).append ((opens _).append
        ((parts _ (delimited_cons (.inr rfl) _)).append
          ((closes _).append behind)))
      exact whole

end Web3Js.Fragments
