import Web3Js.Fragments.FragmentRoundTrip

/-!
# Round trips of constructors and functions

The state, the outputs and the gas of a function stand behind its inputs.  They
are the same after the full format is read, whatever the parameters are.
-/

namespace Web3Js.Fragments

open Abi (Error)

/-! ## What follows the inputs -/

theorem Follows.behind_words {words : List Text}
    (all : ∀ word ∈ words, Word word) {text output : Text}
    (follows : Follows text output) :
    Follows (words.flatMap (' ' :: ·) ++ text)
      (words.flatMap (' ' :: ·) ++ output) := by
  have solid := solid_words all
  constructor
  · cases words with
    | nil => exact follows.begins
    | cons word words => exact .inr ⟨_, rfl⟩
  · obtain ⟨blank, white, collapsed⟩ := follows.collapsed
    refine ⟨blank, white, ?_⟩
    rw [List.flatMap_append, solid, collapsed, List.append_assoc]
  · exact (endsVisible_words all).append follows.visible

/-- The outputs of a function as they stand behind its inputs. -/
def outputsText (spaced : Bool) (outputs : List Parameter) : Text :=
  ' ' :: ("returns (".toList ++ Parameter.joined spaced outputs ++ [')'])

theorem outputsText_eq (spaced : Bool) (outputs : List Parameter) :
    outputsText spaced outputs = ' ' :: ("returns".toList ++
      ' ' :: '(' :: (Parameter.joined spaced outputs ++ [')'])) := by
  have spelled : "returns (".toList = "returns".toList ++ [' ', '('] := by
    decide
  rw [outputsText, spelled]
  simp

theorem Follows.behind_outputs {outputs : List Parameter}
    (plain : ∀ parameter ∈ outputs, parameter.Plain) {text output : Text}
    (follows : Follows text output) :
    Follows (outputsText false outputs ++ text)
      (outputsText true outputs ++ output) := by
  have isWord : Word "returns".toList := ⟨by decide, by decide⟩
  have solid : Solid (' ' :: "returns".toList) := solid_spaced isWord
  have tidied := tidies_joined fun parameter member =>
    tidies_layout (plain parameter member)
  constructor
  · rw [outputsText_eq]
    exact .inr ⟨_, rfl⟩
  · obtain ⟨blank, white, collapsed⟩ := follows.collapse_space
    have opens : " (".toList = [' ', '('] := by decide
    have inside := tidied.parenthesized (text.flatMap spread)
    rw [← List.flatMap_append, collapsed, opens] at inside
    -- The space before the parenthesis is the one that is there already.
    have one : collapse ((' ' :: ('(' :: Parameter.joined false outputs ++
        [')'] ++ text)).flatMap spread) =
          collapse (('(' :: Parameter.joined false outputs ++
            [')'] ++ text).flatMap spread) :=
      collapse_spaces _
    have spelled : outputsText false outputs ++ text =
        (' ' :: "returns".toList) ++ (' ' ::
          ('(' :: Parameter.joined false outputs ++ [')'] ++ text)) := by
      rw [outputsText_eq]
      simp
    refine ⟨blank, white, ?_⟩
    rw [spelled, List.flatMap_append, solid, one, inside, outputsText_eq]
    simp
  · have closes := endsVisible_parenthesis.prepend (List.cons_ne_nil _ _)
      (' ' :: ("returns (".toList ++ Parameter.joined true outputs))
    exact closes.append follows.visible

/-! ## Gas -/

/-- The gas as it stands behind everything else. -/
def gasText : Option Nat → Text
  | none => []
  | some gas => ' ' :: '@' :: Nat.toDigits 10 gas

theorem digit_visible {char : Char} (digit : char.isDigit = true) :
    isNameChar char = true := by
  rw [isNameChar, Char.isAlphanum, digit]
  simp

theorem toDigits_visible {gas : Nat} {char : Char}
    (member : char ∈ Nat.toDigits 10 gas) : isNameChar char = true :=
  digit_visible (Nat.isDigit_of_mem_toDigits (by decide) (by decide) member)

theorem word_toDigits (gas : Nat) : Word (Nat.toDigits 10 gas) := by
  refine ⟨Nat.toDigits_ne_nil, ?_⟩
  rw [List.all_eq_true]
  exact fun char => toDigits_visible

theorem follows_gasText (gas : Option Nat) :
    Follows (gasText gas) (gasText gas) := by
  cases gas with
  | none => exact follows_words (List.forall_mem_nil _)
  | some gas =>
      have isWord := word_toDigits gas
      have visible : ∀ char ∈ '@' :: Nat.toDigits 10 gas,
          isWhiteSpace char = false :=
        List.forall_mem_cons.mpr ⟨by decide, isWord.visible⟩
      have solid : Solid (gasText (some gas)) := by
        apply solid_spaced_text (List.cons_ne_nil _ _) visible
        rw [List.forall_mem_cons]
        exact ⟨by decide, isWord.unparenthesized⟩
      apply solid.follows (.inr ⟨_, rfl⟩)
      exact (endsVisible_of_visible visible).prepend (List.cons_ne_nil _ _)
        [' ']

/-- A text without the separator belongs to the first piece. -/
theorem splitFrom_append {separator : Char} {text : Text}
    (absent : separator ∉ text) (rest : Text) :
    splitFrom [separator] 0 (text ++ rest) =
      prepend text (splitFrom [separator] 0 rest) := by
  induction text with
  | nil =>
      cases pieces : splitFrom [separator] 0 rest with
      | nil => exact absurd pieces (splitFrom_ne_nil _ _ _)
      | cons piece pieces =>
          rw [List.nil_append, pieces]
          rfl
  | cons char text induction =>
      obtain ⟨other, others⟩ := not_or.mp (mt List.mem_cons.mpr absent)
      have unmatched : [separator].isPrefixOf (char :: (text ++ rest)) =
          false := by
        rw [isPrefixOf_cons, beq_eq_false_iff_ne.mpr other]
        rfl
      rw [List.cons_append, splitFrom_char unmatched, induction others,
        prepend_prepend]
      rfl

theorem split_absent {separator : Char} {text : Text}
    (absent : separator ∉ text) : split [separator] text = [text] := by
  have whole := splitFrom_append absent []
  rw [List.append_nil] at whole
  rw [split, whole, splitFrom, prepend, List.append_nil]

theorem split_once {separator : Char} {text rest : Text}
    (absent : separator ∉ text) (absent' : separator ∉ rest) :
    split [separator] (text ++ separator :: rest) = [text, rest] := by
  have matched : [separator].isPrefixOf (separator :: rest) = true := by
    simp
  rw [split, splitFrom_append absent, splitFrom, if_pos matched]
  change prepend text ([] :: split [separator] rest) = _
  rw [split_absent absent', prepend, List.append_nil]

section Gas

variable {bigNumberFrom : Gas → Except Error Int}

/-- The gas is cut off; the space before it stays. -/
theorem parseGas_gasText (documented : GasDocumented bigNumberFrom)
    {text : Text} (absent : '@' ∉ text) (gas : Option Nat) :
    ∃ blank, (blank = [] ∨ blank = [' ']) ∧
      parseGas bigNumberFrom (text ++ gasText gas) =
        .ok (text ++ blank, gas.map Int.ofNat) := by
  cases gas with
  | none =>
      refine ⟨[], .inl rfl, ?_⟩
      rw [gasText, List.append_nil, parseGas, split_absent absent]
      rfl
  | some gas =>
      refine ⟨[' '], .inr rfl, ?_⟩
      have isWord := word_toDigits gas
      have before : '@' ∉ text ++ [' '] := by
        intro member
        rcases List.mem_append.mp member with inside | blank
        · exact absent inside
        · cases List.mem_singleton.mp blank
      have after : '@' ∉ Nat.toDigits 10 gas := fun member =>
        (isTextChar_delimiters (isWord.isTextChar _ member)).2.2.2.2.1 rfl
      have digits : (Nat.toDigits 10 gas).all Char.isDigit = true := by
        rw [List.all_eq_true]
        exact fun char =>
          Nat.isDigit_of_mem_toDigits (by decide) (by decide)
      have spelled : text ++ gasText (some gas) =
          (text ++ [' ']) ++ '@' :: Nat.toDigits 10 gas := by
        rw [gasText]
        simp
      rw [spelled, parseGas, split_once before after]
      simp only [if_pos (And.intro isWord.nonempty digits),
        documented.text gas, Outcome.ok_bind]
      rfl

end Gas

/-! ## Outputs -/

theorem split_returns_none {text : Text} (passes : Passes text []) :
    split returnsWord text = [text] := by
  have whole : splitFrom returnsWord 0 (text ++ []) = _ := passes
  rw [List.append_nil] at whole
  rw [split, whole, splitFrom, prepend, List.append_nil]

theorem split_returns_once {text rest : Text}
    (passes : Passes text (returnsWord ++ rest)) (passes' : Passes rest []) :
    split returnsWord (text ++ (returnsWord ++ rest)) = [text, rest] := by
  have spelled : returnsWord = [' ', 'r', 'e', 't', 'u', 'r', 'n', 's', ' '] := by
    decide
  have cut : splitFrom returnsWord 0 (returnsWord ++ rest) =
      [] :: splitFrom returnsWord 0 rest := by
    rw [spelled]
    rfl
  have whole : splitFrom returnsWord 0 (text ++ (returnsWord ++ rest)) = _ :=
    passes
  have second := split_returns_none passes'
  rw [split] at second
  rw [split, whole, cut, second, prepend, List.append_nil]

/-- The call of a signature does not announce outputs. -/
theorem passes_spacedCall {name : Text} (isWord : Word name)
    {parameters : List Parameter}
    (plain : ∀ parameter ∈ parameters, parameter.Plain) (rest : Text) :
    Passes (spacedCall name parameters) rest := by
  have visible : ∀ char ∈ name, char ≠ ' ' := fun char member =>
    (isTextChar_delimiters (isWord.isTextChar char member)).2.2.2.2.2
  have opens : " (".toList = [' '] ++ ['('] := by decide
  have space : ∀ rest, Passes [' '] (['('] ++ rest) := fun rest =>
    passes_space (not_returns_of_head (by decide) rest)
  have opening : ∀ rest, Passes ['('] rest :=
    passes_visible (List.all_iff_forall_prop.mp (by decide))
  have closing : Passes [')'] rest :=
    passes_visible (List.all_iff_forall_prop.mp (by decide)) rest
  have inside : Passes (Parameter.joined true parameters) ([')'] ++ rest) :=
    passes_joined (fun parameter member => passes_layout
      (plain parameter member)) (delimited_cons (.inr rfl) _)
  rw [spacedCall, opens]
  exact (passes_visible visible _).append
    ((((space _).append (opening _)).append inside).append closing)

theorem passes_mutabilityWords {stateMutability : Text}
    (standard : stateMutability ∈ mutabilities) (rest : Text) :
    Passes ((mutabilityWords stateMutability).flatMap (' ' :: ·)) rest := by
  have all : ∀ mutability ∈ mutabilities,
      mutabilityWords mutability = [] ∨ ∃ char word,
        mutabilityWords mutability = [char :: word] ∧ char ≠ 'r' ∧
          ∀ other ∈ char :: word, other ≠ ' ' := by
    intro mutability member
    rcases mutabilities_cases member with rfl | rfl | rfl | rfl
    · exact .inr ⟨'p', "ure".toList, by decide, by decide,
        List.all_iff_forall_prop.mp (by decide)⟩
    · exact .inr ⟨'v', "iew".toList, by decide, by decide,
        List.all_iff_forall_prop.mp (by decide)⟩
    · exact .inl (by decide)
    · exact .inr ⟨'p', "ayable".toList, by decide, by decide,
        List.all_iff_forall_prop.mp (by decide)⟩
  rcases all stateMutability standard with
    none | ⟨char, word, one, other, visible⟩
  · rw [none]
    exact passes_nil rest
  · rw [one, List.flatMap_singleton]
    have space : Passes [' '] (char :: word ++ rest) :=
      passes_space (not_returns_of_head other _)
    exact space.append (passes_visible visible rest)

/-! ## Constructors -/

theorem not_mem_of_isLayoutChar {text : Text}
    (plain : text.all isLayoutChar = true) : '@' ∉ text := by
  intro member
  have layout : isLayoutChar '@' = true := List.all_eq_true.mp plain '@' member
  exact absurd layout (by decide)

theorem isLayoutChar_words {words : List Text}
    (all : ∀ word ∈ words, Word word) :
    (words.flatMap (' ' :: ·)).all isLayoutChar = true := by
  rw [List.all_flatMap, List.all_eq_true]
  intro word member
  have plain := isLayoutChar_of_isTextChar (all word member).isTextChar
  rw [List.all_cons, plain]
  decide

theorem isLayoutChar_parameters (spaced : Bool) {parameters : List Parameter}
    (plain : ∀ parameter ∈ parameters, parameter.Plain) :
    (Parameter.joined spaced parameters).all isLayoutChar = true :=
  isLayoutChar_joined fun parameter member =>
    isLayoutChar_layout (plain parameter member) spaced spaced

theorem isLayoutChar_spacedCall {name : Text} (isWord : Word name)
    {parameters : List Parameter}
    (plain : ∀ parameter ∈ parameters, parameter.Plain) :
    (spacedCall name parameters).all isLayoutChar = true := by
  have named := isLayoutChar_of_isTextChar isWord.isTextChar
  rw [spacedCall, List.all_append, List.all_append, List.all_append, named,
    isLayoutChar_parameters true plain]
  decide

/-- Parameters are split after they are trimmed again. -/
theorem parseParams_trim {parameters : List Parameter}
    (plain : ∀ parameter ∈ parameters, parameter.Plain)
    (allowIndexed : Bool) :
    parseParams (trim (Parameter.joined true parameters)) allowIndexed =
      parseParams (Parameter.joined true parameters) allowIndexed := by
  have again : trim (trim (Parameter.joined true parameters)) =
      trim (Parameter.joined true parameters) := by
    rw [trim_joined plain, (trimmed_trimmed plain).trim_eq]
  rw [parseParams, parseParams, splitNesting, splitNesting, again]

theorem takeWhile_spacedCall {name : Text} (isWord : Word name)
    (parameters : List Parameter) (behind : Text) :
    (spacedCall name parameters ++ behind).takeWhile (· ≠ ' ') = name := by
  have opens : " (".toList = [' ', '('] := by decide
  have spelled : spacedCall name parameters ++ behind =
      name ++ ' ' :: ('(' :: Parameter.joined true parameters ++ [')'] ++
        behind) := by
    rw [spacedCall, opens]
    simp
  rw [spelled]
  exact takeWhile_kind isWord

theorem takeWhile_parenthesis {name : Text} (isWord : Word name)
    (parameters : List Parameter) (behind : Text) :
    (spacedCall name parameters ++ behind).takeWhile (· ≠ '(') =
      name ++ [' '] := by
  have opens : " (".toList = [' ', '('] := by decide
  have spelled : spacedCall name parameters ++ behind =
      (name ++ [' ']) ++ '(' :: (Parameter.joined true parameters ++ [')'] ++
        behind) := by
    rw [spacedCall, opens]
    simp
  have all : (name ++ [' ']).all (· ≠ '(') = true := by
    have plain : name.all (· ≠ '(') = true := by
      rw [List.all_eq_true]
      intro char member
      exact decide_eq_true (isWord.unparenthesized char member).1
    rw [List.all_append, plain]
    decide
  rw [spelled]
  exact Words.takeWhile_word all (Words.stops_cons (by decide) _)

section Kinds

variable {bigNumberFrom : Gas → Except Error Int}

theorem constructor_format {fragment : ConstructorFragment}
    (standard : fragment.stateMutability ∈ mutabilities)
    {parameters : List Parameter}
    (inputs : fragment.inputs = Parameter.paramTypes parameters) :
    fragment.format .full = .ok ("constructor".toList ++
      ('(' :: Parameter.joined false parameters ++ [')']) ++
        (mutabilityWords fragment.stateMutability).flatMap (' ' :: ·)) := by
  have isWord : Word "constructor".toList := ⟨by decide, by decide⟩
  have visible := endsVisible_words (word_mutabilityWords standard)
  have first : ∀ char ∈ ([] ++ "constructor".toList).head?,
      isWhiteSpace char = false := by
    intro char member
    obtain rfl : 'c' = char := Option.some.inj member
    decide
  have whole := trim_full isWord first visible parameters
  rw [List.nil_append, List.nil_append] at whole
  rw [ConstructorFragment.format, if_neg (by decide), inputs,
    formatMutability_eq standard, whole]

theorem constructor_fromString {stateMutability : Text}
    (standard : stateMutability ∈ mutabilities)
    (unchanging : (stateOf stateMutability).constant = false)
    {parameters : List Parameter}
    (plain : ∀ parameter ∈ parameters, parameter.Plain) :
    ConstructorFragment.fromString bigNumberFrom
        (spacedCall "constructor".toList parameters ++
          (mutabilityWords stateMutability).flatMap (' ' :: ·)) =
      (parseParams (Parameter.joined true parameters) false).map fun inputs =>
        ⟨inputs, stateMutability, (stateOf stateMutability).payable, none⟩ := by
  have isWord : Word "constructor".toList := ⟨by decide, by decide⟩
  have words := word_mutabilityWords standard
  have unannotated : '@' ∉ spacedCall "constructor".toList parameters ++
      (mutabilityWords stateMutability).flatMap (' ' :: ·) := by
    apply not_mem_of_isLayoutChar
    rw [List.all_append, isLayoutChar_spacedCall isWord plain,
      isLayoutChar_words words]
    rfl
  have modifiers := parseModifiers_eq standard
    (List.forall_mem_nil _ : ∀ char ∈ ([] : Text), isWhiteSpace char = true)
  rw [List.append_nil] at modifiers
  have state : stateOf stateMutability =
      ⟨false, (stateOf stateMutability).payable, stateMutability⟩ :=
    congrArg (fun constant => (⟨constant, (stateOf stateMutability).payable,
      stateMutability⟩ : StateOutputValue)) unchanging
  rw [ConstructorFragment.fromString, parseGas, split_absent unannotated]
  simp only [Outcome.ok_bind]
  rw [matchParen_spacedCall isWord (unparenthesized_words words)]
  simp only [trim_word isWord, parseParams_trim plain, modifiers]
  rw [if_neg (by simp)]
  cases parseParams (Parameter.joined true parameters) false with
  | error problem => rfl
  | ok params =>
      exact constructor_fromObject_eq_ok.mpr
        ⟨(verifyState_stateOf rfl rfl rfl).trans (congrArg Except.ok state),
          rfl, rfl⟩

theorem constructor_textRoundTrip_iff {fragment : ConstructorFragment}
    (standard : fragment.stateMutability ∈ mutabilities)
    (state : stateOf fragment.stateMutability =
      ⟨false, fragment.payable, fragment.stateMutability⟩)
    (unannotated : fragment.gas = none) {parameters : List Parameter}
    (inputs : fragment.inputs = Parameter.paramTypes parameters)
    (plain : ∀ parameter ∈ parameters, parameter.Plain) :
    Fragment.TextRoundTrip bigNumberFrom (.constructor fragment) ↔
      Restored false parameters := by
  have isWord : Word "constructor".toList := ⟨by decide, by decide⟩
  have words := word_mutabilityWords standard
  have formatted : (Fragment.constructor fragment).format .full = _ :=
    constructor_format standard inputs
  have spaced := respace_signature plain isWord.solid isWord.nonempty
    isWord.trimmed.first (follows_words words) rfl
  have spelled : "constructor".toList ++ (" (".toList ++
      Parameter.joined true parameters ++
        ')' :: (mutabilityWords fragment.stateMutability).flatMap
          (' ' :: ·)) =
        spacedCall "constructor".toList parameters ++
          (mutabilityWords fragment.stateMutability).flatMap (' ' :: ·) := by
    rw [spacedCall]
    simp
  have trimmed := trimmed_spacedCall isWord (endsVisible_words words)
    parameters
  rw [spelled] at spaced
  have payable : (stateOf fragment.stateMutability).payable =
      fragment.payable := congrArg StateOutputValue.payable state
  have parsed := @constructor_fromString bigNumberFrom _ standard
    (congrArg StateOutputValue.constant state) _ plain
  have read : Fragment.fromString bigNumberFrom ("constructor".toList ++
      ('(' :: Parameter.joined false parameters ++ [')']) ++
        (mutabilityWords fragment.stateMutability).flatMap (' ' :: ·)) =
      (parseParams (Parameter.joined true parameters) false).map
        fun inputs => .constructor ⟨inputs, fragment.stateMutability,
          fragment.payable, none⟩ := by
    rw [Fragment.fromString, spaced]
    simp only [takeWhile_spacedCall isWord, takeWhile_parenthesis isWord,
      trim_word isWord]
    rw [if_neg (by decide), if_neg (by decide), if_pos trivial,
      trimmed.trim_eq, parsed, payable]
    cases parseParams (Parameter.joined true parameters) false <;> rfl
  apply textRoundTrip_iff_of_read plain formatted read
  intro params
  rw [Fragment.withFlags, Fragment.withFlags, inputs, unannotated]
  constructor
  · intro same
    exact (ConstructorFragment.mk.inj (Fragment.constructor.inj same)).1
  · intro same
    rw [same]

/-! ## Functions -/

/-- The outputs of a function, if it has any. -/
def returned (spaced : Bool) (outputs : List Parameter) : Text :=
  if outputs = [] then [] else outputsText spaced outputs

/-- What stands behind the inputs of a function, in words and the like. -/
def functionChunks (spaced : Bool) (stateMutability : Text)
    (outputs : List Parameter) (gas : Option Nat) : List Text :=
  mutabilityWords stateMutability ++
    (if outputs = [] then []
    else ["returns (".toList ++ Parameter.joined spaced outputs ++ [')']]) ++
    (gas.map fun gas => '@' :: Nat.toDigits 10 gas).toList

theorem flatMap_functionChunks (spaced : Bool) (stateMutability : Text)
    (outputs : List Parameter) (gas : Option Nat) :
    (functionChunks spaced stateMutability outputs gas).flatMap (' ' :: ·) =
      (mutabilityWords stateMutability).flatMap (' ' :: ·) ++
        (returned spaced outputs ++ gasText gas) := by
  have annotation : (gas.map fun gas => '@' :: Nat.toDigits 10
      gas).toList.flatMap (' ' :: ·) = gasText gas := by
    cases gas with
    | none => rfl
    | some gas =>
        rw [gasText, Option.map_some, Option.toList_some,
          List.flatMap_singleton]
  rw [functionChunks, List.flatMap_append, List.flatMap_append, annotation,
    List.append_assoc, returned]
  split
  · rfl
  · rw [List.flatMap_singleton, outputsText]

theorem follows_functionChunks {stateMutability : Text}
    (standard : stateMutability ∈ mutabilities) {outputs : List Parameter}
    (plain : ∀ parameter ∈ outputs, parameter.Plain) (gas : Option Nat) :
    Follows
      ((functionChunks false stateMutability outputs gas).flatMap (' ' :: ·))
      ((functionChunks true stateMutability outputs gas).flatMap
        (' ' :: ·)) := by
  rw [flatMap_functionChunks, flatMap_functionChunks]
  apply Follows.behind_words (word_mutabilityWords standard)
  rw [returned, returned]
  split
  · exact follows_gasText gas
  · exact (follows_gasText gas).behind_outputs plain

theorem endsVisible_functionChunks {stateMutability : Text}
    (standard : stateMutability ∈ mutabilities) (outputs : List Parameter)
    (gas : Option Nat) :
    EndsVisible ((functionChunks false stateMutability outputs gas).flatMap
      (' ' :: ·)) := by
  have words := endsVisible_words (word_mutabilityWords standard)
  rw [flatMap_functionChunks]
  apply words.append
  have results : EndsVisible (returned false outputs) := by
    rw [returned]
    split
    · exact endsVisible_of_visible (List.forall_mem_nil _)
    · exact endsVisible_parenthesis.prepend (List.cons_ne_nil _ _)
        (' ' :: ("returns (".toList ++ Parameter.joined false outputs))
  exact results.append (follows_gasText gas).visible

theorem formatGas_eq (gas : Option Nat) :
    formatGas (gas.map Int.ofNat) =
      (gas.map fun gas => '@' :: Nat.toDigits 10 gas).toList.flatMap
        (· ++ [' ']) := by
  cases gas with
  | none => rfl
  | some gas =>
      have digits : (toString (Int.ofNat gas)).toList =
          Nat.toDigits 10 gas := by
        change (Nat.repr gas).toList = _
        rw [Nat.repr_eq_ofList_toDigits, String.toList_ofList]
      rw [Option.map_some, formatGas, digits, Option.map_some,
        Option.toList_some, List.flatMap_singleton]

theorem function_format {fragment : FunctionFragment}
    (standard : fragment.stateMutability ∈ mutabilities)
    (identifier : isIdentifier fragment.name = true) {gas : Option Nat}
    (annotated : fragment.gas = gas.map Int.ofNat)
    {parameters results : List Parameter}
    (inputs : fragment.inputs = Parameter.paramTypes parameters)
    (outputs : fragment.outputs = Parameter.paramTypes results)
    (visible : EndsVisible ((functionChunks false fragment.stateMutability
      results gas).flatMap (' ' :: ·))) :
    fragment.format .full = "function".toList ++ [' '] ++ fragment.name ++
      ('(' :: Parameter.joined false parameters ++ [')']) ++
        (functionChunks false fragment.stateMutability results gas).flatMap
          (' ' :: ·) := by
  have kind : "function ".toList = "function".toList ++ [' '] := by decide
  have closes : ") ".toList = [')'] ++ [' '] := by decide
  have stated : fragment.stateMutability ≠ [] := by
    have all : ∀ mutability ∈ mutabilities, mutability ≠ [] := by decide
    exact all _ standard
  have none_iff : fragment.outputs = [] ↔ results = [] := by
    rw [outputs, Parameter.paramTypes_eq_map, List.map_eq_nil_iff]
  have behind : (formatMutability fragment.stateMutability ++
      (if fragment.outputs = [] then []
      else "returns (".toList ++ ", ".toList.intercalate
        (ParamType.formatAll .full fragment.outputs) ++ ") ".toList) ++
      formatGas fragment.gas) =
        (functionChunks false fragment.stateMutability results gas).flatMap
          (· ++ [' ']) := by
    have listed : ", ".toList.intercalate
        (ParamType.formatAll .full fragment.outputs) =
          Parameter.joined false results := by
      rw [outputs]
      exact formatParams_full results
    rw [formatMutability_eq standard, annotated, formatGas_eq, listed, closes,
      functionChunks, List.flatMap_append, List.flatMap_append]
    congr 2
    by_cases none : results = []
    · rw [if_pos (none_iff.mpr none), if_pos none]
      rfl
    · rw [if_neg (mt none_iff.mp none), if_neg none, List.flatMap_singleton]
      simp
  have first : ∀ char ∈ ("function".toList ++ [' '] ++ fragment.name).head?,
      isWhiteSpace char = false := by
    intro char member
    obtain rfl : 'f' = char := Option.some.inj member
    decide
  have whole := trim_full (word_of_isIdentifier identifier) first visible
    parameters
  rw [FunctionFragment.format, if_neg (by decide), if_neg (by decide),
    if_pos stated, behind, inputs, kind]
  exact whole

theorem outputsText_returnsWord (outputs : List Parameter) :
    outputsText true outputs = returnsWord ++
      (['('] ++ (Parameter.joined true outputs ++ [')'])) := by
  have spelled : returnsWord = ' ' :: ("returns".toList ++ [' ']) := by decide
  rw [outputsText_eq, spelled]
  simp

/-- The text behind a signature is cut where outputs are announced. -/
theorem split_function {name : Text} (isWord : Word name)
    {stateMutability : Text} (standard : stateMutability ∈ mutabilities)
    {parameters results : List Parameter}
    (plain : ∀ parameter ∈ parameters, parameter.Plain)
    (plainResults : ∀ parameter ∈ results, parameter.Plain) {blank : Text}
    (blanks : blank = [] ∨ blank = [' ']) :
    ∃ behind comps, (behind = [] ∨ behind = [' ']) ∧
      split returnsWord (spacedCall name parameters ++
        ((mutabilityWords stateMutability).flatMap (' ' :: ·) ++
          returned true results) ++ blank) =
        (spacedCall name parameters ++
          ((mutabilityWords stateMutability).flatMap (' ' :: ·) ++ behind)) ::
            comps ∧
      comps.length ≤ 1 ∧
      parseOutputs comps =
        parseParams (Parameter.joined true results) false := by
  have passesBlank : Passes blank [] := by
    rcases blanks with rfl | rfl
    · exact passes_nil []
    · exact passes_space (by decide)
  have signature : ∀ rest, Passes (spacedCall name parameters ++
      (mutabilityWords stateMutability).flatMap (' ' :: ·)) rest :=
    fun rest => (passes_spacedCall isWord plain _).append
      (passes_mutabilityWords standard rest)
  by_cases none : results = []
  · subst none
    refine ⟨blank, [], blanks, ?_, Nat.zero_le 1, rfl⟩
    have passes := (signature _).append passesBlank
    rw [List.append_assoc] at passes
    rw [returned, if_pos rfl, List.append_nil, List.append_assoc]
    exact split_returns_none passes
  · have opens : ∀ rest, Passes ['('] rest :=
      passes_visible (List.all_iff_forall_prop.mp (by decide))
    have closes : ∀ rest, Passes [')'] rest :=
      passes_visible (List.all_iff_forall_prop.mp (by decide))
    have inside : Passes (Parameter.joined true results)
        ([')'] ++ blank ++ []) :=
      passes_joined (fun parameter member => passes_layout
        (plainResults parameter member)) (delimited_cons (.inr rfl) _)
    have second : Passes (['('] ++ (Parameter.joined true results ++
        ([')'] ++ blank))) [] :=
      (opens _).append (inside.append ((closes _).append passesBlank))
    have whole := split_returns_once (signature _) second
    refine ⟨[], [['('] ++ (Parameter.joined true results ++
      ([')'] ++ blank))], .inl rfl, ?_, Nat.le_refl 1, ?_⟩
    · rw [List.append_nil, ← whole, returned, if_neg none,
        outputsText_returnsWord]
      simp only [List.append_assoc]
    · have white : ∀ char ∈ blank, isWhiteSpace char = true := by
        rcases blanks with rfl | rfl
        · exact List.forall_mem_nil _
        · exact isWhiteSpace_blank
      have after : trim blank = [] := by
        have trimmed := trim_append_blank [] white
        rw [List.nil_append] at trimmed
        exact trimmed
      have unparenthesized : Unparenthesized blank := by
        rcases blanks with rfl | rfl
        · exact List.forall_mem_nil _
        · exact List.all_iff_forall_prop.mp (by decide)
      have matched := matchParen_call (List.forall_mem_nil _ :
        Unparenthesized []) unparenthesized (Parameter.joined true results)
      have same : ['('] ++ (Parameter.joined true results ++
          ([')'] ++ blank)) = [] ++ '(' :: (Parameter.joined true results ++
            ')' :: blank) := rfl
      have nothing : trim ([] : Text) = [] := rfl
      rw [same, parseOutputs, matched]
      simp only [after, nothing]
      rw [if_neg (by simp)]

theorem isLayoutChar_returned {results : List Parameter}
    (plain : ∀ parameter ∈ results, parameter.Plain) :
    (returned true results).all isLayoutChar = true := by
  rw [returned]
  split
  · rfl
  · rw [outputsText_eq, List.all_cons, List.all_append, List.all_cons,
      List.all_cons, List.all_append, isLayoutChar_parameters true plain]
    decide

theorem function_fromString (documented : GasDocumented bigNumberFrom)
    {fragment : FunctionFragment}
    (standard : fragment.stateMutability ∈ mutabilities)
    (state : stateOf fragment.stateMutability =
      ⟨fragment.constant, fragment.payable, fragment.stateMutability⟩)
    (identifier : isIdentifier fragment.name = true) {gas : Option Nat}
    (annotated : fragment.gas = gas.map Int.ofNat)
    {parameters results : List Parameter}
    (plain : ∀ parameter ∈ parameters, parameter.Plain)
    (plainResults : ∀ parameter ∈ results, parameter.Plain) :
    FunctionFragment.fromString bigNumberFrom
        (spacedCall fragment.name parameters ++ (functionChunks true
          fragment.stateMutability results gas).flatMap (' ' :: ·)) =
      (parseParams (Parameter.joined true parameters) false >>= fun inputs =>
        (parseParams (Parameter.joined true results) false).map fun outputs =>
          { fragment with inputs, outputs }) := by
  have isWord := word_of_isIdentifier identifier
  have words := word_mutabilityWords standard
  have unannotated : '@' ∉ spacedCall fragment.name parameters ++
      ((mutabilityWords fragment.stateMutability).flatMap (' ' :: ·) ++
        returned true results) := by
    apply not_mem_of_isLayoutChar
    rw [List.all_append, List.all_append, isLayoutChar_words words,
      isLayoutChar_spacedCall isWord plain, isLayoutChar_returned plainResults]
    rfl
  obtain ⟨blank, blanks, parsedGas⟩ :=
    parseGas_gasText documented unannotated gas
  obtain ⟨behind, comps, behinds, cut, few, parsedOutputs⟩ :=
    split_function isWord standard plain plainResults blanks
  have unparenthesized : Unparenthesized ((mutabilityWords
      fragment.stateMutability).flatMap (' ' :: ·) ++ behind) := by
    intro char member
    rcases List.mem_append.mp member with inside | blank
    · exact unparenthesized_words words char inside
    · rcases behinds with rfl | rfl
      · cases blank
      · obtain rfl := List.mem_singleton.mp blank
        decide
  have white : ∀ char ∈ behind, isWhiteSpace char = true := by
    rcases behinds with rfl | rfl
    · exact List.forall_mem_nil _
    · exact isWhiteSpace_blank
  have modifiers := (parseModifiers_eq standard white).trans state
  have named : verifyIdentifier (some fragment.name) = .ok fragment.name :=
    verifyIdentifier_eq_ok.mpr ⟨rfl, identifier⟩
  have spelled : spacedCall fragment.name parameters ++ (functionChunks true
      fragment.stateMutability results gas).flatMap (' ' :: ·) =
        spacedCall fragment.name parameters ++
          ((mutabilityWords fragment.stateMutability).flatMap (' ' :: ·) ++
            returned true results) ++ gasText gas := by
    rw [flatMap_functionChunks]
    simp only [List.append_assoc]
  have read : readGas bigNumberFrom ((gas.map Int.ofNat).map .bigNumber) =
      .ok fragment.gas := by
    rw [annotated]
    cases gas with
    | none => rfl
    | some gas =>
        change (bigNumberFrom (.bigNumber gas) >>= fun value =>
          .ok (some value)) = _
        rw [documented.bigNumber]
        rfl
  have pieces : split " returns ".toList _ = _ := cut
  rw [spelled, FunctionFragment.fromString, parsedGas, Outcome.ok_bind]
  simp only [pieces, if_neg (Nat.not_lt.mpr few),
    matchParen_spacedCall isWord unparenthesized, trim_word isWord, named,
    if_pos isWord.nonempty, Outcome.ok_bind, modifiers, parsedOutputs]
  cases parseParams (Parameter.joined true parameters) false with
  | error problem => rfl
  | ok params =>
      cases parseParams (Parameter.joined true results) false with
      | error problem => rfl
      | ok outputs =>
          refine function_fromObject_eq_ok.mpr
            ⟨?_, rfl, identifier, read, rfl, rfl⟩
          exact (verifyState_stateOf rfl
            (by rw [state]) (by rw [state])).trans (congrArg Except.ok state)

theorem function_textRoundTrip_iff (documented : GasDocumented bigNumberFrom)
    {fragment : FunctionFragment}
    (standard : fragment.stateMutability ∈ mutabilities)
    (state : stateOf fragment.stateMutability =
      ⟨fragment.constant, fragment.payable, fragment.stateMutability⟩)
    (identifier : isIdentifier fragment.name = true) {gas : Option Nat}
    (annotated : fragment.gas = gas.map Int.ofNat)
    {parameters results : List Parameter}
    (inputs : fragment.inputs = Parameter.paramTypes parameters)
    (outputs : fragment.outputs = Parameter.paramTypes results)
    (plain : ∀ parameter ∈ parameters, parameter.Plain)
    (plainResults : ∀ parameter ∈ results, parameter.Plain) :
    Fragment.TextRoundTrip bigNumberFrom (.function fragment) ↔
      Restored false parameters ∧ Restored false results := by
  have isWord := word_of_isIdentifier identifier
  have isKind : Word "function".toList := ⟨by decide, by decide⟩
  have follows := follows_functionChunks standard plainResults gas
  have spaced := respace_full isKind isWord plain follows
  have trimmed := trimmed_spacedCall isWord follows.visible parameters
  have visible : EndsVisible ((functionChunks false fragment.stateMutability
      results gas).flatMap (' ' :: ·)) :=
    endsVisible_functionChunks standard results gas
  have formatted : (Fragment.function fragment).format .full = .ok _ :=
    congrArg Except.ok
      (function_format standard identifier annotated inputs outputs visible)
  have parsed := function_fromString documented standard state identifier
    annotated plain plainResults
  have read : Fragment.fromString bigNumberFrom ("function".toList ++ [' '] ++
      fragment.name ++ ('(' :: Parameter.joined false parameters ++ [')']) ++
        (functionChunks false fragment.stateMutability results gas).flatMap
          (' ' :: ·)) =
      (parseParams (Parameter.joined true parameters) false >>= fun inputs =>
        (parseParams (Parameter.joined true results) false).map fun outputs =>
          { fragment with inputs, outputs }).map .function := by
    have cut := trim_drop_kind "function".toList trimmed
    rw [Fragment.fromString, spaced]
    simp only [takeWhile_kind isKind]
    rw [if_neg (by decide), if_pos trivial]
    change (FunctionFragment.fromString bigNumberFrom (trim (List.drop
      "function".toList.length _))).map _ = _
    rw [cut, parsed]
  rw [← parseParams_same_iff plain, ← parseParams_same_iff plainResults]
  constructor
  · rintro ⟨text, result, formatted', readText, same⟩
    obtain rfl := Except.ok.inj (formatted.symm.trans formatted')
    rw [read] at readText
    obtain ⟨made, built, wrapped⟩ := Outcome.map_eq_ok.mp readText
    obtain ⟨params, parsedParams, rest⟩ := Outcome.bind_eq_ok.mp built
    obtain ⟨params', parsedOutputs, kept⟩ := Outcome.map_eq_ok.mp rest
    rw [← wrapped, ← kept, Fragment.withFlags, Fragment.withFlags, inputs,
      outputs] at same
    obtain ⟨-, sameInputs, sameOutputs, -⟩ :=
      FunctionFragment.mk.inj (Fragment.function.inj same)
    exact ⟨⟨params, parsedParams, sameInputs⟩,
      ⟨params', parsedOutputs, sameOutputs⟩⟩
  · rintro ⟨⟨params, parsedParams, sameInputs⟩,
      ⟨params', parsedOutputs, sameOutputs⟩⟩
    refine ⟨_, .function { fragment with inputs := params
                                         outputs := params' },
      formatted, ?_, ?_⟩
    · rw [read, parsedParams, Outcome.ok_bind, parsedOutputs]
      rfl
    · rw [Fragment.withFlags, Fragment.withFlags, inputs, outputs]
      simp only [sameInputs, sameOutputs]

end Kinds

end Web3Js.Fragments
