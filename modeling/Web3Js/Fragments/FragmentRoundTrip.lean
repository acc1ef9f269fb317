import Web3Js.Fragments.Signatures

/-!
# Round trips of fragments

A fragment is the same again after its JSON format but for the largest gas
that is a safe integer.  It is the same after its full format exactly when its
parameters are recoverable and only those of an event are indexed.
-/

namespace Web3Js.Fragments

open Abi (Error)

/-! ## Parameters -/

/-- Parameters that are the same after they are printed and read. -/
def Restored (allowIndexed : Bool) (parameters : List Parameter) : Prop :=
  ∀ parameter ∈ parameters,
    parameter.Recoverable ∧ parameter.Permitted allowIndexed

theorem restored_of_parseParams {allowIndexed : Bool}
    {parameters : List Parameter} {params : List ParamType}
    (plain : ∀ parameter ∈ parameters, parameter.Plain)
    (read : List.Forall₂ (fun parameter param =>
      (parameter.reread allowIndexed none).map ParamType.fromObject =
        some param) parameters params)
    (same : ParamType.withFlagsAll params =
      ParamType.withFlagsAll (Parameter.paramTypes parameters)) :
    Restored allowIndexed parameters := by
  induction read with
  | nil => exact List.forall_mem_nil _
  | cons first rest induction =>
      obtain ⟨firstPlain, restPlain⟩ := List.forall_mem_cons.mp plain
      rw [ParamType.withFlagsAll, Parameter.paramTypes,
        ParamType.withFlagsAll] at same
      obtain ⟨heads, tails⟩ := List.cons.inj same
      obtain ⟨node, reread, made⟩ := Option.map_eq_some_iff.mp first
      rw [← made] at heads
      exact List.forall_mem_cons.mpr
        ⟨recoverable_of_reread firstPlain reread heads,
          induction restPlain tails⟩

theorem parseParams_of_restored {allowIndexed : Bool}
    {parameters : List Parameter}
    (plain : ∀ parameter ∈ parameters, parameter.Plain)
    (restored : Restored allowIndexed parameters) :
    ∃ params, List.Forall₂ (fun parameter param =>
        (parameter.reread allowIndexed none).map ParamType.fromObject =
          some param) parameters params ∧
      ParamType.withFlagsAll params =
        ParamType.withFlagsAll (Parameter.paramTypes parameters) := by
  induction parameters with
  | nil => exact ⟨[], .nil, rfl⟩
  | cons first parameters induction =>
      obtain ⟨firstPlain, restPlain⟩ := List.forall_mem_cons.mp plain
      obtain ⟨⟨recoverable, permitted⟩, rest⟩ :=
        List.forall_mem_cons.mp restored
      obtain ⟨params, read, same⟩ := induction restPlain rest
      refine ⟨(first.rebuilt allowIndexed none).paramType :: params,
        .cons ?_ read, ?_⟩
      · rw [reread_of_recoverable firstPlain recoverable permitted none,
          Option.map_some, fromObject_json]
      · rw [ParamType.withFlagsAll, Parameter.paramTypes,
          ParamType.withFlagsAll, same,
          withFlags_rebuilt allowIndexed first rfl]

/-- The parameters of a signature are read as they were, but for missing flags,
exactly when they are restored. -/
theorem parseParams_same_iff {allowIndexed : Bool}
    {parameters : List Parameter}
    (plain : ∀ parameter ∈ parameters, parameter.Plain) :
    (∃ params, parseParams (Parameter.joined true parameters) allowIndexed =
        .ok params ∧ ParamType.withFlagsAll params =
          ParamType.withFlagsAll (Parameter.paramTypes parameters)) ↔
      Restored allowIndexed parameters := by
  constructor
  · rintro ⟨params, parsed, same⟩
    exact restored_of_parseParams plain ((parseParams_eq_ok plain).mp parsed)
      same
  · intro restored
    obtain ⟨params, read, same⟩ := parseParams_of_restored plain restored
    exact ⟨params, (parseParams_eq_ok plain).mpr read, same⟩

/-- The JSON formats of parameters describe the same types. -/
theorem fromObjects_jsonAll (parameters : List Parameter) :
    ParamType.fromObjects
        (ParamType.jsonAll (Parameter.paramTypes parameters)) =
      Parameter.paramTypes parameters := by
  rw [ParamType.jsonAll_eq_map, ParamType.fromObjects_eq_map,
    Parameter.paramTypes_eq_map, List.map_map, List.map_map]
  exact List.map_congr_left fun parameter _ =>
    fromObject_json_paramType parameter

/-! ## Fragments with their flags -/

/-- The fragment with missing flags read as false. -/
def Fragment.withFlags : Fragment → Fragment
  | .event fragment =>
      .event ⟨fragment.name, ParamType.withFlagsAll fragment.inputs,
        some (fragment.anonymous.getD false)⟩
  | .constructor fragment =>
      .constructor { fragment with
        inputs := ParamType.withFlagsAll fragment.inputs }
  | .function fragment =>
      .function { fragment with
        inputs := ParamType.withFlagsAll fragment.inputs
        outputs := ParamType.withFlagsAll fragment.outputs }
  | .error fragment =>
      .error { fragment with
        inputs := ParamType.withFlagsAll fragment.inputs }

/-- The same fragment after it is printed in full and read. -/
def Fragment.TextRoundTrip (bigNumberFrom : Gas → Except Error Int)
    (fragment : Fragment) : Prop :=
  ∃ text read, fragment.format .full = .ok text ∧
    Fragment.fromString bigNumberFrom text = .ok read ∧
      read.withFlags = fragment.withFlags

/-- The same fragment after it is written as JSON and read. -/
def Fragment.JsonRoundTrip (bigNumberFrom : Gas → Except Error Int)
    (fragment : Fragment) : Prop :=
  ∃ json read, fragment.json = .ok json ∧
    Fragment.fromObject bigNumberFrom json = .ok (some read) ∧
      read.withFlags = fragment.withFlags

/-! ## Calls -/

/-- The text of a name with its parameters, spaced evenly. -/
def spacedCall (name : Text) (parameters : List Parameter) : Text :=
  name ++ (" (".toList ++ Parameter.joined true parameters ++ [')'])

theorem word_of_isIdentifier {name : Text}
    (identifier : isIdentifier name = true) : Word name :=
  let ⟨nonempty, named⟩ := isNameChar_of_isIdentifier identifier
  ⟨nonempty, named⟩

theorem Word.unparenthesized {word : Text} (isWord : Word word) :
    Unparenthesized word := by
  intro char member
  have other := isTextChar_delimiters (isWord.isTextChar char member)
  exact ⟨other.2.1, other.2.2.1⟩

theorem Word.trimmed {word : Text} (isWord : Word word) : Trimmed word :=
  ⟨fun char member => isWord.visible char (List.mem_of_mem_head? member),
    fun char member => isWord.visible char (List.mem_of_mem_getLast? member)⟩

/-- A call is taken apart at its parentheses. -/
theorem matchParen_spacedCall {name behind : Text} (isWord : Word name)
    (plain : Unparenthesized behind) (parameters : List Parameter) :
    matchParen (spacedCall name parameters ++ behind) =
      some (name ++ [' '], Parameter.joined true parameters, behind) := by
  have front : Unparenthesized (name ++ [' ']) := by
    intro char member
    rcases List.mem_append.mp member with inside | blank
    · exact isWord.unparenthesized char inside
    · obtain rfl := List.mem_singleton.mp blank
      decide
  have spelled : spacedCall name parameters ++ behind =
      (name ++ [' ']) ++ '(' :: (Parameter.joined true parameters ++
        ')' :: behind) := by
    have opens : " (".toList = [' ', '('] := by decide
    rw [spacedCall, opens]
    simp
  rw [spelled]
  exact matchParen_call front plain _

theorem trim_word {word : Text} (isWord : Word word) :
    trim (word ++ [' ']) = word := by
  rw [trim_append_blank _ isWhiteSpace_blank, isWord.trimmed.trim_eq]

/-- The kind is cut off the front of a signature. -/
theorem takeWhile_kind {kind rest : Text} (isWord : Word kind) :
    (kind ++ ' ' :: rest).takeWhile (· ≠ ' ') = kind := by
  have all : kind.all (· ≠ ' ') = true := by
    rw [List.all_eq_true]
    intro char member
    exact decide_eq_true
      (isTextChar_delimiters (isWord.isTextChar char member)).2.2.2.2.2
  have stops : Words.Stops (fun char : Char => decide (char ≠ ' '))
      (' ' :: rest) := Words.stops_cons (by decide) rest
  exact Words.takeWhile_word all stops

theorem trim_drop_kind (kind : Text) {rest : Text} (trimmed : Trimmed rest) :
    trim ((kind ++ ' ' :: rest).drop kind.length) = rest := by
  rw [List.drop_left]
  exact (trim_blank_append isWhiteSpace_blank rest).trans
    trimmed.trim_eq

theorem solid_words {words : List Text} (all : ∀ word ∈ words, Word word) :
    Solid (words.flatMap (' ' :: ·)) := by
  induction words with
  | nil => exact fun rest => rfl
  | cons word words induction =>
      obtain ⟨isWord, rest⟩ := List.forall_mem_cons.mp all
      exact (solid_spaced isWord).append_solid (induction rest)

theorem follows_words {words : List Text} (all : ∀ word ∈ words, Word word) :
    Follows (words.flatMap (' ' :: ·)) (words.flatMap (' ' :: ·)) := by
  refine (solid_words all).follows ?_ (endsVisible_words all)
  cases words with
  | nil => exact .inl rfl
  | cons word words => exact .inr ⟨_, rfl⟩

theorem unparenthesized_words {words : List Text}
    (all : ∀ word ∈ words, Word word) :
    Unparenthesized (words.flatMap (' ' :: ·)) := by
  intro char member
  obtain ⟨word, given, inside⟩ := List.mem_flatMap.mp member
  rcases List.mem_cons.mp inside with rfl | inside
  · decide
  · exact (all word given).unparenthesized char inside

theorem trimmed_spacedCall {name behind : Text} (isWord : Word name)
    (visible : EndsVisible behind) (parameters : List Parameter) :
    Trimmed (spacedCall name parameters ++ behind) := by
  constructor
  · rw [spacedCall, List.append_assoc,
      List.head?_append_of_ne_nil _ isWord.nonempty]
    exact isWord.trimmed.first
  · have ends := (endsVisible_parenthesis.prepend (List.cons_ne_nil _ _)
      (" (".toList ++ Parameter.joined true parameters)).prepend
        (by simp) name
    exact ends.append visible

/-- Chunks that each end with a space, behind one. -/
theorem shift_spaces (chunks : List Text) :
    ' ' :: chunks.flatMap (· ++ [' ']) =
      chunks.flatMap (' ' :: ·) ++ [' '] := by
  induction chunks with
  | nil => rfl
  | cons chunk chunks induction =>
      rw [List.flatMap_cons, List.flatMap_cons, List.append_assoc,
        List.append_assoc, List.singleton_append, induction]
      simp

/-- A full text ends where its last chunk ends. -/
theorem trim_full {front name : Text} {chunks : List Text}
    (isWord : Word name)
    (first : ∀ char ∈ (front ++ name).head?, isWhiteSpace char = false)
    (visible : EndsVisible (chunks.flatMap (' ' :: ·)))
    (parameters : List Parameter) :
    trim (front ++ formatCall .full name (Parameter.paramTypes parameters) ++
        chunks.flatMap (· ++ [' '])) =
      front ++ name ++ ('(' :: Parameter.joined false parameters ++ [')']) ++
        chunks.flatMap (' ' :: ·) := by
  have spelled : front ++ formatCall .full name
      (Parameter.paramTypes parameters) ++ chunks.flatMap (· ++ [' ']) =
        (front ++ name ++ ('(' :: Parameter.joined false parameters ++
          [')']) ++ chunks.flatMap (' ' :: ·)) ++ [' '] := by
    have closes : ") ".toList = [')', ' '] := by decide
    rw [List.append_assoc _ _ [' '], ← shift_spaces, formatCall,
      formatParams_full, closes]
    simp
  have parenthesis : EndsVisible ('(' :: Parameter.joined false parameters ++
      [')']) := endsVisible_parenthesis.prepend (List.cons_ne_nil _ _) _
  have trimmed : Trimmed (front ++ name ++ ('(' :: Parameter.joined false
      parameters ++ [')']) ++ chunks.flatMap (' ' :: ·)) := by
    constructor
    · rw [List.append_assoc, List.head?_append_of_ne_nil _
        (List.append_ne_nil_of_right_ne_nil _ isWord.nonempty)]
      exact first
    · exact (parenthesis.prepend (by simp) _).append visible
  rw [spelled, trim_append_blank _ isWhiteSpace_blank, trimmed.trim_eq]

/-- A full text behind a word for its kind, spaced evenly. -/
theorem respace_full {kind name output : Text} {chunks : List Text}
    (isKind : Word kind) (isWord : Word name)
    {parameters : List Parameter}
    (plain : ∀ parameter ∈ parameters, parameter.Plain)
    (follows : Follows (chunks.flatMap (' ' :: ·)) output) :
    respace (kind ++ [' '] ++ name ++
        ('(' :: Parameter.joined false parameters ++ [')']) ++
          chunks.flatMap (' ' :: ·)) =
      kind ++ ' ' :: (spacedCall name parameters ++ output) := by
  have solid : Solid (kind ++ ' ' :: name) :=
    isKind.solid.append_solid (solid_spaced isWord)
  have spaced := respace_signature plain solid (by simp)
    (by
      rw [List.head?_append_of_ne_nil _ isKind.nonempty]
      exact isKind.trimmed.first) follows rfl
  simpa [spacedCall] using spaced

namespace ParamType

mutual

/-- Flags are not part of a signature. -/
theorem format_withFlags (param : ParamType) :
    format .sighash (withFlags param) = format .sighash param := by
  match param with
  | ⟨name, type, baseType, indexed, components, arrayLength, arrayChildren⟩ =>
      rw [withFlags, format, format, formatChild_withFlags arrayChildren,
        formatComponents_withFlags components]
      rfl

theorem formatChild_withFlags (child : Option ParamType) :
    formatChild .sighash (withFlagsOf child) = formatChild .sighash child := by
  match child with
  | none => rfl
  | some child =>
      rw [withFlagsOf, formatChild, formatChild, format_withFlags child]

theorem formatComponents_withFlags (components : Option (List ParamType)) :
    formatComponents .sighash (withFlagsIn components) =
      formatComponents .sighash components := by
  match components with
  | none => rfl
  | some components =>
      rw [withFlagsIn, formatComponents, formatComponents,
        formatAll_withFlags components]

theorem formatAll_withFlags (params : List ParamType) :
    formatAll .sighash (withFlagsAll params) = formatAll .sighash params := by
  match params with
  | [] => rfl
  | param :: params =>
      rw [withFlagsAll, formatAll, formatAll, format_withFlags param,
        formatAll_withFlags params]

end

end ParamType

/-! ## Events and errors -/

section Kinds

variable {bigNumberFrom : Gas → Except Error Int}

/-- A fragment whose text is read by its parameters alone. -/
theorem textRoundTrip_iff_of_read {fragment : Fragment} {text : Text}
    {make : List ParamType → Fragment} {allowIndexed : Bool}
    {parameters : List Parameter}
    (plain : ∀ parameter ∈ parameters, parameter.Plain)
    (formatted : fragment.format .full = .ok text)
    (read : Fragment.fromString bigNumberFrom text =
      (parseParams (Parameter.joined true parameters) allowIndexed).map make)
    (same_iff : ∀ params, (make params).withFlags = fragment.withFlags ↔
      ParamType.withFlagsAll params =
        ParamType.withFlagsAll (Parameter.paramTypes parameters)) :
    Fragment.TextRoundTrip bigNumberFrom fragment ↔
      Restored allowIndexed parameters := by
  rw [← parseParams_same_iff plain]
  constructor
  · rintro ⟨text', result, formatted', parsed, same⟩
    obtain rfl := Except.ok.inj (formatted.symm.trans formatted')
    rw [read] at parsed
    obtain ⟨params, parsedParams, made⟩ := Outcome.map_eq_ok.mp parsed
    rw [← made, same_iff] at same
    exact ⟨params, parsedParams, same⟩
  · rintro ⟨params, parsed, same⟩
    refine ⟨text, make params, formatted, ?_, (same_iff params).mpr same⟩
    rw [read, parsed]
    rfl

/-- The words of an event behind its parameters. -/
def eventWords (fragment : EventFragment) : List Text :=
  if fragment.anonymous = some true then ["anonymous".toList] else []

theorem word_eventWords (fragment : EventFragment) :
    ∀ word ∈ eventWords fragment, Word word := by
  intro word member
  rw [eventWords] at member
  split at member
  · obtain rfl := List.mem_singleton.mp member
    exact ⟨by decide, by decide⟩
  · cases member

theorem event_format {fragment : EventFragment}
    (identifier : isIdentifier fragment.name = true)
    {parameters : List Parameter}
    (inputs : fragment.inputs = Parameter.paramTypes parameters) :
    fragment.format .full = "event".toList ++ [' '] ++ fragment.name ++
      ('(' :: Parameter.joined false parameters ++ [')']) ++
        (eventWords fragment).flatMap (' ' :: ·) := by
  have kind : "event ".toList = "event".toList ++ [' '] := by decide
  have behind : (if FormatType.full ≠ .sighash ∧
      fragment.anonymous = some true then "anonymous ".toList else []) =
        (eventWords fragment).flatMap (· ++ [' ']) := by
    rw [eventWords]
    by_cases anonymous : fragment.anonymous = some true
    · rw [if_pos ⟨by decide, anonymous⟩, if_pos anonymous]
      decide
    · rw [if_neg fun both => anonymous both.2, if_neg anonymous]
      rfl
  have visible := endsVisible_words (word_eventWords fragment)
  rw [EventFragment.format, if_neg (by decide), behind, inputs, kind]
  apply trim_full (word_of_isIdentifier identifier) _ visible
  intro char member
  obtain rfl : 'e' = char := Option.some.inj member
  decide

theorem event_fromString {fragment : EventFragment}
    (identifier : isIdentifier fragment.name = true)
    (parameters : List Parameter) :
    EventFragment.fromString (spacedCall fragment.name parameters ++
        (eventWords fragment).flatMap (' ' :: ·)) =
      (parseParams (Parameter.joined true parameters) true).map fun inputs =>
        ⟨fragment.name, inputs, some (fragment.anonymous.getD false)⟩ := by
  have isWord := word_of_isIdentifier identifier
  have anonymous : ((split [' '] ((eventWords fragment).flatMap
      (' ' :: ·))).any fun modifier => trim modifier == "anonymous".toList) =
        fragment.anonymous.getD false := by
    rw [eventWords]
    cases fragment.anonymous with
    | none => decide
    | some flag => cases flag <;> decide
  have named : verifyIdentifier (some fragment.name) = .ok fragment.name :=
    verifyIdentifier_eq_ok.mpr ⟨rfl, identifier⟩
  rw [EventFragment.fromString, matchParen_spacedCall isWord
    (unparenthesized_words (word_eventWords fragment))]
  simp only [anonymous, trim_word isWord, EventFragment.fromObject, named]
  cases parseParams (Parameter.joined true parameters) true <;> rfl

theorem event_textRoundTrip_iff {fragment : EventFragment}
    (identifier : isIdentifier fragment.name = true)
    {parameters : List Parameter}
    (inputs : fragment.inputs = Parameter.paramTypes parameters)
    (plain : ∀ parameter ∈ parameters, parameter.Plain) :
    Fragment.TextRoundTrip bigNumberFrom (.event fragment) ↔
      Restored true parameters := by
  have isWord := word_of_isIdentifier identifier
  have isKind : Word "event".toList := ⟨by decide, by decide⟩
  have words := word_eventWords fragment
  have spaced := respace_full isKind isWord plain (follows_words words)
  have trimmed := trimmed_spacedCall isWord (endsVisible_words words)
    parameters
  have read : Fragment.fromString bigNumberFrom
      (fragment.format .full) =
        (parseParams (Parameter.joined true parameters) true).map
          fun inputs => .event ⟨fragment.name, inputs,
            some (fragment.anonymous.getD false)⟩ := by
    have cut := trim_drop_kind "event".toList trimmed
    rw [event_format identifier inputs, Fragment.fromString, spaced]
    simp only [takeWhile_kind isKind, if_true]
    change (EventFragment.fromString (trim (List.drop "event".toList.length
      _))).map _ = _
    rw [cut, event_fromString identifier]
    cases parseParams (Parameter.joined true parameters) true <;> rfl
  apply textRoundTrip_iff_of_read plain rfl read
  intro params
  rw [Fragment.withFlags, Fragment.withFlags, inputs]
  constructor
  · intro same
    exact (EventFragment.mk.inj (Fragment.event.inj same)).2.1
  · intro same
    rw [same]
    rfl

theorem error_format {fragment : ErrorFragment}
    (identifier : isIdentifier fragment.name = true)
    {parameters : List Parameter}
    (inputs : fragment.inputs = Parameter.paramTypes parameters) :
    fragment.format .full = "error".toList ++ [' '] ++ fragment.name ++
      ('(' :: Parameter.joined false parameters ++ [')']) ++
        ([] : List Text).flatMap (' ' :: ·) := by
  have kind : "error ".toList = "error".toList ++ [' '] := by decide
  have visible : EndsVisible (([] : List Text).flatMap (' ' :: ·)) :=
    endsVisible_words (List.forall_mem_nil _)
  have first : ∀ char ∈ ("error".toList ++ [' '] ++ fragment.name).head?,
      isWhiteSpace char = false := by
    intro char member
    obtain rfl : 'e' = char := Option.some.inj member
    decide
  have whole := trim_full (word_of_isIdentifier identifier) first visible
    parameters
  rw [List.flatMap_nil, List.append_nil] at whole
  rw [ErrorFragment.format, if_neg (by decide), inputs, kind]
  exact whole

theorem eq_of_checkForbidden {fragment result : ErrorFragment}
    (permitted : checkForbidden fragment = .ok result) : result = fragment := by
  rw [checkForbidden] at permitted
  split at permitted
  · cases permitted
  · exact (Except.ok.inj permitted).symm

/-- Fragments that differ in flags only are forbidden alike. -/
theorem checkForbidden_of_same {name : Text} {params params' : List ParamType}
    (same : ParamType.withFlagsAll params = ParamType.withFlagsAll params')
    (permitted : checkForbidden ⟨name, params'⟩ = .ok ⟨name, params'⟩) :
    checkForbidden ⟨name, params⟩ = .ok ⟨name, params⟩ := by
  have printed : (⟨name, params⟩ : ErrorFragment).format .sighash =
      (⟨name, params'⟩ : ErrorFragment).format .sighash := by
    rw [ErrorFragment.format, ErrorFragment.format, formatCall, formatCall,
      formatParams, formatParams, ← ParamType.formatAll_withFlags params, same,
      ParamType.formatAll_withFlags]
  rw [checkForbidden] at permitted ⊢
  rw [printed]
  split at permitted
  · cases permitted
  · rename_i allowed
    rw [if_neg allowed]

theorem error_textRoundTrip_iff {fragment : ErrorFragment}
    (identifier : isIdentifier fragment.name = true)
    (permitted : checkForbidden fragment = .ok fragment)
    {parameters : List Parameter}
    (inputs : fragment.inputs = Parameter.paramTypes parameters)
    (plain : ∀ parameter ∈ parameters, parameter.Plain) :
    Fragment.TextRoundTrip bigNumberFrom (.error fragment) ↔
      Restored false parameters := by
  obtain ⟨name, fragmentInputs⟩ := fragment
  obtain rfl : fragmentInputs = Parameter.paramTypes parameters := inputs
  have isWord : Word name := word_of_isIdentifier identifier
  have isKind : Word "error".toList := ⟨by decide, by decide⟩
  have none : ∀ word ∈ ([] : List Text), Word word := List.forall_mem_nil _
  have spaced := respace_full isKind isWord plain (follows_words none)
  have trimmed := trimmed_spacedCall isWord (endsVisible_words none)
    parameters
  have named : verifyIdentifier (some name) = .ok name :=
    verifyIdentifier_eq_ok.mpr ⟨rfl, identifier⟩
  have read : Fragment.fromString bigNumberFrom
      (ErrorFragment.format .full ⟨name, Parameter.paramTypes parameters⟩) =
        (parseParams (Parameter.joined true parameters) false >>=
          fun inputs => checkForbidden ⟨name, inputs⟩ >>=
            checkForbidden).map .error := by
    have cut := trim_drop_kind "error".toList trimmed
    have front : (("error".toList ++ ' ' :: (spacedCall name parameters ++
        ([] : List Text).flatMap (' ' :: ·))).takeWhile (· ≠ '(')) =
          "error".toList ++ ' ' :: name ++ [' '] := by
      have opens : " (".toList = [' ', '('] := by decide
      have text : "error".toList ++ ' ' :: (spacedCall name parameters ++
          ([] : List Text).flatMap (' ' :: ·)) =
            ("error".toList ++ ' ' :: name ++ [' ']) ++ '(' ::
              (Parameter.joined true parameters ++ [')']) := by
        rw [spacedCall, opens]
        simp
      have all : ("error".toList ++ ' ' :: name ++ [' ']).all (· ≠ '(') =
          true := by
        rw [List.all_append, List.all_append, List.all_cons]
        have plain : name.all (· ≠ '(') = true := by
          rw [List.all_eq_true]
          intro char member
          exact decide_eq_true (isWord.unparenthesized char member).1
        rw [plain]
        decide
      rw [text]
      exact Words.takeWhile_word all (Words.stops_cons (by decide) _)
    have other : trim ("error".toList ++ ' ' :: name ++ [' ']) ≠
        "constructor".toList := by
      have both : Trimmed ("error".toList ++ [' '] ++ name) :=
        isKind.trimmed.enclosed isWord.trimmed isKind.nonempty
          isWord.nonempty [' ']
      have spelled : "error".toList ++ ' ' :: name ++ [' '] =
          "error".toList ++ [' '] ++ name ++ [' '] := by
        simp
      rw [spelled, trim_append_blank _ isWhiteSpace_blank, both.trim_eq]
      intro same
      have heads : some 'e' = some 'c' := congrArg List.head? same
      cases Option.some.inj heads
    rw [error_format identifier rfl, Fragment.fromString, spaced]
    simp only [takeWhile_kind isKind]
    rw [front, if_neg (by decide), if_neg (by decide), if_neg other,
      if_pos trivial]
    change (ErrorFragment.fromString (trim (List.drop "error".toList.length
      _))).map _ = _
    rw [cut, ErrorFragment.fromString, matchParen_spacedCall isWord
      (unparenthesized_words none)]
    simp only [trim_word isWord, named, ErrorFragment.fromObject,
      if_pos isWord.nonempty, Outcome.ok_bind]
    rfl
  rw [← parseParams_same_iff plain]
  constructor
  · rintro ⟨text, result, formatted, parsed, same⟩
    obtain rfl := Except.ok.inj formatted
    rw [read] at parsed
    obtain ⟨made, checked, wrapped⟩ := Outcome.map_eq_ok.mp parsed
    obtain ⟨params, parsedParams, allowed⟩ := Outcome.bind_eq_ok.mp checked
    obtain ⟨first, checkedFirst, checkedMade⟩ := Outcome.bind_eq_ok.mp allowed
    have kept : made = ⟨name, params⟩ :=
      (eq_of_checkForbidden checkedMade).trans
        (eq_of_checkForbidden checkedFirst)
    refine ⟨params, parsedParams, ?_⟩
    rw [← wrapped, kept, Fragment.withFlags, Fragment.withFlags] at same
    exact (ErrorFragment.mk.inj (Fragment.error.inj same)).2
  · rintro ⟨params, parsed, same⟩
    have allowed := checkForbidden_of_same same permitted
    refine ⟨_, .error ⟨name, params⟩, rfl, ?_, ?_⟩
    · rw [read, parsed, Outcome.ok_bind, allowed, Outcome.ok_bind, allowed]
      rfl
    · rw [Fragment.withFlags, Fragment.withFlags, same]

end Kinds

/-! ## Mutability -/

/-- The four state mutabilities. -/
def mutabilities : List Text :=
  ["pure".toList, "view".toList, "nonpayable".toList, "payable".toList]

theorem mutabilities_cases {stateMutability : Text}
    (standard : stateMutability ∈ mutabilities) :
    stateMutability = "pure".toList ∨ stateMutability = "view".toList ∨
      stateMutability = "nonpayable".toList ∨
        stateMutability = "payable".toList := by
  simpa only [mutabilities, List.mem_cons, List.not_mem_nil, or_false]
    using standard

/-- The flags that come with a mutability. -/
def stateOf (stateMutability : Text) : StateOutputValue :=
  ⟨decide (stateMutability = "view".toList ∨
      stateMutability = "pure".toList),
    decide (stateMutability = "payable".toList), stateMutability⟩

/-- The flags of an accepted object agree with its mutability. -/
theorem eq_stateOf_of_verifyState {Param : Type} {value : FragmentObject Param}
    {state : StateOutputValue} (verified : verifyState value = .ok state) :
    state = stateOf state.stateMutability := by
  have four : ∀ constant payable : Bool, ¬(payable ∧ constant) →
      (⟨constant, payable, if constant then "view".toList
        else if payable then "payable".toList
        else "nonpayable".toList⟩ : StateOutputValue) =
          stateOf (if constant then "view".toList
            else if payable then "payable".toList
            else "nonpayable".toList) := by
    intro constant payable
    cases constant <;> cases payable <;> decide
  rw [verifyState] at verified
  split at verified
  · simp only at verified
    split at verified
    · cases verified
    · split at verified
      · cases verified
      · obtain rfl := Except.ok.inj verified
        rfl
  · split at verified
    · cases verified
    · simp only at verified
      split at verified
      · cases verified
      · rename_i both
        obtain rfl := Except.ok.inj verified
        exact four _ _ both
  · rename_i constant _ _ _
    obtain rfl := Except.ok.inj verified
    cases constant <;> decide
  · split at verified
    · cases verified
    · obtain rfl := Except.ok.inj verified
      decide

/-- The word for a mutability other than the default. -/
def mutabilityWords (stateMutability : Text) : List Text :=
  if stateMutability = "nonpayable".toList then [] else [stateMutability]

theorem word_mutabilityWords {stateMutability : Text}
    (standard : stateMutability ∈ mutabilities) :
    ∀ word ∈ mutabilityWords stateMutability, Word word := by
  have all : ∀ mutability ∈ mutabilities,
      mutability ≠ [] ∧ mutability.all isNameChar = true := by
    decide
  intro word member
  rw [mutabilityWords] at member
  split at member
  · cases member
  · obtain rfl := List.mem_singleton.mp member
    obtain ⟨nonempty, named⟩ := all word standard
    exact ⟨nonempty, named⟩

theorem formatMutability_eq {stateMutability : Text}
    (standard : stateMutability ∈ mutabilities) :
    formatMutability stateMutability =
      (mutabilityWords stateMutability).flatMap (· ++ [' ']) := by
  have all : ∀ mutability ∈ mutabilities, formatMutability mutability =
      (mutabilityWords mutability).flatMap (· ++ [' ']) := by
    decide
  exact all stateMutability standard

theorem parseModifiers_eq {stateMutability : Text}
    (standard : stateMutability ∈ mutabilities) {blank : Text}
    (white : ∀ char ∈ blank, isWhiteSpace char = true) :
    parseModifiers (trim ((mutabilityWords stateMutability).flatMap
        (' ' :: ·) ++ blank)) = stateOf stateMutability := by
  have all : ∀ mutability ∈ mutabilities, parseModifiers
      (trim ((mutabilityWords mutability).flatMap (' ' :: ·))) =
        stateOf mutability := by
    decide
  rw [trim_append_blank _ white]
  exact all stateMutability standard

/-- An object with the flags of its mutability is accepted as it is. -/
theorem verifyState_stateOf {Param : Type} {value : FragmentObject Param}
    {stateMutability : Text}
    (mutability : value.stateMutability = some stateMutability)
    (constant : value.constant = some (stateOf stateMutability).constant)
    (payable : value.payable = some (stateOf stateMutability).payable) :
    verifyState value = .ok (stateOf stateMutability) := by
  rw [verifyState, mutability, constant, payable]
  simp [stateOf]

/-- The JSON format leaves the default mutability out. -/
theorem verifyState_json {Param : Type} {value : FragmentObject Param}
    {stateMutability : Text}
    (mutability : value.stateMutability = jsonMutability stateMutability)
    (constant : value.constant = some (stateOf stateMutability).constant ∨
      value.constant = none ∧ value.type = "constructor".toList)
    (payable : value.payable = some (stateOf stateMutability).payable) :
    verifyState value = .ok (stateOf stateMutability) := by
  rw [jsonMutability] at mutability
  split at mutability
  · rename_i default
    subst default
    have isDefault : stateOf "nonpayable".toList =
        ⟨false, false, "nonpayable".toList⟩ := by
      decide
    rw [isDefault] at constant payable ⊢
    rcases constant with constant | ⟨constant, type⟩
    · simp [verifyState, mutability, payable, constant]
    · simp [verifyState, mutability, payable, constant, type]
  · rcases constant with constant | ⟨constant, -⟩
    · exact verifyState_stateOf mutability constant payable
    · rw [verifyState, mutability, constant, payable]
      simp [stateOf]

/-! ## Gas -/

/-- What is documented of numbers that are made from gas. -/
structure GasDocumented (bigNumberFrom : Gas → Except Error Int) : Prop where
  text : ∀ number : Nat,
    bigNumberFrom (.text (Nat.toDigits 10 number)) = .ok number
  bigNumber : ∀ value, bigNumberFrom (.bigNumber value) = .ok value
  number : ∀ number : Nat, number < Abi.maxSafeInteger →
    bigNumberFrom (.number number) = .ok number
  /-- `overflow` -/
  overflow : ∀ number : Nat, Abi.maxSafeInteger ≤ number →
    ∃ problem, bigNumberFrom (.number number) = .error problem

end Web3Js.Fragments
