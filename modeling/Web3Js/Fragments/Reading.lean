import Web3Js.Fragments.Objects
import Web3Js.Fragments.Parameters

/-!
# Reading parameters

A parameter is read from its full text, where the parentheses may have been
spaced.  A name that objects inherit is taken for a modifier or refused, a
length is read as it was printed, and nothing between parentheses is read as a
component without a type.
-/

namespace Web3Js.Fragments

open Abi (Error verifyType checkModifier)
open Validator (Elementary)

/-! ## Runs of the parser without positions -/

/-- The parser after a text, if it accepts it. -/
def advance (allowIndexed : Bool) (parser : Parser) : Text → Option Parser
  | [] => some parser
  | char :: text =>
      (parser.step allowIndexed char 0).toOption.bind fun next =>
        advance allowIndexed next text

/-- What the node is closed as. -/
def ParseNode.closed (allowIndexed : Bool) (node : ParseNode) :
    Option JsonFragmentType :=
  (node.close allowIndexed 0).toOption.map ParseNode.fragment

/-- What the root ends as. -/
def ParseNode.finished (allowIndexed : Bool) (node : ParseNode) :
    Option JsonFragmentType :=
  (node.finish allowIndexed 0).toOption.map ParseNode.fragment

theorem toOption_close (allowIndexed : Bool) (node : ParseNode)
    (position position' : Nat) :
    (node.close allowIndexed position).toOption =
      (node.close allowIndexed position').toOption := by
  rw [ParseNode.close, ParseNode.close]
  split
  · split <;> rfl
  · rfl

theorem toOption_finish (allowIndexed : Bool) (node : ParseNode)
    (position position' : Nat) :
    (node.finish allowIndexed position).toOption =
      (node.finish allowIndexed position').toOption := by
  rw [ParseNode.finish, ParseNode.finish]
  split
  · split <;> rfl
  · rfl

theorem toOption_space (allowIndexed : Bool) (node : ParseNode)
    (position position' : Nat) :
    (node.space allowIndexed position).toOption =
      (node.space allowIndexed position').toOption := by
  rw [ParseNode.space, ParseNode.space, ParseNode.endName,
    ParseNode.endName]
  split
  · split
    · split <;> rfl
    · rfl
  · rfl

theorem toOption_read (node : ParseNode) (char : Char)
    (position position' : Nat) :
    (node.read char position).toOption =
      (node.read char position').toOption := by
  rw [ParseNode.read, ParseNode.read]
  split
  · rfl
  · split
    · rfl
    · split <;> rfl

/-- The position is only told in errors. -/
theorem toOption_step (allowIndexed : Bool) (parser : Parser) (char : Char)
    (position position' : Nat) :
    (parser.step allowIndexed char position).toOption =
      (parser.step allowIndexed char position').toOption := by
  simp only [Parser.step]
  split
  · split <;> rfl
  · split
    · rw [Outcome.toOption_bind, Outcome.toOption_bind,
        toOption_close allowIndexed _ position position']
      congr 1
      funext child
      split <;> rfl
    · split
      · rw [Outcome.toOption_bind, Outcome.toOption_bind,
          toOption_close allowIndexed _ position position']
      · split
        · rw [Outcome.toOption_bind, Outcome.toOption_bind,
            toOption_space allowIndexed _ position position']
        · split
          · split <;> rfl
          · split
            · split <;> rfl
            · rw [Outcome.toOption_bind, Outcome.toOption_bind,
                toOption_read _ _ position position']

theorem toOption_run (allowIndexed : Bool) (parser : Parser) (text : Text)
    (position : Nat) :
    (parser.run allowIndexed text position).toOption =
      advance allowIndexed parser text := by
  induction text generalizing parser position with
  | nil => rfl
  | cons char text induction =>
      rw [Parser.run, Outcome.toOption_bind, advance,
        toOption_step allowIndexed parser char position 0]
      congr 1
      funext next
      exact induction next (position + 1)

theorem advance_append (allowIndexed : Bool) (parser : Parser)
    (text rest : Text) :
    advance allowIndexed parser (text ++ rest) =
      (advance allowIndexed parser text).bind fun next =>
        advance allowIndexed next rest := by
  induction text generalizing parser with
  | nil => rfl
  | cons char text induction =>
      rw [List.cons_append, advance, advance, Option.bind_assoc]
      congr 1
      funext next
      exact induction next

/-! ## Words -/

/-- A character that means nothing to the parser but itself. -/
def isOrdinary (char : Char) : Bool :=
  !"(),[]".toList.contains char && !isWhiteSpace char

theorem isOrdinary_of_isAlphanum {char : Char}
    (word : char.isAlphanum = true) : isOrdinary char = true := by
  have other : "(),[]".toList.contains char = false := by
    rw [Bool.eq_false_iff]
    intro member
    rw [List.contains_iff_mem] at member
    have none : ∀ special ∈ "(),[]".toList, special.isAlphanum = false :=
      List.all_iff_forall_prop.mp (by decide)
    rw [none char member] at word
    cases word
  rw [isOrdinary, other, Abi.isWhiteSpace_of_isAlphanum word]
  rfl

theorem isOrdinary_of_isPlain {char : Char}
    (plain : Double.isPlain char = true) : isOrdinary char = true := by
  rw [Double.isPlain, Bool.or_eq_true, Bool.or_eq_true] at plain
  rcases plain with (word | point) | plus
  · exact isOrdinary_of_isAlphanum word
  · obtain rfl := eq_of_beq point
    decide
  · obtain rfl := eq_of_beq plus
    decide

theorem isOrdinary_of_isNameChar {char : Char}
    (named : isNameChar char = true) : isOrdinary char = true := by
  rw [isNameChar, Bool.or_eq_true, Bool.or_eq_true] at named
  rcases named with (word | dollar) | underscore
  · exact isOrdinary_of_isAlphanum word
  · obtain rfl := eq_of_beq dollar
    decide
  · obtain rfl := eq_of_beq underscore
    decide

section Words

variable {allowIndexed : Bool} {node : ParseNode} {parents : List ParseNode}

theorem step_ordinary {char : Char} (ordinary : isOrdinary char = true)
    (position : Nat) :
    Parser.step allowIndexed ⟨node, parents⟩ char position =
      (node.read char position).map fun node => ⟨node, parents⟩ := by
  rw [isOrdinary, Bool.and_eq_true, Bool.not_eq_true', Bool.not_eq_true']
    at ordinary
  have other : ∀ special ∈ "(),[]".toList, char ≠ special := by
    intro special member same
    subst same
    rw [← List.contains_iff_mem, ordinary.1] at member
    cases member
  simp only [Parser.step, if_neg (other '(' (by decide)),
    if_neg (other ')' (by decide)), if_neg (other ',' (by decide)),
    if_neg (other '[' (by decide)), if_neg (other ']' (by decide)),
    ordinary.2, Bool.false_eq_true, if_false]
  cases node.read char position <;> rfl

/-- Ordinary characters go on the type that is being read. -/
theorem advance_type {text : Text} (nonempty : text ≠ [])
    (ordinary : text.all isOrdinary = true)
    (typing : node.allowType = true) :
    advance allowIndexed ⟨node, parents⟩ text =
      some ⟨{ node with
        type := node.type ++ text
        allowParams := true
        allowArray := true }, parents⟩ := by
  induction text generalizing node with
  | nil => exact absurd rfl nonempty
  | cons char text induction =>
      obtain ⟨first, rest⟩ := Bool.and_eq_true_iff.mp ordinary
      rw [advance, step_ordinary first, ParseNode.read, if_pos typing]
      change advance allowIndexed ⟨_, parents⟩ text = _
      cases text with
      | nil => rfl
      | cons next text =>
          apply (induction (List.cons_ne_nil _ _) rest ?_).trans
          · simp only [List.append_assoc, List.singleton_append]
          · exact typing

/-- Ordinary characters go on the name that is being read. -/
theorem advance_name {text : Text} (nonempty : text ≠ [])
    (ordinary : text.all isOrdinary = true)
    (typed : node.allowType = false) (naming : node.allowName = true) :
    advance allowIndexed ⟨node, parents⟩ text =
      some ⟨{ node with
        name := node.name ++ text
        allowArray := false }, parents⟩ := by
  induction text generalizing node with
  | nil => exact absurd rfl nonempty
  | cons char text induction =>
      obtain ⟨first, rest⟩ := Bool.and_eq_true_iff.mp ordinary
      rw [advance, step_ordinary first, ParseNode.read,
        if_neg (Bool.eq_false_iff.mp typed), if_pos naming]
      change advance allowIndexed ⟨_, parents⟩ text = _
      cases text with
      | nil => rfl
      | cons next text =>
          apply (induction (List.cons_ne_nil _ _) rest ?_ ?_).trans
          · simp only [List.append_assoc, List.singleton_append]
          · exact typed
          · exact naming

/-- Ordinary characters between brackets belong to the type. -/
theorem advance_length {text : Text} (ordinary : text.all isOrdinary = true)
    (typed : node.allowType = false) (unnamed : node.allowName = false)
    (reading : node.readArray = true) :
    advance allowIndexed ⟨node, parents⟩ text =
      some ⟨{ node with type := node.type ++ text }, parents⟩ := by
  induction text generalizing node with
  | nil =>
      simp only [List.append_nil]
      rfl
  | cons char text induction =>
      obtain ⟨first, rest⟩ := Bool.and_eq_true_iff.mp ordinary
      rw [advance, step_ordinary first, ParseNode.read,
        if_neg (Bool.eq_false_iff.mp typed),
        if_neg (Bool.eq_false_iff.mp unnamed), if_pos reading]
      change advance allowIndexed ⟨_, parents⟩ text = _
      apply (induction rest ?_ ?_ ?_).trans
      · simp only [List.append_assoc, List.singleton_append]
      · exact typed
      · exact unnamed
      · exact reading

/-- The type of the node has been read; an array, a flag or a name may
follow. -/
structure Typed (node : ParseNode) (type : Text) (indexed : Option Bool)
    (components : Option (List JsonFragmentType)) : Prop where
  type_eq : node.type = type
  unnamed : node.name = []
  indexed_eq : node.indexed = indexed
  components_eq : node.components = components
  opened : node.allowType = true ∨ node.allowName = true
  array : node.allowArray = true
  params : node.allowType = true → node.allowParams = true

theorem advance_bracket (allowIndexed : Bool) (parents : List ParseNode)
    {text type : Text} {indexed : Option Bool}
    {components : Option (List JsonFragmentType)}
    (ordinary : text.all isOrdinary = true)
    (typed : Typed node type indexed components) :
    ∃ next, advance allowIndexed ⟨node, parents⟩ ('[' :: text ++ [']']) =
        some ⟨next, parents⟩ ∧
      Typed next (type ++ '[' :: text ++ [']']) indexed components := by
  have opening : Parser.step allowIndexed ⟨node, parents⟩ '[' 0 =
      .ok ⟨{ node with
        type := node.type ++ ['[']
        allowArray := false
        allowName := false
        readArray := true }, parents⟩ := if_pos typed.array
  have closing : ∀ inner : ParseNode, inner.readArray = true →
      advance allowIndexed ⟨inner, parents⟩ [']'] =
        some ⟨{ inner with
          type := inner.type ++ [']']
          readArray := false
          allowArray := true
          allowName := true }, parents⟩ := by
    intro inner reading
    have step : Parser.step allowIndexed ⟨inner, parents⟩ ']' 0 =
        .ok ⟨{ inner with
          type := inner.type ++ [']']
          readArray := false
          allowArray := true
          allowName := true }, parents⟩ := if_pos reading
    rw [advance, step]
    rfl
  obtain ⟨inner, read, reading, spelled, unnamed, flag, parts, params⟩ :
      ∃ inner, advance allowIndexed ⟨{ node with
          type := node.type ++ ['[']
          allowArray := false
          allowName := false
          readArray := true }, parents⟩ text = some ⟨inner, parents⟩ ∧
        inner.readArray = true ∧ inner.type = type ++ '[' :: text ∧
          inner.name = [] ∧ inner.indexed = indexed ∧
            inner.components = components ∧
              (inner.allowType = true → inner.allowParams = true) := by
    cases Bool.eq_false_or_eq_true node.allowType with
    | inr typing =>
        refine ⟨_, advance_length ordinary typing rfl rfl, rfl, ?_,
          typed.unnamed, typed.indexed_eq, typed.components_eq, ?_⟩
        · simp [typed.type_eq]
        · intro other
          rw [typing] at other
          cases other
    | inl typing =>
        cases text with
        | nil =>
            exact ⟨_, rfl, rfl, by rw [← typed.type_eq], typed.unnamed,
              typed.indexed_eq, typed.components_eq,
              fun _ => typed.params typing⟩
        | cons char text =>
            refine ⟨_, advance_type (List.cons_ne_nil _ _) ordinary typing,
              rfl, ?_, typed.unnamed, typed.indexed_eq, typed.components_eq,
              fun _ => rfl⟩
            simp [typed.type_eq]
  have whole : advance allowIndexed ⟨node, parents⟩ ('[' :: text ++ [']']) =
      some ⟨{ inner with
        type := inner.type ++ [']']
        readArray := false
        allowArray := true
        allowName := true }, parents⟩ := by
    rw [List.cons_append, advance, opening]
    change advance allowIndexed ⟨_, parents⟩ (text ++ [']']) = _
    rw [advance_append, read]
    exact closing inner reading
  refine ⟨_, whole, ⟨?_, unnamed, flag, parts, .inr rfl, rfl, params⟩⟩
  rw [spelled]

theorem advance_printedBrackets (allowIndexed : Bool)
    (parents : List ParseNode) (lengths : List Length) {type : Text}
    {indexed : Option Bool} {components : Option (List JsonFragmentType)}
    (typed : Typed node type indexed components) :
    ∃ next, advance allowIndexed ⟨node, parents⟩ (printedBrackets lengths) =
        some ⟨next, parents⟩ ∧
      Typed next (type ++ printedBrackets lengths) indexed components := by
  induction lengths generalizing node type with
  | nil =>
      refine ⟨node, rfl, ?_⟩
      rw [printedBrackets, List.flatMap_nil, List.append_nil]
      exact typed
  | cons length lengths induction =>
      have ordinary : (readLength length.digits).text.all isOrdinary =
          true := by
        have plain := length.isPlain_text
        rw [List.all_eq_true] at plain ⊢
        exact fun char member => isOrdinary_of_isPlain (plain char member)
      obtain ⟨next, read, typedNext⟩ :=
        advance_bracket allowIndexed parents ordinary typed
      obtain ⟨last, readRest, typedLast⟩ := induction typedNext
      have split : printedBrackets (length :: lengths) =
          '[' :: (readLength length.digits).text ++ [']'] ++
            printedBrackets lengths := rfl
      refine ⟨last, ?_, ?_⟩
      · rw [split, advance_append, read]
        exact readRest
      · rw [split]
        simpa using typedLast

/-- The name that is read behind a type, empty where there is none. -/
def readName (type : Text) : Option Text → Option Text
  | none => some []
  | some name =>
      match checkModifier type name with
      | .ok modifier => some (if modifier then [] else name)
      | .error _ => none

/-- The flag of a parameter that starts with one. -/
def readIndexed (allowIndexed : Bool) (start indexed : Option Bool) :
    Option (Option Bool) :=
  if indexed = some true then
    if allowIndexed then some (some true) else none
  else some start

/-- What is read behind a type that ends there. -/
def readSuffix (allowIndexed : Bool) (type : Text) (start : Option Bool)
    (components : Option (List JsonFragmentType)) (name : Option Text)
    (indexed : Option Bool) : Option JsonFragmentType :=
  (readIndexed allowIndexed start indexed).bind fun flag =>
    (readName type name).map fun name => ⟨some name, type, flag, components⟩

/-- A text is read from a node as this object, be it a component or all there
is. -/
def ReadsAs (allowIndexed : Bool) (node : ParseNode) (text : Text)
    (result : Option JsonFragmentType) : Prop :=
  ∀ parents : List ParseNode,
    ((advance allowIndexed ⟨node, parents⟩ text).bind fun parser =>
        (parser.node.closed allowIndexed).map fun child =>
          (child, parser.parents)) =
      result.map (fun child => (child, parents)) ∧
    ((advance allowIndexed ⟨node, parents⟩ text).bind fun parser =>
        (parser.node.finished allowIndexed).map fun child =>
          (child, parser.parents)) =
      result.map (fun child => (child, parents))

theorem readsAs_of_advance {next : ParseNode} {text : Text}
    {result : Option JsonFragmentType}
    (read : ∀ parents, advance allowIndexed ⟨node, parents⟩ text =
      some ⟨next, parents⟩)
    (closed : next.closed allowIndexed = result)
    (finished : next.finished allowIndexed = result) :
    ReadsAs allowIndexed node text result := by
  intro parents
  rw [read parents, Option.bind_some, Option.bind_some, closed, finished]
  exact ⟨rfl, rfl⟩

theorem readsAs_append {next : ParseNode} {text rest : Text}
    {result : Option JsonFragmentType}
    (read : ∀ parents, advance allowIndexed ⟨node, parents⟩ text =
      some ⟨next, parents⟩)
    (readRest : ReadsAs allowIndexed next rest result) :
    ReadsAs allowIndexed node (text ++ rest) result := by
  intro parents
  rw [advance_append, read parents]
  exact readRest parents

theorem readsAs_none {text : Text}
    (failed : ∀ parents, advance allowIndexed ⟨node, parents⟩ text = none) :
    ReadsAs allowIndexed node text none := by
  intro parents
  rw [failed parents]
  exact ⟨rfl, rfl⟩

/-- A name behind its space, or no name. -/
theorem closed_name (allowIndexed : Bool) (name : Option Text) {next : ParseNode}
    (spelled : next.name = name.getD [])
    (unflagged : name ≠ some "indexed".toList)
    (stable : verifyType next.type = next.type) :
    next.closed allowIndexed = readSuffix allowIndexed next.type next.indexed
        next.components name none ∧
      next.finished allowIndexed = readSuffix allowIndexed next.type
        next.indexed next.components name none := by
  have other : next.name ≠ "indexed".toList := by
    rw [spelled]
    cases name with
    | none => decide
    | some name => exact fun same => unflagged (congrArg some same)
  have read : readSuffix allowIndexed next.type next.indexed next.components
      name none = (checkModifier next.type next.name).toOption.map
        fun modifier => ⟨some (if modifier then [] else next.name), next.type,
          next.indexed, next.components⟩ := by
    rw [spelled]
    cases name with
    | none =>
        rw [Option.getD_none, Abi.checkModifier_nil]
        rfl
    | some name =>
        rw [Option.getD_some, readSuffix, readIndexed, if_neg (by decide),
          Option.bind_some, readName]
        cases checkModifier next.type name <;> rfl
  have child : ∀ modifier : Bool,
      ParseNode.fragment (if modifier then { next with name := [] }
        else next) = ⟨some (if modifier then [] else next.name), next.type,
          next.indexed, next.components⟩ := by
    intro modifier
    cases modifier <;> simp [ParseNode.fragment, stable]
  rw [read]
  constructor
  · rw [ParseNode.closed, ParseNode.close, if_neg other]
    cases checkModifier next.type next.name with
    | error problem => rfl
    | ok modifier => exact congrArg some (child modifier)
  · rw [ParseNode.finished, ParseNode.finish, if_neg other]
    cases checkModifier next.type next.name with
    | error problem => rfl
    | ok modifier => exact congrArg some (child modifier)

/-- The name of the node is being read. -/
structure Naming (node : ParseNode) (type name : Text)
    (indexed : Option Bool)
    (components : Option (List JsonFragmentType)) : Prop where
  type_eq : node.type = type
  name_eq : node.name = name
  indexed_eq : node.indexed = indexed
  components_eq : node.components = components
  typed : node.allowType = false
  naming : node.allowName = true

theorem advance_space {next : ParseNode}
    (spaced : node.space allowIndexed 0 = .ok next) :
    advance allowIndexed ⟨node, parents⟩ [' '] = some ⟨next, parents⟩ := by
  have step : Parser.step allowIndexed ⟨node, parents⟩ ' ' 0 =
      node.space allowIndexed 0 >>= fun next => .ok ⟨next, parents⟩ := rfl
  rw [advance, step, spaced]
  rfl

/-- A space ends the type. -/
theorem Typed.space {type : Text} {indexed : Option Bool}
    {components : Option (List JsonFragmentType)}
    (typed : Typed node type indexed components) (nonempty : type ≠ [])
    (stable : verifyType type = type) (allowIndexed : Bool) :
    ∃ next, node.space allowIndexed 0 = .ok next ∧
      Naming next type [] indexed components := by
  have unnamed : ∀ next : ParseNode, next.name = [] →
      next.endName allowIndexed 0 = .ok next := by
    intro next empty
    exact if_neg fun named => named.2 empty
  cases Bool.eq_false_or_eq_true node.allowType with
  | inl typing =>
      have ended : node.endType = { node with
          type := verifyType node.type
          allowType := false
          allowName := true
          allowParams := true } := by
        apply if_pos
        rw [typed.type_eq]
        exact ⟨typing, nonempty⟩
      refine ⟨node.endType, ?_, ?_⟩
      · rw [ParseNode.space]
        apply unnamed
        rw [ended]
        exact typed.unnamed
      · rw [ended]
        refine ⟨?_, typed.unnamed, typed.indexed_eq, typed.components_eq, rfl,
          rfl⟩
        rw [typed.type_eq]
        exact stable
  | inr typing =>
      have ended : node.endType = node := by
        apply if_neg
        rw [typing]
        simp
      refine ⟨node, ?_, ⟨typed.type_eq, typed.unnamed, typed.indexed_eq,
        typed.components_eq, typing, ?_⟩⟩
      · rw [ParseNode.space, ended]
        exact unnamed node typed.unnamed
      · rcases typed.opened with other | naming
        · rw [typing] at other
          cases other
        · exact naming

theorem Naming.word {type text : Text} {indexed : Option Bool}
    {components : Option (List JsonFragmentType)}
    (naming : Naming node type [] indexed components) (nonempty : text ≠ [])
    (ordinary : text.all isOrdinary = true) (allowIndexed : Bool) :
    ∃ next, (∀ parents, advance allowIndexed ⟨node, parents⟩ text =
        some ⟨next, parents⟩) ∧
      Naming next type text indexed components := by
  refine ⟨_, fun parents => advance_name nonempty ordinary naming.typed
    naming.naming, ⟨naming.type_eq, ?_, naming.indexed_eq,
      naming.components_eq, naming.typed, naming.naming⟩⟩
  rw [naming.name_eq]
  rfl

/-- The word `indexed` is a flag where it is allowed. -/
theorem Naming.flag {type : Text} {indexed : Option Bool}
    {components : Option (List JsonFragmentType)}
    (naming : Naming node type "indexed".toList indexed components)
    (unflagged : indexed ≠ some true) :
    Naming { node with indexed := some true, name := [] } type [] (some true)
        components ∧
      node.space true 0 =
        .ok { node with indexed := some true, name := [] } ∧
      (node.space false 0).toOption = none := by
  have ended : node.endType = node := by
    apply if_neg
    rw [naming.typed]
    simp
  have named : node.allowName = true ∧ node.name ≠ [] := by
    rw [naming.name_eq]
    exact ⟨naming.naming, by decide⟩
  refine ⟨⟨naming.type_eq, rfl, rfl, naming.components_eq, naming.typed,
    naming.naming⟩, ?_, ?_⟩
  · rw [ParseNode.space, ended, ParseNode.endName, if_pos named,
      if_pos naming.name_eq]
    apply if_pos
    rw [naming.indexed_eq]
    exact ⟨rfl, unflagged⟩
  · rw [ParseNode.space, ended, ParseNode.endName, if_pos named,
      if_pos naming.name_eq, if_neg (by simp)]
    rfl

/-- The word `indexed` at the end. -/
theorem Naming.closed_flag {type : Text} {indexed : Option Bool}
    {components : Option (List JsonFragmentType)}
    (naming : Naming node type "indexed".toList indexed components)
    (unflagged : indexed ≠ some true) (stable : verifyType type = type)
    (allowIndexed : Bool) :
    node.closed allowIndexed = readSuffix allowIndexed type indexed components
        none (some true) ∧
      node.finished allowIndexed = readSuffix allowIndexed type indexed
        components none (some true) := by
  have child : ParseNode.fragment
      { node with indexed := some true, name := [] } =
        ⟨some [], type, some true, components⟩ := by
    simp [ParseNode.fragment, naming.type_eq, naming.components_eq, stable]
  have start : node.indexed ≠ some true := by
    rw [naming.indexed_eq]
    exact unflagged
  rw [ParseNode.closed, ParseNode.close, if_pos naming.name_eq,
    ParseNode.finished, ParseNode.finish, if_pos naming.name_eq]
  cases allowIndexed with
  | true =>
      rw [if_pos rfl, if_pos ⟨rfl, start⟩]
      exact ⟨congrArg some child, congrArg some child⟩
  | false =>
      rw [if_neg Bool.false_ne_true, if_neg (by simp)]
      exact ⟨rfl, rfl⟩

/-- A name that the parser can read as one. -/
structure ReadableName (name : Text) : Prop where
  nonempty : name ≠ []
  ordinary : name.all isOrdinary = true
  unflagged : name ≠ "indexed".toList

theorem Naming.name {type : Text} {indexed : Option Bool}
    {components : Option (List JsonFragmentType)}
    (naming : Naming node type [] indexed components)
    (stable : verifyType type = type) {name : Text}
    (readable : ReadableName name) :
    ReadsAs allowIndexed node name
      (readSuffix allowIndexed type indexed components (some name) none) := by
  obtain ⟨next, read, named⟩ :=
    naming.word readable.nonempty readable.ordinary allowIndexed
  have unflagged : some name ≠ some "indexed".toList :=
    fun same => readable.unflagged (Option.some.inj same)
  have stable : verifyType next.type = next.type := by
    rw [named.type_eq]
    exact stable
  have closing := closed_name allowIndexed (some name) named.name_eq
    unflagged stable
  rw [named.type_eq, named.indexed_eq, named.components_eq] at closing
  exact readsAs_of_advance read closing.1 closing.2

/-- What follows the type in a full text is read from there. -/
theorem Typed.readsAs_suffix {type : Text} {start : Option Bool}
    {components : Option (List JsonFragmentType)}
    (typed : Typed node type start components) (nonempty : type ≠ [])
    (stable : verifyType type = type) (unflagged : start ≠ some true)
    {name : Option Text} (readable : ∀ given ∈ name, ReadableName given)
    (indexed : Option Bool) :
    ReadsAs allowIndexed node (ParamType.formatSuffix .full name indexed)
      (readSuffix allowIndexed type start components name indexed) := by
  obtain ⟨next, spaced, naming⟩ := typed.space nonempty stable allowIndexed
  have space : ∀ parents, advance allowIndexed ⟨node, parents⟩ [' '] =
      some ⟨next, parents⟩ := fun parents => advance_space spaced
  by_cases flagged : indexed = some true
  · subst flagged
    have word : "indexed".toList ≠ [] ∧
        "indexed".toList.all isOrdinary = true := by decide
    obtain ⟨last, read, named⟩ := naming.word word.1 word.2 allowIndexed
    have flag : ∀ parents,
        advance allowIndexed ⟨node, parents⟩ " indexed".toList =
          some ⟨last, parents⟩ := by
      intro parents
      have split : " indexed".toList = [' '] ++ "indexed".toList := by decide
      rw [split, advance_append, space]
      exact read parents
    cases name with
    | none =>
        have closing := named.closed_flag unflagged stable allowIndexed
        exact readsAs_of_advance flag closing.1 closing.2
    | some name =>
        have given := readable name rfl
        have suffix : ParamType.formatSuffix .full (some name) (some true) =
            " indexed".toList ++ ([' '] ++ name) := by
          simp [ParamType.formatSuffix, given.nonempty]
        rw [suffix]
        apply readsAs_append flag
        obtain ⟨clear, allowed, refused⟩ := named.flag unflagged
        cases allowIndexed with
        | true =>
            apply readsAs_append fun parents => advance_space allowed
            exact clear.name stable given
        | false =>
            apply readsAs_none
            intro parents
            have step : Parser.step false ⟨last, parents⟩ ' ' 0 =
                last.space false 0 >>= fun next => .ok ⟨next, parents⟩ := rfl
            rw [List.singleton_append, advance, step, Outcome.toOption_bind, refused]
            rfl
  · have plain : readSuffix allowIndexed type start components name indexed =
        readSuffix allowIndexed type start components name none := by
      rw [readSuffix, readSuffix, readIndexed, readIndexed, if_neg flagged,
        if_neg (by decide)]
    rw [plain]
    cases name with
    | none =>
        have suffix : ParamType.formatSuffix .full none indexed = [] := by
          simp [ParamType.formatSuffix, flagged]
        have closing := closed_name allowIndexed none typed.unnamed
          (by decide) (by rw [typed.type_eq, stable])
        rw [typed.type_eq, typed.indexed_eq, typed.components_eq] at closing
        rw [suffix]
        exact readsAs_of_advance (fun _ => rfl) closing.1 closing.2
    | some name =>
        have given := readable name rfl
        have suffix : ParamType.formatSuffix .full (some name) indexed =
            [' '] ++ name := by
          simp [ParamType.formatSuffix, given.nonempty, flagged]
        rw [suffix]
        exact readsAs_append space (naming.name stable given)

/-- The node with one more component. -/
def ParseNode.withComponent (node : ParseNode) (child : JsonFragmentType) :
    ParseNode :=
  { node with components := some (node.components.getD [] ++ [child]) }

/-- The node once its parenthesis is closed. -/
def ParseNode.complete (node : ParseNode) : ParseNode :=
  { node with allowParams := false, allowName := true, allowArray := true }

theorem advance_comma (inner : ParseNode) (around : List ParseNode)
    (rest : Text) :
    advance allowIndexed ⟨inner, around⟩ (',' :: rest) =
      (inner.closed allowIndexed).bind fun child =>
        around.head?.bind fun parent => advance allowIndexed
          ⟨.new allowIndexed, parent.withComponent child :: around.tail⟩
            rest := by
  cases around with
  | nil =>
      have step : Parser.step allowIndexed ⟨inner, []⟩ ',' 0 =
          inner.close allowIndexed 0 >>= fun _ =>
            .error { code := .unspecified,
                     message := "Cannot read properties of undefined" } := rfl
      rw [advance, step, ParseNode.closed]
      cases inner.close allowIndexed 0 <;> rfl
  | cons parent parents =>
      have step : Parser.step allowIndexed ⟨inner, parent :: parents⟩ ',' 0 =
          inner.close allowIndexed 0 >>= fun child =>
            .ok ⟨.new allowIndexed, parent.addComponent child :: parents⟩ :=
        rfl
      rw [advance, step, ParseNode.closed]
      cases inner.close allowIndexed 0 <;> rfl

theorem advance_parenthesis (inner : ParseNode) (around : List ParseNode)
    (rest : Text) :
    advance allowIndexed ⟨inner, around⟩ (')' :: rest) =
      (inner.closed allowIndexed).bind fun child =>
        around.head?.bind fun parent => advance allowIndexed
          ⟨(parent.withComponent child).complete, around.tail⟩ rest := by
  cases around with
  | nil =>
      have step : Parser.step allowIndexed ⟨inner, []⟩ ')' 0 =
          inner.close allowIndexed 0 >>= fun _ =>
            Abi.unexpectedCharacter 0 := rfl
      rw [advance, step, ParseNode.closed]
      cases inner.close allowIndexed 0 <;> rfl
  | cons parent parents =>
      have step : Parser.step allowIndexed ⟨inner, parent :: parents⟩ ')' 0 =
          inner.close allowIndexed 0 >>= fun child =>
            .ok ⟨(parent.addComponent child).complete, parents⟩ := rfl
      rw [advance, step, ParseNode.closed]
      cases inner.close allowIndexed 0 <;> rfl

/-- A component is closed by a comma or by the parenthesis. -/
theorem ReadsAs.advance_delimiter {text : Text}
    {result : Option JsonFragmentType}
    (reads : ReadsAs allowIndexed node text result) (parent : ParseNode)
    (rest : Text) :
    advance allowIndexed ⟨node, parent :: parents⟩ (text ++ ',' :: rest) =
      (result.bind fun child => advance allowIndexed
        ⟨.new allowIndexed, parent.withComponent child :: parents⟩ rest) ∧
    advance allowIndexed ⟨node, parent :: parents⟩ (text ++ ')' :: rest) =
      (result.bind fun child => advance allowIndexed
        ⟨(parent.withComponent child).complete, parents⟩ rest) := by
  have both := (reads (parent :: parents)).1
  rw [advance_append, advance_append]
  cases read : advance allowIndexed ⟨node, parent :: parents⟩ text with
  | none =>
      rw [read, Option.bind_none] at both
      rw [Option.map_eq_none_iff.mp both.symm]
      exact ⟨rfl, rfl⟩
  | some parser =>
      obtain ⟨inner, around⟩ := parser
      rw [read, Option.bind_some] at both
      rw [Option.bind_some, Option.bind_some, advance_comma,
        advance_parenthesis]
      cases closed : inner.closed allowIndexed with
      | none =>
          rw [closed] at both
          rw [Option.map_eq_none_iff.mp both.symm]
          exact ⟨rfl, rfl⟩
      | some child =>
          rw [closed] at both
          obtain ⟨other, rfl, same⟩ := Option.map_eq_some_iff.mp both.symm
          obtain ⟨rfl, rfl⟩ := Prod.mk.inj same
          exact ⟨rfl, rfl⟩

end Words

/-! ## Texts of parameters -/

/-- An opening parenthesis in a text that may be spaced. -/
def opening (spaced : Bool) : Text :=
  if spaced then " (".toList else "(".toList

/-- What follows a closing parenthesis in a text that may be spaced. -/
def closing (spaced : Bool) (rest : Text) : Text :=
  if spaced ∧ rest.head? ≠ some ' ' then ' ' :: rest else rest

/-- The flag of a component before any is read. -/
def startFlag (allowIndexed : Bool) : Option Bool :=
  if allowIndexed then some false else none

namespace Parameter

/-- What follows the word or the parentheses. -/
def tail : Parameter → Text
  | .value name indexed _ lengths | .tuple name indexed _ lengths =>
      printedBrackets lengths ++
        ParamType.formatSuffix .full (ParamType.givenName name) indexed

mutual

/-- The full text of a parameter, which may be spaced inside and behind its own
parentheses. -/
def layout (spaced behind : Bool) : Parameter → Text
  | .value name indexed type lengths =>
      (canonical type).chars ++ tail (.value name indexed type lengths)
  | .tuple name indexed components lengths =>
      tupleWord ++ (opening spaced ++
        (", ".toList.intercalate (layouts spaced components) ++
          ')' :: closing behind (tail (.tuple name indexed components
            lengths))))

def layouts (spaced : Bool) : List Parameter → List Text
  | [] => []
  | parameter :: parameters =>
      layout spaced spaced parameter :: layouts spaced parameters

end

/-- Nothing between parentheses is read as a component without a type. -/
def orEmpty (start : Option Bool) :
    List JsonFragmentType → List JsonFragmentType
  | [] => [⟨some [], [], start, none⟩]
  | components => components

mutual

/-- The object that the full text is read as. -/
def reread (allowIndexed : Bool) (start : Option Bool) :
    Parameter → Option JsonFragmentType
  | .value name indexed type lengths =>
      readSuffix allowIndexed
        ((canonical type).chars ++ printedBrackets lengths) start none
        (ParamType.givenName name) indexed
  | .tuple name indexed components lengths =>
      (rereadAll allowIndexed components).bind fun components =>
        readSuffix allowIndexed (tupleWord ++ printedBrackets lengths) start
          (some (orEmpty (startFlag allowIndexed) components))
          (ParamType.givenName name) indexed

def rereadAll (allowIndexed : Bool) :
    List Parameter → Option (List JsonFragmentType)
  | [] => some []
  | parameter :: parameters =>
      (reread allowIndexed (startFlag allowIndexed) parameter).bind
        fun component =>
          (rereadAll allowIndexed parameters).map fun components =>
            component :: components

end

theorem layouts_eq_map (spaced : Bool) (parameters : List Parameter) :
    layouts spaced parameters = parameters.map (layout spaced spaced) := by
  induction parameters with
  | nil => rfl
  | cons parameter parameters induction =>
      rw [layouts, induction, List.map_cons]

/-- Parameters with a comma and a space between them. -/
def joined (spaced : Bool) (parameters : List Parameter) : Text :=
  ", ".toList.intercalate (layouts spaced parameters)

theorem joined_singleton (spaced : Bool) (parameter : Parameter) :
    joined spaced [parameter] = parameter.layout spaced spaced :=
  List.intercalate_singleton

theorem joined_cons_cons (spaced : Bool) (first next : Parameter)
    (parameters : List Parameter) :
    joined spaced (first :: next :: parameters) =
      first.layout spaced spaced ++
        ',' :: ' ' :: joined spaced (next :: parameters) := by
  have separator : ", ".toList = [',', ' '] := by decide
  rw [joined, layouts, layouts, List.intercalate_cons_cons, separator, joined]
  simp [separator, layouts]

/-- The text that is not spaced is the full format. -/
theorem layout_false (parameter : Parameter) :
    parameter.layout false false = parameter.text .full := by
  induction parameter using Parameter.induction with
  | value name indexed type lengths =>
      rw [layout, text, tail, List.append_assoc]
  | tuple name indexed components lengths induction =>
      have same : layouts false components = texts .full components := by
        rw [layouts_eq_map, texts_eq_map]
        exact List.map_congr_left induction
      rw [layout, text, same, if_neg (by decide)]
      simp only [tail, opening, closing, ParamType.separator, Bool.false_eq_true,
        false_and, if_false, List.append_assoc]
      rfl

end Parameter

section Components

variable {allowIndexed : Bool}

theorem ParseNode.withComponent_append (parent : ParseNode)
    (seen : List JsonFragmentType) (child : JsonFragmentType) :
    ({ parent with components := some seen }).withComponent child =
      { parent with components := some (seen ++ [child]) } :=
  rfl

/-- Components that are each read as they are meant are read one after the
other. -/
theorem advance_components {spaced : Bool} {first : Parameter}
    {parameters : List Parameter}
    (reads : ∀ parameter ∈ first :: parameters,
      ReadsAs allowIndexed (.new allowIndexed)
        (parameter.layout spaced spaced)
        (parameter.reread allowIndexed (startFlag allowIndexed)))
    (parent : ParseNode) (parents : List ParseNode)
    (seen : List JsonFragmentType) (rest : Text) :
    advance allowIndexed
        ⟨.new allowIndexed, { parent with components := some seen } :: parents⟩
        (Parameter.joined spaced (first :: parameters) ++ ')' :: rest) =
      (Parameter.rereadAll allowIndexed (first :: parameters)).bind
        fun children => advance allowIndexed
          ⟨({ parent with components := some (seen ++ children) }).complete,
            parents⟩ rest := by
  induction parameters generalizing first seen with
  | nil =>
      have read := reads first List.mem_cons_self
      rw [Parameter.joined_singleton, (read.advance_delimiter _ rest).2, Parameter.rereadAll,
        Parameter.rereadAll, Option.bind_assoc]
      rfl
  | cons next parameters induction =>
      obtain ⟨read, readRest⟩ := List.forall_mem_cons.mp reads
      have space : ∀ parents text,
          advance allowIndexed ⟨.new allowIndexed, parents⟩ (' ' :: text) =
            advance allowIndexed ⟨.new allowIndexed, parents⟩ text :=
        fun _ _ => rfl
      have text : Parameter.joined spaced (first :: next :: parameters) ++
          ')' :: rest = first.layout spaced spaced ++ ',' :: ' ' ::
            (Parameter.joined spaced (next :: parameters) ++ ')' :: rest) := by
        rw [Parameter.joined_cons_cons]
        simp
      rw [text, (read.advance_delimiter _ _).1, Parameter.rereadAll,
        Option.bind_assoc]
      congr 1
      funext child
      rw [space, ParseNode.withComponent_append, induction readRest,
        Option.bind_map]
      congr 1
      funext children
      simp

theorem startFlag_ne (allowIndexed : Bool) :
    startFlag allowIndexed ≠ some true := by
  cases allowIndexed <;> decide

/-- A word opens a parenthesis, spaced or not. -/
theorem advance_opening (allowIndexed spaced : Bool) (start : Option Bool) :
    ∃ parent : ParseNode,
      (∀ parents, advance allowIndexed ⟨{ indexed := start }, parents⟩
          (tupleWord ++ opening spaced) =
        some ⟨.new allowIndexed, { parent with components := some [] } ::
          parents⟩) ∧
      parent.type = tupleWord ∧ parent.name = [] ∧ parent.indexed = start ∧
        parent.allowType = false := by
  cases spaced with
  | false =>
      refine ⟨{ type := tupleWord, indexed := start, allowType := false,
                allowParams := true, allowArray := true },
        fun parents => ?_, rfl, rfl, rfl, rfl⟩
      rfl
  | true =>
      refine ⟨{ type := tupleWord, indexed := start, allowType := false,
                allowName := true, allowParams := true, allowArray := true },
        fun parents => ?_, rfl, rfl, rfl, rfl⟩
      rfl

/-- A space behind a closing parenthesis is passed. -/
theorem Typed.advance_closing {node : ParseNode} {type : Text}
    {indexed : Option Bool} {components : Option (List JsonFragmentType)}
    (typed : Typed node type indexed components)
    (ended : node.allowType = false) (spaced : Bool)
    (parents : List ParseNode) (rest : Text) :
    advance allowIndexed ⟨node, parents⟩ (closing spaced rest) =
      advance allowIndexed ⟨node, parents⟩ rest := by
  rw [closing]
  split
  · have still : node.endType = node := by
      apply if_neg
      rw [ended]
      simp
    have space : node.space allowIndexed 0 = .ok node := by
      rw [ParseNode.space, still, ParseNode.endName]
      exact if_neg fun named => named.2 typed.unnamed
    have blank : advance allowIndexed ⟨node, parents⟩ [' '] =
        some ⟨node, parents⟩ := advance_space space
    rw [← List.singleton_append, advance_append, blank]
    rfl
  · rfl

/-- Nothing between parentheses is one component. -/
theorem advance_none (parent : ParseNode) (parents : List ParseNode)
    (rest : Text) :
    advance allowIndexed
        ⟨.new allowIndexed, { parent with components := some [] } :: parents⟩
        (')' :: rest) =
      advance allowIndexed
        ⟨({ parent with
            components := some
              (Parameter.orEmpty (startFlag allowIndexed) [])
          }).complete, parents⟩ rest := by
  rw [advance_parenthesis]
  cases allowIndexed <;> rfl

/-- Components in parentheses, be there any or none. -/
theorem advance_all {spaced : Bool} {components : List Parameter}
    (reads : ∀ component ∈ components,
      ReadsAs allowIndexed (.new allowIndexed)
        (component.layout spaced spaced)
        (component.reread allowIndexed (startFlag allowIndexed)))
    (parent : ParseNode) (parents : List ParseNode) (rest : Text) :
    advance allowIndexed
        ⟨.new allowIndexed, { parent with components := some [] } :: parents⟩
        (Parameter.joined spaced components ++ ')' :: rest) =
      (Parameter.rereadAll allowIndexed components).bind fun children =>
        advance allowIndexed
          ⟨({ parent with
              components := some
                (Parameter.orEmpty (startFlag allowIndexed) children)
            }).complete, parents⟩ rest := by
  cases components with
  | nil => exact advance_none parent parents rest
  | cons first components =>
      rw [advance_components reads, Parameter.rereadAll]
      cases Parameter.reread allowIndexed (startFlag allowIndexed) first with
      | none => rfl
      | some child =>
          cases Parameter.rereadAll allowIndexed components <;> rfl

/-- The full text of a parameter is read back, but for the names that objects
inherit. -/
theorem readsAs_layout (spaced behind : Bool) {parameter : Parameter}
    (readable : ∀ part ∈ parameter.parts, ∀ name ∈ part.name,
      ReadableName name)
    {start : Option Bool} (unflagged : start ≠ some true) :
    ReadsAs allowIndexed { indexed := start }
      (parameter.layout spaced behind)
      (parameter.reread allowIndexed start) := by
  induction parameter using Parameter.induction generalizing start behind with
  | value name indexed type lengths =>
      have word : (canonical type).chars ≠ [] ∧
          (canonical type).chars.all isOrdinary = true := by
        have word := isAlphanum_chars (canonical type)
        rw [List.all_eq_true] at word ⊢
        exact ⟨chars_ne_nil _, fun char member =>
          isOrdinary_of_isAlphanum (word char member)⟩
      have named : ∀ given ∈ ParamType.givenName name, ReadableName given :=
        Parameter.forall_parts_value.mp readable
      intro parents
      have typed : Typed
          { type := [] ++ (canonical type).chars
            indexed := start
            allowParams := true
            allowArray := true }
          (canonical type).chars start none :=
        ⟨rfl, rfl, rfl, rfl, .inl rfl, rfl, fun _ => rfl⟩
      obtain ⟨next, read, bracketed⟩ := advance_printedBrackets allowIndexed
        parents lengths typed
      rw [Parameter.layout, advance_append, advance_type word.1 word.2 rfl,
        Option.bind_some, Parameter.tail, advance_append, read]
      exact bracketed.readsAs_suffix (by simp [word.1])
        (verifyType_printed type lengths) unflagged named indexed parents
  | tuple name indexed components lengths induction =>
      rw [Parameter.forall_parts_tuple] at readable
      have named : ∀ given ∈ ParamType.givenName name, ReadableName given :=
        readable.1
      have inner : ∀ component ∈ components,
          ReadsAs allowIndexed (.new allowIndexed)
        (component.layout spaced spaced)
            (component.reread allowIndexed (startFlag allowIndexed)) :=
        fun component member => induction component member spaced
          (readable.2 component member) (startFlag_ne allowIndexed)
      obtain ⟨parent, opens, isTuple, unnamed, flag, ended⟩ :=
        advance_opening allowIndexed spaced start
      intro parents
      rw [Parameter.layout, ← Parameter.joined, ← List.append_assoc,
        advance_append, opens, Option.bind_some, advance_all inner,
        Parameter.reread]
      cases Parameter.rereadAll allowIndexed components with
      | none => exact ⟨rfl, rfl⟩
      | some children =>
          have typed : Typed
              ({ parent with
                  components := some
                    (Parameter.orEmpty (startFlag allowIndexed) children)
                }).complete tupleWord start
              (some (Parameter.orEmpty (startFlag allowIndexed) children)) :=
            ⟨isTuple, unnamed, flag, rfl, .inr rfl, rfl,
              fun typing => absurd (ended.symm.trans typing) (by decide)⟩
          obtain ⟨next, read, bracketed⟩ := advance_printedBrackets
            allowIndexed parents lengths typed
          rw [Option.bind_some, typed.advance_closing ended, Parameter.tail,
            advance_append, read]
          exact bracketed.readsAs_suffix (List.cons_ne_nil _ _)
            (verifyType_tuple _) unflagged named indexed parents

end Components

end Web3Js.Fragments
