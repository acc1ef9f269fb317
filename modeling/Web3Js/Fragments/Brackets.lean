import Web3Js.Fragments.Reading

/-!
# Brackets in the types that are read

The suffixes of an array type are pairs of brackets around decimal digits.  A
text keeps to this when its characters are read as digits inside the brackets
and as anything but brackets outside.  The parser follows the brackets of the
open type with one flag, and these are the steps where the flag loses them.
-/

namespace Web3Js.Fragments

open Abi (Error verifyType checkModifier unexpectedCharacter)

/-- One character inside or outside of brackets, until they are lost. -/
def bracketStep : Option Bool → Char → Option Bool
  | none, _ => none
  | some false, char =>
      if char = '[' then some true
      else if char = ']' then none
      else some false
  | some true, char =>
      if char = ']' then some false
      else if char.isDigit then some true
      else none

/-- Whether a text ends inside of brackets; missing once they are lost. -/
def bracketState (text : Text) : Option Bool :=
  text.foldl bracketStep (some false)

/-- Every bracket is closed, around decimal digits only. -/
def WellBracketed (text : Text) : Prop :=
  bracketState text = some false

instance (text : Text) : Decidable (WellBracketed text) :=
  inferInstanceAs (Decidable (bracketState text = some false))

mutual

def ParamType.Bracketed : ParamType → Prop
  | ⟨_, type, _, _, components, _, arrayChildren⟩ =>
      WellBracketed type ∧ BracketedComponents components ∧
        BracketedChild arrayChildren

def BracketedComponents : Option (List ParamType) → Prop
  | none => True
  | some components => BracketedAll components

def BracketedAll : List ParamType → Prop
  | [] => True
  | param :: params => ParamType.Bracketed param ∧ BracketedAll params

def BracketedChild : Option ParamType → Prop
  | none => True
  | some child => ParamType.Bracketed child

end

mutual

def JsonFragmentType.Bracketed : JsonFragmentType → Prop
  | ⟨_, type, _, components⟩ =>
      WellBracketed type ∧ JsonBracketedComponents components

def JsonBracketedComponents : Option (List JsonFragmentType) → Prop
  | none => True
  | some components => JsonBracketedAll components

def JsonBracketedAll : List JsonFragmentType → Prop
  | [] => True
  | value :: values =>
      JsonFragmentType.Bracketed value ∧ JsonBracketedAll values

end

/-- One character among parentheses, until one closes that is not open. -/
def parenthesisStep : Option Nat → Char → Option Nat
  | none, _ => none
  | some depth, char =>
      if char = '(' then some (depth + 1)
      else if char = ')' then
        match depth with
        | 0 => none
        | depth + 1 => some depth
      else some depth

def parenthesisDepth (text : Text) : Option Nat :=
  text.foldl parenthesisStep (some 0)

/-- Every parenthesis that closes is open, and all are closed in the end. -/
def Parenthesized (text : Text) : Prop :=
  parenthesisDepth text = some 0

section Texts

theorem bracketState_append (before after : Text) :
    bracketState (before ++ after) =
      after.foldl bracketStep (bracketState before) :=
  List.foldl_append

theorem bracketState_snoc (text : Text) (char : Char) :
    bracketState (text ++ [char]) = bracketStep (bracketState text) char :=
  bracketState_append text [char]

/-- The width that a type is given is outside of all brackets. -/
theorem bracketState_verifyType (type : Text) :
    bracketState (verifyType type) = bracketState type := by
  unfold verifyType
  split
  · split <;> rfl
  · split <;> rfl
  · rfl

theorem bracketStep_digit {inside : Option Bool} {char : Char}
    (digit : char.isDigit = true) : bracketStep inside char = inside := by
  have notOpening : char ≠ '[' := by
    intro same
    subst same
    cases digit
  have notClosing : char ≠ ']' := by
    intro same
    subst same
    cases digit
  cases inside with
  | none => rfl
  | some inside =>
      cases inside <;> simp [bracketStep, digit, notOpening, notClosing]

theorem foldl_bracketStep_digits (inside : Option Bool) (digits : Text)
    (all : digits.all Char.isDigit = true) :
    digits.foldl bracketStep inside = inside := by
  induction digits with
  | nil => rfl
  | cons char digits inductionHypothesis =>
      rw [List.all_cons, Bool.and_eq_true] at all
      rw [List.foldl_cons, bracketStep_digit all.1]
      exact inductionHypothesis all.2

/-- A suffix is the last pair of brackets, with the digits in it. -/
theorem arraySuffix_eq_some {type child digits : Text}
    (suffix : Abi.arraySuffix type = some (child, digits)) :
    type = child ++ '[' :: digits ++ [']'] ∧
      digits.all Char.isDigit = true := by
  unfold Abi.arraySuffix at suffix
  split at suffix
  next rest reversed =>
    split at suffix
    next front dropped =>
      cases suffix
      have parts : rest.takeWhile Char.isDigit ++ '[' :: front = rest := by
        rw [← dropped]
        exact List.takeWhile_append_dropWhile
      constructor
      · rw [← List.reverse_reverse type, reversed]
        nth_rewrite 1 [← parts]
        simp
      · rw [List.all_reverse]
        exact List.all_takeWhile
    · cases suffix
  · cases suffix

/-- What stands before the last brackets is well-formed by itself. -/
theorem wellBracketed_arraySuffix {type child digits : Text}
    (bracketed : WellBracketed type)
    (suffix : Abi.arraySuffix type = some (child, digits)) :
    WellBracketed child := by
  obtain ⟨rfl, all⟩ := arraySuffix_eq_some suffix
  rw [WellBracketed, List.append_assoc, bracketState_append, List.cons_append,
    List.foldl_cons, List.foldl_append, foldl_bracketStep_digits _ _ all]
    at bracketed
  unfold WellBracketed
  generalize bracketState child = state at bracketed ⊢
  cases state with
  | none => cases bracketed
  | some inside =>
      cases inside with
      | false => rfl
      | true => cases bracketed

/-- The parts of an array keep the brackets of its type. -/
theorem bracketed_construct (components : Option (List ParamType))
    (fuel : Nat) (name : Option Text) (type : Text) (indexed : Option Bool) :
    (ParamType.construct components fuel name type indexed).Bracketed ↔
      WellBracketed type ∧ BracketedComponents components := by
  induction fuel generalizing name type indexed with
  | zero => exact and_congr_right fun _ => and_iff_left trivial
  | succ fuel inductionHypothesis =>
      unfold ParamType.construct
      split
      next child digits suffix =>
        refine and_congr_right fun bracketed =>
          and_iff_left_of_imp fun within => ?_
        refine (inductionHypothesis none _ none).mpr ⟨?_, within⟩
        rw [WellBracketed, bracketState_verifyType]
        exact wellBracketed_arraySuffix bracketed suffix
      · exact and_congr_right fun _ => and_iff_left trivial

theorem wellBracketed_verifyType (type : Text) :
    WellBracketed (verifyType type) ↔ WellBracketed type := by
  rw [WellBracketed, bracketState_verifyType, WellBracketed]

mutual

theorem bracketed_fromObject : (value : JsonFragmentType) →
    ((ParamType.fromObject value).Bracketed ↔ value.Bracketed)
  | ⟨_, type, _, none⟩ => by
      rw [ParamType.fromObject, bracketed_construct, wellBracketed_verifyType]
      rfl
  | ⟨_, type, _, some components⟩ => by
      rw [ParamType.fromObject, bracketed_construct, wellBracketed_verifyType]
      exact and_congr_right fun _ => bracketed_fromObjects components

theorem bracketed_fromObjects : (values : List JsonFragmentType) →
    (BracketedAll (ParamType.fromObjects values) ↔ JsonBracketedAll values)
  | [] => Iff.rfl
  | value :: values =>
      and_congr (bracketed_fromObject value) (bracketed_fromObjects values)

end

end Texts

section Nodes

variable {allowIndexed : Bool} {node next : ParseNode} {position : Nat}
  {char : Char} {error : Error}

theorem modifier_error {allowed refused : Prop} [Decidable allowed]
    [Decidable refused] {message : String} {argument : Option String}
    (failed : (if allowed then .ok true
      else if refused then .error (Error.ofArgument message argument)
      else .ok false : Except Error Bool) = .error error) :
    error.code = .invalidArgument := by
  split at failed
  · cases failed
  · split at failed <;> cases failed
    rfl

theorem checkModifier_error {type name : Text}
    (failed : checkModifier type name = .error error) :
    error.code = .invalidArgument :=
  modifier_error failed

namespace ParseNode

/-- A word that is done is the flag, a modifier or a name. -/
def settle (allowed : Prop) [Decidable allowed]
    (flagged modified named node : ParseNode) (position : Nat) :
    Except Error ParseNode :=
  if node.name = "indexed".toList then
    if allowed then .ok flagged else unexpectedCharacter position
  else do
    let modifier ← checkModifier node.type node.name
    .ok (if modifier then modified else named)

theorem settle_ok {allowed : Prop} [Decidable allowed]
    {flagged modified named : ParseNode}
    (settled : settle allowed flagged modified named node position = .ok next) :
    next = flagged ∨ next = modified ∨ next = named := by
  unfold settle at settled
  split at settled
  · split at settled <;> cases settled
    exact .inl rfl
  · cases checked : checkModifier node.type node.name with
    | error error =>
        rw [checked] at settled
        cases settled
    | ok modifier =>
        rw [checked] at settled
        cases settled
        cases modifier with
        | true => exact .inr (.inl rfl)
        | false => exact .inr (.inr rfl)

theorem settle_error {allowed : Prop} [Decidable allowed]
    {flagged modified named : ParseNode}
    (failed : settle allowed flagged modified named node position =
      .error error) : error.code = .invalidArgument := by
  unfold settle at failed
  split at failed
  · split at failed <;> cases failed
    rfl
  · cases checked : checkModifier node.type node.name with
    | error error =>
        rw [checked] at failed
        cases failed
        exact checkModifier_error checked
    | ok modifier =>
        rw [checked] at failed
        cases failed

/-- What the brackets of a node depend on. -/
def SameBrackets (left right : ParseNode) : Prop :=
  bracketState left.type = bracketState right.type ∧
    left.components = right.components ∧ left.readArray = right.readArray

theorem close_ok (closed : node.close allowIndexed position = .ok next) :
    SameBrackets node next := by
  rcases settle_ok closed with rfl | rfl | rfl <;> exact ⟨rfl, rfl, rfl⟩

theorem finish_ok (finished : node.finish allowIndexed position = .ok next) :
    SameBrackets node next := by
  rcases settle_ok finished with rfl | rfl | rfl <;> exact ⟨rfl, rfl, rfl⟩

theorem endType_same (node : ParseNode) : SameBrackets node node.endType := by
  unfold endType
  split
  · exact ⟨(bracketState_verifyType node.type).symm, rfl, rfl⟩
  · exact ⟨rfl, rfl, rfl⟩

theorem endName_ok (ended : node.endName allowIndexed position = .ok next) :
    SameBrackets node next ∧ node.allowType = next.allowType ∧
      node.allowParams = next.allowParams := by
  unfold endName at ended
  split at ended
  · rcases settle_ok ended with rfl | rfl | rfl <;>
      exact ⟨⟨rfl, rfl, rfl⟩, rfl, rfl⟩
  · cases ended
    exact ⟨⟨rfl, rfl, rfl⟩, rfl, rfl⟩

theorem endName_error
    (failed : node.endName allowIndexed position = .error error) :
    error.code = .invalidArgument := by
  unfold endName at failed
  split at failed
  · exact settle_error failed
  · cases failed

theorem read_error (failed : node.read char position = .error error) :
    error.code = .invalidArgument := by
  unfold read at failed
  split at failed
  · cases failed
  split at failed
  · cases failed
  split at failed <;> cases failed
  rfl

end ParseNode

namespace Parser

variable {parser after : Parser}

/-- What one step can do to the open node and those around it. -/
inductive Moves (allowIndexed : Bool) (node : ParseNode) :
    (parents : List ParseNode) → (char : Char) → (after : Parser) → Prop where
  | opening {parents : List ParseNode} {type : Text}
      (opens : (node.allowType = true ∧ node.type = []) ∨
        node.allowParams = true)
      (same : bracketState type = bracketState node.type) :
      Moves allowIndexed node parents '(' ⟨.new allowIndexed,
        { node with
          type := type
          allowType := false
          components := some [] } :: parents⟩
  | closing {child parent : ParseNode} {parents : List ParseNode}
      (closed : node.SameBrackets child) :
      Moves allowIndexed node (parent :: parents) ')'
        ⟨{ parent.addComponent child with
          allowParams := false
          allowName := true
          allowArray := true }, parents⟩
  | separating {child parent : ParseNode} {parents : List ParseNode}
      (closed : node.SameBrackets child) :
      Moves allowIndexed node (parent :: parents) ','
        ⟨.new allowIndexed, parent.addComponent child :: parents⟩
  | spacing {parents : List ParseNode} {char : Char} {next : ParseNode}
      {position : Nat} (white : isWhiteSpace char = true)
      (spaced : node.space allowIndexed position = .ok next) :
      Moves allowIndexed node parents char ⟨next, parents⟩
  | bracket {parents : List ParseNode} :
      Moves allowIndexed node parents '[' ⟨{ node with
        type := node.type ++ ['[']
        allowArray := false
        allowName := false
        readArray := true }, parents⟩
  | endBracket {parents : List ParseNode} (reading : node.readArray = true) :
      Moves allowIndexed node parents ']' ⟨{ node with
        type := node.type ++ [']']
        readArray := false
        allowArray := true
        allowName := true }, parents⟩
  | reading {parents : List ParseNode} {char : Char} {next : ParseNode}
      {position : Nat} (ordinary : isOrdinary char = true)
      (read : node.read char position = .ok next) :
      Moves allowIndexed node parents char ⟨next, parents⟩

theorem moves_of_step
    (stepped : parser.step allowIndexed char position = .ok after) :
    Moves allowIndexed parser.node parser.parents char after := by
  obtain ⟨node, parents⟩ := parser
  by_cases ordinary : isOrdinary char = true
  · rw [step_ordinary ordinary] at stepped
    cases read : node.read char position with
    | error error =>
        rw [read] at stepped
        cases stepped
    | ok next =>
        rw [read] at stepped
        cases stepped
        exact .reading ordinary read
  unfold step at stepped
  simp only at stepped
  split at stepped
  next same =>
    subst same
    split at stepped
    next opens =>
      cases stepped
      refine .opening opens ?_
      rw [bracketState_verifyType]
      split
      next start =>
        rw [start.2]
        rfl
      · rfl
    · cases stepped
  split at stepped
  next same =>
    subst same
    cases closed : node.close allowIndexed position with
    | error error =>
        rw [closed] at stepped
        cases stepped
    | ok child =>
        rw [closed] at stepped
        cases parents with
        | nil => cases stepped
        | cons parent parents =>
            cases stepped
            exact .closing (ParseNode.close_ok closed)
  split at stepped
  next same =>
    subst same
    cases closed : node.close allowIndexed position with
    | error error =>
        rw [closed] at stepped
        cases stepped
    | ok child =>
        rw [closed] at stepped
        cases parents with
        | nil => cases stepped
        | cons parent parents =>
            cases stepped
            exact .separating (ParseNode.close_ok closed)
  split at stepped
  next white =>
    cases spaced : node.space allowIndexed position with
    | error error =>
        rw [spaced] at stepped
        cases stepped
    | ok next =>
        rw [spaced] at stepped
        cases stepped
        exact .spacing white spaced
  split at stepped
  next same =>
    subst same
    split at stepped <;> cases stepped
    exact .bracket
  split at stepped
  next same =>
    subst same
    split at stepped
    next reading =>
      cases stepped
      exact .endBracket reading
    · cases stepped
  next notOpening notClosing notComma visible notBracket notEnd =>
    exact absurd (by simp [isOrdinary, notOpening, notClosing, notComma,
      visible, notBracket, notEnd]) ordinary

/-- A comma outside of all parentheses that would end a parameter. -/
def StrayComma (allowIndexed : Bool) (parser : Parser) (char : Char)
    (position : Nat) : Prop :=
  char = ',' ∧ parser.parents = [] ∧
    ∃ child, parser.node.close allowIndexed position = .ok child

/-- Every other step that fails names its argument. -/
theorem code_of_step_error
    (failed : parser.step allowIndexed char position = .error error) :
    error.code = .invalidArgument ↔
      ¬ StrayComma allowIndexed parser char position := by
  obtain ⟨node, parents⟩ := parser
  by_cases comma : char = ','
  · subst comma
    change (node.close allowIndexed position >>= fun child => _) = _ at failed
    cases closed : node.close allowIndexed position with
    | error error =>
        rw [closed] at failed
        cases failed
        refine iff_of_true (ParseNode.settle_error closed) ?_
        rintro ⟨_, _, child, closes⟩
        rw [closed] at closes
        cases closes
    | ok child =>
        rw [closed] at failed
        cases parents with
        | nil =>
            cases failed
            exact iff_of_false nofun (not_not_intro ⟨rfl, rfl, child, closed⟩)
        | cons parent parents => cases failed
  refine iff_of_true ?_ fun stray => comma stray.1
  unfold step at failed
  simp only [if_neg comma] at failed
  split at failed
  · split at failed <;> cases failed
    rfl
  split at failed
  · cases closed : node.close allowIndexed position with
    | error error =>
        rw [closed] at failed
        cases failed
        exact ParseNode.settle_error closed
    | ok child =>
        rw [closed] at failed
        cases parents with
        | nil =>
            cases failed
            rfl
        | cons parent parents => cases failed
  split at failed
  · cases spaced : node.space allowIndexed position with
    | error error =>
        rw [spaced] at failed
        cases failed
        exact ParseNode.endName_error spaced
    | ok next =>
        rw [spaced] at failed
        cases failed
  split at failed
  · split at failed <;> cases failed
    rfl
  split at failed
  · split at failed <;> cases failed
    rfl
  · cases read : node.read char position with
    | error error =>
        rw [read] at failed
        cases failed
        exact ParseNode.read_error read
    | ok next =>
        rw [read] at failed
        cases failed

end Parser

/-- The flag follows the brackets of the type, and the components are done. -/
structure ParseNode.Sound (node : ParseNode) : Prop where
  type : bracketState node.type = some node.readArray
  components : JsonBracketedComponents node.components

/-- The brackets of the type or of a component are lost. -/
def ParseNode.Broken (node : ParseNode) : Prop :=
  bracketState node.type = none ∨ ¬ JsonBracketedComponents node.components

/-- Components are there only after the type. -/
def ParseNode.Regular (node : ParseNode) : Prop :=
  node.allowType = true ∨ node.allowParams = true → node.components = none

namespace ParseNode

theorem new_sound (allowIndexed : Bool) : (new allowIndexed).Sound :=
  ⟨rfl, trivial⟩

theorem new_regular (allowIndexed : Bool) : (new allowIndexed).Regular :=
  fun _ => rfl

theorem SameBrackets.sound {child : ParseNode} (same : node.SameBrackets child)
    (sound : node.Sound) : child.Sound := by
  obtain ⟨type, components, reading⟩ := same
  exact ⟨by rw [← type, ← reading, sound.type], components ▸ sound.components⟩

theorem SameBrackets.broken {child : ParseNode} (same : node.SameBrackets child)
    (broken : node.Broken) : child.Broken := by
  obtain ⟨type, components, _⟩ := same
  rw [Broken, ← type, ← components]
  exact broken

/-- A node that is done is a parameter without open brackets. -/
theorem Sound.bracketed_fragment (sound : node.Sound) :
    node.fragment.Bracketed ↔ node.readArray = false := by
  change WellBracketed (verifyType node.type) ∧ _ ↔ _
  rw [wellBracketed_verifyType, WellBracketed, sound.type, Option.some.injEq]
  exact and_iff_left sound.components

theorem Broken.not_bracketed (broken : node.Broken) :
    ¬ node.fragment.Bracketed := by
  rintro ⟨type, components⟩
  rw [wellBracketed_verifyType] at type
  rcases broken with lost | unbracketed
  · rw [type] at lost
    cases lost
  · exact unbracketed components

theorem jsonBracketedAll_append (values values' : List JsonFragmentType) :
    JsonBracketedAll (values ++ values') ↔
      JsonBracketedAll values ∧ JsonBracketedAll values' := by
  induction values with
  | nil => exact (iff_of_eq (true_and _)).symm
  | cons value values inductionHypothesis =>
      rw [List.cons_append, JsonBracketedAll, JsonBracketedAll,
        inductionHypothesis, and_assoc]

theorem bracketed_addComponent (parent child : ParseNode) :
    JsonBracketedComponents (parent.addComponent child).components ↔
      JsonBracketedComponents parent.components ∧
        child.fragment.Bracketed := by
  change JsonBracketedAll _ ↔ _
  rw [jsonBracketedAll_append]
  refine and_congr ?_ (and_iff_left trivial)
  cases parent.components <;> rfl

theorem Sound.space (sound : node.Sound)
    (spaced : node.space allowIndexed position = .ok next) : next.Sound :=
  (endName_ok spaced).1.sound ((endType_same node).sound sound)

theorem Broken.space (broken : node.Broken)
    (spaced : node.space allowIndexed position = .ok next) : next.Broken :=
  (endName_ok spaced).1.broken ((endType_same node).broken broken)

theorem Regular.space (regular : node.Regular)
    (spaced : node.space allowIndexed position = .ok next) :
    next.Regular := by
  obtain ⟨same, typing, following⟩ := endName_ok spaced
  rw [Regular, ← typing, ← following, ← same.2.1]
  unfold endType
  split
  next ends => exact fun _ => regular (.inl ends.1)
  · exact regular

/-- What is not a digit is not taken into the brackets of the type, which
ends outside of them. -/
def Orderly (node : ParseNode) (char : Char) : Prop :=
  node.readArray = true →
    char ≠ ')' ∧ char ≠ ',' ∧ char ≠ '[' ∧
      (isOrdinary char = true → char.isDigit = false →
        node.allowType = false ∧ node.allowName = true)

theorem bracketStep_ordinary {inside : Bool}
    (ordinary : isOrdinary char = true)
    (digit : inside = true → char.isDigit = true) :
    bracketStep (some inside) char = some inside := by
  cases inside with
  | true => exact bracketStep_digit (digit rfl)
  | false =>
      have notOpening : char ≠ '[' := by
        intro same
        subst same
        cases ordinary
      have notClosing : char ≠ ']' := by
        intro same
        subst same
        cases ordinary
      rw [bracketStep, if_neg notOpening, if_neg notClosing]

theorem bracketStep_disorder (ordinary : isOrdinary char = true)
    (other : char.isDigit = false) : bracketStep (some true) char = none := by
  have notClosing : char ≠ ']' := by
    intro same
    subst same
    cases ordinary
  rw [bracketStep, if_neg notClosing, other]
  rfl

theorem Sound.read (sound : node.Sound) (ordinary : isOrdinary char = true)
    (orderly : node.Orderly char)
    (read : node.read char position = .ok next) : next.Sound := by
  have extended : (node.allowType = true ∨ node.allowName = false) →
      bracketState (node.type ++ [char]) = some node.readArray := by
    intro taking
    rw [bracketState_snoc, sound.type]
    refine bracketStep_ordinary ordinary fun reading => ?_
    by_contra other
    rw [Bool.not_eq_true] at other
    obtain ⟨typing, naming⟩ := (orderly reading).2.2.2 ordinary other
    rw [typing, naming] at taking
    rcases taking with taking | taking <;> cases taking
  unfold ParseNode.read at read
  split at read
  next typing =>
    cases read
    exact ⟨extended (.inl typing), sound.components⟩
  split at read
  · cases read
    exact ⟨sound.type, sound.components⟩
  next notNaming =>
    split at read <;> cases read
    exact ⟨extended (.inr (Bool.eq_false_of_not_eq_true notNaming)),
      sound.components⟩

theorem Sound.broken_read (sound : node.Sound)
    (ordinary : isOrdinary char = true) (disorder : ¬ node.Orderly char)
    (read : node.read char position = .ok next) : next.Broken := by
  have special : ∀ other, isOrdinary other = false → char ≠ other := by
    rintro other notOrdinary rfl
    rw [ordinary] at notOrdinary
    cases notOrdinary
  rw [Orderly, Classical.not_imp] at disorder
  obtain ⟨reading, disorder⟩ := disorder
  have taken : char.isDigit = false ∧
      ¬ (node.allowType = false ∧ node.allowName = true) := by
    by_contra fine
    refine disorder ⟨special ')' rfl, special ',' rfl, special '[' rfl,
      fun _ other => ?_⟩
    by_contra taking
    exact fine ⟨other, taking⟩
  have lost : bracketState (node.type ++ [char]) = none := by
    rw [bracketState_snoc, sound.type, reading]
    exact bracketStep_disorder ordinary taken.1
  unfold ParseNode.read at read
  split at read
  · cases read
    exact .inl lost
  split at read
  next notTyping naming =>
    exact absurd ⟨Bool.eq_false_of_not_eq_true notTyping, naming⟩ taken.2
  · cases read
    exact .inl lost

theorem Broken.read (broken : node.Broken)
    (read : node.read char position = .ok next) : next.Broken := by
  have extended : bracketState (node.type ++ [char]) = none ∨
      ¬ JsonBracketedComponents node.components := by
    refine broken.imp_left fun lost => ?_
    rw [bracketState_snoc, lost]
    rfl
  unfold ParseNode.read at read
  split at read
  · cases read
    exact extended
  split at read
  · cases read
    exact broken
  · split at read <;> cases read
    exact extended

theorem Regular.read (regular : node.Regular)
    (read : node.read char position = .ok next) : next.Regular := by
  unfold ParseNode.read at read
  split at read
  next typing =>
    cases read
    exact fun _ => regular (.inl typing)
  split at read
  · cases read
    exact regular
  · split at read <;> cases read
    exact regular

end ParseNode

namespace Parser

variable {parser after : Parser}

/-- No brackets are lost in the open node and those around it. -/
def Sound (parser : Parser) : Prop :=
  parser.node.Sound ∧ ∀ parent ∈ parser.parents, parent.Sound

def Broken (parser : Parser) : Prop :=
  parser.node.Broken ∨ ∃ parent ∈ parser.parents, parent.Broken

/-- The types around the open node are done. -/
def Regular (parser : Parser) : Prop :=
  parser.node.Regular ∧
    ∀ parent ∈ parser.parents, parent.allowType = false

theorem Moves.regular {parents : List ParseNode}
    (moves : Moves allowIndexed node parents char after)
    (regular : Regular ⟨node, parents⟩) : after.Regular := by
  obtain ⟨inner, around⟩ := regular
  cases moves with
  | opening opens same =>
      refine ⟨ParseNode.new_regular allowIndexed, fun parent member => ?_⟩
      rcases List.mem_cons.mp member with rfl | member
      · rfl
      · exact around parent member
  | @closing child parent parents closed =>
      refine ⟨?_, fun other member => around other (.tail _ member)⟩
      rintro (typing | following)
      · exact absurd typing (by
          change ¬ parent.allowType = true
          rw [around parent (.head _)]
          exact Bool.false_ne_true)
      · cases following
  | @separating child parent parents closed =>
      refine ⟨ParseNode.new_regular allowIndexed, fun other member => ?_⟩
      rcases List.mem_cons.mp member with rfl | member
      · exact around parent (.head _)
      · exact around other (.tail _ member)
  | spacing white spaced => exact ⟨inner.space spaced, around⟩
  | bracket => exact ⟨inner, around⟩
  | endBracket reading => exact ⟨inner, around⟩
  | reading ordinary read => exact ⟨inner.read read, around⟩

theorem Moves.sound {parents : List ParseNode}
    (moves : Moves allowIndexed node parents char after)
    (sound : Sound ⟨node, parents⟩) (orderly : node.Orderly char) :
    after.Sound := by
  obtain ⟨inner, around⟩ := sound
  have outside : char = ')' ∨ char = ',' ∨ char = '[' →
      node.readArray = false := by
    intro special
    by_contra reading
    rw [Bool.not_eq_false] at reading
    obtain ⟨notClosing, notComma, notBracket, _⟩ := orderly reading
    rcases special with same | same | same
    · exact notClosing same
    · exact notComma same
    · exact notBracket same
  have extend {child parent : ParseNode} (closed : node.SameBrackets child)
      (sound : parent.Sound) (done : node.readArray = false) :
      (parent.addComponent child).Sound := by
    refine ⟨sound.type, ?_⟩
    rw [ParseNode.bracketed_addComponent]
    refine ⟨sound.components,
      (closed.sound inner).bracketed_fragment.mpr ?_⟩
    rw [← closed.2.2]
    exact done
  cases moves with
  | opening opens same =>
      refine ⟨ParseNode.new_sound allowIndexed, fun parent member => ?_⟩
      rcases List.mem_cons.mp member with rfl | member
      · exact ⟨same.trans inner.type, trivial⟩
      · exact around parent member
  | @closing child parent parents closed =>
      have extended := extend closed (around parent (.head _))
        (outside (.inl rfl))
      exact ⟨⟨extended.type, extended.components⟩,
        fun other member => around other (.tail _ member)⟩
  | @separating child parent parents closed =>
      refine ⟨ParseNode.new_sound allowIndexed, fun other member => ?_⟩
      rcases List.mem_cons.mp member with rfl | member
      · exact extend closed (around parent (.head _))
          (outside (.inr (.inl rfl)))
      · exact around other (.tail _ member)
  | spacing white spaced => exact ⟨inner.space spaced, around⟩
  | bracket =>
      refine ⟨⟨?_, inner.components⟩, around⟩
      change bracketState (node.type ++ ['[']) = some true
      rw [bracketState_snoc, inner.type, outside (.inr (.inr rfl))]
      rfl
  | endBracket reading =>
      refine ⟨⟨?_, inner.components⟩, around⟩
      change bracketState (node.type ++ [']']) = some false
      rw [bracketState_snoc, inner.type, reading]
      rfl
  | reading ordinary read => exact ⟨inner.read ordinary orderly read, around⟩

/-- A parameter that is done keeps what is broken in the one around it. -/
theorem broken_addComponent {parent child : ParseNode}
    (broken : parent.Broken ∨ ¬ child.fragment.Bracketed) :
    (parent.addComponent child).Broken := by
  rw [ParseNode.Broken, ParseNode.bracketed_addComponent, not_and_or]
  rcases broken with (lost | unbracketed) | unbracketed
  · exact .inl lost
  · exact .inr (.inl unbracketed)
  · exact .inr (.inr unbracketed)

theorem Moves.broken {parents : List ParseNode}
    (moves : Moves allowIndexed node parents char after)
    (regular : Regular ⟨node, parents⟩) (broken : Broken ⟨node, parents⟩) :
    after.Broken := by
  have close {child parent : ParseNode} {parents : List ParseNode}
      (closed : node.SameBrackets child)
      (broken : Broken ⟨node, parent :: parents⟩) :
      (parent.addComponent child).Broken ∨ ∃ other ∈ parents, other.Broken := by
    rcases broken with inner | ⟨other, member, outer⟩
    · exact .inl (broken_addComponent
        (.inr (closed.broken inner).not_bracketed))
    rcases List.mem_cons.mp member with rfl | member
    · exact .inl (broken_addComponent (.inl outer))
    · exact .inr ⟨other, member, outer⟩
  cases moves with
  | @opening parents type opens same =>
      refine .inr ?_
      rcases broken with (lost | unbracketed) | ⟨other, member, outer⟩
      · exact ⟨_, .head _, .inl (same.trans lost)⟩
      · -- A node that may still open has no components to lose.
        have none := regular.1 (opens.imp_left And.left)
        change ¬ JsonBracketedComponents node.components at unbracketed
        rw [none] at unbracketed
        exact absurd trivial unbracketed
      · exact ⟨other, .tail _ member, outer⟩
  | closing closed => exact close closed broken
  | separating closed =>
      rcases close closed broken with inner | ⟨other, member, outer⟩
      · exact .inr ⟨_, .head _, inner⟩
      · exact .inr ⟨other, .tail _ member, outer⟩
  | spacing white spaced =>
      exact broken.imp_left fun inner => inner.space spaced
  | bracket =>
      refine broken.imp_left fun inner => inner.imp_left fun lost => ?_
      exact (bracketState_snoc node.type '[').trans
        (congrArg (bracketStep · '[') lost)
  | endBracket reading =>
      refine broken.imp_left fun inner => inner.imp_left fun lost => ?_
      exact (bracketState_snoc node.type ']').trans
        (congrArg (bracketStep · ']') lost)
  | reading ordinary read =>
      exact broken.imp_left fun inner => inner.read read

theorem Moves.broken_of_disorder {parents : List ParseNode}
    (moves : Moves allowIndexed node parents char after)
    (sound : Sound ⟨node, parents⟩) (disorder : ¬ node.Orderly char) :
    after.Broken := by
  obtain ⟨inner, around⟩ := sound
  have inside : node.readArray = true := by
    by_contra outside
    exact disorder fun reading => absurd reading outside
  have close {child parent : ParseNode}
      (closed : node.SameBrackets child) :
      (parent.addComponent child).Broken := by
    refine broken_addComponent (.inr fun bracketed => ?_)
    rw [(closed.sound inner).bracketed_fragment, ← closed.2.2, inside]
      at bracketed
    cases bracketed
  cases moves with
  | opening opens same =>
      exact absurd (fun _ => ⟨by rintro ⟨⟩, by rintro ⟨⟩, by rintro ⟨⟩, by rintro ⟨⟩⟩) disorder
  | @closing child parent parents closed =>
      have broken : (parent.addComponent child).Broken := close closed
      exact .inl broken
  | separating closed => exact .inr ⟨_, .head _, close closed⟩
  | spacing white spaced =>
      have special : ∀ other, isWhiteSpace other = false → char ≠ other := by
        rintro other visible rfl
        rw [white] at visible
        cases visible
      refine absurd (fun _ => ⟨special ')' rfl, special ',' rfl,
        special '[' rfl, fun ordinary => ?_⟩) disorder
      rw [isOrdinary, white, Bool.not_true, Bool.and_false] at ordinary
      cases ordinary
  | bracket =>
      refine .inl (.inl ?_)
      change bracketState (node.type ++ ['[']) = none
      rw [bracketState_snoc, inner.type, inside]
      rfl
  | endBracket reading =>
      exact absurd (fun _ => ⟨by rintro ⟨⟩, by rintro ⟨⟩, by rintro ⟨⟩, by rintro ⟨⟩⟩) disorder
  | reading ordinary read =>
      exact .inl (inner.broken_read ordinary disorder read)

theorem parenthesisStep_other {depth : Nat} (notOpening : char ≠ '(')
    (notClosing : char ≠ ')') :
    parenthesisStep (some depth) char = some depth := by
  simp only [parenthesisStep, if_neg notOpening, if_neg notClosing]

/-- The open parentheses are the parameters around the open one. -/
theorem Moves.parenthesisStep {parents : List ParseNode}
    (moves : Moves allowIndexed node parents char after) :
    parenthesisStep (some parents.length) char =
      some after.parents.length := by
  cases moves with
  | opening opens same => rfl
  | closing closed => rfl
  | separating closed => rfl
  | spacing white spaced =>
      apply parenthesisStep_other
      · rintro rfl
        cases white
      · rintro rfl
        cases white
  | bracket => rfl
  | endBracket reading => rfl
  | reading ordinary read =>
      apply parenthesisStep_other
      · rintro rfl
        cases ordinary
      · rintro rfl
        cases ordinary

/-- What holds of every character that a run reads. -/
def Throughout (allowIndexed : Bool) (holds : Parser → Char → Nat → Prop) :
    Parser → (text : Text) → (position : Nat) → Prop
  | _, [], _ => True
  | parser, char :: text, position =>
      holds parser char position ∧
        ∀ after, parser.step allowIndexed char position = .ok after →
          Throughout allowIndexed holds after text (position + 1)

/-- No character of the text leaves the brackets in disorder. -/
def Orderly (allowIndexed : Bool) : Parser → Text → Nat → Prop :=
  Throughout allowIndexed fun parser char _ => parser.node.Orderly char

/-- No comma of the text stands outside of all parentheses. -/
def Separated (allowIndexed : Bool) : Parser → Text → Nat → Prop :=
  Throughout allowIndexed fun parser char position =>
    ¬ StrayComma allowIndexed parser char position

theorem broken_run {text : Text}
    (ran : parser.run allowIndexed text position = .ok after)
    (regular : parser.Regular) (broken : parser.Broken) : after.Broken := by
  induction text generalizing parser position with
  | nil =>
      cases ran
      exact broken
  | cons char text inductionHypothesis =>
      rw [run] at ran
      cases stepped : parser.step allowIndexed char position with
      | error error =>
          rw [stepped] at ran
          cases ran
      | ok next =>
          rw [stepped] at ran
          have moves := moves_of_step stepped
          exact inductionHypothesis ran (moves.regular regular)
            (moves.broken regular broken)

/-- A run that keeps to the brackets ends with them, and no other does. -/
theorem sound_run {text : Text}
    (ran : parser.run allowIndexed text position = .ok after)
    (regular : parser.Regular) (sound : parser.Sound) :
    (Orderly allowIndexed parser text position ∧ after.Sound) ∨
      (¬ Orderly allowIndexed parser text position ∧ after.Broken) := by
  induction text generalizing parser position with
  | nil =>
      cases ran
      exact .inl ⟨trivial, sound⟩
  | cons char text inductionHypothesis =>
      rw [run] at ran
      cases stepped : parser.step allowIndexed char position with
      | error error =>
          rw [stepped] at ran
          cases ran
      | ok next =>
          rw [stepped] at ran
          have moves := moves_of_step stepped
          have later : Orderly allowIndexed parser (char :: text) position ↔
              parser.node.Orderly char ∧
                Orderly allowIndexed next text (position + 1) := by
            refine and_congr_right fun _ => ?_
            rw [stepped]
            simp only [Except.ok.injEq, forall_eq']
            rfl
          rw [later]
          by_cases orderly : parser.node.Orderly char
          · rw [and_iff_right orderly]
            exact inductionHypothesis ran (moves.regular regular)
              (moves.sound sound orderly)
          · exact .inr ⟨fun both => orderly both.1,
              broken_run ran (moves.regular regular)
                (moves.broken_of_disorder sound orderly)⟩

theorem parenthesisDepth_run {text : Text}
    (ran : parser.run allowIndexed text position = .ok after) :
    text.foldl parenthesisStep (some parser.parents.length) =
      some after.parents.length := by
  induction text generalizing parser position with
  | nil =>
      cases ran
      rfl
  | cons char text inductionHypothesis =>
      rw [run] at ran
      cases stepped : parser.step allowIndexed char position with
      | error error =>
          rw [stepped] at ran
          cases ran
      | ok next =>
          rw [stepped] at ran
          rw [List.foldl_cons, (moves_of_step stepped).parenthesisStep]
          exact inductionHypothesis ran

theorem not_strayComma_of_step
    (stepped : parser.step allowIndexed char position = .ok after) :
    ¬ StrayComma allowIndexed parser char position := by
  rintro ⟨rfl, around, _⟩
  have moves := moves_of_step stepped
  rw [around] at moves
  cases moves with
  | spacing white spaced => cases white
  | reading ordinary read => cases ordinary

/-- A run fails with the error of an argument, but for a stray comma. -/
theorem separated_run_iff (text : Text) :
    Separated allowIndexed parser text position ↔
      ∀ error, parser.run allowIndexed text position = .error error →
        error.code = .invalidArgument := by
  induction text generalizing parser position with
  | nil => exact iff_of_true trivial (by rintro _ ⟨⟩)
  | cons char text inductionHypothesis =>
      rw [run, Separated, Throughout]
      cases stepped : parser.step allowIndexed char position with
      | error error =>
          rw [← code_of_step_error stepped]
          constructor
          · rintro ⟨named, _⟩ _ ⟨⟩
            exact named
          · exact fun named => ⟨named error rfl, by rintro _ ⟨⟩⟩
      | ok next =>
          rw [and_iff_right (not_strayComma_of_step stepped)]
          simp only [Except.ok.injEq, forall_eq']
          exact inductionHypothesis

end Parser

end Nodes

/-- A text is read as a parameter whose suffixes are well-formed, with
balanced parentheses, or is refused as an argument. -/
def KeepsGrammar (text : Text) : Except Error ParamType → Prop
  | .ok param => param.Bracketed ∧ Parenthesized text
  | .error error => error.code = .invalidArgument

/-- The parser refuses no character and is not inside of parentheses in the
end. -/
def ReadThrough (allowIndexed : Bool) (text : Text) (last : ParseNode) : Prop :=
  Parser.run allowIndexed ⟨.root, []⟩ text 0 = .ok ⟨last, []⟩ ∧
    ∃ node, last.finish allowIndexed (text.length - 7) = .ok node

/-- What a text that is read through is read as. -/
theorem fromString_of_run {allowIndexed : Bool} {text : Text}
    {last : ParseNode}
    (ran : Parser.run allowIndexed ⟨.root, []⟩ text 0 = .ok ⟨last, []⟩) :
    ParamType.fromString text allowIndexed =
      (last.finish allowIndexed (text.length - 7)).map fun node =>
        ParamType.fromObject node.fragment := by
  rw [ParamType.fromString, parseParamType, ran]
  change (last.finish allowIndexed (text.length - 7) >>= fun node => _) >>=
    (fun value => _) = _
  cases last.finish allowIndexed (text.length - 7) <;> rfl

theorem parenthesized_of_run {allowIndexed : Bool} {text : Text}
    {last : ParseNode}
    (ran : Parser.run allowIndexed ⟨.root, []⟩ text 0 = .ok ⟨last, []⟩) :
    Parenthesized text :=
  Parser.parenthesisDepth_run ran

theorem bracketed_of_run {allowIndexed : Bool} {text : Text}
    {last node : ParseNode} {position : Nat}
    (ran : Parser.run allowIndexed ⟨.root, []⟩ text 0 = .ok ⟨last, []⟩)
    (finished : last.finish allowIndexed position = .ok node) :
    (ParamType.fromObject node.fragment).Bracketed ↔
      Parser.Orderly allowIndexed ⟨.root, []⟩ text 0 ∧
        last.readArray = false := by
  have same := ParseNode.finish_ok finished
  have regular : Parser.Regular ⟨.root, []⟩ := ⟨fun _ => rfl, nofun⟩
  have sound : Parser.Sound ⟨.root, []⟩ := ⟨⟨rfl, trivial⟩, nofun⟩
  rw [bracketed_fromObject]
  rcases Parser.sound_run ran regular sound with
    ⟨orderly, kept⟩ | ⟨disorder, broken⟩
  · rw [and_iff_right orderly, (same.sound kept.1).bracketed_fragment,
      ← same.2.2]
  · have lost : last.Broken := by
      rcases broken with inner | ⟨_, member, _⟩
      · exact inner
      · cases member
    exact iff_of_false (same.broken lost).not_bracketed
      fun both => disorder both.1

/-- A parameter type has the grammar of types just where no comma stands
outside of all parentheses and a text that is read through never leaves its
brackets in disorder. -/
theorem fromString_keepsGrammar_iff (allowIndexed : Bool) (text : Text) :
    KeepsGrammar text (ParamType.fromString text allowIndexed) ↔
      Parser.Separated allowIndexed ⟨.root, []⟩ text 0 ∧
        ∀ last, ReadThrough allowIndexed text last →
          Parser.Orderly allowIndexed ⟨.root, []⟩ text 0 ∧
            last.readArray = false := by
  rw [Parser.separated_run_iff]
  cases ran : Parser.run allowIndexed ⟨.root, []⟩ text 0 with
  | error error =>
      have refused : ParamType.fromString text allowIndexed = .error error := by
        rw [ParamType.fromString, parseParamType, ran]
        rfl
      rw [refused]
      constructor
      · intro named
        refine ⟨?_, fun last through => ?_⟩
        · rintro _ ⟨⟩
          exact named
        · have ended := through.1
          rw [ran] at ended
          cases ended
      · exact fun separated => separated.1 error rfl
  | ok parser =>
      rw [and_iff_right nofun]
      obtain ⟨last, parents⟩ := parser
      cases parents with
      | cons parent parents =>
          have refused : ParamType.fromString text allowIndexed =
              .error (Error.ofArgument "unexpected eof" (some "param")) := by
            rw [ParamType.fromString, parseParamType, ran]
            rfl
          rw [refused]
          refine iff_of_true rfl fun other through => ?_
          have ended := through.1
          rw [ran] at ended
          cases ended
      | nil =>
          have only : ∀ other, ReadThrough allowIndexed text other ↔
              last = other ∧ ∃ node,
                last.finish allowIndexed (text.length - 7) = .ok node := by
            intro other
            rw [ReadThrough, ran, Except.ok.injEq, Parser.mk.injEq,
              and_iff_left rfl]
            exact and_congr_right fun same => by rw [same]
          simp only [only, and_imp, forall_eq']
          rw [fromString_of_run ran]
          cases finished : last.finish allowIndexed (text.length - 7) with
          | error error =>
              exact iff_of_true (ParseNode.settle_error finished) nofun
          | ok node =>
              rw [forall_prop_of_true ⟨node, rfl⟩,
                ← bracketed_of_run ran finished]
              exact and_iff_left (parenthesized_of_run ran)

/-- A bracket that is never closed is read as a part of the type. -/
theorem fromString_unterminated :
    (ParamType.fromString "uint8[".toList false).map ParamType.type =
      .ok "uint8[".toList := by
  decide +kernel

/-- A comma outside of all parentheses is not refused as an argument. -/
theorem fromString_stray_comma :
    ((ParamType.fromString "a,b".toList false).map ParamType.type).mapError
      Error.code = .error .unspecified := by
  decide +kernel

theorem not_fromString_keepsGrammar :
    ¬ KeepsGrammar "uint8[".toList
        (ParamType.fromString "uint8[".toList false) ∧
      ¬ KeepsGrammar "a,b".toList
        (ParamType.fromString "a,b".toList false) := by
  constructor
  · have read := fromString_unterminated
    generalize ParamType.fromString "uint8[".toList false = result at read ⊢
    rintro kept
    cases result with
    | error error => cases read
    | ok param =>
        have type : param.type = "uint8[".toList := by
          injection read
        have bracketed : WellBracketed param.type := by
          cases param
          exact kept.1.1
        rw [type] at bracketed
        exact absurd bracketed (by decide +kernel)
  · have read := fromString_stray_comma
    generalize ParamType.fromString "a,b".toList false = result at read ⊢
    intro kept
    cases result with
    | ok param => cases read
    | error error =>
        rw [KeepsGrammar] at kept
        rw [Except.map, Except.mapError, kept] at read
        cases read

end Web3Js.Fragments
