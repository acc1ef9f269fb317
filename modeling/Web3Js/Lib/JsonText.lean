import Mathlib.Algebra.BigOperators.Group.List.Basic
import Mathlib.Tactic.SplitIfs

/-!
# JSON texts

A text is a list of UTF-16 code units.  The grammar of JSON is read by a
machine that takes one unit at a time and keeps the values that it has not
finished, so a text can be cut anywhere and read on.

The tree of a text keeps what the text says: the content of every string with
its escapes resolved, the literals of the numbers and all members of the
objects in their order, also those that repeat a name.
-/

namespace Web3Js.JsonText

abbrev CodeUnit := UInt16

abbrev Text := List CodeUnit

def unit (character : Char) : CodeUnit := UInt16.ofNat character.toNat

/-- The text of characters that are one unit each. -/
def plainText (content : String) : Text := content.toList.map unit

/-- Deciding over the units of a text visits these, not all units. -/
instance (priority := 2000) decidableForallUnits (text : Text)
    (property : CodeUnit → Prop) [DecidablePred property] :
    Decidable (∀ read ∈ text, property read) :=
  List.decidableBAll property text

inductive Tree
  | null
  | boolean (value : Bool)
  | number (literal : Text)
  | string (content : Text)
  | array (elements : List Tree)
  | object (members : List (Text × Tree))

/-- An array or an object. -/
def Tree.IsComposite : Tree → Prop
  | .array _ | .object _ => True
  | _ => False

theorem Tree.isComposite_array (elements : List Tree) :
    (array elements).IsComposite := trivial

theorem Tree.isComposite_object (members : List (Text × Tree)) :
    (object members).IsComposite := trivial

/-! ## The machine -/

/-- The part of a number that was read last. -/
inductive Phase
  | minus
  | zero
  | digits
  | point
  | fraction
  | exponentMark
  | exponentSign
  | exponent

/-- Where a string stands within an escape; a Unicode escape has digits to
come and the value of those before. -/
inductive Escape
  | plain
  | backslash
  | unicode (remaining value : Nat)

/-- The values that are written as a word. -/
inductive Word
  | boolean (value : Bool)
  | null

def Word.text : Word → Text
  | .boolean true => plainText "true"
  | .boolean false => plainText "false"
  | .null => plainText "null"

def Word.tree : Word → Tree
  | .boolean value => .boolean value
  | .null => .null

inductive Mode
  /-- A value is due. -/
  | value
  /-- An element is due, or the end of an empty array. -/
  | element
  /-- A name is due, or the end of an empty object. -/
  | member
  | name
  | colon
  /-- A value has ended within an array or an object. -/
  | ended
  | string (isName : Bool) (content : Text) (escape : Escape)
  /-- A word of which a number of units were read. -/
  | word (word : Word) (position : Nat)
  | number (phase : Phase) (literal : Text)
  | done (tree : Tree)

/-- A value that is not finished; within a member its name has been read. -/
inductive Frame
  | array (elements : List Tree)
  | object (members : List (Text × Tree))
  | member (members : List (Text × Tree)) (name : Text)

structure State where
  stack : List Frame
  mode : Mode

section Machine

def isSpace (read : CodeUnit) : Bool :=
  read == unit ' ' || read == unit '\t' || read == unit '\n' ||
    read == unit '\r'

def digitValue (read : CodeUnit) : Option Nat :=
  if unit '0' ≤ read ∧ read ≤ unit '9' then
    some (read.toNat - (unit '0').toNat)
  else none

def hexValue (read : CodeUnit) : Option Nat :=
  if unit 'a' ≤ read ∧ read ≤ unit 'f' then
    some (read.toNat - (unit 'a').toNat + 10)
  else if unit 'A' ≤ read ∧ read ≤ unit 'F' then
    some (read.toNat - (unit 'A').toNat + 10)
  else digitValue read

def isExponentMark (read : CodeUnit) : Bool :=
  read == unit 'e' || read == unit 'E'

def isSign (read : CodeUnit) : Bool :=
  read == unit '+' || read == unit '-'

def Phase.next (phase : Phase) (read : CodeUnit) : Option Phase :=
  let isDigit := (digitValue read).isSome
  match phase with
  | .minus =>
      if read = unit '0' then some .zero
      else if isDigit then some .digits else none
  | .zero =>
      if read = unit '.' then some .point
      else if isExponentMark read then some .exponentMark else none
  | .digits =>
      if isDigit then some .digits
      else if read = unit '.' then some .point
      else if isExponentMark read then some .exponentMark else none
  | .point => if isDigit then some .fraction else none
  | .fraction =>
      if isDigit then some .fraction
      else if isExponentMark read then some .exponentMark else none
  | .exponentMark =>
      if isSign read then some .exponentSign
      else if isDigit then some .exponent else none
  | .exponentSign | .exponent => if isDigit then some .exponent else none

/-- A number may end here. -/
def Phase.complete : Phase → Bool
  | .zero | .digits | .fraction | .exponent => true
  | .minus | .point | .exponentMark | .exponentSign => false

/-- The unit that a backslash and another unit stand for. -/
def simpleEscape (read : CodeUnit) : Option CodeUnit :=
  if read = unit '"' ∨ read = unit '\\' ∨ read = unit '/' then some read
  else if read = unit 'b' then some 8
  else if read = unit 'f' then some 12
  else if read = unit 'n' then some (unit '\n')
  else if read = unit 'r' then some (unit '\r')
  else if read = unit 't' then some (unit '\t')
  else none

/-- A value has been read; in an object it always has a name. -/
def finish (tree : Tree) : List Frame → State
  | [] => ⟨[], .done tree⟩
  | .array elements :: stack => ⟨.array (elements ++ [tree]) :: stack, .ended⟩
  | .object members :: stack =>
      ⟨.object (members ++ [([], tree)]) :: stack, .ended⟩
  | .member members name :: stack =>
      ⟨.object (members ++ [(name, tree)]) :: stack, .ended⟩

/-- The first unit of a value. -/
def begin? (stack : List Frame) (read : CodeUnit) : Option State :=
  if read = unit '{' then some ⟨.object [] :: stack, .member⟩
  else if read = unit '[' then some ⟨.array [] :: stack, .element⟩
  else if read = unit '"' then some ⟨stack, .string false [] .plain⟩
  else if read = unit '-' then some ⟨stack, .number .minus [read]⟩
  else if read = unit '0' then some ⟨stack, .number .zero [read]⟩
  else if (digitValue read).isSome then
    some ⟨stack, .number .digits [read]⟩
  else if read = unit 't' then some ⟨stack, .word (.boolean true) 1⟩
  else if read = unit 'f' then some ⟨stack, .word (.boolean false) 1⟩
  else if read = unit 'n' then some ⟨stack, .word .null 1⟩
  else none

/-- After a value: a comma or the end of what it is in. -/
def stepEnded (stack : List Frame) (read : CodeUnit) : Option State :=
  match stack with
  | [] => none
  | .array elements :: outer =>
      if isSpace read then some ⟨stack, .ended⟩
      else if read = unit ',' then some ⟨stack, .value⟩
      else if read = unit ']' then some (finish (.array elements) outer)
      else none
  | .object members :: outer =>
      if isSpace read then some ⟨stack, .ended⟩
      else if read = unit ',' then some ⟨stack, .name⟩
      else if read = unit '}' then some (finish (.object members) outer)
      else none
  | .member _ _ :: _ => none

/-- A string ends: the name of a member, or a value. -/
def endString (stack : List Frame) (isName : Bool) (content : Text) :
    Option State :=
  match isName, stack with
  | false, _ => some (finish (.string content) stack)
  | true, .object members :: outer =>
      some ⟨.member members content :: outer, .colon⟩
  | true, _ => none

def stepString (stack : List Frame) (isName : Bool) (content : Text)
    (escape : Escape) (read : CodeUnit) : Option State :=
  match escape with
  | .plain =>
      if read = unit '"' then endString stack isName content
      else if read = unit '\\' then
        some ⟨stack, .string isName content .backslash⟩
      else if read < 32 then none
      else some ⟨stack, .string isName (content ++ [read]) .plain⟩
  | .backslash =>
      if read = unit 'u' then
        some ⟨stack, .string isName content (.unicode 4 0)⟩
      else
        (simpleEscape read).map fun meant =>
          ⟨stack, .string isName (content ++ [meant]) .plain⟩
  | .unicode remaining value =>
      (hexValue read).map fun digit =>
        if remaining ≤ 1 then
          ⟨stack, .string isName
            (content ++ [UInt16.ofNat (value * 16 + digit)]) .plain⟩
        else
          ⟨stack, .string isName content
            (.unicode (remaining - 1) (value * 16 + digit))⟩

/-- The end of an array or an object that is still empty. -/
def endEmpty : List Frame → Option State
  | .array elements :: outer => some (finish (.array elements) outer)
  | .object members :: outer => some (finish (.object members) outer)
  | _ => none

def stepWord (stack : List Frame) (word : Word) (position : Nat)
    (read : CodeUnit) : Option State :=
  if word.text[position]? ≠ some read then none
  else if position + 1 = word.text.length then some (finish word.tree stack)
  else some ⟨stack, .word word (position + 1)⟩

/-- The unit after a number is read like one after any other value. -/
def stepNumberEnd (stack : List Frame) (literal : Text) (read : CodeUnit) :
    Option State :=
  match stack with
  | [] => if isSpace read then some ⟨[], .done (.number literal)⟩ else none
  | _ :: _ => stepEnded (finish (.number literal) stack).stack read

def step : State → CodeUnit → Option State
  | ⟨stack, .value⟩, read =>
      if isSpace read then some ⟨stack, .value⟩ else begin? stack read
  | ⟨stack, .element⟩, read =>
      if isSpace read then some ⟨stack, .element⟩
      else if read = unit ']' then endEmpty stack
      else begin? stack read
  | ⟨stack, .member⟩, read =>
      if isSpace read then some ⟨stack, .member⟩
      else if read = unit '"' then some ⟨stack, .string true [] .plain⟩
      else if read = unit '}' then endEmpty stack
      else none
  | ⟨stack, .name⟩, read =>
      if isSpace read then some ⟨stack, .name⟩
      else if read = unit '"' then some ⟨stack, .string true [] .plain⟩
      else none
  | ⟨stack, .colon⟩, read =>
      if isSpace read then some ⟨stack, .colon⟩
      else if read = unit ':' then some ⟨stack, .value⟩
      else none
  | ⟨stack, .ended⟩, read => stepEnded stack read
  | ⟨stack, .string isName content escape⟩, read =>
      stepString stack isName content escape read
  | ⟨stack, .word word position⟩, read => stepWord stack word position read
  | ⟨stack, .number phase literal⟩, read =>
      match phase.next read with
      | some phase => some ⟨stack, .number phase (literal ++ [read])⟩
      | none =>
          if phase.complete then stepNumberEnd stack literal read else none
  | ⟨stack, .done tree⟩, read =>
      if isSpace read then some ⟨stack, .done tree⟩ else none

def initial : State := ⟨[], .value⟩

def run (state : State) (text : Text) : Option State :=
  text.foldlM step state

/-- What the end of the text makes of the state. -/
def result? : State → Option Tree
  | ⟨[], .done tree⟩ => some tree
  | ⟨[], .number phase literal⟩ =>
      if phase.complete then some (.number literal) else none
  | _ => none

/-- `JSON.parse`; `none` for a syntax error. -/
def parse (text : Text) : Option Tree :=
  (run initial text).bind result?

end Machine

example : parse (plainText "\x7b\"a\":[1,\"\\u0041\"]\x7d") =
    some (.object [(plainText "a",
      .array [.number (plainText "1"), .string (plainText "A")])]) := by
  rfl

/-! ## Runs -/

section Runs

variable {state other : State} {read : CodeUnit}

theorem run_nil (state : State) : run state [] = some state := rfl

theorem run_cons (state : State) (read : CodeUnit) (text : Text) :
    run state (read :: text) = (step state read).bind (run · text) := rfl

theorem run_append (state : State) (text more : Text) :
    run state (text ++ more) = (run state text).bind (run · more) := by
  unfold run
  rw [List.foldlM_append]
  rfl

/-- What is finished is in an array, in an object or the whole. -/
theorem finish_cases (tree : Tree) (stack : List Frame) :
    (stack = [] ∧ finish tree stack = ⟨[], .done tree⟩) ∨
      ((finish tree stack).stack ≠ [] ∧
        (finish tree stack).mode = .ended) := by
  match stack with
  | [] => exact .inl ⟨rfl, rfl⟩
  | .array elements :: outer => exact .inr ⟨List.cons_ne_nil _ _, rfl⟩
  | .object members :: outer => exact .inr ⟨List.cons_ne_nil _ _, rfl⟩
  | .member members name :: outer =>
      exact .inr ⟨List.cons_ne_nil _ _, rfl⟩

/-- Within an array or an object, or after the whole one. -/
def Nested (state : State) : Prop :=
  state.stack ≠ [] ∨
    ∃ tree : Tree, tree.IsComposite ∧ state = ⟨[], .done tree⟩

theorem nested_finish {tree : Tree} (composite : tree.IsComposite)
    (stack : List Frame) : Nested (finish tree stack) := by
  rcases finish_cases tree stack with ⟨-, whole⟩ | ⟨inside, -⟩
  · exact .inr ⟨tree, composite, whole⟩
  · exact .inl inside

theorem nested_finish_inside (tree : Tree) {stack : List Frame}
    (inside : stack ≠ []) : Nested (finish tree stack) := by
  rcases finish_cases tree stack with ⟨nothing, -⟩ | ⟨inside, -⟩
  · exact absurd nothing inside
  · exact .inl inside

theorem step_done {tree : Tree} {stack : List Frame}
    (stepped : step ⟨stack, .done tree⟩ read = some other) :
    isSpace read = true ∧ other = ⟨stack, .done tree⟩ := by
  rw [step] at stepped
  split at stepped
  · rename_i space
    exact ⟨space, (Option.some.inj stepped).symm⟩
  · cases stepped

theorem nested_begin? {stack : List Frame}
    (begun : begin? stack read = some other)
    (inside : stack ≠ []) : Nested other := by
  unfold begin? at begun
  split_ifs at begun <;> cases begun <;> left <;>
    first | exact inside | exact List.cons_ne_nil _ _

theorem nested_stepEnded {stack : List Frame}
    (stepped : stepEnded stack read = some other) : Nested other := by
  match stack with
  | [] => cases stepped
  | .array elements :: outer =>
      rw [stepEnded] at stepped
      split_ifs at stepped <;> cases stepped
      · exact .inl (List.cons_ne_nil _ _)
      · exact .inl (List.cons_ne_nil _ _)
      · exact nested_finish (Tree.isComposite_array elements) outer
  | .object members :: outer =>
      rw [stepEnded] at stepped
      split_ifs at stepped <;> cases stepped
      · exact .inl (List.cons_ne_nil _ _)
      · exact .inl (List.cons_ne_nil _ _)
      · exact nested_finish (Tree.isComposite_object members) outer
  | .member members name :: outer => cases stepped

theorem nested_endEmpty {stack : List Frame}
    (ended : endEmpty stack = some other) : Nested other := by
  match stack with
  | [] => cases ended
  | .array elements :: outer =>
      cases ended
      exact nested_finish (Tree.isComposite_array elements) outer
  | .object members :: outer =>
      cases ended
      exact nested_finish (Tree.isComposite_object members) outer
  | .member members name :: outer => cases ended

theorem nested_endString {stack : List Frame} {isName : Bool}
    {content : Text} (ended : endString stack isName content = some other)
    (inside : stack ≠ []) : Nested other := by
  match isName, stack with
  | false, stack =>
      cases ended
      exact nested_finish_inside _ inside
  | true, [] => cases ended
  | true, .array elements :: outer => cases ended
  | true, .object members :: outer =>
      cases ended
      exact .inl (List.cons_ne_nil _ _)
  | true, .member members name :: outer => cases ended

theorem nested_stepString {stack : List Frame} {isName : Bool}
    {content : Text} {escape : Escape}
    (stepped : stepString stack isName content escape read = some other)
    (inside : stack ≠ []) : Nested other := by
  match escape with
  | .plain =>
      rw [stepString] at stepped
      split_ifs at stepped
      · exact nested_endString stepped inside
      · cases stepped
        exact .inl inside
      · cases stepped
        exact .inl inside
  | .backslash =>
      rw [stepString] at stepped
      split_ifs at stepped
      · cases stepped
        exact .inl inside
      · obtain ⟨meant, -, rfl⟩ := Option.map_eq_some_iff.mp stepped
        exact .inl inside
  | .unicode remaining value =>
      obtain ⟨digit, -, rfl⟩ := Option.map_eq_some_iff.mp stepped
      split_ifs
      · exact .inl inside
      · exact .inl inside

/-- Reading on never leaves what the text began with, except at its end. -/
theorem nested_step (nested : Nested state)
    (stepped : step state read = some other) : Nested other := by
  rcases nested with inside | ⟨tree, composite, rfl⟩
  · obtain ⟨stack, mode⟩ := state
    change stack ≠ [] at inside
    cases mode with
    | value =>
        rw [step] at stepped
        split_ifs at stepped
        · cases stepped
          exact .inl inside
        · exact nested_begin? stepped inside
    | element =>
        rw [step] at stepped
        split_ifs at stepped
        · cases stepped
          exact .inl inside
        · exact nested_endEmpty stepped
        · exact nested_begin? stepped inside
    | member =>
        rw [step] at stepped
        split_ifs at stepped
        · cases stepped
          exact .inl inside
        · cases stepped
          exact .inl inside
        · exact nested_endEmpty stepped
    | name =>
        rw [step] at stepped
        split_ifs at stepped <;> cases stepped <;> exact .inl inside
    | colon =>
        rw [step] at stepped
        split_ifs at stepped <;> cases stepped <;> exact .inl inside
    | ended => exact nested_stepEnded stepped
    | string isName content escape => exact nested_stepString stepped inside
    | word word position =>
        rw [step, stepWord] at stepped
        split_ifs at stepped <;> cases stepped
        · exact nested_finish_inside word.tree inside
        · exact .inl inside
    | number phase literal =>
        cases next : phase.next read with
        | some phase =>
            simp only [step, next] at stepped
            cases stepped
            exact .inl inside
        | none =>
            simp only [step, next] at stepped
            split_ifs at stepped
            match stack with
            | [] => exact absurd rfl inside
            | frame :: outer => exact nested_stepEnded stepped
    | done tree =>
        obtain ⟨-, rfl⟩ := step_done stepped
        exact .inl inside
  · obtain ⟨-, rfl⟩ := step_done stepped
    exact .inr ⟨tree, composite, rfl⟩

theorem nested_run {text : Text} (nested : Nested state)
    (ran : run state text = some other) : Nested other := by
  induction text generalizing state with
  | nil =>
      cases ran
      exact nested
  | cons read text induction =>
      rw [run_cons] at ran
      obtain ⟨next, stepped, rest⟩ := Option.bind_eq_some_iff.mp ran
      exact induction (nested_step nested stepped) rest

theorem result?_of_inside (inside : state.stack ≠ []) :
    result? state = none := by
  obtain ⟨stack, mode⟩ := state
  match stack with
  | [] => exact absurd rfl inside
  | frame :: outer => rfl

/-- Nothing but space follows the whole. -/
theorem run_done {tree : Tree} {text : Text}
    (ran : run ⟨[], .done tree⟩ text = some other) :
    (∀ read ∈ text, isSpace read = true) ∧ other = ⟨[], .done tree⟩ := by
  induction text with
  | nil =>
      cases ran
      exact ⟨fun read member => (nomatch member), rfl⟩
  | cons read text induction =>
      rw [run_cons] at ran
      obtain ⟨next, stepped, rest⟩ := Option.bind_eq_some_iff.mp ran
      obtain ⟨space, rfl⟩ := step_done stepped
      obtain ⟨spaces, same⟩ := induction rest
      refine ⟨?_, same⟩
      intro unit member
      rcases List.mem_cons.mp member with rfl | later
      · exact space
      · exact spaces unit later

theorem run_spaces (state : State) (kept : ∀ read, isSpace read = true →
      step state read = some state) {text : Text}
    (spaces : ∀ read ∈ text, isSpace read = true) :
    run state text = some state := by
  induction text with
  | nil => rfl
  | cons read text induction =>
      rw [run_cons, kept read (spaces read List.mem_cons_self)]
      exact induction fun unit member =>
        spaces unit (List.mem_cons_of_mem _ member)

theorem run_initial_spaces {text : Text}
    (spaces : ∀ read ∈ text, isSpace read = true) :
    run initial text = some initial :=
  run_spaces initial (fun read space => by
    rw [initial, step, if_pos space]) spaces

theorem run_done_spaces (tree : Tree) {text : Text}
    (spaces : ∀ read ∈ text, isSpace read = true) :
    run ⟨[], .done tree⟩ text = some ⟨[], .done tree⟩ :=
  run_spaces _ (fun read space => by rw [step, if_pos space]) spaces

/-- After a closing bracket: a value has ended, or the bracket is in a
string. -/
def Settled (state : State) : Prop :=
  state.mode = .ended ∨
    ∃ isName content, state.mode = .string isName content .plain

theorem ended_finish {tree : Tree} {stack : List Frame}
    (inside : (finish tree stack).stack ≠ []) :
    (finish tree stack).mode = .ended := by
  rcases finish_cases tree stack with ⟨-, whole⟩ | ⟨-, ended⟩
  · rw [whole] at inside
    exact absurd rfl inside
  · exact ended

theorem ended_endEmpty {stack : List Frame}
    (ended : endEmpty stack = some other) (inside : other.stack ≠ []) :
    other.mode = .ended := by
  match stack with
  | [] => cases ended
  | .array elements :: outer =>
      cases ended
      exact ended_finish inside
  | .object members :: outer =>
      cases ended
      exact ended_finish inside
  | .member members name :: outer => cases ended

theorem ended_stepEnded {stack : List Frame}
    (closing : read = unit '}' ∨ read = unit ']')
    (stepped : stepEnded stack read = some other)
    (inside : other.stack ≠ []) : other.mode = .ended := by
  have notComma : read ≠ unit ',' := by
    rcases closing with rfl | rfl <;> decide
  match stack with
  | [] => cases stepped
  | .array elements :: outer =>
      rw [stepEnded] at stepped
      split_ifs at stepped <;> cases stepped
      · rfl
      · exact ended_finish inside
  | .object members :: outer =>
      rw [stepEnded] at stepped
      split_ifs at stepped <;> cases stepped
      · rfl
      · exact ended_finish inside
  | .member members name :: outer => cases stepped

theorem settled_of_closing (closing : read = unit '}' ∨ read = unit ']')
    (stepped : step state read = some other) (inside : other.stack ≠ []) :
    Settled other := by
  have notSpace : isSpace read = false := by
    rcases closing with rfl | rfl <;> rfl
  have notBegin : ∀ stack, begin? stack read = none := by
    intro stack
    rcases closing with rfl | rfl <;> rfl
  obtain ⟨stack, mode⟩ := state
  cases mode with
  | value => simp [step, notSpace, notBegin] at stepped
  | element =>
      simp only [step, notSpace, notBegin, Bool.false_eq_true, if_false]
        at stepped
      split_ifs at stepped
      exact .inl (ended_endEmpty stepped inside)
  | member =>
      have notQuote : read ≠ unit '"' := by
        rcases closing with rfl | rfl <;> decide
      simp only [step, notSpace, notQuote, Bool.false_eq_true, if_false]
        at stepped
      split_ifs at stepped
      exact .inl (ended_endEmpty stepped inside)
  | name =>
      rcases closing with rfl | rfl <;> cases stepped
  | colon =>
      rcases closing with rfl | rfl <;> cases stepped
  | ended => exact .inl (ended_stepEnded closing stepped inside)
  | string isName content escape =>
      cases escape with
      | plain =>
          right
          rcases closing with rfl | rfl
          · cases stepped
            exact ⟨_, _, rfl⟩
          · cases stepped
            exact ⟨_, _, rfl⟩
      | backslash => rcases closing with rfl | rfl <;> cases stepped
      | unicode remaining value =>
          rcases closing with rfl | rfl <;> cases stepped
  | word word position =>
      have letters : ∀ word : Word, read ∉ word.text := by
        intro word
        rcases closing with rfl | rfl <;>
          match word with
          | .boolean true => decide
          | .boolean false => decide
          | .null => decide
      rw [step, stepWord, if_pos] at stepped
      · cases stepped
      · exact fun due => letters word (List.mem_of_getElem? due)
  | number phase literal =>
      have next : phase.next read = none := by
        rcases closing with rfl | rfl <;> cases phase <;> rfl
      simp only [step, next] at stepped
      split_ifs at stepped
      match stack with
      | [] => simp [stepNumberEnd, notSpace] at stepped
      | frame :: outer =>
          exact .inl (ended_stepEnded closing stepped inside)
  | done tree =>
      obtain ⟨space, -⟩ := step_done stepped
      rw [notSpace] at space
      cases space

/-- A control character there is white space. -/
theorem Settled.step_control (settled : Settled state) (control : read < 32)
    (stepped : step state read = some other) :
    other = state ∧ state.mode = .ended := by
  obtain ⟨stack, mode⟩ := state
  rcases settled with ended | ⟨isName, content, inString⟩
  · cases ended
    refine ⟨?_, rfl⟩
    have others : ∀ due, 32 ≤ due → read ≠ due := by
      rintro due large rfl
      exact absurd control (UInt16.not_lt.mpr large)
    have comma := others (unit ',') (by decide)
    have bracket := others (unit ']') (by decide)
    have brace := others (unit '}') (by decide)
    rw [step] at stepped
    match stack with
    | [] => cases stepped
    | .array elements :: outer =>
        rw [stepEnded, if_neg comma, if_neg bracket] at stepped
        split_ifs at stepped
        exact (Option.some.inj stepped).symm
    | .object members :: outer =>
        rw [stepEnded, if_neg comma, if_neg brace] at stepped
        split_ifs at stepped
        exact (Option.some.inj stepped).symm
    | .member members name :: outer => cases stepped
  · cases inString
    have others : ∀ due, 32 ≤ due → read ≠ due := by
      rintro due large rfl
      exact absurd control (UInt16.not_lt.mpr large)
    rw [step, stepString, if_neg (others (unit '"') (by decide)),
      if_neg (others (unit '\\') (by decide)), if_pos control] at stepped
    cases stepped

theorem step_ended_opening {stack : List Frame}
    (opening : read = unit '{' ∨ read = unit '[') :
    step ⟨stack, .ended⟩ read = none := by
  match stack with
  | [] => rfl
  | .array elements :: outer => rcases opening with rfl | rfl <;> rfl
  | .object members :: outer => rcases opening with rfl | rfl <;> rfl
  | .member members name :: outer => rfl

theorem inside_of_run {text : Text} (nested : Nested state)
    (ran : run state text = some other) (inside : other.stack ≠ []) :
    state.stack ≠ [] := by
  rcases nested with already | ⟨tree, -, rfl⟩
  · exact already
  · obtain ⟨-, rfl⟩ := run_done ran
    exact absurd rfl inside

end Runs

/-! ## Texts within texts -/

/-- The state when what is read stands within other arrays and objects. -/
def State.under (outer : List Frame) : State → State
  | ⟨[], .done tree⟩ => finish tree outer
  | ⟨stack, mode⟩ => ⟨stack ++ outer, mode⟩

section Under

variable {state other : State} {read : CodeUnit} (outer : List Frame)

theorem under_inside {stack : List Frame} (inside : stack ≠ [])
    (mode : Mode) : State.under outer ⟨stack, mode⟩ = ⟨stack ++ outer, mode⟩ := by
  match stack with
  | [] => exact absurd rfl inside
  | frame :: stack => rfl

theorem finish_under (tree : Tree) (stack : List Frame) :
    finish tree (stack ++ outer) = (finish tree stack).under outer := by
  match stack with
  | [] => rfl
  | .array elements :: stack => rfl
  | .object members :: stack => rfl
  | .member members name :: stack => rfl

theorem begin?_under {stack : List Frame} (inside : stack ≠ [])
    (begun : begin? stack read = some other) :
    begin? (stack ++ outer) read = some (other.under outer) := by
  unfold begin? at begun ⊢
  split_ifs at begun ⊢ <;> cases begun <;>
    first | rfl | rw [under_inside outer inside]

theorem stepEnded_under {stack : List Frame}
    (stepped : stepEnded stack read = some other) :
    stepEnded (stack ++ outer) read = some (other.under outer) := by
  match stack with
  | [] => cases stepped
  | .array elements :: stack =>
      rw [stepEnded] at stepped
      rw [List.cons_append, stepEnded]
      split_ifs at stepped ⊢ <;> cases stepped
      · rfl
      · rfl
      · rw [finish_under]
  | .object members :: stack =>
      rw [stepEnded] at stepped
      rw [List.cons_append, stepEnded]
      split_ifs at stepped ⊢ <;> cases stepped
      · rfl
      · rfl
      · rw [finish_under]
  | .member members name :: stack => cases stepped

theorem endEmpty_under {stack : List Frame}
    (ended : endEmpty stack = some other) :
    endEmpty (stack ++ outer) = some (other.under outer) := by
  match stack with
  | [] => cases ended
  | .array elements :: stack =>
      cases ended
      rw [List.cons_append, endEmpty, finish_under]
  | .object members :: stack =>
      cases ended
      rw [List.cons_append, endEmpty, finish_under]
  | .member members name :: stack => cases ended

theorem endString_under {stack : List Frame} {isName : Bool}
    {content : Text} (ended : endString stack isName content = some other) :
    endString (stack ++ outer) isName content =
      some (other.under outer) := by
  match isName, stack with
  | false, stack =>
      cases ended
      rw [endString, finish_under]
  | true, [] => cases ended
  | true, .array elements :: stack => cases ended
  | true, .object members :: stack =>
      cases ended
      rfl
  | true, .member members name :: stack => cases ended

theorem stepString_under {stack : List Frame} (inside : stack ≠ [])
    {isName : Bool} {content : Text} {escape : Escape}
    (stepped : stepString stack isName content escape read = some other) :
    stepString (stack ++ outer) isName content escape read =
      some (other.under outer) := by
  match escape with
  | .plain =>
      rw [stepString] at stepped ⊢
      split_ifs at stepped ⊢
      · exact endString_under outer stepped
      · cases stepped
        rw [under_inside outer inside]
      · cases stepped
        rw [under_inside outer inside]
  | .backslash =>
      rw [stepString] at stepped ⊢
      split_ifs at stepped ⊢
      · cases stepped
        rw [under_inside outer inside]
      · obtain ⟨meant, found, rfl⟩ := Option.map_eq_some_iff.mp stepped
        rw [found, under_inside outer inside]
        rfl
  | .unicode remaining value =>
      rw [stepString] at stepped ⊢
      obtain ⟨digit, found, rfl⟩ := Option.map_eq_some_iff.mp stepped
      rw [found, Option.map_some]
      split_ifs
      · rw [under_inside outer inside]
      · rw [under_inside outer inside]

/-- What encloses the text does not matter before its end. -/
theorem step_under (inside : state.stack ≠ [])
    (stepped : step state read = some other) :
    step (state.under outer) read = some (other.under outer) := by
  obtain ⟨stack, mode⟩ := state
  change stack ≠ [] at inside
  rw [under_inside outer inside]
  cases mode with
  | value =>
      rw [step] at stepped ⊢
      split_ifs at stepped ⊢
      · cases stepped
        rw [under_inside outer inside]
      · exact begin?_under outer inside stepped
  | element =>
      rw [step] at stepped ⊢
      split_ifs at stepped ⊢
      · cases stepped
        rw [under_inside outer inside]
      · exact endEmpty_under outer stepped
      · exact begin?_under outer inside stepped
  | member =>
      rw [step] at stepped ⊢
      split_ifs at stepped ⊢
      · cases stepped
        rw [under_inside outer inside]
      · cases stepped
        rw [under_inside outer inside]
      · exact endEmpty_under outer stepped
  | name | colon =>
      rw [step] at stepped ⊢
      split_ifs at stepped ⊢ <;> cases stepped <;>
        rw [under_inside outer inside]
  | ended => exact stepEnded_under outer stepped
  | string isName content escape =>
      exact stepString_under outer inside stepped
  | word word position =>
      rw [step, stepWord] at stepped ⊢
      split_ifs at stepped ⊢ <;> cases stepped
      · rw [finish_under]
      · rw [under_inside outer inside]
  | number phase literal =>
      cases next : phase.next read with
      | some phase =>
          simp only [step, next] at stepped ⊢
          cases stepped
          rw [under_inside outer inside]
      | none =>
          simp only [step, next] at stepped ⊢
          split_ifs at stepped ⊢
          match stack with
          | [] => exact absurd rfl inside
          | frame :: stack =>
              have ended := stepEnded_under outer stepped
              change stepEnded (finish (.number literal)
                ((frame :: stack) ++ outer)).stack read = _
              rw [finish_under, ← ended]
              cases frame <;> rfl
  | done tree =>
      rw [step] at stepped ⊢
      split_ifs at stepped ⊢
      cases stepped
      rw [under_inside outer inside]

theorem run_under {text : Text} (inside : other.stack ≠ [])
    (nested : Nested state) (ran : run state text = some other) :
    run (state.under outer) text = some (other.under outer) := by
  induction text generalizing state with
  | nil =>
      cases ran
      rfl
  | cons read text induction =>
      have stateInside := inside_of_run nested ran inside
      rw [run_cons] at ran ⊢
      obtain ⟨next, stepped, rest⟩ := Option.bind_eq_some_iff.mp ran
      rw [step_under outer stateInside stepped, Option.bind_some]
      exact induction (nested_step nested stepped) rest

end Under

/-! ## Texts that end nothing -/

/-- Reading the text fails or stays within what it begins in. -/
def Stays : State → Text → Prop
  | state, [] => state.stack ≠ []
  | state, read :: text =>
      state.stack ≠ [] ∧ ∀ next, step state read = some next → Stays next text

section Staying

variable {state other : State} {text more : Text} {read : CodeUnit}

theorem Stays.inside (stays : Stays state text) : state.stack ≠ [] := by
  cases text with
  | nil => exact stays
  | cons read text => exact stays.1

theorem stays_of_dead (inside : state.stack ≠ [])
    (dead : step state read = none) : Stays state (read :: text) := by
  refine ⟨inside, fun next stepped => ?_⟩
  rw [dead] at stepped
  cases stepped

/-- White space behind a value, and then anything that cannot follow it. -/
theorem stays_ended {stack : List Frame} (inside : stack ≠ [])
    (stopped : ∀ read rest, text = read :: rest →
      step ⟨stack, .ended⟩ read = none) {blank : Text}
    (spaces : ∀ read ∈ blank, isSpace read = true) :
    Stays ⟨stack, .ended⟩ (blank ++ text) := by
  induction blank with
  | nil =>
      cases text with
      | nil => exact inside
      | cons read rest => exact stays_of_dead inside (stopped read rest rfl)
  | cons read blank induction =>
      have rest := induction fun unit member =>
        spaces unit (List.mem_cons_of_mem _ member)
      refine ⟨inside, fun next stepped => ?_⟩
      have space := spaces read List.mem_cons_self
      rw [step] at stepped
      match stack with
      | [] => cases stepped
      | .array elements :: outer =>
          rw [stepEnded, if_pos space] at stepped
          cases stepped
          exact rest
      | .object members :: outer =>
          rw [stepEnded, if_pos space] at stepped
          cases stepped
          exact rest
      | .member members name :: outer => cases stepped

end Staying

/-! ## Documents -/

/-- The whole of `text` is an array or an object, without space around it. -/
structure IsDocument (text : Text) (tree : Tree) : Prop where
  run : run initial text = some ⟨[], .done tree⟩
  opens : ∃ rest, text = unit '{' :: rest ∨ text = unit '[' :: rest
  closes : ∃ front, text = front ++ [unit '}'] ∨ text = front ++ [unit ']']

end Web3Js.JsonText
