import Mathlib.Algebra.GroupWithZero.Nat
import Web3Js.Lib.JsonText

/-!
# The content of JSON texts

How a text is read depends on the outline of the state alone: what the strings
before contain makes no difference.  So the units that stand for themselves
within a string can be exchanged for others, and the tree changes by exactly
the content that was exchanged.
-/

namespace Web3Js.JsonText

/-! ## Outlines -/

def Frame.outline : Frame → Frame
  | .array _ => .array []
  | .object _ => .object []
  | .member _ _ => .member [] []

def Mode.outline : Mode → Mode
  | .string isName _ escape => .string isName [] escape
  | .number phase _ => .number phase []
  | .done _ => .done .null
  | mode => mode

/-- The state without the content that was read. -/
def State.outline (state : State) : State :=
  ⟨state.stack.map Frame.outline, state.mode.outline⟩

section Outlines

variable (stack : List Frame) (read : CodeUnit)

@[simp] theorem Frame.outline_outline (frame : Frame) :
    frame.outline.outline = frame.outline := by
  cases frame <;> rfl

@[simp] theorem outline_array (elements : List Tree) :
    (Frame.array elements).outline = .array [] := rfl

@[simp] theorem outline_object (members : List (Text × Tree)) :
    (Frame.object members).outline = .object [] := rfl

@[simp] theorem outline_member (members : List (Text × Tree)) (name : Text) :
    (Frame.member members name).outline = .member [] [] := rfl

@[simp] theorem outline_comp :
    Frame.outline ∘ Frame.outline = Frame.outline :=
  funext Frame.outline_outline

theorem outline_finish (tree other : Tree) :
    (finish tree stack).outline =
      (finish other (stack.map Frame.outline)).outline := by
  match stack with
  | [] => rfl
  | .array elements :: outer =>
      simp [finish, State.outline, Mode.outline]
  | .object members :: outer =>
      simp [finish, State.outline, Mode.outline]
  | .member members name :: outer =>
      simp [finish, State.outline, Mode.outline]

theorem outline_begin? :
    (begin? stack read).map State.outline =
      (begin? (stack.map Frame.outline) read).map State.outline := by
  unfold begin?
  split_ifs <;> simp [State.outline, Mode.outline]

theorem outline_stepEnded :
    (stepEnded stack read).map State.outline =
      (stepEnded (stack.map Frame.outline) read).map State.outline := by
  match stack with
  | [] => rfl
  | .array elements :: outer =>
      simp only [List.map_cons, outline_array, stepEnded]
      split_ifs
      · simp [State.outline, Mode.outline]
      · simp [State.outline, Mode.outline]
      · exact congrArg some (outline_finish outer _ _)
      · rfl
  | .member members name :: outer => rfl
  | .object members :: outer =>
      simp only [List.map_cons, outline_object, stepEnded]
      split_ifs
      · simp [State.outline, Mode.outline]
      · simp [State.outline, Mode.outline]
      · exact congrArg some (outline_finish outer _ _)
      · rfl

theorem outline_endEmpty :
    (endEmpty stack).map State.outline =
      (endEmpty (stack.map Frame.outline)).map State.outline := by
  match stack with
  | [] => rfl
  | .array elements :: outer =>
      exact congrArg some (outline_finish outer _ _)
  | .object members :: outer =>
      exact congrArg some (outline_finish outer _ _)
  | .member members name :: outer => rfl

theorem outline_endString (isName : Bool) (content other : Text) :
    (endString stack isName content).map State.outline =
      (endString (stack.map Frame.outline) isName other).map
        State.outline := by
  match isName, stack with
  | false, stack => exact congrArg some (outline_finish stack _ _)
  | true, [] => rfl
  | true, .array elements :: outer => rfl
  | true, .object members :: outer =>
      simp [endString, State.outline, Mode.outline]
  | true, .member members name :: outer => rfl

theorem outline_stepString (isName : Bool) (content : Text)
    (escape : Escape) :
    (stepString stack isName content escape read).map State.outline =
      (stepString (stack.map Frame.outline) isName [] escape read).map
        State.outline := by
  match escape with
  | .plain =>
      rw [stepString, stepString]
      split_ifs
      · exact outline_endString stack isName content []
      · simp [State.outline, Mode.outline]
      · rfl
      · simp [State.outline, Mode.outline]
  | .backslash =>
      rw [stepString, stepString]
      split_ifs
      · simp [State.outline, Mode.outline]
      · rw [Option.map_map, Option.map_map]
        congr 1
        funext meant
        simp [State.outline, Mode.outline]
  | .unicode remaining value =>
      rw [stepString, stepString, Option.map_map, Option.map_map]
      congr 1
      funext digit
      by_cases last : remaining ≤ 1
      · simp [last, State.outline, Mode.outline]
      · simp [last, State.outline, Mode.outline]

theorem outline_stepWord (word : Word) (position : Nat) :
    (stepWord stack word position read).map State.outline =
      (stepWord (stack.map Frame.outline) word position read).map
        State.outline := by
  rw [stepWord, stepWord]
  split_ifs
  · rfl
  · exact congrArg some (outline_finish stack word.tree word.tree)
  · simp [State.outline, Mode.outline]

theorem outline_stepNumberEnd (literal : Text) :
    (stepNumberEnd stack literal read).map State.outline =
      (stepNumberEnd (stack.map Frame.outline) [] read).map
        State.outline := by
  match stack with
  | [] =>
      rw [List.map_nil, stepNumberEnd, stepNumberEnd]
      split_ifs <;> rfl
  | frame :: outer =>
      change (stepEnded _ read).map State.outline =
        (stepEnded _ read).map State.outline
      have same := outline_finish (frame :: outer) (.number literal)
        (.number [])
      have frames := congrArg State.stack same
      simp only [State.outline] at frames
      rw [outline_stepEnded, frames, ← outline_stepEnded]

/-- The outline of a step is a step of the outline. -/
theorem outline_step (state : State) (read : CodeUnit) :
    (step state read).map State.outline =
      (step state.outline read).map State.outline := by
  obtain ⟨stack, mode⟩ := state
  rw [State.outline]
  cases mode with
  | value =>
      simp only [Mode.outline, step]
      split_ifs
      · simp [State.outline, Mode.outline]
      · exact outline_begin? stack read
  | element =>
      simp only [Mode.outline, step]
      split_ifs
      · simp [State.outline, Mode.outline]
      · exact outline_endEmpty stack
      · exact outline_begin? stack read
  | member =>
      simp only [Mode.outline, step]
      split_ifs
      · simp [State.outline, Mode.outline]
      · simp [State.outline, Mode.outline]
      · exact outline_endEmpty stack
      · rfl
  | name =>
      simp only [Mode.outline, step]
      split_ifs <;> simp [State.outline, Mode.outline]
  | colon =>
      simp only [Mode.outline, step]
      split_ifs <;> simp [State.outline, Mode.outline]
  | ended => exact outline_stepEnded stack read
  | string isName content escape =>
      exact outline_stepString stack read isName content escape
  | word word position => exact outline_stepWord stack read word position
  | number phase literal =>
      cases next : phase.next read with
      | some phase =>
          simp only [Mode.outline, step, next]
          simp [State.outline, Mode.outline]
      | none =>
          simp only [Mode.outline, step, next]
          split_ifs
          · exact outline_stepNumberEnd stack read literal
          · rfl
  | done tree =>
      simp only [Mode.outline, step]
      split_ifs <;> simp [State.outline, Mode.outline]

end Outlines

/-! ## Weights -/

section Weights

variable (weigh : CodeUnit → Nat)

def textWeight (text : Text) : Nat := (text.map weigh).sum

mutual

/-- The weight of what the strings of a tree contain. -/
def Tree.weight : Tree → Nat
  | .null | .boolean _ | .number _ => 0
  | .string content => textWeight weigh content
  | .array elements => elementsWeight elements
  | .object members => membersWeight members

def elementsWeight : List Tree → Nat
  | [] => 0
  | tree :: trees => tree.weight + elementsWeight trees

def membersWeight : List (Text × Tree) → Nat
  | [] => 0
  | (name, tree) :: members =>
      textWeight weigh name + tree.weight + membersWeight members

end

def Frame.weight : Frame → Nat
  | .array elements => elementsWeight weigh elements
  | .object members => membersWeight weigh members
  | .member members name => membersWeight weigh members + textWeight weigh name

def Mode.weight : Mode → Nat
  | .string _ content _ => textWeight weigh content
  | .done tree => tree.weight weigh
  | _ => 0

def stackWeight (stack : List Frame) : Nat :=
  (stack.map (Frame.weight weigh)).sum

def State.weight (state : State) : Nat :=
  stackWeight weigh state.stack + state.mode.weight weigh

/-- What reading a unit adds to the content. -/
def Mode.gain : Mode → CodeUnit → Nat
  | .string _ _ .plain, read =>
      if read = unit '"' ∨ read = unit '\\' then 0 else weigh read
  | .string _ _ .backslash, read => ((simpleEscape read).map weigh).getD 0
  | .string _ _ (.unicode remaining before), read =>
      if remaining ≤ 1 then
        ((hexValue read).map fun digit =>
          weigh (UInt16.ofNat (before * 16 + digit))).getD 0
      else 0
  | _, _ => 0

@[simp] theorem textWeight_nil : textWeight weigh [] = 0 := rfl

theorem textWeight_cons (read : CodeUnit) (text : Text) :
    textWeight weigh (read :: text) = weigh read + textWeight weigh text := by
  rw [textWeight, List.map_cons, List.sum_cons]
  rfl

@[simp] theorem textWeight_append (text more : Text) :
    textWeight weigh (text ++ more) =
      textWeight weigh text + textWeight weigh more := by
  rw [textWeight, List.map_append, List.sum_append]
  rfl

@[simp] theorem textWeight_singleton (read : CodeUnit) :
    textWeight weigh [read] = weigh read := by
  simp [textWeight]

theorem elementsWeight_append (trees : List Tree) (tree : Tree) :
    elementsWeight weigh (trees ++ [tree]) =
      elementsWeight weigh trees + tree.weight weigh := by
  induction trees with
  | nil => simp [elementsWeight]
  | cons head trees induction =>
      rw [List.cons_append, elementsWeight, elementsWeight, induction,
        Nat.add_assoc]

theorem membersWeight_append (members : List (Text × Tree)) (name : Text)
    (tree : Tree) :
    membersWeight weigh (members ++ [(name, tree)]) =
      membersWeight weigh members +
        (textWeight weigh name + tree.weight weigh) := by
  induction members with
  | nil => simp [membersWeight]
  | cons head members induction =>
      obtain ⟨other, value⟩ := head
      rw [List.cons_append, membersWeight, membersWeight, induction]
      omega

@[simp] theorem stackWeight_nil : stackWeight weigh [] = 0 := rfl

@[simp] theorem stackWeight_cons (frame : Frame) (stack : List Frame) :
    stackWeight weigh (frame :: stack) =
      frame.weight weigh + stackWeight weigh stack := by
  simp [stackWeight]

theorem weight_finish (tree : Tree) (stack : List Frame) :
    (finish tree stack).weight weigh =
      stackWeight weigh stack + tree.weight weigh := by
  match stack with
  | [] => rfl
  | .array elements :: outer =>
      simp only [finish, State.weight, stackWeight_cons, Frame.weight,
        Mode.weight, elementsWeight_append]
      omega
  | .object members :: outer =>
      simp only [finish, State.weight, stackWeight_cons, Frame.weight,
        Mode.weight, membersWeight_append, textWeight_nil]
      omega
  | .member members name :: outer =>
      simp only [finish, State.weight, stackWeight_cons, Frame.weight,
        Mode.weight, membersWeight_append]
      omega

section Steps

variable {weigh} {stack : List Frame} {read : CodeUnit} {state other : State}

theorem weight_begin? (begun : begin? stack read = some other) :
    other.weight weigh = stackWeight weigh stack := by
  unfold begin? at begun
  split_ifs at begun <;> cases begun <;>
    simp [State.weight, Frame.weight, Mode.weight, membersWeight,
      elementsWeight]

theorem weight_stepEnded (stepped : stepEnded stack read = some other) :
    other.weight weigh = stackWeight weigh stack := by
  match stack with
  | [] => cases stepped
  | .array elements :: outer =>
      rw [stepEnded] at stepped
      split_ifs at stepped <;> cases stepped
      · rfl
      · rfl
      · rw [weight_finish, stackWeight_cons]
        exact Nat.add_comm _ _
  | .object members :: outer =>
      rw [stepEnded] at stepped
      split_ifs at stepped <;> cases stepped
      · rfl
      · rfl
      · rw [weight_finish, stackWeight_cons]
        exact Nat.add_comm _ _
  | .member members name :: outer => cases stepped

theorem weight_endEmpty (ended : endEmpty stack = some other) :
    other.weight weigh = stackWeight weigh stack := by
  match stack with
  | [] => cases ended
  | .array elements :: outer =>
      cases ended
      rw [weight_finish, stackWeight_cons]
      exact Nat.add_comm _ _
  | .object members :: outer =>
      cases ended
      rw [weight_finish, stackWeight_cons]
      exact Nat.add_comm _ _
  | .member members name :: outer => cases ended

theorem weight_endString {isName : Bool} {content : Text}
    (ended : endString stack isName content = some other) :
    other.weight weigh =
      stackWeight weigh stack + textWeight weigh content := by
  match isName, stack with
  | false, stack =>
      cases ended
      exact weight_finish weigh _ stack
  | true, [] => cases ended
  | true, .array elements :: outer => cases ended
  | true, .object members :: outer =>
      cases ended
      simp only [State.weight, stackWeight_cons, Frame.weight, Mode.weight]
      omega
  | true, .member members name :: outer => cases ended

theorem weight_stringState (isName : Bool) (content : Text)
    (escape : Escape) :
    (State.mk stack (.string isName content escape)).weight weigh =
      stackWeight weigh stack + textWeight weigh content := rfl

theorem weight_string (isName : Bool) (content : Text) (read : CodeUnit) :
    (State.mk stack (.string isName (content ++ [read]) .plain)).weight weigh =
      stackWeight weigh stack + textWeight weigh content + weigh read := by
  rw [weight_stringState, textWeight_append, textWeight_singleton,
    Nat.add_assoc]

theorem weight_stepString {isName : Bool} {content : Text} {escape : Escape}
    (stepped : stepString stack isName content escape read = some other) :
    other.weight weigh = stackWeight weigh stack + textWeight weigh content +
      (Mode.string isName content escape).gain weigh read := by
  match escape with
  | .plain =>
      rw [stepString] at stepped
      rw [Mode.gain]
      split_ifs at stepped with quote backslash control
      · rw [weight_endString stepped, if_pos (.inl quote)]
        rfl
      · cases stepped
        rw [if_pos (.inr backslash)]
        rfl
      · cases stepped
        rw [if_neg (not_or.mpr ⟨quote, backslash⟩)]
        exact weight_string isName content read
  | .backslash =>
      rw [stepString] at stepped
      rw [Mode.gain]
      split_ifs at stepped with begins
      · cases stepped
        rw [begins]
        rfl
      · obtain ⟨meant, found, rfl⟩ := Option.map_eq_some_iff.mp stepped
        rw [found]
        exact weight_string isName content meant
  | .unicode remaining before =>
      obtain ⟨digit, found, rfl⟩ := Option.map_eq_some_iff.mp stepped
      rw [Mode.gain]
      split_ifs with last
      · rw [found]
        exact weight_string isName content _
      · rfl

theorem weight_step (stepped : step state read = some other) :
    other.weight weigh = state.weight weigh + state.mode.gain weigh read := by
  obtain ⟨stack, mode⟩ := state
  cases mode with
  | value =>
      rw [step] at stepped
      split_ifs at stepped
      · cases stepped
        rfl
      · exact weight_begin? stepped
  | element =>
      rw [step] at stepped
      split_ifs at stepped
      · cases stepped
        rfl
      · exact weight_endEmpty stepped
      · exact weight_begin? stepped
  | member =>
      rw [step] at stepped
      split_ifs at stepped
      · cases stepped
        rfl
      · cases stepped
        rfl
      · exact weight_endEmpty stepped
  | name =>
      rw [step] at stepped
      split_ifs at stepped <;> cases stepped <;> rfl
  | colon =>
      rw [step] at stepped
      split_ifs at stepped <;> cases stepped <;> rfl
  | ended => exact weight_stepEnded stepped
  | string isName content escape => exact weight_stepString stepped
  | word word position =>
      rw [step, stepWord] at stepped
      split_ifs at stepped <;> cases stepped
      · rw [weight_finish]
        cases word <;> rfl
      · rfl
  | number phase literal =>
      cases next : phase.next read with
      | some phase =>
          simp only [step, next] at stepped
          cases stepped
          rfl
      | none =>
          simp only [step, next] at stepped
          split_ifs at stepped
          cases stack with
          | nil =>
              rw [stepNumberEnd] at stepped
              split_ifs at stepped
              cases stepped
              rfl
          | cons frame outer =>
              have whole := weight_finish weigh (.number literal)
                (frame :: outer)
              rcases finish_cases (.number literal) (frame :: outer) with
                ⟨nothing, -⟩ | ⟨-, ended⟩
              · cases nothing
              · rw [State.weight, ended] at whole
                rw [stepNumberEnd] at stepped
                rw [weight_stepEnded stepped]
                exact whole
  | done tree =>
      obtain ⟨-, rfl⟩ := step_done stepped
      rfl

end Steps

end Weights

/-! ## Exchanged content -/

/-- A unit that stands for itself in a string. -/
structure Plain (read : CodeUnit) : Prop where
  notControl : ¬ read < 32
  notQuote : read ≠ unit '"'
  notBackslash : read ≠ unit '\\'

/-- A unit that stands for itself in a string and is found nowhere else. -/
structure StringOnly (read : CodeUnit) : Prop extends Plain read where
  notSpace : isSpace read = false
  notHex : hexValue read = none
  notEscaped : simpleEscape read = none
  notSign : isSign read = false
  notSyntax : ∀ other ∈ plainText "\x7b\x7d[],:.tuflsrn", read ≠ other

section Exchange

variable {state other : State} {read : CodeUnit}

theorem StringOnly.digitValue (only : StringOnly read) :
    digitValue read = none := by
  have hex := only.notHex
  unfold hexValue at hex
  split_ifs at hex
  exact hex

theorem StringOnly.notExponentMark (only : StringOnly read) :
    isExponentMark read = false := by
  have hex := only.notHex
  cases mark : isExponentMark read with
  | false => rfl
  | true =>
      rw [isExponentMark, Bool.or_eq_true, beq_iff_eq, beq_iff_eq] at mark
      rcases mark with rfl | rfl
      · exact absurd hex (by decide)
      · exact absurd hex (by decide)

theorem StringOnly.next (only : StringOnly read) (phase : Phase) :
    phase.next read = none := by
  have zero : read ≠ unit '0' := by
    rintro rfl
    exact absurd only.notHex (by decide)
  have point : read ≠ unit '.' := only.notSyntax _ (by decide)
  cases phase <;> simp [Phase.next, only.digitValue, zero, point,
    only.notExponentMark, only.notSign]

theorem StringOnly.begin? (only : StringOnly read) (stack : List Frame) :
    begin? stack read = none := by
  have zero : read ≠ unit '0' := by
    rintro rfl
    exact absurd only.notHex (by decide)
  have minus : read ≠ unit '-' := by
    rintro rfl
    exact absurd only.notSign (by decide)
  have brace : read ≠ unit '{' := only.notSyntax _ (by decide)
  have bracket : read ≠ unit '[' := only.notSyntax _ (by decide)
  have t : read ≠ unit 't' := only.notSyntax _ (by decide)
  have f : read ≠ unit 'f' := only.notSyntax _ (by decide)
  have n : read ≠ unit 'n' := only.notSyntax _ (by decide)
  simp [JsonText.begin?, only.notQuote, only.digitValue, zero, minus, brace,
    bracket, t, f, n]

theorem StringOnly.stepEnded (only : StringOnly read) (stack : List Frame) :
    stepEnded stack read = none := by
  have comma : read ≠ unit ',' := only.notSyntax _ (by decide)
  have bracket : read ≠ unit ']' := only.notSyntax _ (by decide)
  have brace : read ≠ unit '}' := only.notSyntax _ (by decide)
  match stack with
  | [] => rfl
  | .array elements :: outer =>
      simp [JsonText.stepEnded, only.notSpace, comma, bracket]
  | .object members :: outer =>
      simp [JsonText.stepEnded, only.notSpace, comma, brace]
  | .member members name :: outer => rfl

theorem StringOnly.stepWord (only : StringOnly read) (stack : List Frame)
    (word : Word) (position : Nat) :
    stepWord stack word position read = none := by
  have letters : ∀ due ∈ word.text, read ≠ due := by
    have all : ∀ word : Word, ∀ due ∈ word.text,
        due = unit 'e' ∨ due = unit 'a' ∨
          due ∈ plainText "\x7b\x7d[],:.tuflsrn" := by
      intro word
      match word with
      | .boolean true => decide
      | .boolean false => decide
      | .null => decide
    intro due member same
    rcases all word due member with rfl | rfl | syntactic
    · rw [same] at only
      exact absurd only.notHex (by decide)
    · rw [same] at only
      exact absurd only.notHex (by decide)
    · exact only.notSyntax due syntactic same
  rw [JsonText.stepWord, if_pos]
  intro due
  exact letters read (List.mem_of_getElem? due) rfl

/-- Only within a string, and not within an escape, such a unit is read. -/
theorem StringOnly.mode (only : StringOnly read)
    (stepped : step state read = some other) :
    ∃ stack isName content,
      state = ⟨stack, .string isName content .plain⟩ := by
  obtain ⟨stack, mode⟩ := state
  have bracket : read ≠ unit ']' := only.notSyntax _ (by decide)
  have brace : read ≠ unit '}' := only.notSyntax _ (by decide)
  have colon : read ≠ unit ':' := only.notSyntax _ (by decide)
  have u : read ≠ unit 'u' := only.notSyntax _ (by decide)
  cases mode with
  | value => simp [step, only.notSpace, only.begin?] at stepped
  | element => simp [step, only.notSpace, bracket, only.begin?] at stepped
  | member => simp [step, only.notSpace, only.notQuote, brace] at stepped
  | name => simp [step, only.notSpace, only.notQuote] at stepped
  | colon => simp [step, only.notSpace, colon] at stepped
  | ended => simp [step, only.stepEnded] at stepped
  | string isName content escape =>
      cases escape with
      | plain => exact ⟨stack, isName, content, rfl⟩
      | backslash => simp [step, stepString, u, only.notEscaped] at stepped
      | unicode remaining before =>
          simp [step, stepString, only.notHex] at stepped
  | word word position => simp [step, only.stepWord] at stepped
  | number phase literal =>
      simp only [step, only.next] at stepped
      split_ifs at stepped
      cases stack with
      | nil => simp [stepNumberEnd, only.notSpace] at stepped
      | cons frame outer => simp [stepNumberEnd, only.stepEnded] at stepped
  | done tree => simp [step, only.notSpace] at stepped

theorem Plain.step (plain : Plain read) (stack : List Frame) (isName : Bool)
    (content : Text) :
    step ⟨stack, .string isName content .plain⟩ read =
      some ⟨stack, .string isName (content ++ [read]) .plain⟩ := by
  simp [JsonText.step, stepString, plain.notQuote, plain.notBackslash,
    plain.notControl]

theorem run_plain {text : Text} (plain : ∀ read ∈ text, Plain read)
    (stack : List Frame) (isName : Bool) (content : Text) :
    run ⟨stack, .string isName content .plain⟩ text =
      some ⟨stack, .string isName (content ++ text) .plain⟩ := by
  induction text generalizing content with
  | nil => rw [List.append_nil, run_nil]
  | cons read text induction =>
      rw [run_cons, (plain read List.mem_cons_self).step]
      have rest := induction
        (fun unit member => plain unit (List.mem_cons_of_mem _ member))
        (content ++ [read])
      rwa [List.append_assoc] at rest

/-- The second text has other content in some places within strings. -/
inductive Variant : Text → Text → Prop
  | nil : Variant [] []
  | keep (read : CodeUnit) {text more : Text} :
      Variant text more → Variant (read :: text) (read :: more)
  | exchange {read : CodeUnit} {rest content : Text} {text more : Text} :
      StringOnly read → (∀ unit ∈ rest, Plain unit) →
      (∀ unit ∈ content, Plain unit) → Variant text more →
      Variant (read :: rest ++ text) (content ++ more)

theorem gain_outline (weigh : CodeUnit → Nat) (mode : Mode) :
    mode.outline.gain weigh = mode.gain weigh := by
  funext read
  cases mode with
  | string isName content escape => cases escape <;> rfl
  | value | element | member | name | colon | ended | word | number
  | done => rfl

theorem step_of_outline (same : other.outline = state.outline)
    {next : State} (stepped : step state read = some next) :
    ∃ after, step other read = some after ∧ after.outline = next.outline := by
  have outlines := outline_step other read
  rw [same, ← outline_step, stepped] at outlines
  obtain ⟨after, found, outline⟩ := Option.map_eq_some_iff.mp outlines
  exact ⟨after, found, outline⟩

theorem mode_of_outline {stack : List Frame} {isName : Bool} {content : Text}
    (same : other.outline =
      (State.mk stack (.string isName content .plain)).outline) :
    ∃ frames units, other = ⟨frames, .string isName units .plain⟩ := by
  obtain ⟨frames, mode⟩ := other
  have modes := congrArg State.mode same
  simp only [State.outline] at modes
  cases mode with
  | string isOther units escape =>
      simp only [Mode.outline] at modes
      cases modes
      exact ⟨frames, units, rfl⟩
  | value | element | member | name | colon | ended | word | number
  | done => cases modes

/-- A variant is read like the text, and its content differs by what was
exchanged. -/
theorem Variant.run {text more : Text} (variant : Variant text more)
    (same : other.outline = state.outline) {final : State}
    (ran : run state text = some final) :
    ∃ last, run other more = some last ∧ last.outline = final.outline ∧
      ∀ weigh, final.weight weigh + other.weight weigh +
          textWeight weigh more =
        last.weight weigh + state.weight weigh + textWeight weigh text := by
  induction variant generalizing state other with
  | nil =>
      cases ran
      exact ⟨other, rfl, same, fun weigh => by omega⟩
  | @keep read text more variant induction =>
      rw [run_cons] at ran
      obtain ⟨next, stepped, rest⟩ := Option.bind_eq_some_iff.mp ran
      obtain ⟨after, steppedToo, outline⟩ := step_of_outline same stepped
      obtain ⟨last, ranToo, lastOutline, weights⟩ := induction outline rest
      refine ⟨last, ?_, lastOutline, fun weigh => ?_⟩
      · rw [run_cons, steppedToo]
        exact ranToo
      · have modes : other.mode.outline = state.mode.outline :=
          congrArg State.mode same
        have gains : other.mode.gain weigh read =
            state.mode.gain weigh read := by
          rw [← gain_outline, modes, gain_outline]
        have before : next.weight weigh = _ := weight_step stepped
        have beforeToo : after.weight weigh = _ := weight_step steppedToo
        have later := weights weigh
        simp only [textWeight_cons] at later ⊢
        omega
  | @exchange read others content text more only plains contents variant
      induction =>
      rw [List.cons_append, run_cons] at ran
      obtain ⟨next, stepped, rest⟩ := Option.bind_eq_some_iff.mp ran
      obtain ⟨stack, isName, before, rfl⟩ := only.mode stepped
      rw [only.step] at stepped
      cases stepped
      rw [run_append, run_plain plains] at rest
      obtain ⟨frames, units, rfl⟩ := mode_of_outline same
      have sameAfter :
          (State.mk frames (.string isName (units ++ content)
            .plain)).outline =
          (State.mk stack (.string isName (before ++ [read] ++ others)
            .plain)).outline := same
      obtain ⟨last, ranToo, lastOutline, weights⟩ := induction sameAfter rest
      refine ⟨last, ?_, lastOutline, fun weigh => ?_⟩
      · rw [run_append, run_plain contents]
        exact ranToo
      · have later := weights weigh
        simp only [weight_stringState, List.cons_append, textWeight_cons,
          textWeight_append, textWeight_nil] at later ⊢
        omega

theorem Variant.refl (text : Text) : Variant text text := by
  induction text with
  | nil => exact .nil
  | cons read text induction => exact .keep read induction

theorem Variant.append {text more after afterToo : Text}
    (variant : Variant text more) (later : Variant after afterToo) :
    Variant (text ++ after) (more ++ afterToo) := by
  induction variant with
  | nil => exact later
  | keep read variant induction => exact .keep read induction
  | exchange only plains contents variant induction =>
      rw [List.append_assoc, List.append_assoc]
      exact .exchange only plains contents induction

theorem state_of_outline_done {tree : Tree}
    (same : other.outline = (State.mk [] (.done tree)).outline) :
    ∃ found, other = ⟨[], .done found⟩ := by
  obtain ⟨frames, mode⟩ := other
  obtain rfl : frames = [] :=
    List.map_eq_nil_iff.mp (congrArg State.stack same)
  have modes : mode.outline = .done .null := congrArg State.mode same
  cases mode with
  | done found => exact ⟨found, rfl⟩
  | value | element | member | name | colon | ended | string | word
  | number => cases modes

theorem Variant.whole {text more : Text} (variant : Variant text more)
    {tree : Tree} (ran : JsonText.run initial text = some ⟨[], .done tree⟩) :
    ∃ found, JsonText.run initial more = some ⟨[], .done found⟩ ∧
      ∀ weigh, tree.weight weigh + textWeight weigh more =
        found.weight weigh + textWeight weigh text := by
  obtain ⟨last, ranToo, outline, weights⟩ := variant.run rfl ran
  obtain ⟨found, rfl⟩ := state_of_outline_done outline
  refine ⟨found, ranToo, fun weigh => ?_⟩
  have balance := weights weigh
  simp only [State.weight, stackWeight_nil, Mode.weight, initial] at balance
  omega

theorem textWeight_one (text : Text) :
    textWeight (fun _ => 1) text = text.length := by
  induction text with
  | nil => rfl
  | cons read text induction =>
      rw [textWeight_cons, induction, List.length_cons, Nat.add_comm]

end Exchange

end Web3Js.JsonText
