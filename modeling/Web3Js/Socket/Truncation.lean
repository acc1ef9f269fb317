import Web3Js.Socket.Consistency
import Web3Js.Socket.Receiver

/-!
# Truncated messages

What the parser keeps of a message that never ends outlives the connection:
neither a new connection nor a reset nor the timer of an incomplete chunk drops
it.  It is put before the next message, and no text that goes on like this is
JSON.
-/

namespace Web3Js.Socket

open JsonText

section Truncated

variable {text : Text} {tree : Tree} {limit : Nat}

theorem enclosed_of_document (isDocument : IsDocument text tree) :
    ∃ first inner last, Enclosed text first inner last := by
  obtain ⟨rest, opens⟩ := isDocument.opens
  obtain ⟨front, closes⟩ := isDocument.closes
  cases front with
  | nil =>
      rcases opens with rfl | rfl <;> rcases closes with same | same <;>
        exact absurd (List.cons.inj same).1 (by decide)
  | cons first inner =>
      rcases closes with rfl | rfl
      · refine ⟨first, inner, unit '}', rfl, ?_, .inl rfl⟩
        exact opens.imp (fun same => (List.cons.inj same).1)
          fun same => (List.cons.inj same).1
      · refine ⟨first, inner, unit ']', rfl, ?_, .inr rfl⟩
        exact opens.imp (fun same => (List.cons.inj same).1)
          fun same => (List.cons.inj same).1

theorem strip_append_unit {last : CodeUnit} (front tail : Marked)
    (absent : some last ∉ separator.map some) :
    strip (front ++ some last :: tail) = strip front ++ last :: strip tail := by
  induction front using strip.induct with
  | case1 =>
      rw [List.nil_append, strip_nil, strip_unit]
      · rfl
      · intro starts
        have nothing : separator.map some <+: [] :=
          prefix_of_not_mem starts absent
        exact separator_marks_ne_nil (List.prefix_nil.mp nothing)
  | case2 rest induction =>
      rw [List.cons_append, strip_mark, strip_mark, induction]
  | case3 read rest starts induction =>
      obtain ⟨more, same⟩ := starts
      have dropped : rest.drop 3 = more := by
        change some (unit '|') :: some (unit '-') :: some (unit '-') ::
          some (unit '|') :: more = some read :: rest at same
        obtain ⟨-, rfl⟩ := List.cons.inj same
        rfl
      rw [dropped] at induction
      rw [← same, List.append_assoc, strip_separator, strip_separator,
        induction]
  | case4 read rest apart induction =>
      have apartToo : ¬ separator.map some <+:
          some read :: (rest ++ some last :: tail) := by
        intro starts
        rw [← List.cons_append] at starts
        exact apart (prefix_of_not_mem starts absent)
      rw [List.cons_append, strip_unit apartToo, strip_unit apart, induction]
      rfl

theorem strip_blank {gap : Marked}
    (blank : ∀ read ∈ gap.reduceOption, isSpace read = true) (tail : Marked) :
    strip (gap ++ tail) = gap.reduceOption ++ strip tail := by
  induction gap with
  | nil => rfl
  | cons entry gap induction =>
      cases entry with
      | none =>
          rw [List.reduceOption_cons_of_none] at blank ⊢
          rw [List.cons_append, strip_mark, induction blank]
      | some read =>
          rw [List.reduceOption_cons_of_some] at blank ⊢
          rw [List.cons_append, strip_unit, induction fun unit member =>
            blank unit (List.mem_cons_of_mem _ member)]
          · rfl
          · apply not_separator_of_ne
            rintro rfl
            exact absurd (blank _ List.mem_cons_self) (by decide)

theorem length_strip (marked : Marked) :
    (strip marked).length ≤ marked.reduceOption.length := by
  induction marked using strip.induct with
  | case1 =>
      rw [strip_nil]
      exact Nat.zero_le _
  | case2 rest induction =>
      rw [strip_mark]
      exact induction
  | case3 read rest starts induction =>
      rw [strip, if_pos starts, List.reduceOption_cons_of_some]
      have fewer := ((List.drop_sublist 3 rest).filterMap id).length_le
      exact Nat.le_succ_of_le (Nat.le_trans induction fewer)
  | case4 read rest apart induction =>
      rw [strip_unit apart, List.reduceOption_cons_of_some]
      exact Nat.succ_le_succ induction

/-- What is kept of a document that has begun and not ended. -/
theorem feed_truncated (isDocument : IsDocument text tree)
    {chunks : List Text} {rest : Text}
    (content : text = chunks.flatten ++ rest) (begun : chunks.flatten ≠ [])
    (unfinished : rest ≠ [])
    (fits : (strip (marks chunks)).length ≤ limit) :
    ∃ state, feed limit [] (cuts .plain (marks chunks)) =
        some ⟨[], strip (marks chunks)⟩ ∧
      JsonText.run initial (strip (marks chunks)) = some state ∧
      state.stack ≠ [] := by
  obtain ⟨first, inner, last, enclosed⟩ := enclosed_of_document isDocument
  obtain ⟨state, final, opened, inside, ran, stillInside, -⟩ :=
    states_of_document isDocument enclosed
  obtain ⟨head, part, beginning⟩ := List.exists_cons_of_ne_nil begun
  obtain rfl | ⟨others, end', rfl⟩ := List.eq_nil_or_concat' rest
  · exact absurd rfl unfinished
  have whole := enclosed.text
  rw [content, beginning, List.cons_append, ← List.append_assoc] at whole
  obtain ⟨rfl, tails⟩ := List.cons.inj whole
  obtain ⟨rfl, -⟩ := List.append_inj' tails rfl
  have atFirst : (marks chunks).reduceOption = [] ++ head :: part := by
    rw [reduceOption_marks, beginning]
    rfl
  obtain ⟨lead, front, split, blank, frontPart⟩ := split_at_unit atFirst
  have leadBlank : ∀ read ∈ lead.reduceOption, isSpace read = true := by
    rw [blank]
    exact List.forall_mem_nil _
  rw [JsonText.run_append] at ran
  obtain ⟨middle, ranPart, ranOthers⟩ := Option.bind_eq_some_iff.mp ran
  have middleInside := inside_of_run (nested_run (.inl inside) ranPart)
    ranOthers stillInside
  rw [← frontPart] at ranPart
  -- A bracket behind the chunks takes no part in this.
  obtain ⟨events, more, passes, same⟩ := cuts_inside limit (.inl rfl) front []
    inside (fun closed : Context.plain ≠ .plain => absurd rfl closed) ranPart
    middleInside
  have cut : cuts .plain (marks chunks) = lead ++ some head :: events := by
    have joined := cuts_marks_append chunks [some (unit '}')]
    rw [split, List.append_assoc, List.cons_append, cuts_blank leadBlank,
      cuts_opening enclosed.opening, same, cuts_closing (.inl rfl),
      cuts_closing (.inl rfl), cuts_nil, cuts_nil, ← split] at joined
    rw [← List.cons_append, ← List.append_assoc] at joined
    exact (List.append_cancel_right joined).symm
  have stripped : strip (marks chunks) = head :: more := by
    rw [split, strip_blank leadBlank, blank, strip_unit, passes.stripped]
    · rfl
    · apply not_separator_of_ne
      rcases enclosed.opening with rfl | rfl <;> decide
  rw [stripped] at fits ⊢
  obtain ⟨last', ranMore, outline, -⟩ := passes.variant.run rfl ranPart
  refine ⟨last', ?_, ?_, stack_of_outline outline middleInside⟩
  · have room : ([] : Text).length + lead.reduceOption.length ≤ limit := by
      rw [blank]
      exact Nat.zero_le limit
    have fedLead := feed_spaces (List.forall_mem_nil _) leadBlank room
    have fed := passes.fed [head] state
      (run_first (List.forall_mem_nil _) opened) rfl fits
    rw [cut, feed_after fedLead, blank, feed]
    exact congrArg _ fed
  · rw [run_cons, opened]
    exact ranMore

end Truncated

/-! ## What comes behind -/

section Behind

variable {limit : Nat} {state : State} {first last : CodeUnit}

/-- The first unit of a document within an array or an object, where no
document has ended before. -/
theorem step_opening_cases (opening : IsOpening first)
    (inside : state.stack ≠ []) :
    step state first = none ∨
      (∃ frame mode, step initial first = some ⟨[frame], mode⟩ ∧
        step state first = some ⟨frame :: state.stack, mode⟩) ∨
      ∃ isName content, state.mode = .string isName content .plain := by
  obtain ⟨stack, mode⟩ := state
  change stack ≠ [] at inside
  cases mode with
  | value =>
      right
      left
      rcases opening with rfl | rfl <;> exact ⟨_, _, rfl, rfl⟩
  | element =>
      right
      left
      rcases opening with rfl | rfl <;> exact ⟨_, _, rfl, rfl⟩
  | member | name | colon =>
      left
      rcases opening with rfl | rfl <;> rfl
  | ended => exact .inl (step_ended_opening opening)
  | string isName content escape =>
      cases escape with
      | plain => exact .inr (.inr ⟨isName, content, rfl⟩)
      | backslash | unicode =>
          left
          rcases opening with rfl | rfl <;> rfl
  | word word position =>
      have letters : ∀ word : Word, first ∉ word.text := by
        intro word
        rcases opening with rfl | rfl <;>
          cases word with
          | boolean value => cases value <;> decide
          | null => decide
      left
      rw [step, stepWord, if_pos]
      exact fun due => letters word (List.mem_of_getElem? due)
  | number phase literal =>
      have next : phase.next first = none := by
        rcases opening with rfl | rfl <;> cases phase <;> rfl
      left
      simp only [step, next]
      split
      · cases stack with
        | nil => exact absurd rfl inside
        | cons frame outer =>
            have stopped : step ⟨(finish (.number literal)
                (frame :: outer)).stack, .ended⟩ first = none :=
              step_ended_opening opening
            exact stopped
      · rfl
  | done tree =>
      left
      rcases opening with rfl | rfl <;> rfl

/-- Units that are read as they are, wherever they stand in a chunk. -/
theorem cuts_inert {gap : Marked}
    (inert : ∀ read ∈ gap.reduceOption, read ≠ unit '}' ∧ read ≠ unit '|')
    (rest : Marked) :
    cuts .plain (gap ++ rest) = gap ++ cuts .plain rest := by
  induction gap with
  | nil => rfl
  | cons entry gap induction =>
      cases entry with
      | none =>
          rw [List.reduceOption_cons_of_none] at inert
          rw [List.cons_append, cuts_mark, induction inert]
          rfl
      | some read =>
          rw [List.reduceOption_cons_of_some] at inert
          obtain ⟨notBrace, notBar⟩ := inert read List.mem_cons_self
          have next : Context.plain.next read = .plain := by
            rw [Context.next, if_neg notBrace, if_neg fun both =>
              by cases both.2]
          rw [List.cons_append, cuts_plain (not_separator_of_ne notBar), next,
            induction fun unit member =>
              inert unit (List.mem_cons_of_mem _ member)]
          rfl

/-- A text that begins with the first bracket of a document, if at all. -/
def StartsOpening (text : Text) : Prop :=
  ∀ read more, text = read :: more → IsOpening read

theorem units_of_cuts (context : Context) {marked : Marked}
    {blank rest : Text} (content : marked.reduceOption = blank ++ rest)
    (spaces : ∀ read ∈ blank, isSpace read = true)
    (starts : StartsOpening rest) :
    ∃ before after,
      (cuts context marked).reduceOption = before ++ after ∧
      (∀ read ∈ before, isSpace read = true) ∧ StartsOpening after := by
  induction marked generalizing context blank with
  | nil =>
      rw [cuts_nil]
      exact ⟨[], [], rfl, List.forall_mem_nil _, fun _ _ same =>
        by cases same⟩
  | cons entry marked induction =>
      cases entry with
      | none =>
          rw [List.reduceOption_cons_of_none] at content
          rw [cuts_mark, List.reduceOption_cons_of_none]
          exact induction _ content spaces
      | some read =>
          rw [List.reduceOption_cons_of_some] at content
          cases blank with
          | nil =>
              have opening := starts read _ content.symm
              have kept : ∃ more,
                  (cuts context (some read :: marked)).reduceOption =
                    read :: more := by
                by_cases opened :
                    context ≠ .plain ∧ opens (some read :: marked) = true
                · rw [cuts_open opened.1 opened.2, cuts_opening opening]
                  exact ⟨_, rfl⟩
                · rw [cuts_keep]
                  · exact ⟨_, List.reduceOption_cons_of_some _ _⟩
                  · intro _ isBreak
                    rcases opening with rfl | rfl <;> cases isBreak
                  · intro closed
                    rw [← Bool.not_eq_true]
                    exact fun isOpened => opened ⟨closed, isOpened⟩
                  · apply not_separator_of_ne
                    rcases opening with rfl | rfl <;> decide
              obtain ⟨more, same⟩ := kept
              refine ⟨[], read :: more, same, List.forall_mem_nil _, ?_⟩
              intro other tail whole
              cases whole
              exact opening
          | cons head blank =>
              obtain ⟨rfl, later⟩ := List.cons.inj content
              have space := spaces read List.mem_cons_self
              have spacesLater : ∀ unit ∈ blank, isSpace unit = true :=
                fun unit member => spaces unit (List.mem_cons_of_mem _ member)
              by_cases broken : context ≠ .plain ∧ isLineBreak read = true ∧
                  opens marked = true
              · rw [cuts_break broken.1 broken.2.1 broken.2.2,
                  List.reduceOption_cons_of_none]
                exact induction _ later spacesLater
              · rw [cuts_space space, List.reduceOption_cons_of_some]
                · obtain ⟨before, after, same, blanks, opening⟩ :=
                    induction _ later spacesLater
                  refine ⟨read :: before, after, ?_, ?_, opening⟩
                  · rw [same]
                    rfl
                  · intro unit member
                    rcases List.mem_cons.mp member with rfl | further
                    · exact space
                    · exact blanks unit further
                · intro closed isBreak
                  rw [← Bool.not_eq_true]
                  exact fun opened => broken ⟨closed, isBreak, opened⟩

theorem startsOpening_written (documents : List Document) :
    StartsOpening (written documents) := by
  intro read more same
  cases documents with
  | nil => cases same
  | cons document documents =>
      obtain ⟨first, inner, last, brackets⟩ := document.brackets
      rw [written_cons, brackets.text] at same
      cases same
      exact brackets.opening

/-- The name of the first member begins with a letter, perhaps one that is
written with an escape, as in every JSON-RPC message. -/
def Document.Named (document : Document) : Prop :=
  ∃ front blank key rest,
    document.text = front ++ blank ++ unit '"' :: key :: rest ∧
    (front = plainText "\x7b" ∨ front = plainText "[\x7b") ∧
    (∀ read ∈ blank, isSpace read = true) ∧
    (unit 'a' ≤ key ∧ key ≤ unit 'z' ∨ key = unit '\\')

theorem stays_string {stack : List Frame} (inside : stack ≠ [])
    (isName : Bool) {front tail : Text}
    (unquoted : ∀ read ∈ front, read ≠ unit '"' ∧ read ≠ unit '\\')
    (stays : ∀ content,
      Stays ⟨stack, .string isName content .plain⟩ tail) (content : Text) :
    Stays ⟨stack, .string isName content .plain⟩ (front ++ tail) := by
  induction front generalizing content with
  | nil => exact stays content
  | cons read front induction =>
      obtain ⟨notQuote, notBackslash⟩ := unquoted read List.mem_cons_self
      refine ⟨inside, fun next stepped => ?_⟩
      rw [step, stepString, if_neg notQuote, if_neg notBackslash] at stepped
      split at stepped
      · cases stepped
      · cases stepped
        exact induction (fun unit member =>
          unquoted unit (List.mem_cons_of_mem _ member)) _

/-- Behind the quotation mark of a name, outside of a string, its first letter
cannot follow. -/
theorem step_key {key : CodeUnit}
    (letter : unit 'a' ≤ key ∧ key ≤ unit 'z' ∨ key = unit '\\')
    (settled : state.mode = .ended ∨ state.mode = .colon) :
    step state key = none := by
  have others : ∀ due, due < unit 'a' ∨ unit 'z' < due → due ≠ unit '\\' →
      key ≠ due := by
    rintro due outside notBackslash rfl
    rcases letter with ⟨low, high⟩ | same
    · rcases outside with below | above
      · exact absurd low (UInt16.not_le.mpr below)
      · exact absurd high (UInt16.not_le.mpr above)
    · exact notBackslash same
  have notSpace : isSpace key = false := by
    have space := others (unit ' ') (by decide) (by decide)
    have tab := others (unit '\t') (by decide) (by decide)
    have line := others (unit '\n') (by decide) (by decide)
    have carriage := others (unit '\r') (by decide) (by decide)
    simp [isSpace, space, tab, line, carriage]
  have comma := others (unit ',') (by decide) (by decide)
  have bracket := others (unit ']') (by decide) (by decide)
  have brace := others (unit '}') (by decide) (by decide)
  have colon := others (unit ':') (by decide) (by decide)
  obtain ⟨stack, mode⟩ := state
  rcases settled with ended | atColon
  · cases ended
    cases stack with
    | nil => rfl
    | cons frame outer =>
        cases frame with
        | array elements =>
            simp [step, stepEnded, notSpace, comma, bracket]
        | object members =>
            simp [step, stepEnded, notSpace, comma, brace]
        | member members name => rfl
  · cases atColon
    simp [step, notSpace, colon]

theorem stays_quote {stack : List Frame} (inside : stack ≠ [])
    (isName : Bool) (content : Text) {key : CodeUnit}
    (letter : unit 'a' ≤ key ∧ key ≤ unit 'z' ∨ key = unit '\\')
    (rest : Text) :
    Stays ⟨stack, .string isName content .plain⟩
      (unit '"' :: key :: rest) := by
  refine ⟨inside, fun next stepped => ?_⟩
  have ended : endString stack isName content = some next := by
    rw [step, stepString, if_pos rfl] at stepped
    exact stepped
  cases isName with
  | false =>
      cases ended
      rcases finish_cases (.string content) stack with
        ⟨nothing, -⟩ | ⟨stillInside, mode⟩
      · exact absurd nothing inside
      · exact stays_of_dead stillInside (step_key letter (.inl mode))
  | true =>
      cases stack with
      | nil => cases ended
      | cons frame outer =>
          cases frame with
          | array elements => cases ended
          | object members =>
              cases ended
              exact stays_of_dead (List.cons_ne_nil _ _)
                (step_key letter (.inr rfl))
          | member members name => cases ended

/-- A message that is put behind the part of a string. -/
theorem stays_behind_string {stack : List Frame} (inside : stack ≠ [])
    (isName : Bool) (content : Text) {document : Document}
    (named : document.Named) {marked : Marked} {text : Text}
    (written : marked.reduceOption = document.text ++ text) :
    Stays ⟨stack, .string isName content .plain⟩
      (cuts .plain marked).reduceOption := by
  obtain ⟨front, blank, key, rest, same, bracket, spaces, letter⟩ := named
  have frontUnits : ∀ read ∈ front ++ blank,
      (read ≠ unit '}' ∧ read ≠ unit '|') ∧
        read ≠ unit '"' ∧ read ≠ unit '\\' := by
    intro read member
    rcases List.mem_append.mp member with first | space
    · have all : ∀ read ∈ plainText "[\x7b",
          (read ≠ unit '}' ∧ read ≠ unit '|') ∧
            read ≠ unit '"' ∧ read ≠ unit '\\' := by
        decide
      rcases bracket with rfl | rfl
      · exact all read (List.mem_cons_of_mem _ first)
      · exact all read first
    · have space := spaces read space
      refine ⟨⟨?_, ?_⟩, ?_, ?_⟩ <;>
        · rintro rfl
          exact absurd space (by decide)
  have inertKey : key ≠ unit '}' ∧ key ≠ unit '|' := by
    constructor <;>
      · rintro rfl
        exact absurd letter (by decide)
  have content' : marked.reduceOption =
      (front ++ blank ++ [unit '"', key]) ++ (rest ++ text) := by
    rw [written, same]
    simp
  obtain ⟨start, tail, rfl, startUnits, -⟩ :=
    (List.reduceOption_eq_append_iff _ _ _).mp content'
  have inert : ∀ read ∈ start.reduceOption,
      read ≠ unit '}' ∧ read ≠ unit '|' := by
    rw [startUnits]
    intro read member
    rcases List.mem_append.mp member with before | last
    · exact (frontUnits read before).1
    · rcases List.mem_cons.mp last with rfl | isKey
      · decide
      · rw [List.mem_singleton.mp isKey]
        exact inertKey
  rw [cuts_inert inert, List.reduceOption_append, startUnits,
    List.append_assoc]
  apply stays_string inside isName fun read member => (frontUnits read member).2
  exact fun content => stays_quote inside isName content letter _

theorem ended_of_outline {other : State} (same : other.outline =
      state.outline) (ended : state.mode = .ended) : other.mode = .ended := by
  have modes : other.mode.outline = state.mode.outline :=
    congrArg State.mode same
  rw [ended] at modes
  cases mode : other.mode with
  | ended => rfl
  | value | element | member | name | colon | string | word | number | done =>
      rw [mode] at modes
      cases modes

/-- A message that is put where a value is due, and what follows it. -/
theorem feed_behind_value {document : Document} {inner : Text}
    (brackets : document.Brackets first inner last) {frame : Frame}
    {mode : Mode} (opened : step initial first = some ⟨[frame], mode⟩)
    (inside : state.stack ≠ [])
    (steppedInto : step state first = some ⟨frame :: state.stack, mode⟩)
    {pending : Text} (ran : JsonText.run initial pending = some state)
    {front later : Marked} (content : front.reduceOption = inner)
    {blank rest : Text} (laterContent : later.reduceOption = blank ++ rest)
    (spaces : ∀ read ∈ blank, isSpace read = true)
    (starts : StartsOpening rest)
    (fits : pending.length + (some first :: (front ++ some last ::
      later)).reduceOption.length ≤ limit) :
    ∃ kept, feed limit pending
      (cuts .plain (some first :: (front ++ some last :: later))) =
        some ⟨[], kept⟩ := by
  obtain ⟨state', final, opened', single, ranInner, finalInside, closed⟩ :=
    states_of_document document.isDocument brackets.toEnclosed
  rw [opened] at opened'
  obtain rfl := Option.some.inj opened'
  have ranUnder := run_under state.stack finalInside (.inl single) ranInner
  have closedUnder := step_under state.stack finalInside closed
  have under : State.under state.stack ⟨[frame], mode⟩ =
      ⟨frame :: state.stack, mode⟩ := rfl
  rw [under, ← content] at ranUnder
  have finalUnder : (final.under state.stack).stack ≠ [] := by
    obtain ⟨stack, finalMode⟩ := final
    rw [under_inside state.stack finalInside]
    exact List.append_ne_nil_of_left_ne_nil finalInside _
  obtain ⟨events, more, passes, same⟩ := cuts_inside limit brackets.closing
    front later (List.cons_ne_nil frame state.stack)
    (fun closed : Context.plain ≠ .plain => absurd rfl closed) ranUnder
    finalUnder
  have ranFirst : JsonText.run initial (pending ++ [first]) =
      some ⟨frame :: state.stack, mode⟩ := by
    rw [run_append, ran, Option.bind_some, run_cons, steppedInto]
    rfl
  have shorter : more.length ≤ front.reduceOption.length := by
    by_cases within : separator.map some <:+: front
    · exact Nat.le_of_lt (passes.shorter within)
    · exact Nat.le_of_eq (congrArg List.length (passes.whole within))
  simp only [List.reduceOption_cons_of_some, List.reduceOption_append,
    List.length_cons, List.length_append] at fits
  have fed := passes.fed (pending ++ [first]) _ ranFirst rfl (by
    simp only [List.length_append, List.length_singleton]
    omega)
  -- Behind the last bracket, something has to close what encloses it.
  obtain ⟨other, ranMore, outline, -⟩ := passes.variant.run rfl ranUnder
  obtain ⟨after, closedToo, afterOutline⟩ :=
    step_of_outline outline closedUnder
  have ranLast : JsonText.run initial
      (pending ++ [first] ++ more ++ [last]) = some after := by
    rw [run_append, run_append, ranFirst, Option.bind_some, ranMore,
      Option.bind_some, run_cons, closedToo]
    rfl
  have finished : (finish document.tree state.stack).stack ≠ [] ∧
      (finish document.tree state.stack).mode = .ended := by
    rcases finish_cases document.tree state.stack with ⟨nothing, -⟩ | both
    · exact absurd nothing inside
    · exact both
  have afterInside : after.stack ≠ [] :=
    stack_of_outline afterOutline finished.1
  have afterEnded := ended_of_outline afterOutline finished.2
  obtain ⟨before, tail, units, beforeSpaces, tailStarts⟩ := units_of_cuts
    ((Context.plain.after front).next last) laterContent spaces starts
  have stays : Stays after (cuts ((Context.plain.after front).next last)
      later).reduceOption := by
    obtain ⟨stack, afterMode⟩ := after
    change afterMode = .ended at afterEnded
    subst afterEnded
    rw [units]
    apply stays_ended afterInside _ beforeSpaces
    intro read rest isTail
    exact step_ended_opening (tailStarts read rest isTail)
  have fewer := length_cuts ((Context.plain.after front).next last) later
  have room : (pending ++ [first] ++ more ++ [last]).length +
      (cuts ((Context.plain.after front).next last)
        later).reduceOption.length ≤ limit := by
    simp only [List.length_append, List.length_singleton]
    omega
  have fedLater := feed_stays ranLast stays room
  rw [cuts_opening brackets.opening, same, cuts_closing brackets.closing, feed,
    feed_after fed, feed, fedLater]
  exact ⟨_, rfl⟩

/-- Nothing comes of messages that are put behind part of another one. -/
theorem feed_behind {document : Document} {documents : List Document}
    (named : document.Named) {pending : Text}
    (ran : JsonText.run initial pending = some state)
    (inside : state.stack ≠ []) {marked : Marked}
    (content : marked.reduceOption = written (document :: documents))
    (fits : pending.length + marked.reduceOption.length ≤ limit) :
    ∃ kept, feed limit pending (cuts .plain marked) = some ⟨[], kept⟩ := by
  rw [written_cons] at content
  obtain ⟨lead, front, later, first, last, begins, laterContent⟩ :=
    exists_begins content
  have leadBlank : ∀ read ∈ lead.reduceOption, isSpace read = true := by
    rw [begins.lead]
    exact List.forall_mem_nil _
  have fewer := length_cuts .plain marked
  rcases step_opening_cases begins.brackets.opening inside with
    dead | ⟨frame, mode, opened, into⟩ | ⟨isName, string, inString⟩
  · have stays : Stays state (cuts .plain marked).reduceOption := by
      rw [begins.marked, cuts_blank leadBlank,
        cuts_opening begins.brackets.opening, List.reduceOption_append,
        begins.lead, List.reduceOption_cons_of_some]
      exact stays_of_dead inside dead
    exact ⟨_, feed_stays ran stays (by omega)⟩
  · have nothing : Stays state lead.reduceOption := by
      rw [begins.lead]
      exact inside
    rw [begins.marked, List.reduceOption_append, begins.lead,
      List.nil_append] at fits
    have room : pending.length + lead.reduceOption.length ≤ limit := by
      rw [begins.lead]
      exact Nat.le_trans (Nat.le_add_right _ _) fits
    have fedLead := feed_stays ran nothing room
    obtain ⟨kept, fed⟩ := feed_behind_value begins.brackets opened inside into
      ran rfl laterContent document.blank_gap
      (startsOpening_written documents) fits
    refine ⟨kept, ?_⟩
    rw [begins.marked, cuts_blank leadBlank, feed_after fedLead, begins.lead,
      List.append_nil, fed]
    rfl
  · obtain ⟨stack, mode⟩ := state
    change mode = _ at inString
    subst inString
    have stays := stays_behind_string inside isName string named content
    exact ⟨_, feed_stays ran stays (by omega)⟩

end Behind

namespace Receiver

variable (config : Config) (reading : Reading) (errorListened : Bool)

/-- After a part of a message and whatever else happened, the parser returns
the messages that are received. -/
def Recovers (receiver : Receiver) (before later : List ReceiverAction)
    (documents : List Document) : Prop :=
  returned config reading errorListened
      (Web3Js.run (step config reading errorListened) receiver before) later =
    some (documents.map Document.tree)

theorem recovers_iff {receiver : Receiver} (fresh : receiver.parser.kept = [])
    {abandoned : Document} {truncated rest : Text}
    (isPart : abandoned.text = truncated ++ rest) (begun : truncated ≠ [])
    (unfinished : rest ≠ []) {before later : List ReceiverAction}
    (receivedPart : (received before).flatten = truncated)
    {documents : List Document}
    (messages : ∀ document ∈ documents, document.Named)
    (receivedLater : (received later).flatten = written documents)
    (short : (truncated ++ written documents).length ≤ maxChunkBytes) :
    Recovers config reading errorListened receiver before later documents ↔
      documents = [] := by
  subst receivedPart
  rw [List.length_append] at short
  have notLonger := length_strip (marks (received before))
  rw [reduceOption_marks] at notLonger
  have room : (strip (marks (received before))).length ≤ maxChunkBytes := by
    omega
  obtain ⟨state, fed, ran, inside⟩ :=
    feed_truncated abandoned.isDocument isPart begun unfinished room
  rw [← fresh] at fed
  obtain ⟨-, kept⟩ := returned_of_feed config reading errorListened fed
  change _ = strip (marks (received before)) at kept
  have content := (reduceOption_marks (received later)).trans receivedLater
  obtain ⟨last, isFed⟩ : ∃ last, feed maxChunkBytes
      (strip (marks (received before)))
      (cuts .plain (marks (received later))) = some ⟨[], last⟩ := by
    cases documents with
    | nil =>
        have nothing : (marks (received later)).reduceOption = [] := content
        have blank : ∀ read ∈ (marks (received later)).reduceOption,
            isSpace read = true := by
          rw [nothing]
          exact List.forall_mem_nil _
        have same := cuts_blank blank []
        rw [cuts_nil, List.append_nil] at same
        have stays : Stays state (marks (received later)).reduceOption := by
          rw [nothing]
          exact inside
        rw [same]
        exact ⟨_, feed_stays ran stays (by
          rw [nothing]
          exact room)⟩
    | cons document documents =>
        apply feed_behind (messages document List.mem_cons_self) ran inside
          content
        rw [content]
        omega
  rw [← kept] at isFed
  obtain ⟨values, -⟩ := returned_of_feed config reading errorListened isFed
  rw [Recovers, values, Option.some.injEq]
  constructor
  · intro same
    exact List.map_eq_nil_iff.mp same.symm
  · rintro rfl
    rfl

/-- `{"jsonrpc":"2.0","id":1,"result":true}` -/
def trueResult : Document where
  text := plainText "\x7b\"jsonrpc\":\"2.0\",\"id\":1,\"result\":true\x7d"
  tree := .object [(plainText "jsonrpc", .string (plainText "2.0")),
    (plainText "id", .number (plainText "1")),
    (plainText "result", .boolean true)]
  gap := []
  isDocument :=
    ⟨rfl, ⟨_, .inl rfl⟩,
      ⟨plainText "\x7b\"jsonrpc\":\"2.0\",\"id\":1,\"result\":true",
        .inl rfl⟩⟩
  edges :=
    .inl ⟨plainText "\"jsonrpc\":\"2.0\",\"id\":1,\"result\":true", rfl⟩
  gap_cases := Document.no_gap

theorem named_trueResult : trueResult.Named :=
  ⟨plainText "\x7b", [], unit 'j',
    plainText "sonrpc\":\"2.0\",\"id\":1,\"result\":true\x7d", rfl, .inl rfl,
    List.forall_mem_nil _, .inl (by decide)⟩

/-- A provider whose parser has received nothing. -/
def newReceiver : Receiver where
  provider := Provider.initial
  parser := { autoReconnect := true }

/-- What the strings and the number of the message stand for. -/
def plainReading : Reading where
  number _ := 1
  string content :=
    if content = plainText "2.0" then "2.0"
    else if content = plainText "jsonrpc" then "jsonrpc"
    else if content = plainText "id" then "id"
    else "result"

/-- Half a message, and then a new connection. -/
def lostHalfway : List ReceiverAction :=
  [.data (plainText "\x7b\"jsonrpc\":\"2.0\",\"id\":1,\"res"),
    .other (.webSocketClosed 1006 false), .other (.reconnectTimer none)]

theorem recovers_iff_lostHalfway :
    Recovers Provider.defaultConfig plainReading true newReceiver lostHalfway
        [.data trueResult.text] [trueResult] ↔
      [trueResult] = [] := by
  have isPart : trueResult.text =
      plainText "\x7b\"jsonrpc\":\"2.0\",\"id\":1,\"res" ++
        plainText "ult\":true\x7d" := rfl
  have messages : ∀ document ∈ [trueResult], document.Named := by
    intro document member
    rw [List.mem_singleton.mp member]
    exact named_trueResult
  exact recovers_iff Provider.defaultConfig plainReading true rfl isPart
    (by decide) (by decide) rfl messages rfl (by decide)

theorem not_recovers_lostHalfway :
    ¬ Recovers Provider.defaultConfig plainReading true newReceiver
      lostHalfway [.data trueResult.text] [trueResult] := by
  have nothing : returned Provider.defaultConfig plainReading true
      (Web3Js.run (step Provider.defaultConfig plainReading true) newReceiver
        lostHalfway) [.data trueResult.text] = some [] := rfl
  intro recovers
  rw [Recovers, nothing] at recovers
  cases recovers

end Receiver

end Web3Js.Socket
