import Web3Js.Socket.Pending

/-!
# Documents in a stream

Within a document the parser may cut, but what lies between its cuts is put
together again, except for the separators.  After a document it has to cut
before the next one begins.
-/

namespace Web3Js.Socket

open JsonText

/-! ## Within a document -/

def Context.pass (context : Context) : Option CodeUnit → Context
  | none => .plain
  | some read => context.next read

/-- The context after a text; a cut in it makes no difference. -/
def Context.after (context : Context) (front : Marked) : Context :=
  front.foldl Context.pass context

/-- The text without marks and separators. -/
def strip : Marked → Text
  | [] => []
  | none :: rest => strip rest
  | some read :: rest =>
      if separator.map some <+: some read :: rest then strip (rest.drop 3)
      else read :: strip rest
  termination_by marked => marked.length
  decreasing_by
    all_goals
      simp only [List.length_cons, List.length_drop]
      omega

theorem strip_nil : strip [] = [] := by
  rw [strip]

theorem strip_mark (rest : Marked) : strip (none :: rest) = strip rest := by
  rw [strip]

theorem strip_unit {read : CodeUnit} {rest : Marked}
    (apart : ¬ separator.map some <+: some read :: rest) :
    strip (some read :: rest) = read :: strip rest := by
  rw [strip, if_neg apart]

theorem strip_separator (rest : Marked) :
    strip (separator.map some ++ rest) = strip rest := by
  change strip (some (unit '|') :: some (unit '-') :: some (unit '-') ::
    some (unit '|') :: rest) = _
  rw [strip, if_pos]
  · rfl
  · exact ⟨rest, rfl⟩

/-- `more` is what is kept of a part of a document, when `events` is what the
parser makes of it. -/
structure Passes (limit : Nat) (state : State) (front events : Marked)
    (more : Text) : Prop where
  variant : Variant front.reduceOption more
  stripped : more = strip front
  whole : ¬ separator.map some <:+: front → more = front.reduceOption
  shorter : separator.map some <:+: front →
    more.length < front.reduceOption.length
  fed : ∀ pending other, JsonText.run initial pending = some other →
    other.outline = state.outline → (pending ++ more).length ≤ limit →
    feed limit pending events = some ⟨[], pending ++ more⟩

section Passing

variable {limit : Nat} {state next : State} {front events : Marked}
  {more pending : Text} {read : CodeUnit}

theorem stack_of_outline {other : State}
    (same : other.outline = state.outline) (inside : state.stack ≠ []) :
    other.stack ≠ [] := by
  intro nothing
  have outlines : other.stack.map Frame.outline =
      state.stack.map Frame.outline := congrArg State.stack same
  rw [nothing, List.map_nil] at outlines
  exact inside (List.map_eq_nil_iff.mp outlines.symm)

/-- A mark within a document changes nothing. -/
theorem feed_mark_inside {other : State}
    (ran : JsonText.run initial pending = some other)
    (inside : other.stack ≠ [])
    (fits : pending.length ≤ limit) (stream : Marked) :
    feed limit pending (none :: stream) = feed limit pending stream := by
  apply feed_mark_kept fits
  rw [parse, ran]
  exact result?_of_inside inside

theorem Passes.nil (limit : Nat) (state : State) :
    Passes limit state [] [] [] where
  variant := .nil
  stripped := strip_nil.symm
  whole _ := rfl
  shorter within := by
    have short := within.length_le
    exact absurd short (by decide)
  fed pending other ran same fits := by
    rw [feed_nil, List.append_nil]

/-- The parser cuts within a document. -/
theorem Passes.cut (inside : state.stack ≠ [])
    (passes : Passes limit state front events more) :
    Passes limit state front (none :: events) more where
  variant := passes.variant
  stripped := passes.stripped
  whole := passes.whole
  shorter := passes.shorter
  fed pending other ran same fits := by
    rw [feed_mark_inside ran (stack_of_outline same inside),
      passes.fed pending other ran same fits]
    rw [List.length_append] at fits
    omega

theorem infix_mark_iff :
    separator.map some <:+: none :: front ↔ separator.map some <:+: front := by
  rw [List.infix_cons_iff]
  constructor
  · rintro (starts | within)
    · obtain ⟨rest, same⟩ := starts
      cases (List.cons.inj same).1
    · exact within
  · exact .inr

/-- A chunk ends within a document. -/
theorem Passes.mark (inside : state.stack ≠ [])
    (passes : Passes limit state front events more) :
    Passes limit state (none :: front) (none :: events) more where
  variant := by
    rw [List.reduceOption_cons_of_none]
    exact passes.variant
  stripped := by
    rw [strip_mark]
    exact passes.stripped
  whole apart := by
    rw [List.reduceOption_cons_of_none]
    exact passes.whole fun within => apart (infix_mark_iff.mpr within)
  shorter within := by
    rw [List.reduceOption_cons_of_none]
    exact passes.shorter (infix_mark_iff.mp within)
  fed := (passes.cut inside).fed

theorem Passes.unit (stepped : step state read = some next)
    (apart : ¬ separator.map some <+: some read :: front)
    (passes : Passes limit next front events more) :
    Passes limit state (some read :: front) (some read :: events)
      (read :: more) where
  variant := by
    rw [List.reduceOption_cons_of_some]
    exact .keep read passes.variant
  stripped := by
    rw [strip_unit apart, ← passes.stripped]
  whole notWithin := by
    rw [List.reduceOption_cons_of_some, passes.whole]
    exact fun within => notWithin (List.infix_cons_iff.mpr (.inr within))
  shorter within := by
    rw [List.reduceOption_cons_of_some]
    rcases List.infix_cons_iff.mp within with starts | later
    · exact absurd starts apart
    · exact Nat.succ_lt_succ (passes.shorter later)
  fed pending other ran same fits := by
    obtain ⟨after, steppedToo, outline⟩ := step_of_outline same stepped
    have longer : JsonText.run initial (pending ++ [read]) = some after := by
      rw [run_append, ran, Option.bind_some, run_cons, steppedToo]
      rfl
    have fed := passes.fed (pending ++ [read]) after longer outline
    rw [List.append_assoc, List.singleton_append] at fed
    exact fed fits

theorem stringOnly_bar : StringOnly (unit '|') where
  notControl := by decide
  notQuote := by decide
  notBackslash := by decide
  notSpace := by decide
  notHex := by decide
  notEscaped := by decide
  notSign := by decide
  notSyntax := by decide

theorem plain_separator : ∀ read ∈ separator, Plain read := by
  have plain : ∀ read ∈ separator,
      ¬ read < 32 ∧ read ≠ JsonText.unit '"' ∧ read ≠ JsonText.unit '\\' := by
    decide
  exact fun read member =>
    ⟨(plain read member).1, (plain read member).2.1, (plain read member).2.2⟩

/-- A separator is in a string. -/
theorem run_separator (ran : JsonText.run state separator = some next) :
    next.outline = state.outline ∧ next.stack = state.stack := by
  change JsonText.run state (JsonText.unit '|' :: _) = _ at ran
  rw [run_cons] at ran
  obtain ⟨middle, stepped, -⟩ := Option.bind_eq_some_iff.mp ran
  obtain ⟨stack, isName, content, rfl⟩ := stringOnly_bar.mode stepped
  have whole := run_plain plain_separator stack isName content
  change JsonText.run _ (JsonText.unit '|' :: _) = _ at whole
  rw [run_cons, ran] at whole
  cases whole
  exact ⟨rfl, rfl⟩

theorem reduceOption_map_some (text : Text) :
    (text.map some).reduceOption = text := by
  induction text with
  | nil => rfl
  | cons read text induction =>
      rw [List.map_cons, List.reduceOption_cons_of_some, induction]

/-- A separator within a document is lost. -/
theorem Passes.lost (inside : state.stack ≠ [])
    (ran : JsonText.run state separator = some next)
    (passes : Passes limit next front events more) :
    Passes limit state (separator.map some ++ front) (none :: events)
      more := by
  obtain ⟨outline, -⟩ := run_separator ran
  have shorter : more.length ≤ front.reduceOption.length := by
    by_cases within : separator.map some <:+: front
    · exact Nat.le_of_lt (passes.shorter within)
    · exact Nat.le_of_eq (congrArg List.length (passes.whole within))
  constructor
  · rw [List.reduceOption_append, reduceOption_map_some]
    change Variant
      (JsonText.unit '|' :: plainText "--|" ++ front.reduceOption) ([] ++ more)
    apply Variant.exchange stringOnly_bar _ _ passes.variant
    · exact fun read member =>
        plain_separator read (List.mem_cons_of_mem _ member)
    · exact fun read member => nomatch member
  · rw [strip_separator]
    exact passes.stripped
  · intro apart
    exact absurd (List.prefix_append _ front).isInfix apart
  · intro _
    rw [List.reduceOption_append, reduceOption_map_some, List.length_append]
    exact Nat.lt_of_le_of_lt shorter (Nat.lt_add_of_pos_left (by decide))
  · intro pending other ranToo same fits
    rw [feed_mark_inside ranToo (stack_of_outline same inside),
      passes.fed pending other ranToo (same.trans outline.symm) fits]
    rw [List.length_append] at fits
    omega

theorem prefix_of_not_mem {short front tail : Marked}
    {entry : Option CodeUnit} (starts : short <+: front ++ entry :: tail)
    (absent : entry ∉ short) : short <+: front := by
  rcases List.prefix_or_prefix_of_prefix starts
    (List.prefix_append front (entry :: tail)) with within | ⟨beyond, rfl⟩
  · exact within
  · rw [List.prefix_append_right_inj] at starts
    cases beyond with
    | nil =>
        simp only [List.append_nil, List.prefix_rfl]
    | cons first beyond =>
        rw [List.cons_prefix_cons] at starts
        rw [starts.1] at absent
        exact absurd (List.mem_append_right front List.mem_cons_self) absent

end Passing

section Cutting

variable {limit : Nat} {last : CodeUnit}

def IsClosing (read : CodeUnit) : Prop := read = unit '}' ∨ read = unit ']'

theorem IsClosing.notSeparating (closing : IsClosing last) :
    some last ∉ separator.map some := by
  rcases closing with rfl | rfl <;> decide

theorem after_separator (context : Context) (front : Marked) :
    context.after (separator.map some ++ front) =
      Context.plain.after front := by
  rw [Context.after, List.foldl_append]
  cases context <;> rfl

theorem isLineBreak_control {read : CodeUnit}
    (isBreak : isLineBreak read = true) : read < 32 := by
  rw [isLineBreak, Bool.or_eq_true, beq_iff_eq, beq_iff_eq] at isBreak
  rcases isBreak with rfl | rfl <;> decide

/-- A line break behind a closing bracket is not followed by the beginning of
a document. -/
theorem not_opens_after_break {state next final : State} {read : CodeUnit}
    {front tail : Marked} (settled : Settled state)
    (isBreak : isLineBreak read = true)
    (stepped : step state read = some next)
    (ran : JsonText.run next front.reduceOption = some final)
    (closing : IsClosing last) :
    opens (front ++ some last :: tail) = false := by
  obtain ⟨rfl, ended⟩ :=
    settled.step_control (isLineBreak_control isBreak) stepped
  rw [← Bool.not_eq_true]
  intro opening
  match front with
  | [] =>
      rcases first_of_opens opening with rfl | ⟨rfl, -⟩
      · rcases closing with same | same <;> exact absurd same (by decide)
      · rcases closing with same | same <;> exact absurd same (by decide)
  | none :: front => cases opening
  | some first :: front =>
      have bracket := (first_of_opens opening).imp_right And.left
      rw [List.reduceOption_cons_of_some, run_cons] at ran
      obtain ⟨stack, mode⟩ := next
      change mode = .ended at ended
      rw [ended, step_ended_opening bracket] at ran
      cases ran

/-- Within a document the parser goes on as if nothing had been cut. -/
theorem cuts_inside (limit : Nat) (closing : IsClosing last)
    (front tail : Marked) {context : Context} {state final : State}
    (inside : state.stack ≠ []) (settled : context ≠ .plain → Settled state)
    (ran : JsonText.run state front.reduceOption = some final)
    (stillInside : final.stack ≠ []) :
    ∃ events more, Passes limit state front events more ∧
      cuts context (front ++ some last :: tail) =
        events ++ cuts (context.after front) (some last :: tail) := by
  induction size : front.length using Nat.strongRecOn
    generalizing front context state with
  | ind size induction =>
  subst size
  match front with
  | [] => exact ⟨[], [], .nil limit state, rfl⟩
  | none :: front =>
      rw [List.reduceOption_cons_of_none] at ran
      obtain ⟨events, more, passes, same⟩ := induction front.length
        (Nat.lt_succ_self _) front inside (fun closed => absurd rfl closed)
        ran rfl
      refine ⟨none :: events, more, passes.mark inside, ?_⟩
      rw [List.cons_append, cuts_mark, same]
      rfl
  | some read :: front =>
      by_cases separates : separator.map some <+:
          some read :: (front ++ some last :: tail)
      · rw [← List.cons_append] at separates
        obtain ⟨rest, whole⟩ := prefix_of_not_mem separates
          closing.notSeparating
        rw [← whole, List.reduceOption_append, reduceOption_map_some,
          run_append] at ran
        obtain ⟨next, ranFirst, ranRest⟩ := Option.bind_eq_some_iff.mp ran
        obtain ⟨-, sameStack⟩ := run_separator ranFirst
        have shorter : rest.length < (some read :: front).length := by
          rw [← whole, List.length_append]
          exact Nat.lt_add_of_pos_left (by decide)
        obtain ⟨events, more, passes, same⟩ := induction rest.length shorter
          rest (by rwa [sameStack]) (fun closed => absurd rfl closed)
          ranRest rfl
        refine ⟨none :: events, more, ?_, ?_⟩
        · rw [← whole]
          exact passes.lost inside ranFirst
        · rw [← whole, List.append_assoc, cuts_separator, same,
            after_separator]
          rfl
      · have apart : ¬ separator.map some <+: some read :: front := by
          intro starts
          exact separates (starts.trans (List.prefix_append _ _))
        rw [List.reduceOption_cons_of_some, run_cons] at ran
        obtain ⟨next, stepped, rest⟩ := Option.bind_eq_some_iff.mp ran
        have nextInside :=
          inside_of_run (nested_step (.inl inside) stepped) rest stillInside
        have notBroken : context ≠ .plain → isLineBreak read = true →
            opens (front ++ some last :: tail) = false :=
          fun closed isBreak =>
            not_opens_after_break (settled closed) isBreak stepped rest closing
        cases opening : opens (some read :: (front ++ some last :: tail)) with
        | true =>
          obtain ⟨events, more, passes, same⟩ := induction front.length
            (Nat.lt_succ_self _) front nextInside
            (fun closed => absurd rfl closed) rest rfl
          have bracket := (first_of_opens opening).imp_right And.left
          have after : ∀ before : Context, before.next read = .plain := by
            intro before
            rcases bracket with rfl | rfl <;> cases before <;> rfl
          by_cases closed : context = .plain
          · refine ⟨some read :: events, read :: more,
              passes.unit stepped apart, ?_⟩
            rw [List.cons_append, closed, cuts_plain separates, after, same,
              Context.after, Context.after, List.foldl_cons, Context.pass,
              after]
            rfl
          · refine ⟨none :: some read :: events, read :: more,
              (passes.unit stepped apart).cut inside, ?_⟩
            rw [List.cons_append, cuts_open closed opening,
              cuts_plain separates, after, same, Context.after, Context.after,
              List.foldl_cons, Context.pass, after]
            rfl
        | false =>
          have settledNext : context.next read ≠ .plain → Settled next := by
            intro closed
            apply settled_of_closing _ stepped nextInside
            unfold Context.next at closed
            split at closed
            · rename_i brace
              exact .inl brace
            · split at closed
              · rename_i bracket
                exact .inr bracket.1
              · exact absurd rfl closed
          obtain ⟨events, more, passes, same⟩ := induction front.length
            (Nat.lt_succ_self _) front nextInside settledNext rest rfl
          refine ⟨some read :: events, read :: more,
              passes.unit stepped apart, ?_⟩
          rw [List.cons_append, cuts_keep notBroken (fun _ => opening)
            separates, same]
          rfl

theorem cuts_closing (closing : IsClosing last) (context : Context)
    (tail : Marked) :
    cuts context (some last :: tail) =
      some last :: cuts (context.next last) tail := by
  apply cuts_keep
  · intro _ isBreak
    rcases closing with rfl | rfl <;> cases isBreak
  · intro _
    rcases closing with rfl | rfl <;> rfl
  · apply not_separator_of_ne
    rcases closing with rfl | rfl <;> decide

end Cutting

/-! ## From one document to the next -/

/-- An object, or an array that begins and ends with one, as it is written to
the stream.  Compact texts are of this kind. -/
structure Document where
  text : Text
  tree : Tree
  /-- What stands behind it. -/
  gap : Text
  isDocument : IsDocument text tree
  edges : (∃ inner, text = unit '{' :: (inner ++ [unit '}'])) ∨
    ∃ inner, text = unit '[' :: unit '{' :: (inner ++ [unit '}', unit ']'])
  gap_cases : gap = [] ∨
    ∃ lineBreak, isLineBreak lineBreak = true ∧ gap = [lineBreak]

def IsOpening (read : CodeUnit) : Prop := read = unit '{' ∨ read = unit '['

theorem Document.no_gap : ([] : Text) = [] ∨
    ∃ lineBreak, isLineBreak lineBreak = true ∧ [] = [lineBreak] :=
  .inl rfl

/-- The brackets around a text. -/
structure Enclosed (text : Text) (first : CodeUnit) (inner : Text)
    (last : CodeUnit) : Prop where
  text : text = first :: (inner ++ [last])
  opening : IsOpening first
  closing : IsClosing last

/-- The brackets around a document and those next to them. -/
structure Document.Brackets (document : Document) (first : CodeUnit)
    (inner : Text) (last : CodeUnit) : Prop
    extends Enclosed document.text first inner last where
  second : first = unit '[' → inner.head? = some (unit '{')
  before : last = unit ']' → inner.getLast? = some (unit '}')

theorem Document.brackets (document : Document) :
    ∃ first inner last, document.Brackets first inner last := by
  rcases document.edges with ⟨inner, same⟩ | ⟨inner, same⟩
  · refine ⟨unit '{', inner, unit '}', ⟨same, .inl rfl, .inl rfl⟩, ?_, ?_⟩
    · exact fun other => absurd other (by decide)
    · exact fun other => absurd other (by decide)
  · refine ⟨unit '[', unit '{' :: (inner ++ [unit '}']), unit ']',
      ⟨?_, .inr rfl, .inr rfl⟩, fun _ => rfl, fun _ => ?_⟩
    · rw [same, List.cons_append, List.append_assoc]
      rfl
    · rw [← List.cons_append, List.getLast?_concat]

theorem Document.blank_gap (document : Document) :
    ∀ read ∈ document.gap, isSpace read = true := by
  rcases document.gap_cases with none | ⟨lineBreak, isBreak, one⟩
  · rw [none]
    exact fun read member => nomatch member
  · rw [one]
    intro read member
    rw [List.mem_singleton.mp member]
    rw [isLineBreak, Bool.or_eq_true, beq_iff_eq, beq_iff_eq] at isBreak
    rcases isBreak with rfl | rfl <;> rfl

section Reading

variable {limit : Nat} {document : Document} {first last : CodeUnit}
  {inner : Text}

theorem step_opening (opening : IsOpening first) :
    ∃ state, step initial first = some state ∧ state.stack ≠ [] := by
  rcases opening with rfl | rfl
  · exact ⟨_, rfl, List.cons_ne_nil _ _⟩
  · exact ⟨_, rfl, List.cons_ne_nil _ _⟩

/-- The context behind a document, after a mark before its last bracket or
without one. -/
theorem context_of_closing (closing : IsClosing last)
    (before : last = unit ']' → inner.getLast? = some (unit '}'))
    (front : Marked) (content : front.reduceOption = inner)
    (context : Context) :
    (context.after front).next last = .plain ↔
      last = unit ']' ∧ front.getLast? = some none := by
  rcases closing with rfl | rfl
  · constructor
    · intro plain
      cases plain
    · rintro ⟨other, -⟩
      exact absurd other (by decide)
  · rcases List.eq_nil_or_concat' front with rfl | ⟨front, entry, rfl⟩
    · subst content
      exact absurd (before rfl) (by decide)
    · rw [List.getLast?_concat, Context.after, List.foldl_append,
        List.foldl_cons, List.foldl_nil]
      cases entry with
      | none => exact ⟨fun _ => ⟨rfl, rfl⟩, fun _ => rfl⟩
      | some read =>
          rw [List.reduceOption_append] at content
          change _ ++ [read] = _ at content
          rw [← content, List.getLast?_concat] at before
          cases before rfl
          constructor
          · intro plain
            cases plain
          · rintro ⟨-, marked⟩
            cases marked

/-- What comes of reading the units of a document. -/
structure Reads (limit : Nat) (tree : Tree) (front : Marked)
    (spaces : Text) (events : Marked) (more : Text) (found : Tree) :
    Prop where
  fed : more.length ≤ limit → feed limit spaces events = some ⟨[], more⟩
  run : JsonText.run initial more = some ⟨[], .done found⟩
  composite : found.IsComposite
  same : found = tree ↔ ¬ separator.map some <:+: front

section Within

variable {text : Text} {tree : Tree}

/-- The states behind the first bracket and before the last one. -/
theorem states_of_document (isDocument : IsDocument text tree)
    (enclosed : Enclosed text first inner last) :
    ∃ state final, step initial first = some state ∧ state.stack ≠ [] ∧
      JsonText.run state inner = some final ∧ final.stack ≠ [] ∧
      step final last = some ⟨[], .done tree⟩ := by
  obtain ⟨state, opened, inside⟩ := step_opening enclosed.opening
  have whole := isDocument.run
  rw [enclosed.text, run_cons, opened, Option.bind_some, run_append] at whole
  obtain ⟨final, ranInner, closed⟩ := Option.bind_eq_some_iff.mp whole
  rw [run_cons] at closed
  obtain ⟨closedState, steppedLast, isDone⟩ :=
    Option.bind_eq_some_iff.mp closed
  cases isDone
  have notSpace : isSpace last = false := by
    rcases enclosed.closing with rfl | rfl <;> rfl
  refine ⟨state, final, opened, inside, ranInner, ?_, steppedLast⟩
  rcases nested_run (.inl inside) ranInner with still | ⟨tree, -, rfl⟩
  · exact still
  · obtain ⟨space, -⟩ := step_done steppedLast
    rw [notSpace] at space
    cases space

theorem cuts_opening (opening : IsOpening first) (rest : Marked) :
    cuts .plain (some first :: rest) = some first :: cuts .plain rest := by
  rcases opening with rfl | rfl <;>
    exact cuts_plain (not_separator_of_ne (by decide))

theorem run_first {state : State} {spaces : Text}
    (blank : ∀ read ∈ spaces, isSpace read = true)
    (opened : step initial first = some state) :
    JsonText.run initial (spaces ++ [first]) = some state := by
  rw [run_append, run_initial_spaces blank, Option.bind_some, run_cons,
    opened]
  rfl

theorem cuts_document (limit : Nat) (isDocument : IsDocument text tree)
    (enclosed : Enclosed text first inner last)
    (front tail : Marked) (content : front.reduceOption = inner)
    {spaces : Text} (blank : ∀ read ∈ spaces, isSpace read = true) :
    ∃ events found, Reads limit tree front spaces events
        (spaces ++ first :: (strip front ++ [last])) found ∧
      (strip front).length ≤ inner.length ∧
      cuts .plain (some first :: (front ++ some last :: tail)) =
        events ++ cuts ((Context.plain.after front).next last) tail := by
  obtain ⟨state, final, opened, inside, ran, stillInside, -⟩ :=
    states_of_document isDocument enclosed
  rw [← content] at ran
  obtain ⟨events, more, passes, same⟩ := cuts_inside limit enclosed.closing
    front tail inside (fun closed : Context.plain ≠ .plain =>
      absurd rfl closed) ran stillInside
  have variant : Variant text (first :: (more ++ [last])) := by
    rw [enclosed.text]
    apply Variant.keep
    rw [← content]
    exact passes.variant.append (.refl [last])
  obtain ⟨found, ranMore, weights⟩ := variant.whole isDocument.run
  have shorter : more.length ≤ inner.length := by
    rw [← content]
    by_cases within : separator.map some <:+: front
    · exact Nat.le_of_lt (passes.shorter within)
    · exact Nat.le_of_eq (congrArg List.length (passes.whole within))
  rw [← passes.stripped]
  refine ⟨some first :: (events ++ [some last]), found, ⟨?_, ?_, ?_, ?_⟩,
    shorter, ?_⟩
  · intro fits
    have inner := passes.fed (spaces ++ [first]) state
      (run_first blank opened) rfl (by
        refine Nat.le_trans ?_ fits
        simp only [List.length_append, List.length_cons, List.length_nil]
        omega)
    rw [feed, feed_after inner, feed, feed_nil]
    simp [Fed.andThen]
  · rw [run_append, run_initial_spaces blank]
    exact ranMore
  · rw [run_cons, opened] at ranMore
    rcases nested_run (.inl inside) ranMore with still | ⟨found, is, whole⟩
    · exact absurd rfl still
    · cases whole
      exact is
  · constructor
    · rintro rfl within
      have balance := weights fun _ => 1
      have less := passes.shorter within
      rw [textWeight_one, textWeight_one, enclosed.text] at balance
      simp only [List.length_append, List.length_cons, List.length_nil]
        at balance
      rw [content] at less
      omega
    · intro apart
      rw [passes.whole apart, content, ← enclosed.text,
        isDocument.run] at ranMore
      cases ranMore
      rfl
  · rw [cuts_opening enclosed.opening, same, cuts_closing enclosed.closing,
      List.cons_append, List.append_assoc]
    rfl

end Within

end Reading

section Between

variable {limit : Nat} {context : Context} {gap : Marked} {pending : Text}
  {tree : Tree} {opening : CodeUnit}

theorem isTruthy_composite (composite : tree.IsComposite) :
    isTruthy tree = true := by
  cases tree with
  | array | object => rfl
  | null | boolean | number | string => exact absurd composite id

theorem split_at_mark {marked : Marked} (isMarked : none ∈ marked) :
    ∃ (text : Text) (rest : Marked),
      marked = text.map some ++ none :: rest := by
  induction marked with
  | nil => cases isMarked
  | cons entry marked induction =>
      cases entry with
      | none => exact ⟨[], marked, rfl⟩
      | some read =>
          rcases List.mem_cons.mp isMarked with other | later
          · cases other
          · obtain ⟨text, rest, rfl⟩ := induction later
            exact ⟨read :: text, rest, rfl⟩

theorem eq_units_of_unmarked {marked : Marked} (unmarked : none ∉ marked) :
    marked = marked.reduceOption.map some := by
  induction marked with
  | nil => rfl
  | cons entry marked induction =>
      cases entry with
      | none => exact absurd List.mem_cons_self unmarked
      | some read =>
          rw [List.reduceOption_cons_of_some, List.map_cons, ← induction]
          exact fun later => unmarked (List.mem_cons_of_mem _ later)

theorem not_opens_space {read : CodeUnit} (space : isSpace read = true)
    (rest : Marked) : opens (some read :: rest) = false := by
  rw [← Bool.not_eq_true]
  intro opened
  rcases first_of_opens opened with rfl | ⟨rfl, -⟩ <;> cases space

theorem cuts_space {read : CodeUnit} (space : isSpace read = true)
    {rest : Marked} (notBroken : context ≠ .plain →
      isLineBreak read = true → opens rest = false) :
    cuts context (some read :: rest) = some read :: cuts .plain rest := by
  have next : context.next read = .plain := by
    have brace : read ≠ unit '}' := by
      rintro rfl
      cases space
    have bracket : read ≠ unit ']' := by
      rintro rfl
      cases space
    rw [Context.next, if_neg brace, if_neg fun both => bracket both.1]
  rw [cuts_keep notBroken (fun _ => not_opens_space space rest), next]
  apply not_separator_of_ne
  rintro rfl
  cases space

theorem cuts_blank (blank : ∀ read ∈ gap.reduceOption, isSpace read = true)
    (rest : Marked) :
    cuts .plain (gap ++ rest) = gap ++ cuts .plain rest := by
  induction gap with
  | nil => rfl
  | cons entry gap induction =>
      cases entry with
      | none =>
          rw [List.reduceOption_cons_of_none] at blank
          rw [List.cons_append, cuts_mark, induction blank]
          rfl
      | some read =>
          rw [List.reduceOption_cons_of_some] at blank
          rw [List.cons_append, cuts_space (blank read List.mem_cons_self)
            (fun closed => absurd rfl closed),
            induction fun unit member =>
              blank unit (List.mem_cons_of_mem _ member)]
          rfl

theorem cuts_blank_mark {text : Text}
    (blank : ∀ read ∈ text, isSpace read = true) (rest : Marked) :
    cuts context (text.map some ++ none :: rest) =
      text.map some ++ none :: cuts .plain rest := by
  cases text with
  | nil => exact cuts_mark context rest
  | cons read text =>
      have first := blank read List.mem_cons_self
      have later : ∀ unit ∈ text, isSpace unit = true := fun unit member =>
        blank unit (List.mem_cons_of_mem _ member)
      have notOpened : opens (text.map some ++ none :: rest) = false := by
        cases text with
        | nil => rfl
        | cons second text =>
            exact not_opens_space (later second List.mem_cons_self) _
      rw [List.map_cons, List.cons_append,
        cuts_space first fun _ _ => notOpened, cuts_blank, cuts_mark]
      · rfl
      · rwa [reduceOption_map_some]

theorem parse_done
    (run : JsonText.run initial pending = some ⟨[], .done tree⟩) :
    parse pending = some tree := by
  rw [parse, run]
  rfl

theorem run_before_spaces
    (run : JsonText.run initial pending = some ⟨[], .done tree⟩) {text : Text}
    (blank : ∀ read ∈ text, isSpace read = true) :
    JsonText.run initial (pending ++ text) = some ⟨[], .done tree⟩ := by
  rw [run_append, run]
  exact run_done_spaces tree blank

/-- A chunk ends between two documents. -/
theorem cuts_marked_gap (isMarked : none ∈ gap)
    (blank : ∀ read ∈ gap.reduceOption, isSpace read = true)
    (run : JsonText.run initial pending = some ⟨[], .done tree⟩)
    (composite : tree.IsComposite)
    (fits : (pending ++ gap.reduceOption).length ≤ limit) (rest : Marked) :
    ∃ events spaces, cuts context (gap ++ rest) =
        events ++ cuts .plain rest ∧
      feed limit pending events = some ⟨[tree], spaces⟩ ∧
      (∀ read ∈ spaces, isSpace read = true) ∧
      spaces.length ≤ gap.reduceOption.length := by
  obtain ⟨text, later, rfl⟩ := split_at_mark isMarked
  rw [List.reduceOption_append, reduceOption_map_some,
    List.reduceOption_cons_of_none] at blank fits ⊢
  have blankText : ∀ read ∈ text, isSpace read = true := fun read member =>
    blank read (List.mem_append_left _ member)
  have blankLater : ∀ read ∈ later.reduceOption, isSpace read = true :=
    fun read member => blank read (List.mem_append_right _ member)
  simp only [List.length_append] at fits
  refine ⟨text.map some ++ none :: later, later.reduceOption, ?_, ?_,
    blankLater, ?_⟩
  · rw [List.append_assoc, List.cons_append, cuts_blank_mark blankText,
      cuts_blank blankLater, List.append_assoc]
    rfl
  · have parsed := parse_done (run_before_spaces run blankText)
    have short : (pending ++ text).length ≤ limit := by
      rw [List.length_append]
      omega
    rw [feed_units, feed_mark, endPiece_parsed short parsed
      (isTruthy_composite composite), Option.bind_some]
    dsimp only
    rw [feed_spaces (List.forall_mem_nil _) blankLater]
    · rfl
    · rw [List.length_nil]
      omega
  · rw [List.length_append]
    omega

/-- The next document begins in the same chunk, and the parser sees it. -/
theorem cuts_seen_gap (document : Document) {rest : Marked}
    (closed : context ≠ .plain)
    (opened : opens (some opening :: rest) = true) :
    cuts context (document.gap.map some ++ some opening :: rest) =
      none :: cuts .plain (some opening :: rest) := by
  rcases document.gap_cases with none | ⟨lineBreak, isBreak, one⟩
  · rw [none]
    exact cuts_open closed opened
  · rw [one]
    exact cuts_break closed isBreak opened

theorem feed_document
    (run : JsonText.run initial pending = some ⟨[], .done tree⟩)
    (composite : tree.IsComposite) (fits : pending.length ≤ limit) :
    feed limit pending [none] = some ⟨[tree], []⟩ := by
  rw [feed_mark, endPiece_parsed fits (parse_done run)
    (isTruthy_composite composite)]
  rfl

/-- The next document begins in the same chunk and is not seen. -/
theorem cuts_unseen_gap (document : Document) {rest : Marked}
    (bracket : IsOpening opening)
    (unseen : context = .plain ∨ opens (some opening :: rest) = false) :
    cuts context (document.gap.map some ++ some opening :: rest) =
      document.gap.map some ++ some opening :: cuts .plain rest := by
  have kept : ∀ before : Context,
      (before ≠ .plain → opens (some opening :: rest) = false) →
      cuts before (some opening :: rest) =
        some opening :: cuts .plain rest := by
    intro before notOpened
    have next : before.next opening = .plain := by
      rcases bracket with rfl | rfl <;> cases before <;> rfl
    rw [cuts_keep _ notOpened, next]
    · apply not_separator_of_ne
      rcases bracket with rfl | rfl <;> decide
    · intro _ isBreak
      rcases bracket with rfl | rfl <;> cases isBreak
  have notOpened : context ≠ .plain →
      opens (some opening :: rest) = false := fun closed =>
    unseen.resolve_left closed
  rcases document.gap_cases with none | ⟨lineBreak, isBreak, one⟩
  · rw [none]
    exact kept context notOpened
  · have blank := document.blank_gap lineBreak (by
      rw [one]
      exact List.mem_cons_self)
    rw [one]
    change cuts context (some lineBreak :: some opening :: rest) =
      some lineBreak :: some opening :: cuts .plain rest
    rw [cuts_space blank fun closed _ => notOpened closed,
      kept .plain fun closed => absurd rfl closed]

theorem run_merged (run : JsonText.run initial pending = some ⟨[], .done tree⟩)
    {text : Text} (blank : ∀ read ∈ text, isSpace read = true)
    (bracket : IsOpening opening) :
    JsonText.run initial (pending ++ text ++ [opening]) = none := by
  rw [run_append, run_before_spaces run blank, Option.bind_some, run_cons]
  rcases bracket with rfl | rfl <;> rfl

/-- Cutting adds nothing. -/
theorem length_cuts (context : Context) (marked : Marked) :
    (cuts context marked).reduceOption.length ≤
      marked.reduceOption.length := by
  induction context, marked using cuts.induct with
  | case1 context =>
      simp only [cuts_nil, Nat.le_refl]
  | case2 context rest induction =>
      rw [cuts_mark]
      exact induction
  | case3 context read rest broken induction =>
      rw [cuts, if_pos broken, List.reduceOption_cons_of_none,
        List.reduceOption_cons_of_some]
      exact Nat.le_succ_of_le induction
  | case4 context read rest notBroken opened induction =>
      rw [cuts, if_neg notBroken, if_pos opened,
        List.reduceOption_cons_of_none, List.reduceOption_cons_of_some,
        List.reduceOption_cons_of_some]
      exact Nat.succ_le_succ induction
  | case5 context read rest notBroken notOpened separates induction =>
      rw [cuts, if_neg notBroken, if_neg notOpened, if_pos separates,
        List.reduceOption_cons_of_none, List.reduceOption_cons_of_some]
      have dropped := (List.drop_sublist 3 rest).filterMap id
      have fewer := dropped.length_le
      exact Nat.le_succ_of_le (Nat.le_trans induction fewer)
  | case6 context read rest notBroken notOpened kept induction =>
      rw [cuts, if_neg notBroken, if_neg notOpened, if_neg kept,
        List.reduceOption_cons_of_some, List.reduceOption_cons_of_some]
      exact Nat.succ_le_succ induction

end Between


end Web3Js.Socket
