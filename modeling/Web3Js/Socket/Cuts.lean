import Web3Js.Socket.ChunkParser

/-!
# Where the chunk parser cuts

The four replacements and the split come to one pass from left to right that
looks only at what follows a closing bracket.  Texts are marked where they are
cut, so that the ends of the chunks and the cuts of the parser are treated
alike.
-/

namespace Web3Js.Socket

open JsonText

/-! ## One replacement -/

/-- What a replacement looks for after a closing brace. -/
structure Pattern where
  closing : Text
  opening : Text

namespace Pattern

/-- The text after the brace, where the pattern matches. -/
def Matches (pattern : Pattern) (text rest : Text) : Prop :=
  text = pattern.closing ++ (pattern.opening ++ rest) ∨
    ∃ lineBreak, isLineBreak lineBreak = true ∧
      text = pattern.closing ++ lineBreak :: (pattern.opening ++ rest)

/-- There is no closing brace in the text. -/
def Braceless (text : Text) : Prop := ∀ read ∈ text, read ≠ unit '}'

/-- A pattern whose parts are looked at after the first brace. -/
structure Proper (pattern : Pattern) : Prop where
  closing : Braceless pattern.closing
  opening : Braceless pattern.opening
  opens : ∃ first rest, pattern.opening = first :: rest ∧
    isLineBreak first = false

def before (pattern : Pattern) : Text := unit '}' :: pattern.closing

def replace (pattern : Pattern) (text : Text) : Text :=
  replaceFrom pattern.before pattern.opening 0 text

theorem braceless_separator : Braceless separator := by
  unfold Braceless
  decide

section Replacing

variable {pattern : Pattern} {text rest : Text}

theorem braceless_lineBreak {lineBreak : CodeUnit}
    (isBreak : isLineBreak lineBreak = true) : lineBreak ≠ unit '}' := by
  rintro rfl
  exact absurd isBreak (by decide)

theorem replaceFrom_skip (before after : Text) (skip : Nat) (text : Text) :
    replaceFrom before after skip text =
      replaceFrom before after 0 (text.drop skip) := by
  induction text generalizing skip with
  | nil =>
      rw [List.drop_nil]
      cases skip <;> rfl
  | cons read text induction =>
      cases skip with
      | zero => rfl
      | succ skip => exact induction skip

theorem matchBetween_other {before after : Text} {first read : CodeUnit}
    (other : read ≠ first) :
    matchBetween (first :: before) after (read :: text) = none := by
  rw [matchBetween, if_neg]
  simp [List.isPrefixOf, other.symm]

theorem replace_cons_of_ne (pattern : Pattern) {read : CodeUnit}
    (other : read ≠ unit '}') :
    pattern.replace (read :: text) = read :: pattern.replace text := by
  rw [replace, before, replaceFrom, matchBetween_other other]
  rfl

theorem replace_append (pattern : Pattern) {front : Text}
    (braceless : Braceless front) (text : Text) :
    pattern.replace (front ++ text) = front ++ pattern.replace text := by
  induction front with
  | nil => rfl
  | cons read front induction =>
      rw [List.cons_append,
        replace_cons_of_ne pattern (braceless read List.mem_cons_self),
        induction fun unit member =>
          braceless unit (List.mem_cons_of_mem _ member)]
      rfl

theorem matches_of_matchBetween {length : Nat}
    (found : matchBetween pattern.before pattern.opening
      (unit '}' :: text) = some length) :
    ∃ rest, pattern.Matches text rest := by
  unfold matchBetween at found
  split at found
  · rename_i starts
    obtain ⟨more, whole⟩ := List.isPrefixOf_iff_prefix.mp starts
    obtain rfl : pattern.closing ++ more = text :=
      (List.cons.inj whole).2
    have dropped : (unit '}' :: (pattern.closing ++ more)).drop
        pattern.before.length = more := by
      rw [before, List.length_cons, List.drop_succ_cons, List.drop_left]
    rw [dropped] at found
    dsimp only at found
    split at found
    · rename_i broken
      obtain ⟨broken, opens⟩ := Bool.and_eq_true_iff.mp broken
      obtain ⟨rest, whole⟩ := List.isPrefixOf_iff_prefix.mp opens
      match more with
      | [] => cases broken
      | lineBreak :: more =>
          refine ⟨rest, .inr ⟨lineBreak, broken, ?_⟩⟩
          rw [whole]
          rfl
    · split at found
      · rename_i opens
        obtain ⟨rest, whole⟩ := List.isPrefixOf_iff_prefix.mp opens
        exact ⟨rest, .inl (by rw [whole])⟩
      · cases found
  · cases found

theorem replace_brace_of_unmatched
    (unmatched : ∀ rest, ¬ pattern.Matches text rest) :
    pattern.replace (unit '}' :: text) =
      unit '}' :: pattern.replace text := by
  rw [replace, replaceFrom]
  cases found : matchBetween pattern.before pattern.opening
      (unit '}' :: text) with
  | none => rfl
  | some length =>
      obtain ⟨rest, isMatch⟩ := matches_of_matchBetween found
      exact absurd isMatch (unmatched rest)

theorem replace_brace_of_matches (proper : pattern.Proper)
    (isMatch : pattern.Matches text rest) :
    pattern.replace (unit '}' :: text) =
      unit '}' :: (pattern.closing ++ (separator ++
        pattern.replace (pattern.opening ++ rest))) := by
  have opening : pattern.opening.isPrefixOf (pattern.opening ++ rest) = true :=
    List.isPrefixOf_iff_prefix.mpr (List.prefix_append _ _)
  have starts : ∀ more,
      pattern.before.isPrefixOf (unit '}' :: (pattern.closing ++ more)) =
        true := fun more =>
    List.isPrefixOf_iff_prefix.mpr (List.prefix_append pattern.before more)
  have dropped : ∀ more, (unit '}' :: (pattern.closing ++ more)).drop
      pattern.before.length = more := by
    intro more
    rw [before, List.length_cons, List.drop_succ_cons, List.drop_left]
  obtain ⟨length, found, remaining⟩ : ∃ length,
      matchBetween pattern.before pattern.opening (unit '}' :: text) =
          some length ∧ text.drop (length - 1) = rest := by
    rcases isMatch with rfl | ⟨lineBreak, isBreak, rfl⟩
    · obtain ⟨first, more, same, notBreak⟩ := proper.opens
      refine ⟨pattern.before.length + pattern.opening.length, ?_, ?_⟩
      · rw [matchBetween, if_pos (starts _)]
        dsimp only
        rw [dropped, if_neg, if_pos opening]
        rw [same, List.cons_append, List.head?_cons, Option.any_some,
          notBreak]
        simp
      · rw [before, List.length_cons, Nat.add_right_comm, Nat.add_sub_cancel,
          ← List.append_assoc, ← List.length_append, List.drop_left]
    · refine ⟨pattern.before.length + 1 + pattern.opening.length, ?_, ?_⟩
      · rw [matchBetween, if_pos (starts _)]
        dsimp only
        rw [dropped, if_pos]
        rw [List.head?_cons, Option.any_some, isBreak, List.drop_one,
          List.tail_cons, opening]
        rfl
      · rw [before, List.length_cons]
        have front : pattern.closing ++
            lineBreak :: (pattern.opening ++ rest) =
              (pattern.closing ++ lineBreak :: pattern.opening) ++ rest := by
          simp
        have size : pattern.closing.length + 1 + 1 + pattern.opening.length -
            1 = (pattern.closing ++ lineBreak :: pattern.opening).length := by
          simp
          omega
        rw [front, size, List.drop_left]
  rw [replace, replaceFrom, found]
  dsimp only
  rw [replaceFrom_skip, remaining, replace_append pattern proper.opening]
  simp [before, replace]

theorem replace_brace (proper : pattern.Proper) (text : Text) :
    ∃ more, pattern.replace (unit '}' :: text) = unit '}' :: more := by
  by_cases unmatched : ∀ rest, ¬ pattern.Matches text rest
  · exact ⟨_, replace_brace_of_unmatched unmatched⟩
  · obtain ⟨rest, isMatch⟩ := not_forall_not.mp unmatched
    exact ⟨_, replace_brace_of_matches proper isMatch⟩

/-- What stands before the first brace is left alone. -/
theorem prefix_of_replace (proper : pattern.Proper) {front : Text}
    (braceless : Braceless front)
    (replaced : pattern.replace text = front ++ rest) :
    ∃ more, text = front ++ more ∧ rest = pattern.replace more := by
  induction front generalizing text with
  | nil => exact ⟨text, rfl, replaced.symm⟩
  | cons read front induction =>
      cases text with
      | nil => cases replaced
      | cons first text =>
          by_cases brace : first = unit '}'
          · obtain ⟨more, same⟩ := replace_brace proper text
            rw [brace, same] at replaced
            exact absurd (List.cons.inj replaced).1.symm
              (braceless read List.mem_cons_self)
          · rw [replace_cons_of_ne pattern brace] at replaced
            obtain ⟨rfl, later⟩ := List.cons.inj replaced
            obtain ⟨more, rfl, rfl⟩ := induction
              (fun unit member =>
                braceless unit (List.mem_cons_of_mem _ member)) later
            exact ⟨more, rfl, rfl⟩

theorem matches_replace {other : Pattern} (proper : pattern.Proper)
    (otherProper : other.Proper) :
    other.Matches (pattern.replace text) rest ↔
      ∃ more, other.Matches text more ∧ rest = pattern.replace more := by
  have bothBraceless : Braceless (other.closing ++ other.opening) := by
    intro read member
    rcases List.mem_append.mp member with closing | opening
    · exact otherProper.closing read closing
    · exact otherProper.opening read opening
  have brokenBraceless : ∀ lineBreak, isLineBreak lineBreak = true →
      Braceless (other.closing ++ lineBreak :: other.opening) := by
    intro lineBreak isBreak read member
    rcases List.mem_append.mp member with closing | later
    · exact otherProper.closing read closing
    · rcases List.mem_cons.mp later with rfl | opening
      · exact braceless_lineBreak isBreak
      · exact otherProper.opening read opening
  constructor
  · rintro (replaced | ⟨lineBreak, isBreak, replaced⟩)
    · rw [← List.append_assoc] at replaced
      obtain ⟨more, rfl, same⟩ :=
        prefix_of_replace proper bothBraceless replaced
      exact ⟨more, .inl (List.append_assoc _ _ _), same⟩
    · rw [← List.cons_append, ← List.append_assoc] at replaced
      obtain ⟨more, rfl, same⟩ :=
        prefix_of_replace proper (brokenBraceless lineBreak isBreak) replaced
      exact ⟨more, .inr ⟨lineBreak, isBreak, List.append_assoc _ _ _⟩, same⟩
  · rintro ⟨more, rfl | ⟨lineBreak, isBreak, rfl⟩, rfl⟩
    · left
      rw [← List.append_assoc, replace_append pattern bothBraceless,
        List.append_assoc]
    · right
      refine ⟨lineBreak, isBreak, ?_⟩
      rw [← List.cons_append, ← List.append_assoc,
        replace_append pattern (brokenBraceless lineBreak isBreak),
        List.append_assoc]
      rfl

end Replacing

/-! ## Several replacements -/

/-- One replacement after the other. -/
def replaceEach (patterns : List Pattern) (text : Text) : Text :=
  patterns.foldl (fun text pattern => pattern.replace text) text

/-- At most one of the patterns matches, and none where one has matched. -/
structure Independent (patterns : List Pattern) : Prop where
  proper : ∀ pattern ∈ patterns, pattern.Proper
  exclusive : ∀ pattern ∈ patterns, ∀ other ∈ patterns, ∀ text rest more,
    pattern.Matches text rest → other.Matches text more → pattern = other
  closed : ∀ pattern ∈ patterns, ∀ other ∈ patterns, ∀ text more,
    ¬ other.Matches (pattern.closing ++ (separator ++ text)) more

section Each

variable {patterns : List Pattern} {text rest : Text}

theorem Independent.tail {pattern : Pattern}
    (independent : Independent (pattern :: patterns)) :
    Independent patterns where
  proper other member :=
    independent.proper other (List.mem_cons_of_mem _ member)
  exclusive one member other otherMember :=
    independent.exclusive one (List.mem_cons_of_mem _ member) other
      (List.mem_cons_of_mem _ otherMember)
  closed one member other otherMember :=
    independent.closed one (List.mem_cons_of_mem _ member) other
      (List.mem_cons_of_mem _ otherMember)

theorem replaceEach_nil (patterns : List Pattern) :
    replaceEach patterns [] = [] := by
  induction patterns with
  | nil => rfl
  | cons pattern patterns induction => exact induction

theorem replaceEach_append (patterns : List Pattern) {front : Text}
    (braceless : Braceless front) (text : Text) :
    replaceEach patterns (front ++ text) =
      front ++ replaceEach patterns text := by
  induction patterns generalizing text with
  | nil => rfl
  | cons pattern patterns induction =>
      rw [replaceEach, List.foldl_cons, replace_append pattern braceless]
      exact induction (pattern.replace text)

theorem prefix_of_replaceEach
    (proper : ∀ pattern ∈ patterns, pattern.Proper) {front : Text}
    (braceless : Braceless front)
    (replaced : replaceEach patterns text = front ++ rest) :
    ∃ more, text = front ++ more := by
  induction patterns generalizing text with
  | nil => exact ⟨rest, replaced⟩
  | cons pattern patterns induction =>
      obtain ⟨more, same⟩ := induction
        (fun other member => proper other (List.mem_cons_of_mem _ member))
        replaced
      obtain ⟨before, whole, -⟩ := prefix_of_replace
        (proper pattern List.mem_cons_self) braceless same
      exact ⟨before, whole⟩

theorem replaceEach_brace_of_unmatched
    (proper : ∀ pattern ∈ patterns, pattern.Proper)
    (unmatched : ∀ pattern ∈ patterns, ∀ rest, ¬ pattern.Matches text rest) :
    replaceEach patterns (unit '}' :: text) =
      unit '}' :: replaceEach patterns text := by
  induction patterns generalizing text with
  | nil => rfl
  | cons pattern patterns induction =>
      rw [replaceEach, List.foldl_cons, replace_brace_of_unmatched
        (unmatched pattern List.mem_cons_self)]
      apply induction
      · exact fun other member =>
          proper other (List.mem_cons_of_mem _ member)
      · intro other member rest isMatch
        obtain ⟨more, before, -⟩ := (matches_replace
          (proper pattern List.mem_cons_self)
          (proper other (List.mem_cons_of_mem _ member))).mp isMatch
        exact unmatched other (List.mem_cons_of_mem _ member) more before

theorem replaceEach_brace_of_matches (independent : Independent patterns)
    {pattern : Pattern} (member : pattern ∈ patterns)
    (isMatch : pattern.Matches text rest) :
    replaceEach patterns (unit '}' :: text) =
      unit '}' :: (pattern.closing ++ (separator ++
        replaceEach patterns (pattern.opening ++ rest))) := by
  induction patterns generalizing text rest with
  | nil => cases member
  | cons first patterns induction =>
      have firstProper := independent.proper first List.mem_cons_self
      have proper := independent.proper pattern member
      by_cases same : first = pattern
      · subst same
        have sealed : Braceless (first.closing ++ separator) := by
          intro read inside
          rcases List.mem_append.mp inside with closing | separates
          · exact proper.closing read closing
          · exact braceless_separator read separates
        rw [replaceEach, List.foldl_cons,
          replace_brace_of_matches proper isMatch]
        have apart : ∀ other ∈ patterns, ∀ more,
            ¬ other.Matches (first.closing ++ (separator ++
              first.replace (first.opening ++ rest))) more :=
          fun other otherMember more =>
            independent.closed first List.mem_cons_self other
              (List.mem_cons_of_mem _ otherMember) _ more
        have later := replaceEach_brace_of_unmatched
          independent.tail.proper apart
        rw [replaceEach] at later
        rw [later, ← List.append_assoc, ← List.append_assoc]
        exact congrArg _ (replaceEach_append patterns sealed _)
      · rcases List.mem_cons.mp member with isFirst | later
        · exact absurd isFirst.symm same
        · have unmatched : ∀ more, ¬ first.Matches text more := by
            intro more firstMatch
            exact same (independent.exclusive first List.mem_cons_self
              pattern member text more rest firstMatch isMatch)
          rw [replaceEach, List.foldl_cons,
            replace_brace_of_unmatched unmatched]
          have rest := induction independent.tail later
            ((matches_replace firstProper proper).mpr ⟨rest, isMatch, rfl⟩)
          rw [replaceEach] at rest
          rw [rest, ← replace_append first proper.opening]
          rfl

end Each

end Pattern

/-! ## The replacements of the parser -/

def chunkPatterns : List Pattern :=
  [⟨[], plainText "\x7b"⟩, ⟨plainText "]", plainText "[\x7b"⟩,
    ⟨[], plainText "[\x7b"⟩, ⟨plainText "]", plainText "\x7b"⟩]

theorem dechunk_eq (data : Text) :
    dechunk data = splitFrom [] 0 (Pattern.replaceEach chunkPatterns data) :=
  rfl

/-- A document may open here. -/
def opensText : Text → Bool
  | [] => false
  | read :: rest =>
      read == unit '{' || (read == unit '[' && rest.head? == some (unit '{'))

def skipLineBreak : Text → Text
  | [] => []
  | read :: rest => if isLineBreak read then rest else read :: rest

/-- After a closing brace: what else closes, and what opens behind. -/
def boundary? (text : Text) : Option (Text × Text) :=
  let closing := text.takeWhile (· == unit ']') |>.take 1
  let opening := skipLineBreak (text.drop closing.length)
  if opensText opening then some (closing, opening) else none

theorem boundary?_of_matches {pattern : Pattern}
    (member : pattern ∈ chunkPatterns) {text rest : Text}
    (isMatch : pattern.Matches text rest) :
    boundary? text = some (pattern.closing, pattern.opening ++ rest) := by
  have notClosing : ∀ lineBreak, isLineBreak lineBreak = true →
      lineBreak ≠ unit ']' := by
    rintro lineBreak isBreak rfl
    exact absurd isBreak (by decide)
  simp only [chunkPatterns, List.mem_cons, List.not_mem_nil, or_false]
    at member
  rcases isMatch with rfl | ⟨lineBreak, isBreak, rfl⟩
  · rcases member with rfl | rfl | rfl | rfl <;> rfl
  · have other := notClosing lineBreak isBreak
    rcases member with rfl | rfl | rfl | rfl <;>
      simp [boundary?, plainText, skipLineBreak, isBreak, opensText, other,
        List.takeWhile]

theorem skipLineBreak_cases (text : Text) :
    text = skipLineBreak text ∨
      ∃ lineBreak, isLineBreak lineBreak = true ∧
        text = lineBreak :: skipLineBreak text := by
  cases text with
  | nil => exact .inl rfl
  | cons read rest =>
      rw [skipLineBreak]
      split
      · rename_i isBreak
        exact .inr ⟨read, isBreak, rfl⟩
      · exact .inl rfl

theorem opensText_cases {text : Text} (opens : opensText text = true) :
    ∃ rest, text = plainText "\x7b" ++ rest ∨
      text = plainText "[\x7b" ++ rest := by
  cases text with
  | nil => cases opens
  | cons read rest =>
      rw [opensText, Bool.or_eq_true, Bool.and_eq_true, beq_iff_eq,
        beq_iff_eq] at opens
      rcases opens with rfl | ⟨rfl, next⟩
      · exact ⟨rest, .inl rfl⟩
      · cases rest with
        | nil => cases next
        | cons second rest =>
            rw [List.head?_cons, beq_iff_eq, Option.some.injEq] at next
            subst next
            exact ⟨rest, .inr rfl⟩

theorem matches_of_opens {front opening later rest : Text}
    (opens : skipLineBreak later = opening ++ rest) :
    (Pattern.mk front opening).Matches (front ++ later) rest := by
  rcases skipLineBreak_cases later with same | ⟨lineBreak, isBreak, same⟩
  · left
    rw [same, opens]
  · right
    exact ⟨lineBreak, isBreak, by rw [same, opens]⟩

theorem closing_cases (text : Text) :
    (text.takeWhile (· == unit ']')).take 1 = [] ∨
      ∃ rest, text = plainText "]" ++ rest ∧
        (text.takeWhile (· == unit ']')).take 1 = plainText "]" := by
  cases text with
  | nil => exact .inl rfl
  | cons read rest =>
      by_cases closes : read = unit ']'
      · right
        subst closes
        exact ⟨rest, rfl, by simp [plainText]⟩
      · left
        simp [closes]

theorem matches_of_boundary? {text closing opening : Text}
    (found : boundary? text = some (closing, opening)) :
    ∃ pattern ∈ chunkPatterns, ∃ rest, pattern.Matches text rest ∧
      pattern.closing = closing ∧ opening = pattern.opening ++ rest := by
  unfold boundary? at found
  dsimp only at found
  rcases closing_cases text with none | ⟨later, rfl, one⟩
  · rw [none] at found
    split at found
    · rename_i opens
      cases found
      obtain ⟨rest, isBrace | isBracket⟩ := opensText_cases opens
      · exact ⟨⟨[], plainText "\x7b"⟩, by simp [chunkPatterns], rest,
          matches_of_opens isBrace, rfl, isBrace⟩
      · exact ⟨⟨[], plainText "[\x7b"⟩, by simp [chunkPatterns], rest,
          matches_of_opens isBracket, rfl, isBracket⟩
    · cases found
  · rw [one] at found
    split at found
    · rename_i opens
      cases found
      rw [List.drop_left] at opens ⊢
      obtain ⟨rest, isBrace | isBracket⟩ := opensText_cases opens
      · exact ⟨⟨plainText "]", plainText "\x7b"⟩, by simp [chunkPatterns], rest,
          matches_of_opens isBrace, rfl, isBrace⟩
      · exact ⟨⟨plainText "]", plainText "[\x7b"⟩, by simp [chunkPatterns], rest,
          matches_of_opens isBracket, rfl, isBracket⟩
    · cases found

theorem independent_chunkPatterns :
    Pattern.Independent chunkPatterns where
  proper pattern member := by
    simp only [chunkPatterns, List.mem_cons, List.not_mem_nil, or_false]
      at member
    rcases member with rfl | rfl | rfl | rfl
    all_goals
      refine ⟨?_, ?_, ?_⟩
      · unfold Pattern.Braceless
        decide
      · unfold Pattern.Braceless
        decide
      · exact ⟨_, _, rfl, by decide⟩
  exclusive pattern member other otherMember text rest more isMatch
      otherMatch := by
    have found := boundary?_of_matches member isMatch
    rw [boundary?_of_matches otherMember otherMatch] at found
    obtain ⟨closing, opening⟩ := Prod.mk.inj (Option.some.inj found)
    simp only [chunkPatterns, List.mem_cons, List.not_mem_nil, or_false]
      at member otherMember
    rcases member with rfl | rfl | rfl | rfl <;>
      rcases otherMember with rfl | rfl | rfl | rfl <;>
        first
        | rfl
        | exact absurd closing (by decide)
        | exact absurd (List.cons.inj opening).1 (by decide)
  closed pattern member other otherMember text more isMatch := by
    have found := boundary?_of_matches otherMember isMatch
    simp only [chunkPatterns, List.mem_cons, List.not_mem_nil, or_false]
      at member
    rcases member with rfl | rfl | rfl | rfl <;> cases found

/-! ## One pass -/

abbrev Marked := List (Option CodeUnit)

/-- The pieces one after the other, each with a mark at its end. -/
def marks (pieces : List Text) : Marked :=
  pieces.flatMap fun piece => piece.map some ++ [none]

/-- What was read last. -/
inductive Context
  | plain
  | brace
  | bracket
  deriving DecidableEq

def Context.next (context : Context) (read : CodeUnit) : Context :=
  if read = unit '}' then .brace
  else if read = unit ']' ∧ context = .brace then .bracket
  else .plain

/-- A document may open here. -/
def opens : Marked → Bool
  | some read :: rest =>
      read == unit '{' || (read == unit '[' && rest.head? == some (unit '{'))
  | _ => false

/-- The text with a mark wherever the parser cuts it. -/
def cuts (context : Context) : Marked → Marked
  | [] => []
  | none :: rest => none :: cuts .plain rest
  | some read :: rest =>
      if context ≠ .plain ∧ isLineBreak read ∧ opens rest then
        none :: cuts .plain rest
      else if context ≠ .plain ∧ opens (some read :: rest) then
        none :: some read :: cuts .plain rest
      else if separator.map some <+: some read :: rest then
        none :: cuts .plain (rest.drop 3)
      else some read :: cuts (context.next read) rest
  termination_by marked => marked.length
  decreasing_by
    all_goals
      simp only [List.length_cons, List.length_drop]
      omega

section Cuts

variable {context : Context} {read : CodeUnit} {rest : Marked}

theorem cuts_nil (context : Context) : cuts context [] = [] := by
  rw [cuts]

theorem cuts_mark (context : Context) (rest : Marked) :
    cuts context (none :: rest) = none :: cuts .plain rest := by
  rw [cuts]

theorem cuts_break (closed : context ≠ .plain)
    (isBreak : isLineBreak read = true) (opening : opens rest = true) :
    cuts context (some read :: rest) = none :: cuts .plain rest := by
  rw [cuts, if_pos ⟨closed, isBreak, opening⟩]

theorem not_opens_of_isLineBreak (isBreak : isLineBreak read = true) :
    opens (some read :: rest) = false := by
  rw [isLineBreak, Bool.or_eq_true, beq_iff_eq, beq_iff_eq] at isBreak
  rcases isBreak with rfl | rfl <;> rfl

/-- Where no document opens after a closing bracket, the unit is kept, unless
a separator stands there. -/
theorem cuts_keep
    (notBroken : context ≠ .plain → isLineBreak read = true →
      opens rest = false)
    (notOpening : context ≠ .plain → opens (some read :: rest) = false)
    (notSeparator : ¬ separator.map some <+: some read :: rest) :
    cuts context (some read :: rest) =
      some read :: cuts (context.next read) rest := by
  rw [cuts, if_neg, if_neg, if_neg notSeparator]
  · rintro ⟨closed, opening⟩
    rw [notOpening closed] at opening
    cases opening
  · rintro ⟨closed, isBreak, opening⟩
    rw [notBroken closed isBreak] at opening
    cases opening

theorem cuts_plain
    (notSeparator : ¬ separator.map some <+: some read :: rest) :
    cuts .plain (some read :: rest) =
      some read :: cuts (Context.plain.next read) rest :=
  cuts_keep (fun closed => absurd rfl closed)
    (fun closed => absurd rfl closed) notSeparator

theorem first_of_opens (opening : opens (some read :: rest) = true) :
    read = unit '{' ∨
      read = unit '[' ∧ rest.head? = some (some (unit '{')) := by
  rwa [opens, Bool.or_eq_true, Bool.and_eq_true, beq_iff_eq, beq_iff_eq,
    beq_iff_eq] at opening

theorem not_separator_of_ne (other : read ≠ unit '|') :
    ¬ separator.map some <+: some read :: rest := by
  rintro ⟨more, same⟩
  exact other (Option.some.inj (List.cons.inj same).1).symm

theorem cuts_open (closed : context ≠ .plain)
    (opening : opens (some read :: rest) = true) :
    cuts context (some read :: rest) =
      none :: cuts .plain (some read :: rest) := by
  have bracket : read = unit '{' ∨ read = unit '[' :=
    (first_of_opens opening).imp_right And.left
  rw [cuts, if_neg, if_pos ⟨closed, opening⟩, cuts_plain]
  · rcases bracket with rfl | rfl <;> rfl
  · apply not_separator_of_ne
    rcases bracket with rfl | rfl <;> decide
  · rintro ⟨-, isBreak, -⟩
    rw [not_opens_of_isLineBreak isBreak] at opening
    cases opening

theorem cuts_separator (context : Context) (rest : Marked) :
    cuts context (separator.map some ++ rest) = none :: cuts .plain rest := by
  change cuts context (some (unit '|') :: some (unit '-') ::
    some (unit '-') :: some (unit '|') :: rest) = _
  rw [cuts, if_neg, if_neg, if_pos]
  · rfl
  · exact ⟨rest, rfl⟩
  · rintro ⟨-, opening⟩
    cases opening
  · rintro ⟨-, isBreak, -⟩
    exact absurd isBreak (by decide)

end Cuts

/-! ## The chunk parser's pieces are these -/

section Pieces

variable {text closing opening : Text} {context : Context}

/-- Nothing is looked at beyond a mark. -/
theorem opens_marked (text : Text) (tail : Marked) :
    opens (text.map some ++ none :: tail) = opensText text := by
  cases text with
  | nil => rfl
  | cons read text =>
      cases text with
      | nil => rfl
      | cons second text => simp [opens, opensText]

theorem prefix_marked {front text : Text} {tail : Marked} :
    front.map some <+: text.map some ++ none :: tail ↔ front <+: text := by
  induction front generalizing text with
  | nil => exact ⟨fun _ => List.nil_prefix, fun _ => List.nil_prefix⟩
  | cons read front induction =>
      cases text with
      | nil =>
          constructor
          · rintro ⟨rest, same⟩
            cases (List.cons.inj same).1
          · rintro ⟨rest, same⟩
            cases same
      | cons first text =>
          rw [List.map_cons, List.map_cons, List.cons_append,
            List.cons_prefix_cons, List.cons_prefix_cons, induction,
            Option.some.injEq]

/-- No document opens behind what closed. -/
theorem cuts_of_closed (tail : Marked)
    (closed : opensText (skipLineBreak text) = false)
    (same : ∀ read rest, text = read :: rest →
      context.next read = Context.plain.next read) :
    cuts context (text.map some ++ none :: tail) =
      cuts .plain (text.map some ++ none :: tail) := by
  cases text with
  | nil =>
      rw [List.map_nil, List.nil_append, cuts_mark, cuts_mark]
  | cons read rest =>
      rw [List.map_cons, List.cons_append]
      by_cases separates :
          separator.map some <+: some read :: (rest.map some ++ none :: tail)
      · obtain ⟨more, whole⟩ := separates
        rw [← whole, cuts_separator, cuts_separator]
      · rw [cuts_keep _ _ separates, cuts_plain separates,
          same read rest rfl]
        · intro _ isBreak
          rw [skipLineBreak, if_pos isBreak] at closed
          rwa [opens_marked]
        · intro _
          cases isBreak : isLineBreak read with
          | true => exact not_opens_of_isLineBreak isBreak
          | false =>
              rw [skipLineBreak, isBreak, if_neg (by decide)] at closed
              have opened := opens_marked (read :: rest) tail
              rw [closed] at opened
              exact opened

/-- A document opens behind what closed, perhaps on a new line. -/
theorem cuts_of_opens (tail : Marked) (closed : context ≠ .plain)
    (opening : opensText (skipLineBreak text) = true) :
    cuts context (text.map some ++ none :: tail) =
      none :: cuts .plain ((skipLineBreak text).map some ++ none :: tail) := by
  cases text with
  | nil => cases opening
  | cons read rest =>
      rw [List.map_cons, List.cons_append]
      cases isBreak : isLineBreak read with
      | true =>
          rw [skipLineBreak, if_pos isBreak] at opening ⊢
          rw [cuts_break closed isBreak]
          rwa [opens_marked]
      | false =>
          rw [skipLineBreak, isBreak, if_neg (by decide)] at opening ⊢
          apply cuts_open closed
          have opened := opens_marked (read :: rest) tail
          rwa [opening] at opened

theorem boundary?_closing (text : Text) :
    boundary? (unit ']' :: text) =
      if opensText (skipLineBreak text) then
        some (plainText "]", skipLineBreak text)
      else none := by
  simp [boundary?, plainText]

theorem boundary?_other {read : CodeUnit} (other : read ≠ unit ']')
    (text : Text) :
    boundary? (read :: text) =
      if opensText (skipLineBreak (read :: text)) then
        some ([], skipLineBreak (read :: text))
      else none := by
  simp [boundary?, other]

theorem next_closing (context : Context) (text : Marked) :
    cuts context (some (unit ']') :: text) =
      some (unit ']') :: cuts (context.next (unit ']')) text := by
  apply cuts_keep
  · exact fun _ isBreak => absurd isBreak (by decide)
  · exact fun _ => rfl
  · exact not_separator_of_ne (by decide)

theorem cuts_brace_of_none (tail : Marked)
    (unbounded : boundary? text = none) :
    cuts .brace (text.map some ++ none :: tail) =
      cuts .plain (text.map some ++ none :: tail) := by
  cases text with
  | nil => rw [List.map_nil, List.nil_append, cuts_mark, cuts_mark]
  | cons read text =>
      by_cases closes : read = unit ']'
      · subst closes
        rw [boundary?_closing, ite_eq_right_iff] at unbounded
        have closed : opensText (skipLineBreak text) = false := by
          rw [← Bool.not_eq_true]
          exact fun opening => nomatch unbounded opening
        rw [List.map_cons, List.cons_append, next_closing, next_closing]
        apply congrArg (some (unit ']') :: ·)
        apply cuts_of_closed tail closed
        intro first rest same
        change Context.bracket.next first = Context.plain.next first
        simp [Context.next]
      · rw [boundary?_other closes, ite_eq_right_iff] at unbounded
        apply cuts_of_closed tail
        · rw [← Bool.not_eq_true]
          exact fun opening => nomatch unbounded opening
        · intro first rest same
          cases same
          simp [Context.next, closes]

theorem cuts_brace_of_some (tail : Marked)
    (bounded : boundary? text = some (closing, opening)) :
    cuts .brace (text.map some ++ none :: tail) =
      closing.map some ++
        none :: cuts .plain (opening.map some ++ none :: tail) := by
  cases text with
  | nil => cases bounded
  | cons read text =>
      by_cases closes : read = unit ']'
      · subst closes
        rw [boundary?_closing] at bounded
        split at bounded
        · rename_i opens
          cases bounded
          rw [List.map_cons, List.cons_append, next_closing]
          exact congrArg _ (cuts_of_opens tail (by decide) opens)
        · cases bounded
      · rw [boundary?_other closes] at bounded
        split at bounded
        · rename_i opens
          cases bounded
          exact cuts_of_opens tail (by decide) opens
        · cases bounded

theorem length_of_boundary?
    (bounded : boundary? text = some (closing, opening)) :
    opening.length ≤ text.length := by
  have shorter : ∀ text, (skipLineBreak text).length ≤ text.length := by
    intro text
    cases text with
    | nil => exact Nat.le_refl _
    | cons read rest =>
        rw [skipLineBreak]
        split
        · exact Nat.le_succ _
        · exact Nat.le_refl _
  unfold boundary? at bounded
  dsimp only at bounded
  split at bounded
  · cases bounded
    apply Nat.le_trans (shorter _)
    rw [List.length_drop]
    exact Nat.sub_le _ _
  · cases bounded

theorem splitFrom_skip (piece : Text) (skip : Nat) (text : Text) :
    splitFrom piece skip text = splitFrom piece 0 (text.drop skip) := by
  induction text generalizing skip with
  | nil =>
      rw [List.drop_nil]
      cases skip <;> rfl
  | cons read text induction =>
      cases skip with
      | zero => rfl
      | succ skip => exact induction skip

theorem splitFrom_separator (piece text : Text) :
    splitFrom piece 0 (separator ++ text) = piece :: splitFrom [] 0 text := by
  change splitFrom piece 0 (unit '|' :: ([unit '-', unit '-', unit '|'] ++
    text)) = _
  rw [splitFrom, if_pos, splitFrom_skip]
  · rfl
  · rw [List.isPrefixOf_iff_prefix]
    exact ⟨text, rfl⟩

theorem splitFrom_cons (piece : Text) {read : CodeUnit}
    (other : ¬ separator <+: read :: text) :
    splitFrom piece 0 (read :: text) = splitFrom (piece ++ [read]) 0 text := by
  rw [splitFrom, if_neg]
  rwa [List.isPrefixOf_iff_prefix]

/-- Units that are no part of a separator are added to the piece. -/
theorem splitFrom_append (piece : Text) {front : Text}
    (others : ∀ read ∈ front, read ≠ unit '|') (text : Text) :
    splitFrom piece 0 (front ++ text) =
      splitFrom (piece ++ front) 0 text := by
  induction front generalizing piece with
  | nil => rw [List.nil_append, List.append_nil]
  | cons read front induction =>
      rw [List.cons_append, splitFrom_cons, induction]
      · rw [List.append_assoc, List.singleton_append]
      · exact fun unit member =>
          others unit (List.mem_cons_of_mem _ member)
      · rintro ⟨rest, same⟩
        exact others read List.mem_cons_self (List.cons.inj same).1.symm

theorem marks_cons (piece : Text) (pieces : List Text) :
    marks (piece :: pieces) = piece.map some ++ none :: marks pieces := by
  rw [marks, List.flatMap_cons, List.append_assoc]
  rfl

theorem not_separator_of_brace (text : Text) :
    ¬ separator <+: unit '}' :: text := by
  rintro ⟨rest, same⟩
  exact absurd (List.cons.inj same).1 (by decide)

theorem cuts_other (tail : Marked) {read : CodeUnit} (text : Text)
    (other : ¬ separator <+: read :: text) :
    cuts .plain ((read :: text).map some ++ none :: tail) =
      some read ::
        cuts (Context.plain.next read) (text.map some ++ none :: tail) := by
  rw [List.map_cons, List.cons_append]
  apply cuts_plain
  rw [← List.cons_append, ← List.map_cons]
  exact fun separates => other (prefix_marked.mp separates)

/-- What the parser makes of a chunk, and what follows the chunk. -/
theorem marks_splitFrom (data piece : Text) (tail : Marked) :
    marks (splitFrom piece 0 (Pattern.replaceEach chunkPatterns data)) ++
        cuts .plain tail =
      piece.map some ++ cuts .plain (data.map some ++ none :: tail) := by
  induction size : data.length using Nat.strongRecOn
    generalizing data piece with
  | ind size induction =>
  subst size
  have proper := independent_chunkPatterns.proper
  cases data with
  | nil =>
      rw [Pattern.replaceEach_nil, List.map_nil, List.nil_append, cuts_mark,
        splitFrom, marks_cons, List.append_assoc]
      rfl
  | cons read data =>
      by_cases separates : separator <+: read :: data
      · obtain ⟨rest, whole⟩ := separates
        have shorter : rest.length < (read :: data).length := by
          rw [← whole, List.length_append]
          exact Nat.lt_add_of_pos_left (by decide)
        rw [← whole, Pattern.replaceEach_append _
          Pattern.braceless_separator, splitFrom_separator, marks_cons,
          List.map_append, List.append_assoc, List.append_assoc,
          cuts_separator, List.cons_append, induction _ shorter rest [] rfl]
        rfl
      · rw [cuts_other tail data separates]
        by_cases closes : read = unit '}'
        · subst closes
          cases bounded : boundary? data with
          | none =>
              have unmatched : ∀ pattern ∈ chunkPatterns, ∀ rest,
                  ¬ pattern.Matches data rest := by
                intro pattern member rest isMatch
                rw [boundary?_of_matches member isMatch] at bounded
                cases bounded
              rw [Pattern.replaceEach_brace_of_unmatched proper unmatched,
                splitFrom_cons piece
                (not_separator_of_brace _),
                induction data.length (Nat.lt_succ_self _) data _ rfl]
              change _ = _ ++ some (unit '}') :: cuts .brace _
              rw [cuts_brace_of_none tail bounded, List.map_append,
                List.append_assoc]
              rfl
          | some parts =>
              obtain ⟨closing, opening⟩ := parts
              obtain ⟨pattern, member, rest, isMatch, rfl, rfl⟩ :=
                matches_of_boundary? bounded
              have shorter := length_of_boundary? bounded
              have front : ∀ read ∈ unit '}' :: pattern.closing,
                  read ≠ unit '|' := by
                simp only [chunkPatterns, List.mem_cons, List.not_mem_nil,
                  or_false] at member
                rcases member with rfl | rfl | rfl | rfl <;> decide
              rw [Pattern.replaceEach_brace_of_matches
                independent_chunkPatterns member isMatch,
                ← List.cons_append, splitFrom_append piece front,
                splitFrom_separator, marks_cons, List.append_assoc,
                List.cons_append,
                induction _ (Nat.lt_succ_of_le shorter) _ [] rfl]
              change _ = _ ++ some (unit '}') :: cuts .brace _
              rw [cuts_brace_of_some tail bounded, List.map_append,
                List.append_assoc]
              rfl
        · have braceless : Pattern.Braceless [read] := by
            intro unit member
            rw [List.mem_singleton.mp member]
            exact closes
          have replaced : Pattern.replaceEach chunkPatterns (read :: data) =
              read :: Pattern.replaceEach chunkPatterns data :=
            Pattern.replaceEach_append chunkPatterns braceless data
          rw [replaced, splitFrom_cons piece, induction data.length
            (Nat.lt_succ_self _) data _ rfl]
          · rw [List.map_append, List.append_assoc, Context.next,
              if_neg closes, if_neg fun closing => nomatch closing.2]
            rfl
          · rintro ⟨rest, same⟩
            rw [← replaced] at same
            obtain ⟨more, whole⟩ := Pattern.prefix_of_replaceEach proper
              Pattern.braceless_separator same.symm
            exact separates ⟨more, whole.symm⟩

theorem marks_append (pieces more : List Text) :
    marks (pieces ++ more) = marks pieces ++ marks more := by
  unfold marks
  exact List.flatMap_append

theorem marks_dechunk_append (chunks : List Text) (tail : Marked) :
    marks (chunks.flatMap dechunk) ++ cuts .plain tail =
      cuts .plain (marks chunks ++ tail) := by
  induction chunks with
  | nil => rfl
  | cons data chunks induction =>
      rw [List.flatMap_cons, marks_append, List.append_assoc, induction,
        marks_cons, List.append_assoc, List.cons_append, dechunk_eq,
        marks_splitFrom]
      rfl

/-- The pieces of chunks are what lies between the cuts in them. -/
theorem marks_dechunk (chunks : List Text) :
    marks (chunks.flatMap dechunk) = cuts .plain (marks chunks) := by
  have whole := marks_dechunk_append chunks []
  rwa [cuts_nil, List.append_nil, List.append_nil] at whole

theorem cuts_marks_append (chunks : List Text) (tail : Marked) :
    cuts .plain (marks chunks ++ tail) =
      cuts .plain (marks chunks) ++ cuts .plain tail := by
  rw [← marks_dechunk, marks_dechunk_append]

end Pieces

end Web3Js.Socket
