import Web3Js.Socket.Documents

/-!
# Documents in chunks

Documents that are written one after the other are read back from the chunks
in which they arrive, unless the bracket by which the parser tells them apart
stands at an end of a chunk that both documents reach into.
-/

namespace Web3Js.Socket

open JsonText

def written (documents : List Document) : Text :=
  documents.flatMap fun document => document.text ++ document.gap

/-- Two documents meet within a chunk, and it begins with the last bracket of
the one, or ends with the first bracket of the other. -/
def Severed (documents : List Document) (marked : Marked) : Prop :=
  ∃ before first next after front last opening rest,
    documents = before ++ first :: next :: after ∧
    marked = front ++
      some last :: (first.gap.map some ++ some opening :: rest) ∧
    front.reduceOption ++ [last] = written before ++ first.text ∧
    (last = unit ']' ∧ front.getLast? = some none ∨
      opening = unit '[' ∧ rest.head? = some none)

section Splitting

variable {front other tail more : Marked} {read last : CodeUnit}

theorem split_at_unit {marked : Marked} {before after : Text}
    (content : marked.reduceOption = before ++ read :: after) :
    ∃ front tail, marked = front ++ some read :: tail ∧
      front.reduceOption = before ∧ tail.reduceOption = after := by
  induction marked generalizing before with
  | nil => simp at content
  | cons entry marked induction =>
      cases entry with
      | none =>
          rw [List.reduceOption_cons_of_none] at content
          obtain ⟨front, tail, rfl, same, later⟩ := induction content
          exact ⟨none :: front, tail, rfl, same, later⟩
      | some first =>
          rw [List.reduceOption_cons_of_some] at content
          cases before with
          | nil =>
              obtain ⟨rfl, rfl⟩ := List.cons.inj content
              exact ⟨[], marked, rfl, rfl, rfl⟩
          | cons unit before =>
              obtain ⟨rfl, rest⟩ := List.cons.inj content
              obtain ⟨front, tail, rfl, rfl, later⟩ := induction rest
              exact ⟨some first :: front, tail, rfl,
                List.reduceOption_cons_of_some _ _, later⟩

/-- A unit of a text is found at one place only. -/
theorem split_later
    (same : front ++ some read :: tail = other ++ some last :: more)
    (earlier : front.reduceOption.length ≤ other.reduceOption.length) :
    ∃ between, other = front ++ between ∧
      some read :: tail = between ++ some last :: more := by
  induction front generalizing other with
  | nil => exact ⟨other, rfl, same⟩
  | cons entry front induction =>
      cases other with
      | nil =>
          obtain ⟨rfl, -⟩ := List.cons.inj same
          rw [List.reduceOption_cons_of_some] at earlier
          exact absurd earlier (Nat.not_succ_le_zero _)
      | cons first other =>
          obtain ⟨rfl, rest⟩ := List.cons.inj same
          have shorter : front.reduceOption.length ≤
              other.reduceOption.length := by
            cases entry with
            | none => exact earlier
            | some unit => exact Nat.le_of_succ_le_succ earlier
          obtain ⟨between, rfl, later⟩ := induction rest shorter
          exact ⟨between, rfl, later⟩

theorem split_unique
    (same : front ++ some read :: tail = other ++ some last :: more)
    (sameLength : front.reduceOption.length = other.reduceOption.length) :
    front = other ∧ read = last ∧ tail = more := by
  obtain ⟨between, rfl, later⟩ := split_later same (Nat.le_of_eq sameLength)
  cases between with
  | nil =>
      rw [List.nil_append] at later
      obtain ⟨rfl, rfl⟩ : read = last ∧ tail = more := by
        simpa using later
      exact ⟨(List.append_nil front).symm, rfl, rfl⟩
  | cons first between =>
      obtain ⟨rfl, -⟩ := List.cons.inj later
      rw [List.reduceOption_append, List.reduceOption_cons_of_some,
        List.length_append, List.length_cons] at sameLength
      omega

/-- What is sought does not lie across an entry that it does not contain. -/
theorem infix_across_iff {sought : Marked} {entry : Option CodeUnit}
    (present : sought ≠ []) (absent : entry ∉ sought) :
    sought <:+: front ++ entry :: tail ↔
      sought <:+: front ∨ sought <:+: tail := by
  constructor
  · intro within
    induction front with
    | nil =>
        rw [List.nil_append, List.infix_cons_iff] at within
        rcases within with starts | later
        · have nothing : sought <+: [] := prefix_of_not_mem starts absent
          exact absurd (List.prefix_nil.mp nothing) present
        · exact .inr later
    | cons first front induction =>
        rw [List.cons_append, List.infix_cons_iff] at within
        rcases within with starts | later
        · rw [← List.cons_append] at starts
          exact .inl (prefix_of_not_mem starts absent).isInfix
        · rcases induction later with inFront | inTail
          · exact .inl (List.infix_cons inFront)
          · exact .inr inTail
  · rintro (inFront | inTail)
    · exact inFront.trans (List.prefix_append _ _).isInfix
    · exact (List.infix_cons inTail).trans
        (List.suffix_append front _).isInfix

theorem infix_beyond_iff {sought : Marked} (present : sought ≠ [])
    (absent : ∀ entry ∈ front, entry ∉ sought) :
    sought <:+: front ++ tail ↔ sought <:+: tail := by
  induction front with
  | nil => rfl
  | cons entry front induction =>
      have beyond : sought <:+: [] ++ entry :: (front ++ tail) ↔
          sought <:+: [] ∨ sought <:+: front ++ tail :=
        infix_across_iff present (absent entry List.mem_cons_self)
      rw [List.cons_append, ← List.nil_append (entry :: _), beyond,
        induction fun later member =>
          absent later (List.mem_cons_of_mem _ member), List.infix_nil]
      exact or_iff_right present

end Splitting

/-! ## One document and the next -/

/-- A text begins with a document, perhaps after marks. -/
structure Begins (document : Document) (marked lead front later : Marked)
    (first last : CodeUnit) : Prop where
  marked : marked = lead ++ some first :: (front ++ some last :: later)
  lead : lead.reduceOption = []
  brackets : document.Brackets first front.reduceOption last

/-- The parser does not see that the next document begins. -/
def Unseen (front gap rest : Marked) (last opening : CodeUnit) : Prop :=
  none ∉ gap ∧ (last = unit ']' ∧ front.getLast? = some none ∨
    opening = unit '[' ∧ rest.head? = some none)

section Beginning

variable {document next : Document} {documents : List Document}
  {marked lead front gap rest later : Marked} {first last opening : CodeUnit}

theorem exists_begins {text : Text}
    (content : marked.reduceOption = document.text ++ text) :
    ∃ lead front later first last,
      Begins document marked lead front later first last ∧
        later.reduceOption = text := by
  obtain ⟨first, inner, last, brackets⟩ := document.brackets
  rw [brackets.text, List.cons_append, List.append_assoc] at content
  have atFirst : marked.reduceOption = [] ++ first :: _ := content
  obtain ⟨lead, more, rfl, blank, afterFirst⟩ := split_at_unit atFirst
  obtain ⟨front, later, rfl, rfl, remains⟩ := split_at_unit afterFirst
  exact ⟨lead, front, later, first, last, ⟨rfl, blank, brackets⟩, remains⟩

theorem Begins.regrouped
    (begins : Begins document marked lead front later first last) :
    marked = (lead ++ some first :: front) ++ some last :: later := by
  rw [begins.marked]
  simp

theorem Begins.content
    (begins : Begins document marked lead front later first last) :
    (lead ++ some first :: front).reduceOption ++ [last] =
      document.text := by
  rw [begins.brackets.text, List.reduceOption_append, begins.lead,
    List.reduceOption_cons_of_some]
  rfl

theorem Document.two_le_length (document : Document) :
    2 ≤ document.text.length := by
  obtain ⟨first, inner, last, brackets⟩ := document.brackets
  rw [brackets.text, List.length_cons, List.length_append]
  exact Nat.succ_le_succ (Nat.le_add_left 1 _)

theorem getLast?_cons_eq_none (first : CodeUnit) (front : Marked) :
    (some first :: front).getLast? = some none ↔
      front.getLast? = some none := by
  rw [List.getLast?_cons]
  cases front.getLast? <;> simp

theorem getLast?_append_eq_none (lead : Marked) (first : CodeUnit)
    (front : Marked) :
    (lead ++ some first :: front).getLast? = some none ↔
      front.getLast? = some none := by
  rw [List.getLast?_append, List.getLast?_cons]
  cases front.getLast? <;> simp

theorem written_cons (document : Document) (documents : List Document) :
    written (document :: documents) =
      document.text ++ (document.gap ++ written documents) := by
  rw [written, List.flatMap_cons, List.append_assoc]
  rfl

theorem severed_of_unseen
    (begins : Begins document marked lead front
      (gap ++ some opening :: rest) first last)
    (gapContent : gap.reduceOption = document.gap)
    (unseen : Unseen front gap rest last opening) :
    Severed (document :: next :: documents) marked := by
  refine ⟨[], document, next, documents, lead ++ some first :: front, last,
    opening, rest, rfl, ?_, begins.content, ?_⟩
  · rw [begins.marked, ← gapContent, ← eq_units_of_unmarked unseen.1]
    simp
  · rw [getLast?_append_eq_none]
    exact unseen.2

theorem severed_later
    (begins : Begins document marked lead front
      (gap ++ some opening :: rest) first last)
    (gapContent : gap.reduceOption = document.gap)
    (severed : Severed documents (some opening :: rest)) :
    Severed (document :: documents) marked := by
  obtain ⟨before, one, other, after, front', last', opening', rest', rfl,
    same, content, meets⟩ := severed
  refine ⟨document :: before, one, other, after,
    lead ++ some first :: (front ++ some last :: gap) ++ front', last',
    opening', rest', rfl, ?_, ?_, ?_⟩
  · rw [begins.marked, same]
    simp
  · have own := begins.content
    simp only [List.reduceOption_append, List.reduceOption_cons_of_some]
      at own ⊢
    rw [written_cons, ← own, ← gapContent, List.append_assoc _ _ [last'],
      content]
    simp
  · refine meets.imp_left fun meets => ⟨meets.1, ?_⟩
    rw [List.getLast?_append, meets.2]
    rfl

theorem severed_cases
    (begins : Begins document marked lead front
      (gap ++ some opening :: rest) first last)
    (gapContent : gap.reduceOption = document.gap)
    (severed : Severed (document :: documents) marked) :
    Unseen front gap rest last opening ∨
      Severed documents (some opening :: rest) := by
  obtain ⟨before, one, other, after, front', last', opening', rest', same,
    isMarked, content, meets⟩ := severed
  rw [begins.regrouped] at isMarked
  cases before with
  | nil =>
      left
      obtain ⟨rfl, rfl⟩ := List.cons.inj same
      have own := begins.content
      have lengths := congrArg List.length (own.trans content.symm)
      simp only [List.length_append, List.length_singleton] at lengths
      obtain ⟨rfl, rfl, between⟩ :=
        split_unique isMarked (Nat.add_right_cancel lengths)
      obtain ⟨rfl, rfl, rfl⟩ := split_unique between (by
        rw [gapContent, reduceOption_map_some])
      refine ⟨?_, ?_⟩
      · intro marks
        obtain ⟨read, -, none⟩ := List.mem_map.mp marks
        cases none
      · rwa [getLast?_append_eq_none] at meets
  | cons earlier before =>
      right
      obtain ⟨rfl, rfl⟩ := List.cons.inj same
      have own := begins.content
      have beyond : (lead ++ some first :: front ++ some last ::
          gap).reduceOption = document.text ++ document.gap := by
        rw [List.reduceOption_append, List.reduceOption_cons_of_some,
          gapContent, ← own, List.append_assoc]
        rfl
      rw [written_cons, ← List.append_assoc, List.append_assoc,
        ← beyond] at content
      have lengths := congrArg List.length content
      have long := one.two_le_length
      simp only [List.length_append, List.length_singleton] at lengths
      rw [← List.cons_append, ← List.append_assoc] at isMarked
      obtain ⟨between, rfl, later⟩ := split_later isMarked (by omega)
      rw [List.reduceOption_append, List.append_assoc] at content
      have inner := List.append_cancel_left content
      refine ⟨before, one, other, after, between, last', opening', rest', rfl,
        later, inner, meets.imp_left fun meets => ⟨meets.1, ?_⟩⟩
      have present : between ≠ [] := by
        rintro rfl
        have short := congrArg List.length inner
        simp only [List.length_append, List.length_singleton] at short
        change 0 + 1 = _ at short
        omega
      have atEnd := meets.2
      rw [List.getLast?_append] at atEnd
      rw [List.getLast?_eq_some_getLast present] at atEnd ⊢
      exact atEnd

theorem not_unseen_of_seen
    (brackets : document.Brackets first front.reduceOption last)
    (closed : (Context.plain.after front).next last ≠ .plain)
    (opened : opens (some opening :: rest) = true) :
    ¬ Unseen front gap rest last opening := by
  rintro ⟨-, marked | ⟨rfl, cut⟩⟩
  · exact closed ((context_of_closing brackets.closing brackets.before front
      rfl .plain).mpr marked)
  · rcases first_of_opens opened with other | ⟨-, second⟩
    · exact absurd other (by decide)
    · rw [cut] at second
      cases second

/-- Between documents in one chunk the parser cuts, or one of the brackets
stands at an end of the chunk. -/
theorem seen_or_unseen
    (brackets : document.Brackets first front.reduceOption last)
    {inner : Text} {text : Text} {closing : CodeUnit}
    (nextBrackets : next.Brackets opening inner closing)
    (content : rest.reduceOption = inner ++ closing :: text)
    (unmarked : none ∉ gap) :
    ((Context.plain.after front).next last ≠ .plain ∧
        opens (some opening :: rest) = true) ∨
      (((Context.plain.after front).next last = .plain ∨
          opens (some opening :: rest) = false) ∧
        Unseen front gap rest last opening) := by
  by_cases plain : (Context.plain.after front).next last = .plain
  · right
    exact ⟨.inl plain, unmarked, .inl ((context_of_closing brackets.closing
      brackets.before front rfl .plain).mp plain)⟩
  · cases opened : opens (some opening :: rest) with
    | true => exact .inl ⟨plain, rfl⟩
    | false =>
        refine .inr ⟨.inr rfl, unmarked, .inr ?_⟩
        rcases nextBrackets.opening with rfl | rfl
        · cases opened
        · refine ⟨rfl, ?_⟩
          match rest with
          | [] => simp at content
          | none :: rest => rfl
          | some second :: rest =>
              rw [List.reduceOption_cons_of_some] at content
              have brace := nextBrackets.second rfl
              cases inner with
              | nil => cases brace
              | cons head inner =>
                  cases brace
                  obtain ⟨rfl, -⟩ := List.cons.inj content
                  cases opened

end Beginning

/-! ## Any number of documents -/

section Documents

variable {limit : Nat}

theorem separator_marks_ne_nil : separator.map some ≠ [] :=
  List.cons_ne_nil _ _

theorem none_not_mem_map (text : Text) : none ∉ text.map some := by
  intro marks
  obtain ⟨read, -, isNone⟩ := List.mem_map.mp marks
  cases isNone

theorem bar_not_space {read : CodeUnit} (space : isSpace read = true) :
    some read ∉ separator.map some := by
  intro member
  obtain ⟨other, inSeparator, same⟩ := List.mem_map.mp member
  have units : ∀ other ∈ separator,
      other ≠ unit ' ' ∧ other ≠ unit '\t' ∧ other ≠ unit '\n' ∧
        other ≠ unit '\r' := by
    decide
  cases same
  obtain ⟨blank, tab, line, carriage⟩ := units _ inSeparator
  simp only [isSpace, Bool.or_eq_true, beq_iff_eq] at space
  rcases space with ((rfl | rfl) | rfl) | rfl
  · exact blank rfl
  · exact tab rfl
  · exact line rfl
  · exact carriage rfl

theorem blank_entries {gap : Marked}
    (blank : ∀ read ∈ gap.reduceOption, isSpace read = true) :
    ∀ entry ∈ gap, entry ∉ separator.map some := by
  intro entry member
  cases entry with
  | none => exact none_not_mem_map separator
  | some read =>
      exact bar_not_space (blank read (List.reduceOption_mem_iff.mpr member))

theorem not_separator_of_blank {gap : Marked}
    (blank : ∀ read ∈ gap.reduceOption, isSpace read = true) :
    ¬ separator.map some <:+: gap := by
  intro within
  rw [← List.append_nil gap, infix_beyond_iff separator_marks_ne_nil
    (blank_entries blank)] at within
  exact separator_marks_ne_nil (List.infix_nil.mp within)

/-- Separators lie within documents. -/
theorem separator_begins_iff {document : Document}
    {marked lead front later : Marked} {first last : CodeUnit}
    (begins : Begins document marked lead front later first last) :
    separator.map some <:+: marked ↔
      separator.map some <:+: front ∨ separator.map some <:+: later := by
  have leadBlank : ∀ read ∈ lead.reduceOption, isSpace read = true := by
    rw [begins.lead]
    exact List.forall_mem_nil _
  have firstAbsent : ∀ entry ∈ [some first], entry ∉ separator.map some := by
    intro entry member
    rw [List.mem_singleton.mp member]
    rcases begins.brackets.opening with rfl | rfl <;> decide
  rw [begins.marked, infix_beyond_iff separator_marks_ne_nil
    (blank_entries leadBlank), ← List.singleton_append,
    infix_beyond_iff separator_marks_ne_nil firstAbsent,
    infix_across_iff separator_marks_ne_nil
      begins.brackets.closing.notSeparating]

/-- The first document, up to its last bracket. -/
theorem feed_first {document : Document}
    {marked lead front later : Marked} {first last : CodeUnit}
    (begins : Begins document marked lead front later first last)
    {spaces : Text} (blank : ∀ read ∈ spaces, isSpace read = true)
    (fits : (spaces ++ document.text).length ≤ limit) :
    ∃ events more tree, feed limit spaces events = some ⟨[], more⟩ ∧
      JsonText.run initial more = some ⟨[], .done tree⟩ ∧ tree.IsComposite ∧
      (tree = document.tree ↔ ¬ separator.map some <:+: front) ∧
      more.length ≤ (spaces ++ document.text).length ∧
      cuts .plain marked =
        events ++ cuts ((Context.plain.after front).next last) later := by
  have leadBlank : ∀ read ∈ lead.reduceOption, isSpace read = true := by
    rw [begins.lead]
    exact List.forall_mem_nil _
  obtain ⟨events, tree, reads, short, same⟩ :=
    cuts_document limit document.isDocument begins.brackets.toEnclosed front
      later rfl blank
  have notLonger : (spaces ++ first :: (strip front ++ [last])).length ≤
      (spaces ++ document.text).length := by
    rw [begins.brackets.text]
    simp only [List.length_append, List.length_cons, List.length_nil]
    omega
  have short' : spaces.length ≤ limit := by
    rw [List.length_append] at fits
    omega
  refine ⟨lead ++ events, _, tree, ?_, reads.run, reads.composite,
    reads.same, notLonger, ?_⟩
  · have fedLead : feed limit spaces lead =
        some ⟨[], spaces ++ lead.reduceOption⟩ := feed_spaces blank leadBlank (by
      rw [begins.lead]
      exact short')
    rw [feed_after fedLead, begins.lead, List.append_nil,
      reads.fed (Nat.le_trans notLonger fits)]
    rfl
  · rw [begins.marked, cuts_blank leadBlank, same, List.append_assoc]

theorem not_severed_single (document : Document) (marked : Marked) :
    ¬ Severed [document] marked := by
  rintro ⟨before, one, other, after, front, last, opening, rest, same, -⟩
  have lengths := congrArg List.length same
  simp only [List.length_append, List.length_cons, List.length_nil]
    at lengths
  omega

theorem none_mem_of_getLast? {marked : Marked}
    (ends : marked.getLast? = some none) : none ∈ marked :=
  List.mem_of_getLast? ends

/-- What comes of documents in a marked stream, when nothing grows too
long. -/
theorem feed_documents {documents : List Document} {marked : Marked}
    {spaces : Text} (blank : ∀ read ∈ spaces, isSpace read = true)
    (content : marked.reduceOption = written documents)
    (ends : marked.getLast? = some none ∨ documents = [])
    (fits : (spaces ++ written documents).length ≤ limit) :
    ∃ fed, feed limit spaces (cuts .plain marked) = some fed ∧
      (fed.values = documents.map Document.tree ↔
        ¬ Severed documents marked ∧ ¬ separator.map some <:+: marked) := by
  induction documents generalizing marked spaces with
  | nil =>
      have nothing : marked.reduceOption = [] := content
      have marksBlank : ∀ read ∈ marked.reduceOption,
          isSpace read = true := by
        rw [nothing]
        exact List.forall_mem_nil _
      have same := cuts_blank marksBlank []
      rw [cuts_nil, List.append_nil] at same
      refine ⟨⟨[], spaces ++ marked.reduceOption⟩, ?_, ?_⟩
      · rw [same]
        apply feed_spaces blank marksBlank
        rwa [nothing, ← List.length_append]
      · refine iff_of_true rfl ⟨?_, not_separator_of_blank marksBlank⟩
        rintro ⟨before, one, other, after, front, last, opening, rest, none,
          -⟩
        exact absurd none.symm (List.append_ne_nil_of_right_ne_nil _
          (List.cons_ne_nil _ _))
  | cons document documents induction =>
      rw [written_cons] at content fits
      have ended := ends.resolve_right (List.cons_ne_nil _ _)
      obtain ⟨lead, front, later, first, last, begins, laterContent⟩ :=
        exists_begins content
      simp only [List.length_append] at fits
      have ownRoom : (spaces ++ document.text).length ≤ limit := by
        rw [List.length_append]
        omega
      obtain ⟨events, more, tree, fed, run, composite, same, short, cut⟩ :=
        feed_first begins blank ownRoom
      rw [List.length_append] at short
      rw [begins.regrouped, getLast?_append_eq_none] at ended
      rw [cut, feed_after fed, separator_begins_iff begins]
      cases documents with
      | nil =>
          rw [written, List.flatMap_nil, List.append_nil] at laterContent
          have room : (more ++ later.reduceOption).length ≤ limit := by
            rw [List.length_append, laterContent]
            omega
          obtain ⟨gapEvents, rest, cutGap, fedGap, -, -⟩ :=
            cuts_marked_gap (none_mem_of_getLast? ended)
              (laterContent ▸ document.blank_gap) run composite room []
          rw [List.append_nil, cuts_nil, List.append_nil] at cutGap
          rw [cutGap, fedGap]
          refine ⟨⟨[tree], rest⟩, rfl, ?_⟩
          have apart : ¬ separator.map some <:+: later :=
            not_separator_of_blank (laterContent ▸ document.blank_gap)
          simp only [List.map_cons, List.map_nil, List.cons.injEq, and_true,
            not_or, same]
          exact ⟨fun whole => ⟨not_severed_single document marked, whole,
            apart⟩, fun both => both.2.1⟩
      | cons next documents =>
          obtain ⟨opening, inner, closing, nextBrackets⟩ := next.brackets
          have laterText : later.reduceOption = document.gap ++
              opening :: (inner ++ closing ::
                (next.gap ++ written documents)) := by
            rw [laterContent, written_cons, nextBrackets.text]
            simp
          obtain ⟨gap, rest, rfl, gapContent, restContent⟩ :=
            split_at_unit laterText
          rw [getLast?_append_eq_none, ← getLast?_cons_eq_none opening]
            at ended
          have nextContent : (some opening :: rest).reduceOption =
              written (next :: documents) := by
            rw [List.reduceOption_cons_of_some, restContent, written_cons,
              nextBrackets.text]
            simp
          have gapBlank : ∀ read ∈ gap.reduceOption, isSpace read = true := by
            rw [gapContent]
            exact document.blank_gap
          rw [infix_beyond_iff separator_marks_ne_nil
            (blank_entries gapBlank)]
          -- What follows is the same wherever the parser cut before it.
          have delivered : ∀ gapEvents nextSpaces,
              cuts ((Context.plain.after front).next last)
                  (gap ++ some opening :: rest) =
                gapEvents ++ cuts .plain (some opening :: rest) →
              feed limit more gapEvents = some ⟨[tree], nextSpaces⟩ →
              (∀ read ∈ nextSpaces, isSpace read = true) →
              nextSpaces.length ≤ document.gap.length →
              ¬ Unseen front gap rest last opening →
              ∃ fed, Option.map (Fed.andThen ⟨[], more⟩) (feed limit more
                  (cuts ((Context.plain.after front).next last)
                    (gap ++ some opening :: rest))) = some fed ∧
                (fed.values =
                    (document :: next :: documents).map Document.tree ↔
                  ¬ Severed (document :: next :: documents) marked ∧
                    ¬ (separator.map some <:+: front ∨
                      separator.map some <:+: some opening :: rest)) := by
            intro gapEvents nextSpaces cutGap fedGap nextBlank nextShort seen
            obtain ⟨nextFed, isNext, iff⟩ := induction nextBlank nextContent
              (.inl ended) (by
                rw [List.length_append]
                omega)
            refine ⟨Fed.andThen ⟨[tree], nextSpaces⟩ nextFed, ?_, ?_⟩
            · rw [cutGap, feed_after fedGap, isNext]
              rfl
            · have severed : Severed (document :: next :: documents) marked ↔
                  Severed (next :: documents) (some opening :: rest) := by
                constructor
                · intro severed
                  exact (severed_cases begins gapContent severed).resolve_left
                    seen
                · exact severed_later begins gapContent
              change tree :: nextFed.values = document.tree :: _ ↔ _
              rw [List.cons.injEq, same, severed, not_or]
              constructor
              · rintro ⟨whole, values⟩
                exact ⟨(iff.mp values).1, whole, (iff.mp values).2⟩
              · rintro ⟨whole, apart, others⟩
                exact ⟨apart, iff.mpr ⟨whole, others⟩⟩
          by_cases isMarked : none ∈ gap
          · have room : (more ++ gap.reduceOption).length ≤ limit := by
              rw [List.length_append, gapContent]
              omega
            obtain ⟨gapEvents, nextSpaces, cutGap, fedGap, nextBlank,
              nextShort⟩ := cuts_marked_gap isMarked gapBlank run composite
                room (some opening :: rest)
            exact delivered gapEvents nextSpaces cutGap fedGap nextBlank
              (by rwa [gapContent] at nextShort) fun unseen => unseen.1 isMarked
          · have units : gap = document.gap.map some := by
              rw [← gapContent]
              exact eq_units_of_unmarked isMarked
            rcases seen_or_unseen begins.brackets nextBrackets restContent
              isMarked with ⟨closed, opened⟩ | ⟨hidden, unseen⟩
            · refine delivered [none] [] ?_
                (feed_document run composite (by omega))
                (List.forall_mem_nil _) (Nat.zero_le _)
                (not_unseen_of_seen begins.brackets closed opened)
              rw [units]
              exact cuts_seen_gap document closed opened
            · have cutGap := cuts_unseen_gap document nextBrackets.opening
                hidden
              have dead := run_merged run document.blank_gap
                nextBrackets.opening
              have fewer := length_cuts .plain rest
              rw [restContent] at fewer
              rw [written_cons, nextBrackets.text] at fits
              simp only [List.length_append, List.length_cons,
                List.length_nil] at fits fewer
              have room : (more ++ document.gap ++ [opening]).length +
                  (cuts .plain rest).reduceOption.length ≤ limit := by
                simp only [List.length_append, List.length_singleton]
                omega
              have fedRest := feed_dead dead room
              refine ⟨⟨[], more ++ document.gap ++ [opening] ++
                (cuts .plain rest).reduceOption⟩, ?_, ?_⟩
              · rw [units, cutGap, feed_units, feed, fedRest]
                rfl
              · refine iff_of_false ?_ fun both => both.1
                  (severed_of_unseen begins gapContent unseen)
                intro nothing
                cases nothing

end Documents

/-! ## Chunks -/

section Chunks

variable {chunks : List Text}

theorem reduceOption_marks (chunks : List Text) :
    (marks chunks).reduceOption = chunks.flatten := by
  induction chunks with
  | nil => rfl
  | cons chunk chunks induction =>
      rw [marks_cons, List.reduceOption_append, reduceOption_map_some,
        List.reduceOption_cons_of_none, induction, List.flatten_cons]

theorem getLast?_marks (present : chunks ≠ []) :
    (marks chunks).getLast? = some none := by
  rcases List.eq_nil_or_concat' chunks with rfl | ⟨before, last, rfl⟩
  · exact absurd rfl present
  · rw [marks, List.flatMap_append, List.flatMap_singleton,
      ← List.append_assoc, List.getLast?_concat]

theorem separator_marks_iff :
    separator.map some <:+: marks chunks ↔
      ∃ chunk ∈ chunks, separator <:+: chunk := by
  induction chunks with
  | nil =>
      change _ <:+: [] ↔ _
      rw [List.infix_nil]
      constructor
      · intro nothing
        exact absurd nothing separator_marks_ne_nil
      · rintro ⟨chunk, member, -⟩
        cases member
  | cons chunk chunks induction =>
      have units : separator.map some <:+: chunk.map some ↔
          separator <:+: chunk := by
        constructor
        · rintro ⟨front, tail, whole⟩
          refine ⟨front.reduceOption, tail.reduceOption, ?_⟩
          have same := congrArg List.reduceOption whole
          rwa [List.reduceOption_append, List.reduceOption_append,
            reduceOption_map_some, reduceOption_map_some] at same
        · exact fun within => within.map some
      rw [marks_cons, infix_across_iff separator_marks_ne_nil
        (none_not_mem_map separator), units, induction]
      simp

end Chunks

namespace ChunkResponseParser

/-- A new parser returns the documents from the chunks. -/
def Lossless (errorListened autoReconnect : Bool)
    (documents : List Document) (chunks : List Text) : Prop :=
  (parseEach errorListened { autoReconnect } chunks).returnValues =
    some (documents.map Document.tree)

theorem lossless_iff (errorListened autoReconnect : Bool)
    {documents : List Document} {chunks : List Text}
    (content : chunks.flatten = written documents)
    (short : (written documents).length < maxChunkBytes) :
    Lossless errorListened autoReconnect documents chunks ↔
      ¬ Severed documents (marks chunks) ∧
        ∀ chunk ∈ chunks, ¬ separator <:+: chunk := by
  have ends : (marks chunks).getLast? = some none ∨ documents = [] := by
    cases documents with
    | nil => exact .inr rfl
    | cons document documents =>
        left
        apply getLast?_marks
        rintro rfl
        have lengths := congrArg List.length content
        have long := document.two_le_length
        rw [written_cons, List.length_append] at lengths
        change 0 = _ at lengths
        omega
  obtain ⟨fed, isFed, iff⟩ := feed_documents (List.forall_mem_nil _)
    ((reduceOption_marks chunks).trans content) ends (Nat.le_of_lt short)
  have gives : Gives (parseEach errorListened { autoReconnect } chunks) fed :=
    parseEach_gives errorListened isFed
  rw [Lossless, gives.returnValues, Option.some.injEq, iff,
    separator_marks_iff]
  simp only [not_exists, not_and]

/-- `[{}]` and `{}` -/
def emptyObjects : List Document :=
  [{ text := plainText "[\x7b\x7d]"
     tree := .array [.object []]
     gap := []
     isDocument :=
      ⟨rfl, ⟨plainText "\x7b\x7d]", .inr rfl⟩,
        ⟨plainText "[\x7b\x7d", .inr rfl⟩⟩
     edges := .inr ⟨[], rfl⟩
     gap_cases := .inl rfl },
   { text := plainText "\x7b\x7d"
     tree := .object []
     gap := []
     isDocument :=
      ⟨rfl, ⟨plainText "\x7d", .inl rfl⟩, ⟨plainText "\x7b", .inl rfl⟩⟩
     edges := .inl ⟨[], rfl⟩
     gap_cases := .inl rfl }]

theorem lossless_iff_emptyObjects :
    Lossless true true emptyObjects
        [plainText "[\x7b\x7d", plainText "]\x7b\x7d"] ↔
      ¬ Severed emptyObjects
          (marks [plainText "[\x7b\x7d", plainText "]\x7b\x7d"]) ∧
        ∀ chunk ∈ [plainText "[\x7b\x7d", plainText "]\x7b\x7d"],
          ¬ separator <:+: chunk :=
  lossless_iff true true rfl (by decide)

/-- The array's bracket begins the second chunk. -/
theorem not_lossless : ¬ ∀ (errorListened autoReconnect : Bool)
    (documents : List Document) (chunks : List Text),
    chunks.flatten = written documents →
    (written documents).length < maxChunkBytes →
    Lossless errorListened autoReconnect documents chunks := by
  intro lossless
  have returned := lossless true true emptyObjects
    [plainText "[\x7b\x7d", plainText "]\x7b\x7d"] rfl (by decide)
  have nothing : (parseEach true { autoReconnect := true }
      [plainText "[\x7b\x7d", plainText "]\x7b\x7d"]).returnValues =
        some [] := rfl
  rw [Lossless, nothing] at returned
  cases returned

end ChunkResponseParser

end Web3Js.Socket
