import Web3Js.Abi.Outlines
import Web3Js.Abi.Results

/-!
# Decoding along an outline

The contracts' coder, without loose reads, returns at every place a value of
the outline of the place, and throws where there is none.  Each coder class
follows the part of its type; what it throws is an overrun exactly where the
data end.
-/

namespace Web3Js.Abi

/-! ## Values and their outlines -/

mutual

def Decoded.outline : Decoded → Outline
  | .null => .null
  | .boolean _ | .number _ | .bigNumber _ | .string _ => .scalar
  | .bigint _ => .bigint
  | .result elements named => .frame (Decoded.outlines elements) named
  | .failure _ _ _ _ => .faulty

def Decoded.outlines : List Decoded → List Outline
  | [] => []
  | element :: elements => element.outline :: Decoded.outlines elements

end

theorem Decoded.outlines_eq_map (elements : List Decoded) :
    Decoded.outlines elements = elements.map Decoded.outline := by
  induction elements with
  | nil => rfl
  | cons element elements induction =>
      rw [Decoded.outlines, induction, List.map_cons]

theorem Decoded.isNull_outline (decoded : Decoded) :
    decoded.outline.isNull = decoded.isNull := by
  cases decoded <;> rfl

/-- Why an error is thrown. -/
def Stop.of (problem : Error) : Stop :=
  if problem.code = .bufferOverrun then .short else .faulty

section Outlined

variable {α β γ : Type}

/-- The outcome of a step without the values. -/
def outlined (view : α → β) : Except Error α → Except Stop β
  | .ok value => .ok (view value)
  | .error problem => .error (Stop.of problem)

end Outlined

/-! ## Readers -/

/-- A reader of the contracts' coder, without loose reads, within its data. -/
structure Reader.Strict (reader : Reader) : Prop where
  contracts : reader.coerceFunc = ethersAbiCoder.coerceFunc
  exact : reader.allowLoose = false
  within : reader.offset ≤ reader.data.length

namespace Reader

variable {reader : Reader}

theorem Strict.advance (strict : reader.Strict) {length : Nat}
    (present : length ≤ reader.ahead.length) :
    (reader.advance length).Strict := by
  refine ⟨strict.contracts, strict.exact, ?_⟩
  have within := strict.within
  rw [ahead, List.length_drop] at present
  simp only [Reader.advance]
  omega

theorem Strict.subReader (strict : reader.Strict) (offset : Nat) :
    (reader.subReader offset).Strict :=
  ⟨strict.contracts, strict.exact, Nat.zero_le _⟩

theorem ahead_of_start (start : reader.offset = 0) :
    reader.ahead = reader.data := by
  rw [ahead, start, List.drop_zero]

/-- A step finds what is at the place ahead and moves over it, or throws for
the same reason for which nothing is found. -/
def Finds {α : Type} (reader : Reader) (read : Read α)
    (found : Except Stop α) (size : Nat) : Prop :=
  (∃ value, found = .ok value ∧ size ≤ reader.ahead.length ∧
    read reader = (.ok value, reader.advance size)) ∨
  ∃ problem moved, found = .error (Stop.of problem) ∧
    read reader = (.error problem, moved)

theorem finds_readBytes (strict : reader.Strict) (length : Nat)
    (loose : Bool) :
    reader.Finds (readBytes length loose) (bytesAt length reader.ahead)
      (aligned length) := by
  have within := strict.within
  have room : reader.ahead.length = reader.data.length - reader.offset := by
    rw [ahead, List.length_drop]
  by_cases fits : aligned length ≤ reader.ahead.length
  · have covered : length ≤ aligned length := by
      rw [aligned, wordSize]
      omega
    have inside : reader.offset + aligned length ≤ reader.data.length := by
      omega
    have peeked : reader.peekBytes length loose =
        .ok (reader.ahead.take (aligned length)) := by
      rw [peekBytes, ← aligned]
      exact if_pos inside
    refine .inl ⟨reader.ahead.take length, if_pos fits, fits, ?_⟩
    simp only [readBytes, peeked, List.take_take, Nat.min_eq_left covered,
      List.length_take, Nat.min_eq_left fits]
    rfl
  · have outside : ¬reader.offset + aligned length ≤ reader.data.length := by
      omega
    have peeked : reader.peekBytes length loose =
        .error { code := .bufferOverrun, message := "data out-of-bounds" } := by
      rw [peekBytes, ← aligned]
      simp only [if_neg outside, strict.exact, Bool.false_eq_true, false_and,
        if_false]
    refine .inr ⟨{ code := .bufferOverrun, message := "data out-of-bounds" },
      reader, if_neg fits, ?_⟩
    simp only [readBytes, peeked]

/-- What is found is used in the next step. -/
theorem Finds.bind {α β γ : Type} {read : Read α} {next : α → Read β}
    {found : Except Stop α} {followed : α → Except Stop γ} {view : β → γ}
    {size : Nat} (first : reader.Finds read found size)
    (second : ∀ value, found = .ok value → size ≤ reader.ahead.length →
      outlined view (next value (reader.advance size)).1 = followed value) :
    outlined view ((read >>= next) reader).1 = found >>= followed := by
  obtain ⟨value, done, present, run⟩ | ⟨problem, moved, stopped, run⟩ := first
  · rw [Read.bind_of_ok run, done, Outcome.ok_bind]
    exact second value done present
  · simp only [Bind.bind, run, stopped]
    rfl

theorem finds_readValue (strict : reader.Strict) :
    reader.Finds readValue (wordAt reader.ahead) wordSize := by
  obtain ⟨bytes, done, present, run⟩ | ⟨problem, moved, stopped, run⟩ :=
    finds_readBytes strict wordSize false
  · refine .inl ⟨BigEndian.toNat bytes, ?_, present, ?_⟩
    · rw [wordAt, done]
      rfl
    · rw [readValue, Read.bind_of_ok run]
      rfl
  · refine .inr ⟨problem, moved, ?_, ?_⟩
    · rw [wordAt, stopped]
      rfl
    · simp only [readValue, Bind.bind, run]

/-- A number that is read as a link or a length. -/
def readSafe : Read Nat := do
  let number ← readValue
  let number ← Read.lift (BigNumber.toNumber number)
  pure number.toNat

theorem finds_readSafe (strict : reader.Strict) :
    reader.Finds readSafe (safeAt reader.ahead) wordSize := by
  obtain ⟨number, done, present, run⟩ | ⟨problem, moved, stopped, run⟩ :=
    finds_readValue strict
  · by_cases safe : number ≤ maxSafeInteger
    · refine .inl ⟨number, ?_, present, ?_⟩
      · rw [safeAt, done, Outcome.ok_bind, if_pos safe]
      · rw [readSafe, Read.bind_of_ok run, BigNumber.toNumber,
          if_pos (by simpa using safe)]
        rfl
    · refine .inr ⟨{ code := .numericFault, message := "overflow" },
        reader.advance wordSize, ?_, ?_⟩
      · rw [safeAt, done, Outcome.ok_bind, if_neg safe]
        rfl
      · rw [readSafe, Read.bind_of_ok run, BigNumber.toNumber,
          if_neg (by simpa using safe)]
        rfl
  · refine .inr ⟨problem, moved, ?_, ?_⟩
    · rw [safeAt, stopped]
      rfl
    · simp only [readSafe, Bind.bind, run]

theorem readSafe_bind {α : Type} (next : Nat → Read α) (reader : Reader) :
    (readSafe >>= next) reader =
      (readValue >>= fun number =>
        Read.lift (BigNumber.toNumber number) >>= fun number =>
          next number.toNat) reader := by
  simp only [readSafe, Bind.bind]
  cases readValue reader with
  | mk outcome moved =>
      cases outcome with
      | error problem => rfl
      | ok number =>
          dsimp only [Read.lift]
          cases BigNumber.toNumber number <;> rfl

/-- Only big numbers are changed. -/
theorem coerce_of_strict (strict : reader.Strict) (name : String)
    {value : Decoded} (other : ∀ integer, value ≠ .bigNumber integer) :
    coerce name value reader = (.ok value, reader) := by
  rw [coerce, strict.contracts]
  cases value with
  | bigNumber integer => exact absurd rfl (other integer)
  | null | boolean | number | bigint | string | result | failure => rfl

end Reader

/-! ## Components -/

/-- A value of an element: what is thrown at it is not an overrun. -/
def Decoded.IsElement : Decoded → Prop
  | .failure problem _ _ _ => problem.code ≠ .bufferOverrun
  | _ => True

/-- A coder follows the part of its type.  A dynamic value starts where its
link leads; a static one is moved over, even where it is an error. -/
structure Follows (coder : Coder) (part : Part) : Prop where
  name : coder.localName = part.name
  dynamic : coder.dynamic = part.dynamic
  outline_ne : ∀ place, part.outline place ≠ .ok .faulty
  decode : ∀ reader : Reader, reader.Strict →
    (part.dynamic = true → reader.offset = 0) →
      outlined Decoded.outline (coder.decode reader).1 =
        part.outline reader.ahead
  moves : ∀ reader : Reader, reader.Strict → part.dynamic = false →
    part.outline reader.ahead ≠ .error .short →
      part.size ≤ reader.ahead.length ∧
        (coder.decode reader).2 = reader.advance part.size

theorem outlined_deferError (coder : Coder) (decode : Read Decoded)
    (reader : Reader) :
    outlined Decoded.outline (deferError coder decode reader).1 =
        deferStop (outlined Decoded.outline (decode reader).1) ∧
      (deferError coder decode reader).2 = (decode reader).2 := by
  rw [deferError]
  cases ran : decode reader with
  | mk outcome moved =>
      cases outcome with
      | ok value => exact ⟨rfl, rfl⟩
      | error problem =>
          by_cases overrun : problem.code = .bufferOverrun
          · simp only [if_pos overrun, outlined, Stop.of, and_true]
            rfl
          · simp only [if_neg overrun, outlined, Stop.of, and_true]
            rfl

/-- What a deferring step returns is an element. -/
theorem isElement_of_deferError {coder : Coder} {part : Part}
    (follows : Follows coder part) {reader : Reader} (strict : reader.Strict)
    (start : part.dynamic = true → reader.offset = 0) {value : Decoded}
    (done : (deferError coder coder.decode reader).1 = .ok value) :
    value.IsElement := by
  have found := follows.decode reader strict start
  rw [deferError] at done
  cases ran : coder.decode reader with
  | mk outcome moved =>
      rw [ran] at done found
      cases outcome with
      | ok decoded =>
          obtain rfl := Except.ok.inj done
          cases decoded with
          | failure problem baseType name type =>
              exact absurd found.symm (follows.outline_ne reader.ahead)
          | null | boolean | number | bigint | bigNumber | string | result =>
              trivial
      | error problem =>
          by_cases overrun : problem.code = .bufferOverrun
          · simp only [if_pos overrun] at done
            cases done
          · simp only [if_neg overrun] at done
            obtain rfl := Except.ok.inj done
            exact overrun

/-- A component is read at its head place, which the reader moves over. -/
structure Component (part : Part) (base : Bytes) (reader : Reader)
    (result : Except Error Decoded × Reader) : Prop where
  outline : outlined Decoded.outline result.1 =
    part.outlineIn base reader.ahead
  moves : ∀ value, result.1 = .ok value → value.IsElement ∧
    part.step ≤ reader.ahead.length ∧ result.2 = reader.advance part.step

theorem unpackComponent_follows {coder : Coder} {part : Part}
    (follows : Follows coder part) {reader baseReader : Reader}
    (strict : reader.Strict) (baseStrict : baseReader.Strict)
    (start : baseReader.offset = 0) :
    Component part baseReader.data reader
      (unpackComponent baseReader coder reader) := by
  rw [unpackComponent, follows.dynamic]
  cases dynamic : part.dynamic with
  | true =>
      rw [if_pos rfl]
      have step : part.step = wordSize := by rw [Part.step, if_pos dynamic]
      have within : part.outlineIn baseReader.data reader.ahead =
          safeAt reader.ahead >>= fun link =>
            deferStop (part.outline (baseReader.data.drop link)) := by
        rw [Part.outlineIn, if_pos dynamic]
      have landed : ∀ link, (baseReader.subReader link).ahead =
          baseReader.data.drop link := by
        intro link
        rw [Reader.ahead_of_start rfl, Reader.subReader, start, Nat.zero_add]
      rw [← Reader.readSafe_bind fun link => Read.lift
        (deferError coder coder.decode (baseReader.subReader link)).1]
      obtain ⟨link, done, present, run⟩ | ⟨problem, moved, stopped, run⟩ :=
        Reader.finds_readSafe strict
      · rw [Read.bind_of_ok run]
        obtain ⟨deferred, -⟩ := outlined_deferError coder coder.decode
          (baseReader.subReader link)
        refine ⟨?_, ?_⟩
        · rw [within, done, Outcome.ok_bind, ← landed, ← follows.decode _
            (baseStrict.subReader link) fun _ => rfl]
          exact deferred
        · intro value returned
          exact ⟨isElement_of_deferError follows
            (baseStrict.subReader link) (fun _ => rfl) returned,
            step ▸ present, by rw [step]; rfl⟩
      · simp only [Bind.bind, run]
        refine ⟨?_, by rintro _ ⟨⟩⟩
        rw [within, stopped]
        rfl
  | false =>
      rw [if_neg Bool.false_ne_true]
      have fixed : part.dynamic = true → reader.offset = 0 := by
        rw [dynamic]
        rintro ⟨⟩
      have step : part.step = part.size := by
        rw [Part.step, dynamic]
        rfl
      obtain ⟨deferred, moved⟩ := outlined_deferError coder coder.decode reader
      have found := follows.decode reader strict fixed
      refine ⟨?_, ?_⟩
      · rw [deferred, found, Part.outlineIn, dynamic]
        rfl
      · intro value returned
        have present : part.outline reader.ahead ≠ .error .short := by
          intro short
          rw [returned, found, short] at deferred
          cases deferred
        obtain ⟨within, passed⟩ := follows.moves reader strict dynamic present
        exact ⟨isElement_of_deferError follows strict fixed returned,
          step ▸ within, by rw [moved, passed, step]⟩

/-! ## Frames -/

/-- The values of components as they are read one after another. -/
structure Unpacked (parts : List Part) (base : Bytes) (reader : Reader)
    (earlier : List Decoded)
    (result : Except Error (List Decoded) × Reader) : Prop where
  outline : outlined (List.map Decoded.outline) result.1 =
    (outlineParts base parts reader.ahead).map
      (earlier.map Decoded.outline ++ ·)
  moves : ∀ values, result.1 = .ok values →
    (∀ value ∈ values, value.IsElement) ∧
      (parts.map Part.step).sum ≤ reader.ahead.length ∧
      result.2 = reader.advance (parts.map Part.step).sum

theorem unpackValues_follows {coders : List Coder} {parts : List Part}
    (follows : List.Forall₂ Follows coders parts) {reader baseReader : Reader}
    (strict : reader.Strict) (baseStrict : baseReader.Strict)
    (start : baseReader.offset = 0) {earlier : List Decoded}
    (elements : ∀ value ∈ earlier, value.IsElement) :
    Unpacked parts baseReader.data reader earlier
      (coders.foldlM (pushComponent baseReader) earlier reader) := by
  induction follows generalizing reader earlier with
  | nil =>
      refine ⟨?_, ?_⟩
      · exact congrArg Except.ok (List.append_nil _).symm
      · intro values done
        obtain rfl := Except.ok.inj done
        exact ⟨elements, Nat.zero_le _, rfl⟩
  | @cons coder part coders parts followsHead _ induction =>
      obtain ⟨found, moves⟩ :=
        unpackComponent_follows followsHead strict baseStrict start
      rw [List.foldlM_cons]
      simp only [pushComponent]
      cases ran : unpackComponent baseReader coder reader with
      | mk outcome moved =>
          rw [ran] at found moves
          cases outcome with
          | error problem =>
              simp only [Bind.bind, ran]
              refine ⟨?_, by rintro _ ⟨⟩⟩
              rw [outlineParts, ← found]
              rfl
          | ok value =>
              obtain ⟨isElement, present, rfl⟩ := moves value rfl
              have pushed : ∀ other ∈ (if value.isNull = true then earlier
                  else earlier ++ [value]), other.IsElement := by
                intro other member
                split at member
                · exact elements other member
                · obtain old | new := List.mem_append.mp member
                  · exact elements other old
                  · obtain rfl := List.mem_singleton.mp new
                    exact isElement
              have rest := induction (strict.advance present) pushed
              have stepped : (do
                  let value ← unpackComponent baseReader coder
                  pure (if value.isNull = true then earlier
                    else earlier ++ [value]) : Read (List Decoded)) reader =
                  (.ok (if value.isNull = true then earlier
                    else earlier ++ [value]), reader.advance part.step) := by
                rw [Read.bind_of_ok ran]
                rfl
              rw [Read.bind_of_ok stepped]
              have place := reader.ahead_advance part.step
              refine ⟨?_, ?_⟩
              · rw [rest.outline, outlineParts, ← found, place]
                dsimp only [outlined]
                rw [Outcome.ok_bind]
                cases outlineParts baseReader.data parts
                    (reader.ahead.drop part.step) with
                | error stop => rfl
                | ok outlines =>
                    rw [Outcome.ok_bind, Decoded.isNull_outline]
                    cases value.isNull with
                    | true => rfl
                    | false => simp [Except.map]
              · intro values done
                obtain ⟨all, within, passed⟩ := rest.moves values done
                rw [place, List.length_drop] at within
                refine ⟨all, ?_, ?_⟩
                · rw [List.map_cons, List.sum_cons]
                  omega
                · rw [passed, Reader.advance_advance, List.map_cons,
                    List.sum_cons]

section Names

/-- Coders of the same names. -/
def nullCoders (coders : List Coder) : List Coder :=
  coders.map fun coder => NullCoder coder.localName

theorem componentNames_nullCoders (coders : List Coder) :
    componentNames (nullCoders coders) = componentNames coders := by
  rw [componentNames, nullCoders, List.filterMap_map]
  rfl

theorem zipIdx_nullCoders (coders : List Coder) :
    (nullCoders coders).zipIdx = coders.zipIdx.map fun component =>
      (NullCoder component.1.localName, component.2) := by
  rw [nullCoders, List.zipIdx_map]
  rfl

/-- Properties depend on the names alone. -/
theorem namedProperties_nullCoders (coders : List Coder) (length : Nat) :
    namedProperties (nullCoders coders) length =
      namedProperties coders length := by
  rw [namedProperties, componentNames_nullCoders, zipIdx_nullCoders,
    List.foldl_map]
  rfl

theorem resultReads_nullCoders (coders : List Coder) (length : Nat) :
    resultReads (nullCoders coders) length = resultReads coders length := by
  have reads : ∀ (names : List String) (components : List (Coder × Nat))
      (named : List (String × Nat)),
      propertyReads names length (components.map fun component =>
          (NullCoder component.1.localName, component.2)) named =
        propertyReads names length components named := by
    intro names components
    induction components with
    | nil => exact fun _ => rfl
    | cons component components induction =>
        intro named
        rw [List.map_cons, propertyReads, propertyReads, induction]
        rfl
  rw [resultReads, componentNames_nullCoders, zipIdx_nullCoders, reads]
  rfl

theorem nameCoders_of_follows {coders : List Coder} {parts : List Part}
    (follows : List.Forall₂ Follows coders parts) :
    nameCoders parts = nullCoders coders := by
  rw [nameCoders, nullCoders]
  induction follows with
  | nil => rfl
  | cons head _ induction =>
      rw [List.map_cons, List.map_cons, induction, head.name]

end Names

/-- An element that is read is an error exactly where its outline shows one. -/
theorem isSome_elementProblem (values : List Decoded) (position : Nat) :
    (elementProblem values position).isSome =
      ((values.map Decoded.outline)[position]?).any Outline.isFaulty := by
  rw [elementProblem, List.getElem?_map]
  cases values[position]? with
  | none => rfl
  | some value => cases value <;> rfl

theorem outlined_completeResult {coders : List Coder} {parts : List Part}
    (follows : List.Forall₂ Follows coders parts) {values : List Decoded}
    (elements : ∀ value ∈ values, value.IsElement) :
    outlined Decoded.outline (completeResult coders values) =
      completeFrame parts (values.map Decoded.outline) := by
  rw [completeResult_eq, completeFrame, nameCoders_of_follows follows,
    resultReads_nullCoders, namedProperties_nullCoders, List.length_map]
  cases found : (resultReads coders values.length).findSome?
      (elementProblem values) with
  | none =>
      have quiet : ((resultReads coders values.length).any fun position =>
          ((values.map Decoded.outline)[position]?).any Outline.isFaulty) =
            false := by
        rw [List.any_eq_false]
        intro position member
        rw [← isSome_elementProblem,
          List.findSome?_eq_none_iff.mp found position member]
        exact Bool.false_ne_true
      rw [quiet]
      dsimp only [outlined]
      rw [Decoded.outline, Decoded.outlines_eq_map]
      rfl
  | some problem =>
      obtain ⟨position, member, failed⟩ :=
        List.exists_of_findSome?_eq_some found
      have noisy : ((resultReads coders values.length).any fun position =>
          ((values.map Decoded.outline)[position]?).any Outline.isFaulty) =
            true := by
        rw [List.any_eq_true]
        refine ⟨position, member, ?_⟩
        rw [← isSome_elementProblem, failed]
        rfl
      have code : problem.code ≠ .bufferOverrun := by
        rw [elementProblem] at failed
        split at failed
        · rename_i given
          obtain rfl := Option.some.inj failed
          exact elements _ (List.mem_of_getElem? given)
        · cases failed
      rw [noisy]
      dsimp only [outlined]
      rw [Stop.of, if_neg code]
      rfl

theorem deferStop_eq_error {outline : Except Stop Outline} {stop : Stop}
    (stopped : deferStop outline = .error stop) : stop = .short := by
  cases outline with
  | ok outline => cases stopped
  | error other =>
      cases other with
      | short => exact (Except.error.inj stopped).symm
      | faulty => cases stopped

/-- Static components are always found unless the data end. -/
theorem outlineParts_eq_error {base : Bytes} {parts : List Part}
    (static : ∀ part ∈ parts, part.dynamic = false) {head : Bytes}
    {stop : Stop} (stopped : outlineParts base parts head = .error stop) :
    stop = .short := by
  induction parts generalizing head with
  | nil => cases stopped
  | cons part parts induction =>
      obtain ⟨own, others⟩ := List.forall_mem_cons.mp static
      rw [outlineParts] at stopped
      cases first : part.outlineIn base head with
      | error other =>
          rw [first] at stopped
          obtain rfl := Except.error.inj stopped
          rw [Part.outlineIn, own] at first
          exact deferStop_eq_error first
      | ok outline =>
          rw [first, Outcome.ok_bind] at stopped
          cases rest : outlineParts base parts (head.drop part.step) with
          | error other =>
              rw [rest] at stopped
              obtain rfl := Except.error.inj stopped
              exact induction others rest
          | ok outlines =>
              rw [rest] at stopped
              cases stopped

/-- What the unpacking of a frame gives, and where a static one leaves the
reader. -/
structure Framed (parts : List Part) (reader : Reader)
    (result : Except Error Decoded × Reader) : Prop where
  outline : outlined Decoded.outline result.1 = frameAt parts reader.ahead
  isResult : ∀ value, result.1 = .ok value →
    (∃ elements named, value = .result elements named) ∧ result.2.Strict
  moves : (∀ part ∈ parts, part.dynamic = false) →
    frameAt parts reader.ahead ≠ .error .short →
      (parts.map Part.step).sum ≤ reader.ahead.length ∧
        result.2 = reader.advance (parts.map Part.step).sum

theorem unpack_follows {coders : List Coder} {parts : List Part}
    (follows : List.Forall₂ Follows coders parts) {reader : Reader}
    (strict : reader.Strict) : Framed parts reader (unpack coders reader) := by
  have unpacked : Unpacked parts reader.ahead reader []
      (unpackValues (reader.subReader 0) coders reader) :=
    unpackValues_follows follows strict (strict.subReader 0) rfl
      (List.forall_mem_nil _)
  rw [unpack]
  cases ran : unpackValues (reader.subReader 0) coders reader with
  | mk outcome moved =>
      rw [ran] at unpacked
      have given : outlineParts reader.ahead parts reader.ahead =
          outlined (List.map Decoded.outline) outcome := by
        rw [unpacked.outline]
        cases outlineParts reader.ahead parts reader.ahead <;> rfl
      cases outcome with
      | error problem =>
          have stopped : frameAt parts reader.ahead =
              .error (Stop.of problem) := by
            rw [frameAt, given]
            rfl
          refine ⟨stopped.symm, by rintro _ ⟨⟩, ?_⟩
          intro static present
          rw [stopped, outlineParts_eq_error static given] at present
          exact absurd rfl present
      | ok values =>
          obtain ⟨elements, within, passed⟩ := unpacked.moves values rfl
          refine ⟨?_, ?_, fun _ _ => ⟨within, passed⟩⟩
          · rw [frameAt, given]
            exact outlined_completeResult follows elements
          · intro value completed
            refine ⟨⟨_, _, completeResult_eq_ok completed⟩, ?_⟩
            rw [passed]
            exact strict.advance within

/-- The value of a frame is not changed any more. -/
theorem unpack_coerce_follows {coders : List Coder} {parts : List Part}
    (follows : List.Forall₂ Follows coders parts) (name : String)
    {reader : Reader} (strict : reader.Strict) :
    Framed parts reader ((unpack coders >>= Reader.coerce name) reader) := by
  have framed := unpack_follows follows strict
  have same : (unpack coders >>= Reader.coerce name) reader =
      unpack coders reader := by
    cases ran : unpack coders reader with
    | mk outcome moved =>
        rw [ran] at framed
        cases outcome with
        | error problem => simp only [Bind.bind, ran]
        | ok value =>
            obtain ⟨⟨elements, named, rfl⟩, kept⟩ := framed.isResult value rfl
            rw [Read.bind_of_ok ran, Reader.coerce_of_strict kept name
              (by rintro _ ⟨⟩)]
  rw [same]
  exact framed

/-! ## Coder classes -/

section Classes

theorem frameAt_ne_faulty (parts : List Part) (place : Bytes) :
    frameAt parts place ≠ .ok .faulty := by
  intro found
  obtain ⟨elements, -, completed⟩ := Outcome.bind_eq_ok.mp found
  rw [completeFrame] at completed
  split at completed
  · cases completed
  · cases completed

theorem TupleCoder.follows (externals : Externals) {coders : List Coder}
    {parts : List Part} (name : Option String)
    (follows : List.Forall₂ Follows coders parts) :
    Follows (TupleCoder externals coders name) (tuplePart name parts) where
  name := rfl
  dynamic := by
    simp only [TupleCoder, tuplePart]
    induction follows with
    | nil => rfl
    | cons head _ induction =>
        rw [List.any_cons, List.any_cons, head.dynamic, induction]
  outline_ne := frameAt_ne_faulty parts
  decode := fun reader strict _ =>
    (unpack_coerce_follows follows "tuple" strict).outline
  moves := by
    intro reader strict static present
    refine (unpack_coerce_follows follows "tuple" strict).moves ?_ present
    exact fun part member => by
      simpa using List.any_eq_false.mp static part member

theorem ArrayCoder.finds_readCount {reader : Reader} (strict : reader.Strict)
    (start : reader.offset = 0) :
    reader.Finds (ArrayCoder.readCount none) (countAt reader.ahead)
      wordSize := by
  have begun := Reader.ahead_of_start start
  have read : ArrayCoder.readCount none reader =
      (Reader.readSafe >>= ArrayCoder.checkCount) reader :=
    (Reader.readSafe_bind ArrayCoder.checkCount reader).symm
  obtain ⟨count, done, present, run⟩ | ⟨problem, moved, stopped, run⟩ :=
    Reader.finds_readSafe strict
  · rw [Read.bind_of_ok run, ArrayCoder.checkCount, Reader.data_advance,
      ← begun] at read
    by_cases many : reader.ahead.length < count * wordSize
    · refine .inr ⟨{ code := .bufferOverrun,
                     message := "insufficient data length" },
        reader.advance wordSize, ?_, ?_⟩
      · rw [countAt, done, Outcome.ok_bind, if_pos many]
        rfl
      · rw [read]
        exact if_pos many
    · refine .inl ⟨count, ?_, present, ?_⟩
      · rw [countAt, done, Outcome.ok_bind, if_neg many]
      · rw [read]
        exact if_neg many
  · refine .inr ⟨problem, moved, ?_, ?_⟩
    · rw [countAt, stopped]
      rfl
    · rw [read]
      simp only [Bind.bind, run]

theorem elementParts_follow {coder : Coder} {part : Part}
    (follows : Follows coder part) (count : Nat) :
    List.Forall₂ Follows (List.replicate count (AnonymousCoder coder))
      (elementParts count part) := by
  have element : Follows (AnonymousCoder coder) { part with name := none } :=
    ⟨rfl, follows.dynamic, follows.outline_ne, follows.decode, follows.moves⟩
  induction count with
  | zero => exact .nil
  | succ count induction => exact .cons element induction

theorem ArrayCoder.follows (externals : Externals) {coder : Coder}
    {part : Part} (length : Option Nat) (name : Option String)
    (follows : Follows coder part) :
    Follows (ArrayCoder externals coder length name)
      (arrayPart name length part) := by
  cases length with
  | some count =>
      have framed : ∀ reader : Reader, reader.Strict →
          Framed (elementParts count part) reader
            ((ArrayCoder externals coder (some count) name).decode reader) :=
        fun reader strict => unpack_coerce_follows
          (elementParts_follow follows count) "array" strict
      have size : ((elementParts count part).map Part.step).sum =
          (arrayPart name (some count) part).size := by
        rw [elementParts, List.map_replicate, List.sum_replicate_nat]
        rfl
      refine ⟨rfl, follows.dynamic, frameAt_ne_faulty _, ?_, ?_⟩
      · exact fun reader strict _ => (framed reader strict).outline
      · intro reader strict static present
        rw [← size]
        refine (framed reader strict).moves ?_ present
        intro element member
        rw [List.eq_of_mem_replicate member]
        exact static
  | none =>
      refine ⟨rfl, rfl, ?_, ?_, by rintro _ _ ⟨⟩⟩
      · intro place found
        obtain ⟨count, -, framed⟩ := Outcome.bind_eq_ok.mp found
        exact frameAt_ne_faulty _ _ framed
      · intro reader strict start
        apply (ArrayCoder.finds_readCount strict (start rfl)).bind
        intro count _ present
        rw [(unpack_coerce_follows (elementParts_follow follows count)
          "array" (strict.advance present)).outline, Reader.ahead_advance]

/-- A coder of a word follows the part of the word where it makes a value of
every content. -/
theorem Follows.of_finds (outline : Outline) {α : Type} {coder : Coder}
    {part : Part} {read : Read α} {next : α → Read Decoded}
    {found : Bytes → Except Stop α} (name : coder.localName = part.name)
    (static : coder.dynamic = false ∧ part.dynamic = false)
    (unfaulty : outline ≠ .faulty) (decode : coder.decode = read >>= next)
    (outlines : ∀ place, part.outline place =
      (found place).map fun _ => outline)
    (short : ∀ place, found place ≠ .error .faulty)
    (finds : ∀ reader : Reader, reader.Strict →
      reader.Finds read (found reader.ahead) part.size)
    (returns : ∀ place value, found place = .ok value →
      ∀ moved : Reader, moved.Strict → ∃ decoded,
        next value moved = (.ok decoded, moved) ∧
          decoded.outline = outline) : Follows coder part := by
  refine ⟨name, static.1.trans static.2.symm, ?_, ?_, ?_⟩
  · intro place faulty
    rw [outlines] at faulty
    obtain ⟨value, -, same⟩ := Outcome.map_eq_ok.mp faulty
    exact unfaulty same
  · intro reader strict _
    obtain ⟨value, done, present, run⟩ | ⟨problem, moved, stopped, run⟩ :=
      finds reader strict
    · obtain ⟨decoded, returned, same⟩ :=
        returns _ value done _ (strict.advance present)
      rw [decode, Read.bind_of_ok run, returned, outlines, done]
      exact congrArg Except.ok same
    · rw [decode, outlines, stopped]
      simp only [Bind.bind, run]
      rfl
  · intro reader strict _ present
    obtain ⟨value, done, within, run⟩ | ⟨problem, moved, stopped, run⟩ :=
      finds reader strict
    · obtain ⟨decoded, returned, -⟩ :=
        returns _ value done _ (strict.advance within)
      rw [decode, Read.bind_of_ok run, returned]
      exact ⟨within, rfl⟩
    · rw [outlines, stopped] at present
      cases reason : Stop.of problem with
      | short =>
          rw [reason] at present
          exact absurd rfl present
      | faulty =>
          rw [reason] at stopped
          exact absurd stopped (short reader.ahead)

theorem bytesAt_ne_faulty (length : Nat) (place : Bytes) :
    bytesAt length place ≠ .error .faulty := by
  rw [bytesAt]
  split
  · rintro ⟨⟩
  · rintro ⟨⟩

theorem wordAt_ne_faulty (place : Bytes) : wordAt place ≠ .error .faulty := by
  rw [wordAt]
  cases given : bytesAt wordSize place with
  | ok bytes => rintro ⟨⟩
  | error stop =>
      intro same
      obtain rfl := Except.error.inj same
      exact bytesAt_ne_faulty wordSize place given

/-- A word holds the number of its bytes. -/
theorem wordAt_eq_ok {place : Bytes} {number : Nat}
    (found : wordAt place = .ok number) :
    ∃ bytes : Bytes, bytes.length = wordSize ∧
      BigEndian.toNat bytes = number := by
  obtain ⟨bytes, given, rfl⟩ := Outcome.map_eq_ok.mp found
  rw [bytesAt] at given
  split at given
  · rename_i present
    obtain rfl := Except.ok.inj given
    refine ⟨_, ?_, rfl⟩
    rw [List.length_take]
    exact Nat.min_eq_left present
  · cases given

/-- A coder that reads one number. -/
theorem Follows.of_word (outline : Outline) {coder : Coder}
    {next : Nat → Read Decoded} (static : coder.dynamic = false)
    (unfaulty : outline ≠ .faulty)
    (decode : coder.decode = Reader.readValue >>= next)
    (returns : ∀ bytes : Bytes, bytes.length = wordSize →
      ∀ moved : Reader, moved.Strict → ∃ decoded,
        next (BigEndian.toNat bytes) moved = (.ok decoded, moved) ∧
          decoded.outline = outline) :
    Follows coder (wordPart coder.localName outline) :=
  .of_finds outline rfl ⟨static, rfl⟩ unfaulty decode (fun _ => rfl) wordAt_ne_faulty
    (fun _ strict => Reader.finds_readValue strict)
    fun place number found moved strict => by
      obtain ⟨bytes, length, rfl⟩ := wordAt_eq_ok found
      exact returns bytes length moved strict

section Words

variable (externals : Externals) (name : Option String)

theorem AddressCoder.follows :
    Follows (AddressCoder externals name) (wordPart name .scalar) := by
  refine Follows.of_word .scalar rfl (by rintro ⟨⟩) rfl ?_
  intro bytes length moved _
  refine ⟨.string (canonicalAddress externals.toCryptography bytes), ?_, rfl⟩
  rw [Read.lift_bind_of_ok (hexZeroPad_toHexString length),
    Utils.toChecksumAddress_hexToAddress externals.toCryptography length]
  rfl

theorem BooleanCoder.follows :
    Follows (BooleanCoder name) (wordPart name .scalar) :=
  Follows.of_word .scalar rfl (by rintro ⟨⟩) rfl fun _ _ _ strict =>
    ⟨_, Reader.coerce_of_strict strict "bool" (by rintro _ ⟨⟩), rfl⟩

theorem NumberCoder.follows (size : Nat) (signed : Bool) :
    Follows (NumberCoder externals size signed name)
      (wordPart name .bigint) := by
  refine Follows.of_word .bigint rfl (by rintro ⟨⟩) rfl ?_
  intro bytes _ moved strict
  have masked : BigNumber.mask (BigEndian.toNat bytes) (size * 8) =
      .ok ((BigEndian.toNat bytes : Int) % 2 ^ (size * 8)) :=
    if_neg (Int.not_lt.mpr (Int.natCast_nonneg _))
  refine ⟨.bigint (if signed then BigNumber.fromTwos
    ((BigEndian.toNat bytes : Int) % 2 ^ (size * 8)) (size * 8)
      else (BigEndian.toNat bytes : Int) % 2 ^ (size * 8)), ?_, rfl⟩
  rw [Read.lift_bind_of_ok masked, Reader.coerce, strict.contracts]
  rfl

theorem FixedBytesCoder.follows (size : ByteSize) :
    Follows (FixedBytesCoder externals size.bytes name)
      (wordPart name .scalar) := by
  have whole : aligned size.bytes = wordSize := by
    have positive := size.positive
    have within := size.withinWord
    rw [aligned]
    simp only [wordSize] at within ⊢
    omega
  refine Follows.of_finds .scalar rfl ⟨rfl, rfl⟩ (by rintro ⟨⟩) rfl ?_
    (bytesAt_ne_faulty size.bytes) ?_ ?_
  · intro place
    simp only [wordPart, wordAt, bytesAt, whole]
    rw [show aligned wordSize = wordSize from rfl]
    split <;> rfl
  · intro reader strict
    have found := Reader.finds_readBytes strict size.bytes false
    rwa [whole] at found
  · exact fun _ _ _ moved strict =>
      ⟨_, Reader.coerce_of_strict strict _ (by rintro _ ⟨⟩), rfl⟩

theorem NullCoder.follows : Follows (NullCoder name) (nullPart name) :=
  Follows.of_finds .null rfl ⟨rfl, rfl⟩ (by rintro ⟨⟩) rfl (fun _ => rfl)
    (bytesAt_ne_faulty 0)
    (fun _ strict => Reader.finds_readBytes strict 0 false)
    fun _ _ _ _ strict =>
      ⟨_, Reader.coerce_of_strict strict "null" (by rintro _ ⟨⟩), rfl⟩

/-- The bytes after a length are handed on. -/
theorem DynamicBytesCoder.decode_bind {next : Bytes → Read Decoded}
    (followed : Bytes → Except Stop Outline)
    (later : ∀ (bytes : Bytes) (moved : Reader), moved.Strict →
      outlined Decoded.outline (next bytes moved).1 = followed bytes)
    {reader : Reader} (strict : reader.Strict) :
    outlined Decoded.outline ((DynamicBytesCoder.decode >>= next) reader).1 =
      dynamicBytesAt reader.ahead >>= followed := by
  have read : (DynamicBytesCoder.decode >>= next) reader =
      (Reader.readSafe >>= fun length =>
        Reader.readBytes length true >>= next) reader := by
    rw [Reader.readSafe_bind]
    simp only [DynamicBytesCoder.decode, Bind.bind]
    cases Reader.readValue reader with
    | mk outcome moved =>
        cases outcome with
        | error problem => rfl
        | ok number =>
            dsimp only [Read.lift]
            cases BigNumber.toNumber number <;> rfl
  rw [read, dynamicBytesAt, bind_assoc]
  apply (Reader.finds_readSafe strict).bind
  intro length _ present
  rw [← Reader.ahead_advance]
  apply (Reader.finds_readBytes (strict.advance present) length true).bind
  intro bytes _ within
  exact later bytes _ ((strict.advance present).advance within)

theorem BytesCoder.follows :
    Follows (BytesCoder externals name) (bytesPart name) where
  name := rfl
  dynamic := rfl
  outline_ne := by
    intro place faulty
    obtain ⟨bytes, -, same⟩ := Outcome.bind_eq_ok.mp faulty
    cases same
  decode := fun reader strict _ => by
    refine DynamicBytesCoder.decode_bind _ ?_ strict
    intro bytes moved strict
    rw [Reader.coerce_of_strict strict "bytes" (by rintro _ ⟨⟩)]
    rfl
  moves := by rintro _ _ ⟨⟩

theorem StringCoder.follows :
    Follows (StringCoder externals name)
      (stringPart externals.toCryptography name) where
  name := rfl
  dynamic := rfl
  outline_ne := by
    intro place faulty
    obtain ⟨bytes, -, decoded⟩ := Outcome.bind_eq_ok.mp faulty
    split at decoded
    · cases decoded
    · cases decoded
  decode := fun reader strict _ => by
    refine DynamicBytesCoder.decode_bind _ ?_ strict
    intro bytes moved _
    cases externals.bytesToUtf8 bytes with
    | none => rfl
    | some text => rfl
  moves := by rintro _ _ ⟨⟩

end Words

end Classes

/-! ## Types -/

section Types

variable {externals : Externals}

/-- The types that an elementary parameter names. -/
def AbiType.IsElementary : AbiType → Prop
  | .array _ _ => False
  | .tuple _ components => components = []
  | _ => True

theorem isElementary_of_elementaryType {type : String} {abi : AbiType}
    (typed : elementaryType type = some abi) : abi.IsElementary := by
  unfold elementaryType at typed
  split_ifs at typed
  · cases typed
    trivial
  · cases typed
    trivial
  · cases typed
    trivial
  · cases typed
    trivial
  · cases typed
    rfl
  · cases number : Reader.matchNumber type with
    | some matched =>
        simp only [number] at typed
        generalize (if matched.2 = [] then 512
          else Reader.parseInt matched.2) = size at typed
        rw [integerType] at typed
        split at typed
        · cases typed
          trivial
        · cases typed
    | none =>
        simp only [number] at typed
        obtain ⟨digits, -, bounded⟩ := Option.bind_eq_some_iff.mp typed
        split at bounded
        · cases bounded
          trivial
        · cases bounded

/-- The coder of an elementary type follows its part. -/
def FollowsElementary (externals : Externals) (coder : Coder)
    (type : AbiType) : Prop :=
  type.IsElementary → Follows coder
    (type.elementaryPart externals.toCryptography coder.localName)

theorem followsElementary_respected :
    RespectedByClasses externals (FollowsElementary externals) where
  address name _ := AddressCoder.follows externals name
  bool name _ := BooleanCoder.follows name
  string name _ := StringCoder.follows externals name
  bytes name _ := BytesCoder.follows externals name
  number size signed name _ :=
    NumberCoder.follows externals name size.bytes signed
  fixedBytes size name _ := FixedBytesCoder.follows externals name size
  array _ _ _ _ _ elementary := elementary.elim
  tuple coders components name follows elementary := by
    obtain rfl : components = [] := elementary
    obtain rfl : coders = [] := List.forall₂_nil_right_iff.mp follows
    exact TupleCoder.follows externals name .nil

mutual

/-- The coder of a parameter follows the part of the parameter. -/
theorem getCoder_follows : ∀ (param : ParamType) {coder : Coder},
    getCoder externals param = .ok coder →
      ∃ part, param.part externals.toCryptography = some part ∧
        Follows coder part
  | .elementary name type, coder, built => by
      rw [ParamType.part]
      by_cases nullType : type = ""
      · rw [if_pos nullType]
        obtain rfl : coder = NullCoder name := by
          rw [nullType] at built
          exact (Except.ok.inj built).symm
        exact ⟨_, rfl, NullCoder.follows name⟩
      · rw [if_neg nullType]
        obtain ⟨abi, typed, named, follows⟩ := getCoder_induction
          followsElementary_respected (.elementary name type) nullType built
        obtain rfl : coder.localName = name := named
        refine ⟨_, congrArg (Option.map _) typed, follows ?_⟩
        exact isElementary_of_elementaryType typed
  | .tuple name components, coder, built => by
      obtain ⟨coders, codersOk, done⟩ := Outcome.bind_eq_ok.mp built
      obtain ⟨parts, typed, follows⟩ := getCoders_follows components codersOk
      cases done
      refine ⟨_, ?_, TupleCoder.follows externals name follows⟩
      rw [ParamType.part, typed]
      rfl
  | .array name length children, coder, built => by
      obtain ⟨child, childOk, done⟩ := Outcome.bind_eq_ok.mp built
      obtain ⟨part, typed, follows⟩ := getCoder_follows children childOk
      cases done
      refine ⟨_, ?_, ArrayCoder.follows externals length name follows⟩
      rw [ParamType.part, typed]
      rfl

theorem getCoders_follows : ∀ (params : List ParamType) {coders : List Coder},
    getCoders externals params = .ok coders →
      ∃ parts, ParamType.parts externals.toCryptography params = some parts ∧
        List.Forall₂ Follows coders parts
  | [], coders, built => by
      cases built
      exact ⟨[], rfl, .nil⟩
  | param :: params, coders, built => by
      obtain ⟨coder, coderOk, rest⟩ := Outcome.bind_eq_ok.mp built
      obtain ⟨others, othersOk, done⟩ := Outcome.bind_eq_ok.mp rest
      obtain ⟨part, typed, follows⟩ := getCoder_follows param coderOk
      obtain ⟨parts, allTyped, allFollow⟩ := getCoders_follows params othersOk
      cases done
      refine ⟨part :: parts, ?_, .cons follows allFollow⟩
      rw [ParamType.parts, typed, allTyped]
      rfl

end

mutual

/-- Only a parameter that has a coder has a part. -/
theorem getCoder_of_part : ∀ (param : ParamType) {part : Part},
    param.part externals.toCryptography = some part →
      ∃ coder, getCoder externals param = .ok coder
  | .elementary name type, part, typed => by
      rw [ParamType.part] at typed
      by_cases nullType : type = ""
      · rw [nullType]
        exact ⟨NullCoder name, rfl⟩
      · rw [if_neg nullType] at typed
        obtain ⟨abi, elementary, -⟩ := Option.map_eq_some_iff.mp typed
        exact getElementaryCoder_of_elementaryType externals elementary name
  | .tuple name components, part, typed => by
      rw [ParamType.part] at typed
      obtain ⟨parts, componentsTyped, -⟩ := Option.map_eq_some_iff.mp typed
      obtain ⟨coders, built⟩ := getCoders_of_parts components componentsTyped
      refine ⟨TupleCoder externals coders name, ?_⟩
      rw [getCoder, built]
      rfl
  | .array name length children, part, typed => by
      rw [ParamType.part] at typed
      obtain ⟨child, childTyped, -⟩ := Option.map_eq_some_iff.mp typed
      obtain ⟨coder, built⟩ := getCoder_of_part children childTyped
      refine ⟨ArrayCoder externals coder length name, ?_⟩
      rw [getCoder, built]
      rfl

theorem getCoders_of_parts : ∀ (params : List ParamType) {parts : List Part},
    ParamType.parts externals.toCryptography params = some parts →
      ∃ coders, getCoders externals params = .ok coders
  | [], _, _ => ⟨[], rfl⟩
  | param :: params, parts, typed => by
      rw [ParamType.parts] at typed
      obtain ⟨part, headTyped, rest⟩ := Option.bind_eq_some_iff.mp typed
      obtain ⟨others, tailTyped, -⟩ := Option.bind_eq_some_iff.mp rest
      obtain ⟨coder, headBuilt⟩ := getCoder_of_part param headTyped
      obtain ⟨coders, tailBuilt⟩ := getCoders_of_parts params tailTyped
      refine ⟨coder :: coders, ?_⟩
      rw [getCoders, headBuilt, Outcome.ok_bind, tailBuilt]
      rfl

end

end Types

end Web3Js.Abi
