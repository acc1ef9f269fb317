import Web3Js.Abi.Naming
import Web3Js.Abi.Numbers
import Web3Js.Abi.Sizes

/-!
# Unpacking

Readers move forward over their data.  A reader that stands before the
sequence of some parts unpacks it along the cursor of the head and tail
layout; the base reader turns the offsets in the slots into positions.
-/

namespace Web3Js.Abi

/-- A coerce function may change the type of a value, not what it stands
for. -/
def CoerceFunc.Faithful (coerceFunc : CoerceFunc) : Prop :=
  ∀ name decoded plain, decoded.plain? = some plain →
    ∃ coerced, coerceFunc name decoded = .ok coerced ∧
      coerced.plain? = some plain

theorem maxSafeInteger_lt_word : maxSafeInteger < 2 ^ (8 * wordSize) :=
  calc
    maxSafeInteger < 2 ^ 53 := by decide
    _ ≤ 2 ^ (8 * wordSize) := Nat.pow_le_pow_right (by decide) (by decide)

theorem Spec.toNat_lengthWord {number : Nat}
    (bounded : number < 2 ^ (8 * wordSize)) :
    BigEndian.toNat (Spec.lengthWord number) = number := by
  rw [pow_mul] at bounded
  exact BigEndian.toNat_ofNat_of_lt bounded

namespace Reader

def advance (reader : Reader) (length : Nat) : Reader :=
  { reader with offset := reader.offset + length }

@[simp] theorem advance_advance (reader : Reader) (first second : Nat) :
    (reader.advance first).advance second =
      reader.advance (first + second) := by
  simp [advance, Nat.add_assoc]

@[simp] theorem data_advance (reader : Reader) (length : Nat) :
    (reader.advance length).data = reader.data := rfl

/-- What lies ahead of a reader. -/
def ahead (reader : Reader) : Bytes := reader.data.drop reader.offset

theorem ahead_advance (reader : Reader) (length : Nat) :
    (reader.advance length).ahead = reader.ahead.drop length := by
  simp [ahead, advance, List.drop_drop]

/-- The data are of a size that a byte array can have, and the coerce
function keeps values. -/
structure Sound (reader : Reader) : Prop where
  length : reader.data.length ≤ maxSafeInteger
  coerces : ∀ coerceFunc ∈ reader.coerceFunc, coerceFunc.Faithful

theorem Sound.advance {reader : Reader} (sound : reader.Sound)
    (length : Nat) : (reader.advance length).Sound :=
  ⟨sound.length, sound.coerces⟩

theorem Sound.subReader {reader : Reader} (sound : reader.Sound)
    (offset : Nat) : (reader.subReader offset).Sound := by
  refine ⟨?_, sound.coerces⟩
  have length := sound.length
  simp only [Reader.subReader, List.length_drop]
  omega

/-- A nonempty prefix of what lies ahead ends within the data. -/
theorem prefix_within {reader : Reader} {contents : Bytes}
    (present : contents <+: reader.ahead) (nonempty : 0 < contents.length) :
    reader.offset + contents.length ≤ reader.data.length := by
  have length := present.length_le
  rw [ahead, List.length_drop] at length
  omega

/-- Whole words ahead are read as they are. -/
theorem readBytes_of_prefix {reader : Reader} {contents : Bytes}
    (length : Nat) (loose : Bool) (present : contents <+: reader.ahead)
    (aligned : (length + (wordSize - 1)) / wordSize * wordSize =
      contents.length)
    (within : reader.offset + contents.length ≤ reader.data.length) :
    readBytes length loose reader =
      (.ok (contents.take length), reader.advance contents.length) := by
  obtain ⟨rest, whole⟩ := present
  have taken : (reader.data.drop reader.offset).take contents.length =
      contents := by
    rw [← ahead, ← whole, List.take_left]
  have peeked : reader.peekBytes length loose = .ok contents := by
    simp only [peekBytes, aligned, if_pos within, taken]
  simp only [readBytes, peeked, advance]

theorem readValue_of_prefix {reader : Reader} {number : Nat}
    (bounded : number < 2 ^ (8 * wordSize))
    (present : Spec.lengthWord number <+: reader.ahead) :
    readValue reader = (.ok number, reader.advance wordSize) := by
  have length := Spec.length_lengthWord number
  have within := prefix_within present (by
    rw [length]
    decide)
  have read := readBytes_of_prefix wordSize false present
    (by rw [length]; decide) within
  rw [length, List.take_of_length_le length.le] at read
  rw [readValue, Read.bind_of_ok read, Spec.toNat_lengthWord bounded]
  rfl

theorem readBytes_padRight {reader : Reader} {bytes : Bytes} (loose : Bool)
    (present : Spec.padRight bytes <+: reader.ahead)
    (within : reader.offset ≤ reader.data.length) :
    readBytes bytes.length loose reader =
      (.ok bytes, reader.advance (Spec.padRight bytes).length) := by
  have length := present.length_le
  rw [ahead, List.length_drop] at length
  have read := readBytes_of_prefix bytes.length loose present
    (by
      simp only [Spec.padRight, wordSize, List.length_append,
        List.length_replicate]
      omega)
    (by omega)
  rw [read, Spec.padRight, List.take_left]

end Reader

/-- Every name but that of a short integer leaves a value as it is. -/
def KeptByDefault (name : String) (decoded : Decoded) : Prop :=
  ∀ plain, decoded.plain? = some plain →
    ∃ coerced, Reader.defaultCoerce name decoded = .ok coerced ∧
      coerced.plain? = some plain

theorem keptByDefault_of_no_number (name : String)
    (unmatched : Reader.matchNumber name = none) (decoded : Decoded) :
    KeptByDefault name decoded := by
  intro plain readable
  exact ⟨decoded, by simp only [Reader.defaultCoerce, unmatched], readable⟩

private theorem matchNumber_numberName :
    ∀ (size : Fin 65) (signed : Bool),
      (Reader.matchNumber (numberName size signed)).any (fun matched =>
        Reader.parseInt matched.2 = size * 8) = true := by
  decide +kernel

theorem keptByDefault_number {size : ByteSize} {signed : Bool} {number : Int}
    (low : lowerBound signed (size.bytes * 8) ≤ number)
    (high : number < upperBound signed (size.bytes * 8)) :
    KeptByDefault (numberName size.bytes signed) (.bigNumber number) := by
  intro plain readable
  have within : size.bytes < 65 := Nat.lt_succ_of_le size.withinWord
  have positive := size.positive
  have matched := matchNumber_numberName ⟨size.bytes, within⟩ signed
  cases found : Reader.matchNumber (numberName size.bytes signed) with
  | none => simp [found] at matched
  | some digits =>
      simp only [found, Option.any_some, decide_eq_true_eq] at matched
      rw [Reader.defaultCoerce, found]
      by_cases short : digits.2 ≠ [] ∧ Reader.parseInt digits.2 ≤ 48
      · have bits : size.bytes * 8 ≤ 48 := matched ▸ short.2
        have power : (2 ^ (size.bytes * 8) : Int) ≤ 2 ^ 48 :=
          pow_le_pow_right₀ (by decide) bits
        have half : (2 ^ (size.bytes * 8 - 1) : Int) ≤ 2 ^ (size.bytes * 8) :=
          pow_le_pow_right₀ (by decide) (Nat.sub_le _ _)
        have small : number.natAbs ≤ maxSafeInteger := by
          unfold maxSafeInteger
          cases signed with
          | true =>
              simp only [lowerBound, upperBound, if_true] at low high
              omega
          | false =>
              simp only [lowerBound, upperBound, Bool.false_eq_true,
                if_false] at low high
              omega
        refine ⟨.number number, ?_, readable⟩
        simp [short.1, short.2, BigNumber.toNumber, small]
      · refine ⟨.bigNumber number, ?_, readable⟩
        simp only [if_neg short]

theorem Reader.coerce_of_faithful {reader : Reader}
    (coerces : ∀ coerceFunc ∈ reader.coerceFunc, coerceFunc.Faithful)
    {name : String} {decoded : Decoded} {plain : Plain}
    (kept : KeptByDefault name decoded)
    (readable : decoded.plain? = some plain) :
    ∃ coerced, Reader.coerce name decoded reader = (.ok coerced, reader) ∧
      coerced.plain? = some plain := by
  unfold Reader.coerce
  cases own : reader.coerceFunc with
  | none =>
      obtain ⟨coerced, done, same⟩ := kept plain readable
      exact ⟨coerced, by simp [done], same⟩
  | some coerceFunc =>
      obtain ⟨coerced, done, same⟩ :=
        coerces coerceFunc own name decoded plain readable
      exact ⟨coerced, by simp [done], same⟩

theorem Reader.coerce_of_kept {reader : Reader} (sound : reader.Sound)
    {name : String} {decoded : Decoded} {plain : Plain}
    (kept : KeptByDefault name decoded)
    (readable : decoded.plain? = some plain) :
    ∃ coerced, Reader.coerce name decoded reader = (.ok coerced, reader) ∧
      coerced.plain? = some plain :=
  Reader.coerce_of_faithful sound.coerces kept readable

mutual

/-- No name of a component makes a result longer. -/
def AbiType.Unlengthened : AbiType → Prop
  | .address | .bool | .string | .bytes | .number _ _ | .fixedBytes _ => True
  | .array element _ => element.Unlengthened
  | .tuple names components =>
      Abi.Unlengthened names ∧ AbiType.AllUnlengthened components

def AbiType.AllUnlengthened : List AbiType → Prop
  | [] => True
  | component :: components =>
      component.Unlengthened ∧ AbiType.AllUnlengthened components

end

/-- Before the reference encoding of a typed value, the coder reads it. -/
structure Decodes (externals : Externals) (coder : Coder) (type : AbiType) :
    Prop where
  dynamic : coder.dynamic = type.isDynamic
  decode : type.Headed → type.Unlengthened → ∀ value normal,
    type.normalise externals value = some normal →
      ∀ reader : Reader, reader.Sound →
        Spec.encode externals.toCryptography type normal <+: reader.ahead →
          ∃ decoded moved, coder.decode reader = (.ok decoded, moved) ∧
            decoded.plain? = some (normal.plain externals.toCryptography) ∧
            (type.isDynamic = false → moved = reader.advance
              (Spec.encode externals.toCryptography type normal).length)

section Components

variable {externals : Externals}

theorem deferError_of_ok {coder : Coder} {decode : Read Decoded}
    {reader moved : Reader} {decoded : Decoded}
    (read : decode reader = (.ok decoded, moved)) :
    deferError coder decode reader = (.ok decoded, moved) := by
  rw [deferError, read]

/-- One component is read at its cursor, which moves past its head place. -/
theorem unpackComponent_decodes {coder : Coder} {type : AbiType}
    (decodes : Decodes externals coder type) (headed : type.Headed)
    (unlengthened : type.Unlengthened)
    {value : Value} {normal : AbiValue}
    (normalised : type.normalise externals value = some normal)
    {parts : List (HeadTail.Part UInt8)} {offset : Nat}
    {reader baseReader : Reader} (sound : reader.Sound)
    (baseSound : baseReader.Sound) (atBase : baseReader.offset = 0)
    (cursor : HeadTail.Cursor Spec.lengthWord offset
      ({ outlined := type.isDynamic
         contents := Spec.encode externals.toCryptography type normal } ::
        parts) reader.ahead baseReader.data) :
    ∃ decoded moved offset',
      unpackComponent baseReader coder reader = (.ok decoded, moved) ∧
        decoded.plain? = some (normal.plain externals.toCryptography) ∧
        moved.Sound ∧
        HeadTail.Cursor Spec.lengthWord offset' parts moved.ahead
          baseReader.data ∧
        moved = reader.advance (if type.isDynamic then wordSize else
          (Spec.encode externals.toCryptography type normal).length) := by
  cases dynamic : type.isDynamic with
  | true =>
      rw [dynamic] at cursor
      have within := cursor.within
      have limit := baseSound.length
      have offsetSafe : (offset : Int).natAbs ≤ maxSafeInteger := by
        simp only [Int.natAbs_natCast]
        omega
      have bounded : offset < 2 ^ (8 * wordSize) :=
        lt_of_le_of_lt (within.trans limit) maxSafeInteger_lt_word
      have slot := Reader.readValue_of_prefix bounded
        (cursor.slot_ahead rfl)
      have contents := cursor.outlined_at rfl
      have offsetReader : (baseReader.subReader offset).ahead =
          baseReader.data.drop offset := by
        simp [Reader.ahead, Reader.subReader, atBase]
      obtain ⟨decoded, moved, read, plain, -⟩ := decodes.decode headed
        unlengthened value normal normalised (baseReader.subReader offset)
        (baseSound.subReader offset) (by rw [offsetReader]; exact contents)
      refine ⟨decoded, reader.advance wordSize, offset +
        (Spec.encode externals.toCryptography type normal).length, ?_, plain,
        sound.advance wordSize, ?_, rfl⟩
      · have coderDynamic : coder.dynamic = true :=
          decodes.dynamic.trans dynamic
        have number : BigNumber.toNumber (offset : Int) = .ok (offset : Int) :=
          if_pos offsetSafe
        rw [unpackComponent, if_pos coderDynamic, Read.bind_of_ok slot,
          Read.lift_bind_of_ok number, Int.toNat_natCast,
          deferError_of_ok read]
        rfl
      · rw [Reader.ahead_advance]
        exact cursor.after_outlined Spec.length_lengthWord rfl
  | false =>
      rw [dynamic] at cursor
      obtain ⟨decoded, moved, read, plain, exact⟩ := decodes.decode headed
        unlengthened value normal normalised reader sound (cursor.inline rfl)
      refine ⟨decoded, moved, offset, ?_, plain, ?_, ?_, exact dynamic⟩
      · have coderStatic : ¬coder.dynamic = true := by
          rw [decodes.dynamic, dynamic]
          decide
        rw [unpackComponent, if_neg coderStatic, deferError_of_ok read]
      · rw [exact dynamic]
        exact sound.advance _
      · rw [exact dynamic, Reader.ahead_advance]
        exact cursor.after_inline rfl

/-- The unpacking loop reads all components and moves past the head. -/
theorem unpackValues_decodes {coders : List Coder} {types : List AbiType}
    (decodes : List.Forall₂ (Decodes externals) coders types)
    (headed : AbiType.AllHeaded types)
    (unlengthened : AbiType.AllUnlengthened types)
    {values : List Value} {normals : List AbiValue}
    (normalised : AbiType.normaliseAll externals types values = some normals)
    {offset : Nat} {reader baseReader : Reader} (sound : reader.Sound)
    (baseSound : baseReader.Sound) (atBase : baseReader.offset = 0)
    (cursor : HeadTail.Cursor Spec.lengthWord offset
      (Spec.parts externals.toCryptography types normals) reader.ahead
      baseReader.data)
    (earlier : List Decoded) :
    ∃ decodeds,
      coders.foldlM (pushComponent baseReader) earlier reader =
        (.ok (earlier ++ decodeds),
          reader.advance (HeadTail.headLength wordSize
            (Spec.parts externals.toCryptography types normals))) ∧
      Decoded.plains? decodeds =
        some (AbiValue.plains externals.toCryptography normals) := by
  induction decodes generalizing values normals offset reader earlier with
  | nil =>
      cases values with
      | nil =>
          cases normalised
          exact ⟨[], by rw [List.append_nil]; rfl, rfl⟩
      | cons value values => simp [AbiType.normaliseAll] at normalised
  | @cons coder type coders types decodesHead _ induction =>
      cases values with
      | nil => simp [AbiType.normaliseAll] at normalised
      | cons value values =>
          simp only [AbiType.normaliseAll, Option.bind_eq_bind,
            Option.bind_eq_some_iff, Option.pure_def] at normalised
          obtain ⟨normal, head, normals, rest, done⟩ := normalised
          cases done
          rw [Spec.parts] at cursor
          obtain ⟨decoded, moved, offset', read, plain, movedSound,
            movedCursor, advanced⟩ := unpackComponent_decodes decodesHead
              headed.1 unlengthened.1 head sound baseSound atBase cursor
          obtain ⟨decodeds, readAll, plains⟩ := induction headed.2
            unlengthened.2 rest movedSound movedCursor (earlier ++ [decoded])
          refine ⟨decoded :: decodeds, ?_, ?_⟩
          · have step : pushComponent baseReader earlier coder reader =
                (.ok (earlier ++ [decoded]), moved) := by
              rw [pushComponent, Read.bind_of_ok read,
                Decoded.isNull_of_plain plain]
              rfl
            rw [List.foldlM_cons, Read.bind_of_ok step, readAll, advanced,
              Reader.advance_advance, List.append_assoc]
            rfl
          · simp [Decoded.plains?, plain, plains, AbiValue.plains]

/-- A sequence is unpacked to its values. -/
theorem unpack_decodes {coders : List Coder} {types : List AbiType}
    (decodes : List.Forall₂ (Decodes externals) coders types)
    (headed : AbiType.AllHeaded types)
    (unlengthened : AbiType.AllUnlengthened types)
    (named : Unlengthened (coders.map (·.localName)))
    {values : List Value} {normals : List AbiValue}
    (normalised : AbiType.normaliseAll externals types values = some normals)
    {reader : Reader} (sound : reader.Sound)
    (present : Spec.sequence
      (Spec.parts externals.toCryptography types normals) <+: reader.ahead) :
    ∃ decoded,
      unpack coders reader = (.ok decoded,
        reader.advance (HeadTail.headLength wordSize
          (Spec.parts externals.toCryptography types normals))) ∧
      decoded.plain? =
        some (.list (AbiValue.plains externals.toCryptography normals)) := by
  have base : (reader.subReader 0).data = reader.ahead := rfl
  have cursor := HeadTail.Cursor.start Spec.length_lengthWord present
  rw [← base] at cursor
  obtain ⟨decodeds, read, plains⟩ := unpackValues_decodes decodes headed
    unlengthened normalised sound (sound.subReader 0) rfl (by rw [base] at cursor ⊢; exact cursor) []
  have completed := completeResult_of_readable coders
    (Decoded.readable_of_plains plains)
  have length : decodeds.length = coders.length := by
    have results := Decoded.length_plains plains
    have lengths := length_normaliseAll normalised
    rw [AbiValue.length_plains] at results
    rw [← results, lengths.1, ← lengths.2, decodes.length_eq]
  refine ⟨.result decodeds (namedProperties coders decodeds.length), ?_, ?_⟩
  · rw [unpack, unpackValues, read, List.nil_append]
    dsimp only
    rw [completed]
  · rw [length]
    exact Decoded.plain?_result.mpr ⟨_, plains,
      Plain.ofResult_of_unindexed (namedProperties_unindexed named) _⟩

/-- A sequence is unpacked and coerced under the name of its class. -/
theorem unpack_coerce_decodes (name : String) {coders : List Coder}
    {types : List AbiType}
    (decodes : List.Forall₂ (Decodes externals) coders types)
    (headed : AbiType.AllHeaded types)
    (unlengthened : AbiType.AllUnlengthened types)
    (named : Unlengthened (coders.map (·.localName)))
    {values : List Value} {normals : List AbiValue}
    (normalised : AbiType.normaliseAll externals types values = some normals)
    {reader : Reader} (sound : reader.Sound)
    (present : Spec.sequence
      (Spec.parts externals.toCryptography types normals) <+: reader.ahead)
    (unmatched : Reader.matchNumber name = none) :
    ∃ decoded,
      (unpack coders >>= Reader.coerce name) reader = (.ok decoded,
        reader.advance (HeadTail.headLength wordSize
          (Spec.parts externals.toCryptography types normals))) ∧
      decoded.plain? =
        some (.list (AbiValue.plains externals.toCryptography normals)) := by
  obtain ⟨value, unpacked, readable⟩ :=
    unpack_decodes decodes headed unlengthened named normalised sound
      present
  obtain ⟨coerced, done, plain⟩ := Reader.coerce_of_kept
    (sound.advance (HeadTail.headLength wordSize
      (Spec.parts externals.toCryptography types normals)))
    (keptByDefault_of_no_number name unmatched value) readable
  exact ⟨coerced, by rw [Read.bind_of_ok unpacked, done], plain⟩

end Components

end Web3Js.Abi
