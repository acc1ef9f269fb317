import Web3Js.Abi.Sizes

/-!
# Packing

What a writer appends is described by its bytes.  The packing loop keeps the
static writer, once its updates are filled in, equal to the head section of
the parts seen so far, and the dynamic writer equal to their tails; packing
therefore appends the sequence of the parts.
-/

namespace Web3Js.Abi

/-- The writer `next` is `writer` with some chunks appended. -/
structure Appends (writer next : Writer) (bytes : Bytes) : Prop where
  chunks : ∃ chunks, next.data = writer.data ++ chunks ∧
    chunks.flatten = bytes
  dataLength : next.dataLength = writer.dataLength + bytes.length

namespace Appends

variable {writer next last : Writer} {bytes more : Bytes}

theorem trans (first : Appends writer next bytes)
    (second : Appends next last more) :
    Appends writer last (bytes ++ more) := by
  obtain ⟨⟨chunks, data, flat⟩, length⟩ := first
  obtain ⟨⟨chunks', data', flat'⟩, length'⟩ := second
  refine ⟨⟨chunks ++ chunks', ?_, ?_⟩, ?_⟩
  · rw [data', data, List.append_assoc]
  · rw [List.flatten_append, flat, flat']
  · rw [length', length, List.length_append, Nat.add_assoc]

theorem flatten (appends : Appends writer next bytes) :
    next.data.flatten = writer.data.flatten ++ bytes := by
  obtain ⟨⟨chunks, data, flat⟩, -⟩ := appends
  rw [data, List.flatten_append, flat]

theorem writeData (writer : Writer) (bytes : Bytes) :
    Appends writer (writer.writeData bytes).1 bytes :=
  ⟨⟨[bytes], rfl, by simp⟩, rfl⟩

theorem writeBytes (writer : Writer) (bytes : Bytes) :
    Appends writer (writer.writeBytes bytes).1 (Spec.padRight bytes) := by
  have padded : (if bytes.length % wordSize ≠ 0
      then bytes ++ padding.drop (bytes.length % wordSize) else bytes) =
        Spec.padRight bytes := by
    unfold Spec.padRight padding wordSize
    rw [List.drop_replicate]
    split
    · rw [Nat.mod_eq_of_lt (show 64 - bytes.length % 64 < 64 by omega)]
    · rename_i exact
      rw [not_not.mp exact]
      simp
  have appends := writeData writer (Spec.padRight bytes)
  rw [← padded] at appends
  rw [← padded]
  exact appends

end Appends

theorem Writer.getValue_eq_ok {value : Int} {bytes : Bytes}
    (written : Writer.getValue value = .ok bytes) :
    0 ≤ value ∧ value < 2 ^ (8 * wordSize) ∧
      bytes = Spec.lengthWord value.toNat := by
  unfold Writer.getValue BigNumber.toBytes at written
  split at written
  · cases written
  · rename_i nonneg
    rw [Outcome.ok_bind] at written
    have number := BigEndian.toNat_lt (BigEndian.minimal value.toNat)
    have nonempty := List.length_pos_of_ne_nil
      (BigEndian.minimal_ne_nil value.toNat)
    rw [BigEndian.toNat_minimal] at number
    split at written
    · cases written
    · rename_i fits
      have bounded : value.toNat < 256 ^ wordSize :=
        lt_of_lt_of_le number
          (Nat.pow_le_pow_right (by decide) (Nat.not_lt.mp fits))
      have limit : 256 ^ wordSize = 2 ^ (8 * wordSize) := by
        rw [pow_mul]
        rfl
      have word := BigEndian.replicate_append_minimal
        (show 0 < wordSize by decide) bounded
      refine ⟨by omega, ?_, ?_⟩
      · rw [limit] at bounded
        have cast := Int.ofNat_lt.mpr bounded
        rw [Int.toNat_of_nonneg (by omega), Nat.cast_pow] at cast
        exact cast
      · rw [Spec.lengthWord, ← word]
        unfold padding wordSize at *
        split at written
        · rename_i partly
          cases written
          rw [List.drop_replicate,
            Nat.mod_eq_of_lt (show _ < 64 by omega)]
        · rename_i full
          cases written
          have whole : (BigEndian.minimal value.toNat).length = 64 := by
            omega
          simp [whole]

theorem Spec.word_eq_lengthWord {value : Int}
    (nonneg : 0 ≤ value) (bounded : value < 2 ^ (8 * wordSize)) :
    Spec.word value = Spec.lengthWord value.toNat := by
  rw [Spec.word, Spec.lengthWord, Int.emod_eq_of_lt nonneg bounded]

theorem Writer.writeValue_appends {writer next : Writer} {value : Int}
    {length : Nat} (written : writer.writeValue value = .ok (next, length)) :
    0 ≤ value ∧ value < 2 ^ (8 * wordSize) ∧
      Appends writer next (Spec.lengthWord value.toNat) := by
  obtain ⟨bytes, bytesOk, done⟩ := Outcome.bind_eq_ok.mp written
  obtain ⟨nonneg, bounded, word⟩ := Writer.getValue_eq_ok bytesOk
  have appends := Appends.writeData writer bytes
  rw [Except.ok.inj done, word] at appends
  exact ⟨nonneg, bounded, appends⟩

section Pack

variable {externals : Externals}

/-- The chunks of the static writer once its updates are filled in. -/
def filled (baseOffset : Nat) (data : List Bytes)
    (updateFuncs : List (Nat × Nat)) : List Bytes :=
  updateFuncs.foldl
    (fun data update =>
      data.set update.1 (Spec.lengthWord (baseOffset + update.2)))
    data

/-- The packing has taken in the parts. -/
structure Packed (packing : Packing) (parts : List (HeadTail.Part UInt8)) :
    Prop where
  heads : ∀ baseOffset,
    (filled baseOffset packing.staticWriter.data
      packing.updateFuncs).flatten =
        HeadTail.heads Spec.lengthWord baseOffset parts
  tails : packing.dynamicWriter.data.flatten = HeadTail.tails parts
  staticLength :
    packing.staticWriter.dataLength = HeadTail.headLength wordSize parts
  dynamicLength :
    packing.dynamicWriter.dataLength = (HeadTail.tails parts).length
  places : ∀ update ∈ packing.updateFuncs,
    update.1 < packing.staticWriter.data.length

theorem Packed.empty : Packed {} [] where
  heads _ := rfl
  tails := rfl
  staticLength := rfl
  dynamicLength := rfl
  places := by simp

private theorem length_filled (baseOffset : Nat) (data : List Bytes)
    (updateFuncs : List (Nat × Nat)) :
    (filled baseOffset data updateFuncs).length = data.length := by
  unfold filled
  induction updateFuncs generalizing data with
  | nil => rfl
  | cons update updateFuncs induction =>
      rw [List.foldl_cons, induction, List.length_set]

/-- Updates of earlier chunks leave appended chunks alone. -/
private theorem filled_append (baseOffset : Nat) (data chunks : List Bytes)
    (updateFuncs : List (Nat × Nat))
    (places : ∀ update ∈ updateFuncs, update.1 < data.length) :
    filled baseOffset (data ++ chunks) updateFuncs =
      filled baseOffset data updateFuncs ++ chunks := by
  unfold filled
  induction updateFuncs generalizing data with
  | nil => rfl
  | cons update updateFuncs induction =>
      rw [List.foldl_cons, List.foldl_cons,
        List.set_append_left _ _ (places update List.mem_cons_self)]
      apply induction
      intro other member
      rw [List.length_set]
      exact places other (List.mem_cons_of_mem update member)

theorem Packed.inline {packing : Packing}
    {parts : List (HeadTail.Part UInt8)} {contents : Bytes} {next : Writer}
    (packed : Packed packing parts)
    (appends : Appends packing.staticWriter next contents) :
    Packed { packing with staticWriter := next }
      (parts ++ [{ outlined := false, contents }]) := by
  obtain ⟨⟨chunks, data, flat⟩, length⟩ := appends
  constructor
  · intro baseOffset
    rw [data, filled_append baseOffset _ _ _ packed.places,
      List.flatten_append, packed.heads, flat, HeadTail.heads_append]
    simp [HeadTail.heads]
  · rw [packed.tails, HeadTail.tails_append]
    simp [HeadTail.tails]
  · rw [length, packed.staticLength, HeadTail.headLength_append]
    simp [HeadTail.headLength]
  · rw [packed.dynamicLength, HeadTail.tails_append]
    simp [HeadTail.tails]
  · intro update member
    have place := packed.places update member
    rw [data, List.length_append]
    omega

theorem Packed.outlined {packing : Packing}
    {parts : List (HeadTail.Part UInt8)} {contents : Bytes} {next : Writer}
    (packed : Packed packing parts)
    (appends : Appends packing.dynamicWriter next contents) :
    Packed
      { staticWriter := packing.staticWriter.writeUpdatableValue.1
        dynamicWriter := next
        updateFuncs := packing.updateFuncs ++
          [(packing.staticWriter.writeUpdatableValue.2,
            packing.dynamicWriter.dataLength)] }
      (parts ++ [{ outlined := true, contents }]) := by
  have flat := appends.flatten
  have length := appends.dataLength
  constructor
  · intro baseOffset
    have earlier := filled_append baseOffset _ [padding] _ packed.places
    have last : filled baseOffset
        (packing.staticWriter.data ++ [padding])
        (packing.updateFuncs ++ [(packing.staticWriter.data.length,
          packing.dynamicWriter.dataLength)]) =
        filled baseOffset packing.staticWriter.data packing.updateFuncs ++
          [Spec.lengthWord
            (baseOffset + packing.dynamicWriter.dataLength)] := by
      have width := length_filled baseOffset packing.staticWriter.data
        packing.updateFuncs
      unfold filled at earlier width ⊢
      rw [List.foldl_append, earlier]
      simp [width]
    simp only [Writer.writeUpdatableValue]
    rw [last, List.flatten_append, packed.heads, HeadTail.heads_append,
      packed.dynamicLength]
    simp [HeadTail.heads]
  · rw [flat, packed.tails, HeadTail.tails_append]
    simp [HeadTail.tails]
  · simp [Writer.writeUpdatableValue, packed.staticLength,
      HeadTail.headLength_append, HeadTail.headLength]
  · rw [length, packed.dynamicLength, HeadTail.tails_append]
    simp [HeadTail.tails]
  · intro update member
    simp only [Writer.writeUpdatableValue, List.length_append,
      List.length_singleton]
    rcases List.mem_append.mp member with earlier | last
    · have place := packed.places update earlier
      omega
    · rw [List.mem_singleton.mp last]
      simp [Writer.writeUpdatableValue]

/-- Backfilling writes the offsets into their words. -/
theorem backfill_filled (documented : externals.Documented)
    {baseOffset : Nat} {updateFuncs : List (Nat × Nat)}
    {writer finish : Writer}
    (folded : updateFuncs.foldlM (backfill externals baseOffset) writer =
      .ok finish) :
    finish.data = filled baseOffset writer.data updateFuncs := by
  induction updateFuncs generalizing writer with
  | nil =>
      cases folded
      rfl
  | cons update updateFuncs induction =>
      rw [List.foldlM_cons] at folded
      obtain ⟨next, stepped, remaining⟩ := Outcome.bind_eq_ok.mp folded
      obtain ⟨value, valueOk, updated⟩ := Outcome.bind_eq_ok.mp stepped
      obtain ⟨bytes, bytesOk, done⟩ := Outcome.bind_eq_ok.mp updated
      have offset := documented.bigNumberFrom_number _ _ valueOk
      obtain ⟨-, -, word⟩ := Writer.getValue_eq_ok bytesOk
      rw [offset, Int.toNat_natCast] at word
      cases done
      rw [induction remaining]
      simp only [filled, List.foldl_cons, word]

end Pack

/-- The coder appends the reference encoding of what the value denotes. -/
structure Encodes (externals : Externals) (coder : Coder) (type : AbiType) :
    Prop where
  dynamic : coder.dynamic = type.isDynamic
  encode : ∀ {writer next : Writer} {value : Value} {length : Nat},
    coder.encode writer value = .ok (next, length) →
      ∃ normal, type.normalise externals value = some normal ∧
        Appends writer next
          (Spec.encode externals.toCryptography type normal)

section Components

variable {externals : Externals}

theorem packComponent_encodes {coder : Coder} {type : AbiType}
    (encodes : Encodes externals coder type) {packing next : Packing}
    {value : Value} {parts : List (HeadTail.Part UInt8)}
    (packed : Packed packing parts)
    (stepped : packComponent packing (coder, value) = .ok next) :
    ∃ normal, type.normalise externals value = some normal ∧
      Packed next (parts ++ [{
        outlined := type.isDynamic
        contents := Spec.encode externals.toCryptography type normal }]) := by
  cases dynamic : coder.dynamic with
  | true =>
      simp only [packComponent, dynamic, if_true] at stepped
      obtain ⟨⟨dynamicWriter, _⟩, encoded, done⟩ :=
        Outcome.bind_eq_ok.mp stepped
      obtain ⟨normal, normalised, appends⟩ := encodes.encode encoded
      cases done
      refine ⟨normal, normalised, ?_⟩
      rw [← encodes.dynamic, dynamic]
      exact packed.outlined appends
  | false =>
      simp only [packComponent, dynamic, Bool.false_eq_true, if_false]
        at stepped
      obtain ⟨⟨staticWriter, _⟩, encoded, done⟩ :=
        Outcome.bind_eq_ok.mp stepped
      obtain ⟨normal, normalised, appends⟩ := encodes.encode encoded
      cases done
      refine ⟨normal, normalised, ?_⟩
      rw [← encodes.dynamic, dynamic]
      exact packed.inline appends

/-- The packing loop takes in the parts of the components in order. -/
theorem packComponents_encodes {coders : List Coder} {types : List AbiType}
    (encodes : List.Forall₂ (Encodes externals) coders types)
    {values : List Value} (sameLength : coders.length = values.length)
    {packing finish : Packing} {parts : List (HeadTail.Part UInt8)}
    (packed : Packed packing parts)
    (folded : (coders.zip values).foldlM packComponent packing = .ok finish) :
    ∃ normals, AbiType.normaliseAll externals types values = some normals ∧
      Packed finish
        (parts ++ Spec.parts externals.toCryptography types normals) := by
  induction encodes generalizing values packing parts with
  | nil =>
      obtain rfl := List.length_eq_zero_iff.mp sameLength.symm
      cases folded
      exact ⟨[], rfl, by simpa [Spec.parts] using packed⟩
  | @cons coder type coders types encodesHead encodesTail induction =>
      cases values with
      | nil => cases sameLength
      | cons value values =>
          rw [List.zip_cons_cons, List.foldlM_cons] at folded
          obtain ⟨next, stepped, remaining⟩ := Outcome.bind_eq_ok.mp folded
          obtain ⟨normal, normalised, packedNext⟩ :=
            packComponent_encodes encodesHead packed stepped
          obtain ⟨normals, allNormalised, packedFinish⟩ :=
            induction (Nat.succ.inj sameLength) packedNext remaining
          refine ⟨normal :: normals, ?_, ?_⟩
          · simp [AbiType.normaliseAll, normalised, allNormalised]
          · simpa [Spec.parts] using packedFinish

private theorem namedValues_componentValues
    (properties : List (String × Value)) {coders : List Coder}
    {unique : List String} {values : List Value}
    (named : namedValues properties coders unique = .ok values) :
    componentValues (coders.map (·.localName)) (.object properties) =
      some values := by
  induction coders generalizing unique values with
  | nil =>
      cases named
      rfl
  | cons coder coders induction =>
      rw [namedValues] at named
      cases given : givenName coder.localName with
      | none =>
          rw [given] at named
          cases named
      | some name =>
          simp only [given] at named
          split at named
          · cases named
          · obtain ⟨others, othersOk, done⟩ := Outcome.bind_eq_ok.mp named
            have localName : coder.localName = some name :=
              (Option.filter_eq_some_iff.mp given).1
            have rest := induction othersOk
            cases done
            simp only [componentValues] at rest ⊢
            rw [List.map_cons, List.mapM_cons, localName, rest]
            rfl

theorem arrayValues_componentValues {coders : List Coder} {value : Value}
    {values : List Value} (extracted : arrayValues coders value = .ok values) :
    componentValues (coders.map (·.localName)) value = some values := by
  cases value with
  | array elements =>
      cases extracted
      rfl
  | object properties => exact namedValues_componentValues _ extracted
  | byteArray bytes => exact namedValues_componentValues _ extracted
  | undefined | null | boolean | number | notANumber | infinity | bigint
    | string | function =>
      cases extracted

/-- Packing appends the sequence of the parts. -/
theorem pack_encodes (documented : externals.Documented)
    {coders : List Coder} {types : List AbiType}
    (encodes : List.Forall₂ (Encodes externals) coders types)
    {writer next : Writer} {value : Value} {length : Nat}
    (packedOk : pack externals writer coders value = .ok (next, length)) :
    ∃ values normals,
      componentValues (coders.map (·.localName)) value = some values ∧
        AbiType.normaliseAll externals types values = some normals ∧
        Appends writer next (Spec.sequence
          (Spec.parts externals.toCryptography types normals)) := by
  obtain ⟨values, extracted, rest⟩ := Outcome.bind_eq_ok.mp packedOk
  split at rest
  · cases rest
  · rename_i sameLength
    obtain ⟨packing, packedAll, rest⟩ := Outcome.bind_eq_ok.mp rest
    obtain ⟨staticWriter, backfilled, done⟩ := Outcome.bind_eq_ok.mp rest
    obtain ⟨normals, normalised, packed⟩ := packComponents_encodes encodes
      (not_not.mp sameLength) Packed.empty packedAll
    have data := backfill_filled documented backfilled
    have static := Appends.writeData writer staticWriter.data.flatten
    have dynamic := Appends.writeData
      (writer.appendWriter staticWriter).1 packing.dynamicWriter.data.flatten
    have whole := static.trans dynamic
    have sections : staticWriter.data.flatten ++
        packing.dynamicWriter.data.flatten =
          Spec.sequence
            (Spec.parts externals.toCryptography types normals) := by
      rw [data, packed.heads, packed.tails, packed.staticLength,
        List.nil_append]
      rfl
    rw [sections] at whole
    cases done
    exact ⟨values, normals, arrayValues_componentValues extracted, normalised,
      whole⟩

end Components

end Web3Js.Abi
