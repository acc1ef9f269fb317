import Web3Js.Abi.Refinement
import Web3Js.Abi.Unpacking

/-!
# Decoding inverts encoding

Before the reference encoding of a typed value, every coder class reads that
value, so the coder of a parameter does by induction on the parameter.  With
the refinement of the encoder this gives the round trip.
-/

namespace Web3Js.Abi

section Classes

variable {externals : Externals}

theorem hexZeroPad_toHexString {bytes : Bytes}
    (length : bytes.length = wordSize) :
    hexZeroPad (BigNumber.toHexString (BigEndian.toNat bytes)) 64 =
      .ok (hexlify bytes) := by
  have bounded := BigEndian.toNat_lt bytes
  rw [length] at bounded
  have fits := BigEndian.length_minimal_le (show 0 < wordSize by decide)
    bounded
  have word := BigEndian.replicate_append_minimal
    (show 0 < wordSize by decide) bounded
  have digits : Hex.encode bytes =
      List.replicate (2 * 64 - 2 *
        (BigEndian.minimal (BigEndian.toNat bytes)).length) '0' ++
          Hex.encode (BigEndian.minimal (BigEndian.toNat bytes)) := by
    rw [← Nat.mul_sub, ← Hex.encode_replicate_zero, ← Hex.encode_append,
      show (64 : Nat) = wordSize from rfl, word, ← length,
      BigEndian.ofNat_toNat]
  unfold wordSize at fits
  have short : ¬2 * 64 <
      2 * (BigEndian.minimal (BigEndian.toNat bytes)).length := by
    omega
  simp only [hexZeroPad, BigNumber.toHexString, hexlify,
    String.toList_ofList, List.drop_succ_cons, List.drop_zero, if_neg short,
    Hex.length_encode, digits]

theorem AddressCoder.decodes (name : Option String) :
    Decodes externals (AddressCoder externals name) .address where
  dynamic := rfl
  decode := by
    intro _ _ value normal normalised reader sound present
    obtain ⟨bytes, rfl, length⟩ := AbiType.normalise_address normalised
    have bounded := BigEndian.toNat_lt bytes
    rw [length] at bounded
    have word : Spec.lengthWord (BigEndian.toNat bytes) = bytes := by
      rw [Spec.lengthWord, ← length, BigEndian.ofNat_toNat]
    have below : BigEndian.toNat bytes < 2 ^ (8 * wordSize) := by
      rw [pow_mul]
      exact bounded
    rw [Spec.encode, ← word] at present
    have read := Reader.readValue_of_prefix below present
    have canonical :=
      Utils.toChecksumAddress_hexToAddress externals.toCryptography length
    refine ⟨.string (canonicalAddress externals.toCryptography bytes),
      reader.advance wordSize, ?_, rfl, ?_⟩
    · simp only [AddressCoder]
      rw [Read.bind_of_ok read,
        Read.lift_bind_of_ok (hexZeroPad_toHexString length), canonical]
      rfl
    · intro _
      rw [Spec.encode, length]

theorem BooleanCoder.decodes (name : Option String) :
    Decodes externals (BooleanCoder name) .bool where
  dynamic := rfl
  decode := by
    intro _ _ value normal normalised reader sound present
    cases normalised
    obtain ⟨number, word, truth⟩ : ∃ number : Nat,
        Spec.word (if value.truthy then 1 else 0) =
          Spec.lengthWord number ∧
          (number < 2 ^ (8 * wordSize) ∧
            (number != 0) = value.truthy) := by
      have large : 1 < 2 ^ (8 * wordSize) := Nat.one_lt_two_pow (by decide)
      have largeInt : (1 : Int) < 2 ^ (8 * wordSize) := by exact_mod_cast large
      cases value.truthy with
      | true =>
          exact ⟨1, Spec.word_eq_lengthWord (by decide) largeInt, large, rfl⟩
      | false =>
          exact ⟨0, Spec.word_eq_lengthWord (by decide) (by omega),
            by omega, rfl⟩
    rw [Spec.encode, word] at present
    have read := Reader.readValue_of_prefix truth.1 present
    obtain ⟨coerced, done, plain⟩ := Reader.coerce_of_kept
      (sound.advance wordSize)
      (keptByDefault_of_no_number "bool" (by decide)
        (.boolean value.truthy)) rfl
    refine ⟨coerced, reader.advance wordSize, ?_, plain, ?_⟩
    · simp only [BooleanCoder]
      rw [Read.bind_of_ok read, truth.2, done]
    · intro _
      rw [Spec.encode, Spec.length_word]

/-- The decoder's mask recovers the number from its residue. -/
theorem NumberCoder.read_number {size : ByteSize} {signed : Bool}
    {number : Int} (low : lowerBound signed (size.bytes * 8) ≤ number)
    (high : number < upperBound signed (size.bytes * 8)) :
    BigNumber.mask (number % 2 ^ (8 * wordSize)).toNat (size.bytes * 8) =
        .ok (number % 2 ^ (size.bytes * 8)) ∧
      (if signed then
        BigNumber.fromTwos (number % 2 ^ (size.bytes * 8)) (size.bytes * 8)
      else number % 2 ^ (size.bytes * 8)) = number := by
  have positive : 0 < size.bytes * 8 :=
    Nat.mul_pos size.positive (by decide)
  have within : size.bytes * 8 ≤ 8 * wordSize := by
    have := size.withinWord
    omega
  have nonneg : 0 ≤ number % 2 ^ (8 * wordSize) :=
    Int.emod_nonneg _ (by positivity)
  constructor
  · rw [Int.toNat_of_nonneg nonneg, BigNumber.mask_of_nonneg nonneg,
      Int.emod_emod_of_dvd _ (pow_dvd_pow 2 within)]
  · cases signed with
    | true => exact BigNumber.fromTwos_emod positive low high
    | false => exact Int.emod_eq_of_lt low high

theorem NumberCoder.decodes (size : ByteSize) (signed : Bool)
    (name : Option String) :
    Decodes externals (NumberCoder externals size.bytes signed name)
      (.number signed size) where
  dynamic := rfl
  decode := by
    intro _ _ value normal normalised reader sound present
    obtain ⟨number, -, inRange⟩ := Option.bind_eq_some_iff.mp normalised
    split at inRange
    · rename_i bounds
      cases inRange
      obtain ⟨low, high⟩ := bounds
      obtain ⟨masked, restored⟩ := NumberCoder.read_number low high
      have bounded : (number % 2 ^ (8 * wordSize)).toNat <
          2 ^ (8 * wordSize) := by
        have below := Int.emod_lt_of_pos number
          (show (0 : Int) < 2 ^ (8 * wordSize) by positivity)
        zify
        rw [Int.toNat_of_nonneg (Int.emod_nonneg _ (by positivity))]
        exact below
      rw [Spec.encode] at present
      have read := Reader.readValue_of_prefix bounded present
      obtain ⟨coerced, done, plain⟩ := Reader.coerce_of_kept
        (sound.advance wordSize) (keptByDefault_number low high) rfl
      refine ⟨coerced, reader.advance wordSize, ?_, plain, ?_⟩
      · simp only [NumberCoder]
        rw [Read.bind_of_ok read, Read.lift_bind_of_ok masked, restored, done]
      · intro _
        rw [Spec.encode, Spec.length_word]
    · cases inRange

private theorem matchNumber_fixedBytesName (size : Nat) :
    Reader.matchNumber (fixedBytesName size) = none := by
  simp [Reader.matchNumber, fixedBytesName, String.toList_append]

theorem FixedBytesCoder.decodes (size : ByteSize) (name : Option String) :
    Decodes externals (FixedBytesCoder externals size.bytes name)
      (.fixedBytes size) where
  dynamic := rfl
  decode := by
    intro _ _ value normal normalised reader sound present
    obtain ⟨bytes, -, sized⟩ := Option.bind_eq_some_iff.mp normalised
    split at sized
    · rename_i length
      cases sized
      rw [Spec.encode] at present
      have wide := Spec.length_padRight_of_size length
      have within := Reader.prefix_within present (by rw [wide]; decide)
      have read := Reader.readBytes_padRight false present (by omega)
      rw [length] at read
      obtain ⟨coerced, done, plain⟩ := Reader.coerce_of_kept
        (sound.advance (Spec.padRight bytes).length)
        (keptByDefault_of_no_number _
          (matchNumber_fixedBytesName size.bytes)
          (.string (hexlify bytes))) rfl
      refine ⟨coerced, _, ?_, plain, fun _ => rfl⟩
      simp only [FixedBytesCoder]
      rw [Read.bind_of_ok read, done, Spec.encode]
    · cases sized

theorem DynamicBytesCoder.decode_prefix {reader : Reader} {bytes : Bytes}
    (sound : reader.Sound)
    (present : Spec.lengthWord bytes.length ++ Spec.padRight bytes <+:
      reader.ahead) :
    ∃ moved : Reader, moved.Sound ∧
      DynamicBytesCoder.decode reader = (.ok bytes, moved) := by
  have within := Reader.prefix_within present (by
    rw [List.length_append, Spec.length_lengthWord]
    exact Nat.lt_of_lt_of_le (by decide) (Nat.le_add_right wordSize _))
  rw [List.length_append, Spec.length_lengthWord] at within
  have shorter : bytes.length ≤ (Spec.padRight bytes).length := by
    simp [Spec.padRight]
  have limit := sound.length
  have safe : (bytes.length : Int).natAbs ≤ maxSafeInteger := by
    simp only [Int.natAbs_natCast]
    omega
  have number : BigNumber.toNumber (bytes.length : Int) =
      .ok (bytes.length : Int) := if_pos safe
  have read := Reader.readValue_of_prefix
    (lt_of_le_of_lt (by simpa using safe) maxSafeInteger_lt_word)
    ((List.prefix_append _ _).trans present)
  have rest : Spec.padRight bytes <+: (reader.advance wordSize).ahead := by
    obtain ⟨more, whole⟩ := present
    refine ⟨more, ?_⟩
    rw [Reader.ahead_advance, ← whole, List.append_assoc]
    exact (List.drop_left' (Spec.length_lengthWord _)).symm
  have readRest := Reader.readBytes_padRight true rest (by
    simp only [Reader.advance]
    omega)
  refine ⟨(reader.advance wordSize).advance (Spec.padRight bytes).length,
    (sound.advance wordSize).advance _, ?_⟩
  rw [DynamicBytesCoder.decode, Read.bind_of_ok read,
    Read.lift_bind_of_ok number, Int.toNat_natCast, readRest]

theorem BytesCoder.decodes (name : Option String) :
    Decodes externals (BytesCoder externals name) .bytes where
  dynamic := rfl
  decode := by
    intro _ _ value normal normalised reader sound present
    obtain ⟨bytes, -, done⟩ := Option.bind_eq_some_iff.mp normalised
    cases done
    obtain ⟨moved, movedSound, read⟩ :=
      DynamicBytesCoder.decode_prefix sound present
    obtain ⟨coerced, coercion, plain⟩ := Reader.coerce_of_kept movedSound
      (keptByDefault_of_no_number "bytes" (by decide)
        (.string (hexlify bytes))) rfl
    refine ⟨coerced, moved, ?_, plain, by simp [AbiType.isDynamic]⟩
    simp only [BytesCoder]
    rw [Read.bind_of_ok read, coercion]

theorem StringCoder.decodes (documented : externals.Documented)
    (name : Option String) :
    Decodes externals (StringCoder externals name) .string where
  dynamic := rfl
  decode := by
    intro _ _ value normal normalised reader sound present
    cases value <;> cases normalised
    rename_i text
    obtain ⟨moved, -, read⟩ :=
      DynamicBytesCoder.decode_prefix sound present
    refine ⟨.string text, moved, ?_, rfl, by simp [AbiType.isDynamic]⟩
    simp only [StringCoder]
    rw [Read.bind_of_ok read, documented.utf8Inverse text]
    rfl

mutual

/-- Head sizes are whole words. -/
theorem AbiType.dvd_headSize : ∀ type : AbiType, wordSize ∣ type.headSize
  | .address | .bool | .number _ _ | .fixedBytes _ | .string | .bytes
  | .array _ none => dvd_rfl
  | .array element (some length) => by
      rw [AbiType.headSize]
      split
      · exact dvd_rfl
      · exact Dvd.dvd.mul_left (AbiType.dvd_headSize element) length
  | .tuple _ components => by
      rw [AbiType.headSize]
      split
      · exact dvd_rfl
      · exact AbiType.dvd_headSizes components

theorem AbiType.dvd_headSizes :
    ∀ types : List AbiType, wordSize ∣ AbiType.headSizes types
  | [] => Nat.dvd_zero wordSize
  | type :: types =>
      Nat.dvd_add (AbiType.dvd_headSize type) (AbiType.dvd_headSizes types)

end

private theorem allHeaded_replicate {element : AbiType}
    (headed : element.Headed) (count : Nat) :
    AbiType.AllHeaded (List.replicate count element) := by
  induction count with
  | zero => trivial
  | succ count induction => exact ⟨headed, induction⟩

private theorem allUnlengthened_replicate {element : AbiType}
    (unlengthened : element.Unlengthened) (count : Nat) :
    AbiType.AllUnlengthened (List.replicate count element) := by
  induction count with
  | zero => trivial
  | succ count induction => exact ⟨unlengthened, induction⟩

/-- Nameless copies of a coder name nothing. -/
theorem unlengthened_anonymous (coder : Coder) (count : Nat) :
    Unlengthened ((List.replicate count (AnonymousCoder coder)).map
      (·.localName)) := by
  intro name member
  rw [List.map_replicate] at member
  obtain ⟨localName, copied, given⟩ := List.mem_filterMap.mp member
  rw [List.eq_of_mem_replicate copied] at given
  cases given

/-- The count in front of an array of dynamic length passes the check for
enough data, as every element takes a word of the head. -/
theorem ArrayCoder.readCount_prefix {element : AbiType}
    {values : List Value} {normals : List AbiValue}
    (headed : 1 ≤ element.headSize)
    (elements : AbiType.normaliseAll externals
      (List.replicate normals.length element) values = some normals)
    {reader : Reader} (sound : reader.Sound)
    (present : Spec.lengthWord normals.length ++
      Spec.sequence (Spec.parts externals.toCryptography
        (List.replicate normals.length element) normals) <+: reader.ahead) :
    ArrayCoder.readCount none reader =
      (.ok normals.length, reader.advance wordSize) := by
  have within := Reader.prefix_within present (by
    rw [List.length_append, Spec.length_lengthWord]
    exact Nat.lt_of_lt_of_le (by decide) (Nat.le_add_right wordSize _))
  obtain ⟨-, heads, -⟩ := Spec.parts_sized
    (AbiType.allSized (List.replicate normals.length element)) elements
  have word : wordSize ≤ element.headSize :=
    Nat.le_of_dvd headed (AbiType.dvd_headSize element)
  have enough : normals.length * wordSize ≤ reader.data.length := by
    rw [headSizes_replicate] at heads
    rw [List.length_append, Spec.sequence,
      HeadTail.length_layout Spec.length_lengthWord, heads] at within
    have each : normals.length * wordSize ≤
        normals.length * element.headSize := Nat.mul_le_mul_left _ word
    omega
  have limit := sound.length
  have fewer : normals.length ≤ normals.length * wordSize :=
    Nat.le_mul_of_pos_right _ (by decide)
  have safe : (normals.length : Int).natAbs ≤ maxSafeInteger := by
    simp only [Int.natAbs_natCast]
    omega
  have number : BigNumber.toNumber (normals.length : Int) =
      .ok (normals.length : Int) := if_pos safe
  have read := Reader.readValue_of_prefix
    (lt_of_le_of_lt (by simpa using safe) maxSafeInteger_lt_word)
    ((List.prefix_append _ _).trans present)
  rw [ArrayCoder.readCount, Read.bind_of_ok read,
    Read.lift_bind_of_ok number, Int.toNat_natCast]
  exact if_neg (Nat.not_lt.mpr enough)

/-- The elements of an array, read by nameless copies of its coder. -/
theorem ArrayCoder.unpack_elements {coder : Coder} {element : AbiType}
    (decodes : Decodes externals coder element) (headed : element.Headed)
    (unlengthened : element.Unlengthened) {values : List Value} {normals : List AbiValue}
    (elements : AbiType.normaliseAll externals
      (List.replicate normals.length element) values = some normals)
    {reader : Reader} (sound : reader.Sound)
    (present : Spec.sequence (Spec.parts externals.toCryptography
      (List.replicate normals.length element) normals) <+: reader.ahead) :
    ∃ decoded,
      (unpack (List.replicate normals.length (AnonymousCoder coder)) >>=
          Reader.coerce "array") reader =
        (.ok decoded, reader.advance (HeadTail.headLength wordSize
          (Spec.parts externals.toCryptography
            (List.replicate normals.length element) normals))) ∧
      decoded.plain? =
        some (.list (AbiValue.plains externals.toCryptography normals)) := by
  have anonymous : Decodes externals (AnonymousCoder coder) element :=
    ⟨decodes.dynamic, decodes.decode⟩
  have related : List.Forall₂ (Decodes externals)
      (List.replicate normals.length (AnonymousCoder coder))
      (List.replicate normals.length element) := by
    generalize normals.length = count
    induction count with
    | zero => exact .nil
    | succ count induction => exact .cons anonymous induction
  exact unpack_coerce_decodes _ related
    (allHeaded_replicate headed normals.length)
    (allUnlengthened_replicate unlengthened normals.length)
    (unlengthened_anonymous coder normals.length) elements sound present
    (by decide)

theorem ArrayCoder.decodes {coder : Coder} {element : AbiType}
    (length : Option Nat) (name : Option String)
    (decodes : Decodes externals coder element) :
    Decodes externals (ArrayCoder externals coder length name)
      (.array element length) where
  dynamic := by
    cases length with
    | none => rfl
    | some length => exact decodes.dynamic
  decode := by
    intro headed unlengthened value normal normalised reader sound present
    obtain ⟨values, normals, rfl, rfl, lengths, fits, elements⟩ :=
      AbiType.normalise_array normalised
    cases length with
    | none =>
        rw [Spec.encode, ← Spec.parts_replicate] at present
        have counted :=
          ArrayCoder.readCount_prefix headed.1 elements sound present
        have rest : Spec.sequence (Spec.parts externals.toCryptography
            (List.replicate normals.length element) normals) <+:
              (reader.advance wordSize).ahead := by
          obtain ⟨more, whole⟩ := present
          refine ⟨more, ?_⟩
          rw [Reader.ahead_advance, ← whole, List.append_assoc]
          exact (List.drop_left' (Spec.length_lengthWord _)).symm
        obtain ⟨decoded, read, plain⟩ := ArrayCoder.unpack_elements decodes
          headed.2 unlengthened elements (sound.advance wordSize) rest
        exact ⟨decoded, _, (Read.bind_of_ok counted).trans read, plain,
          fun static => by simp [AbiType.isDynamic] at static⟩
    | some length =>
        rw [Spec.encode, ← Spec.parts_replicate] at present
        obtain ⟨decoded, read, plain⟩ := ArrayCoder.unpack_elements decodes
          headed unlengthened elements sound present
        have count : length = normals.length := by
          rw [fits length rfl, lengths]
        have counted : ArrayCoder.readCount (some length) reader =
            (.ok normals.length, reader) := by
          rw [count]
          rfl
        refine ⟨decoded, _, (Read.bind_of_ok counted).trans read, plain, ?_⟩
        intro static
        rw [AbiType.isDynamic] at static
        obtain ⟨-, -, tails⟩ := Spec.parts_sized
          (AbiType.allSized (List.replicate normals.length element))
          elements
        rw [Spec.encode, ← Spec.parts_replicate, Spec.sequence,
          HeadTail.length_layout Spec.length_lengthWord,
          tails (anyDynamic_replicate static normals.length)]
        rfl

theorem TupleCoder.decodes {coders : List Coder}
    {components : List AbiType} (name : Option String)
    (decodes : List.Forall₂ (Decodes externals) coders components) :
    Decodes externals (TupleCoder externals coders name)
      (.tuple (coders.map (·.localName)) components) where
  dynamic := by
    simp only [TupleCoder, AbiType.isDynamic]
    induction decodes with
    | nil => rfl
    | cons head tail induction =>
        rw [List.any_cons, head.dynamic, induction, AbiType.anyDynamic]
  decode := by
    intro headed unlengthened value normal normalised reader sound present
    obtain ⟨values, normals, rfl, elements⟩ :=
      AbiType.normalise_tuple normalised
    obtain ⟨decoded, read, plain⟩ := unpack_coerce_decodes "tuple" decodes
      headed unlengthened.2 unlengthened.1 elements sound present (by decide)
    refine ⟨decoded, _, read, plain, ?_⟩
    intro static
    obtain ⟨-, -, tails⟩ :=
      Spec.parts_sized (AbiType.allSized components) elements
    rw [Spec.encode, Spec.sequence,
      HeadTail.length_layout Spec.length_lengthWord, tails static]
    rfl

theorem decodes_respected (documented : externals.Documented) :
    RespectedByClasses externals (Decodes externals) where
  address := AddressCoder.decodes
  bool := BooleanCoder.decodes
  string := StringCoder.decodes documented
  bytes := BytesCoder.decodes
  number := NumberCoder.decodes
  fixedBytes := FixedBytesCoder.decodes
  array _ _ length name decodes := ArrayCoder.decodes length name decodes
  tuple _ _ name decodes := TupleCoder.decodes name decodes

end Classes

section Results

variable {externals : Externals}

/-- The reference encoding of typed values is decoded to these values. -/
theorem AbiCoder.decode_sequence (documented : externals.Documented)
    (abiCoder : AbiCoder)
    (faithful : ∀ coerceFunc ∈ abiCoder.coerceFunc, coerceFunc.Faithful)
    {params : List ParamType} {types : List AbiType}
    (typed : ParamType.abiTypes params = some types)
    (headed : AbiType.AllHeaded types)
    (unlengthened : AbiType.AllUnlengthened types)
    (named : Unlengthened (params.map (·.localName))) {values : List Value}
    {normals : List AbiValue}
    (normalised : AbiType.normaliseAll externals types values = some normals)
    (limit : (Spec.sequence (Spec.parts externals.toCryptography types
      normals)).length ≤ maxSafeInteger)
    (loose : Bool) :
    ∃ decoded,
      abiCoder.decode externals params
          (.string (hexlify (Spec.sequence
            (Spec.parts externals.toCryptography types normals)))) loose =
        .ok decoded ∧
      decoded.plain? =
        some (.list (AbiValue.plains externals.toCryptography normals)) := by
  obtain ⟨nonempty, coders, codersOk⟩ :=
    getCoders_of_abiTypes externals params typed
  obtain ⟨types', typed', names, decodes⟩ :=
    getCoders_induction (decodes_respected documented) params nonempty
      codersOk
  obtain rfl : types = types' := by
    rw [typed] at typed'
    exact Option.some.inj typed'
  have bytes := documented.arrayify_hexlify (Spec.sequence
    (Spec.parts externals.toCryptography types normals))
  have sound : (abiCoder.getReader (Spec.sequence
      (Spec.parts externals.toCryptography types normals)) loose).Sound :=
    ⟨limit, faithful⟩
  obtain ⟨decoded, moved, read, plain, -⟩ :=
    (TupleCoder.decodes (some "_") decodes).decode headed
      ⟨names ▸ named, unlengthened⟩ (.array values)
      (.list normals)
      (by simp [AbiType.normalise, componentValues, normalised])
      _ sound (List.prefix_refl _)
  refine ⟨decoded, ?_, plain⟩
  simp only [AbiCoder.decode, codersOk, Outcome.ok_bind, bytes, read]

/-- Decoding what was encoded gives the typed values, without any deferred
error. -/
theorem AbiCoder.decode_encode (documented : externals.Documented)
    (abiCoder : AbiCoder)
    (faithful : ∀ coerceFunc ∈ abiCoder.coerceFunc, coerceFunc.Faithful)
    (params : List ParamType) (values : List Value) (data : String)
    (loose : Bool) (nonempty : ParamType.AllNonempty params)
    (encoded : AbiCoder.encode externals params values = .ok data) :
    ∃ types, ParamType.abiTypes params = some types ∧
      (AbiType.AllHeaded types → AbiType.AllUnlengthened types →
        Unlengthened (params.map (·.localName)) → ∃ normals decoded,
        AbiType.normaliseAll externals types values = some normals ∧
          abiCoder.decode externals params (.string data) loose =
            .ok decoded ∧
          decoded.plain? =
            some (.list
              (AbiValue.plains externals.toCryptography normals))) := by
  obtain ⟨types, normals, typed, normalised, text, limit⟩ :=
    AbiCoder.encode_eq_ok documented nonempty encoded
  refine ⟨types, typed, fun headed unlengthened named => ?_⟩
  obtain ⟨decoded, read, plain⟩ := AbiCoder.decode_sequence documented
    abiCoder faithful typed headed unlengthened named normalised (by omega)
    loose
  exact ⟨normals, decoded, normalised, text ▸ read, plain⟩

theorem AbiCoder.decode_encode_order :
    ∃ types normals decoded,
      ParamType.abiTypes orderParams = some types ∧
        AbiType.normaliseAll Externals.simple types orderValues =
          some normals ∧
        ({} : AbiCoder).decode Externals.simple orderParams
            (.string (hexlify orderData)) false = .ok decoded ∧
        decoded.plain? =
          some (.list (AbiValue.plains
            Externals.simple.toCryptography normals)) := by
  obtain ⟨types, typed, decodes⟩ :=
    AbiCoder.decode_encode Externals.simple_documented {} (by simp)
      orderParams orderValues _ false
      (by simp [orderParams, ParamType.AllNonempty, ParamType.Nonempty])
      AbiCoder.encode_order
  have headed : AbiType.AllHeaded types := by
    obtain rfl := Option.some.inj typed
    simp [AbiType.AllHeaded, AbiType.Headed, AbiType.headSize, wordSize]
  have unlengthened : AbiType.AllUnlengthened types := by
    obtain rfl := Option.some.inj typed
    simp only [AbiType.AllUnlengthened, AbiType.Unlengthened]
    decide
  obtain ⟨normals, decoded, normalised, read, plain⟩ :=
    decodes headed unlengthened (by decide)
  exact ⟨types, normals, decoded, typed, normalised, read, plain⟩

/-- The name of a component is an index past the elements. -/
def indexParams : List ParamType := [.elementary (some "5") "uint8"]

/-- The decoded array has gaps behind its one element, and then the element
again. -/
theorem AbiCoder.not_decode_encode :
    ParamType.AllNonempty indexParams ∧
      AbiCoder.encode Externals.simple indexParams [.bigint 7] =
        .ok (hexlify (Spec.lengthWord 7)) ∧
      ∃ types, ParamType.abiTypes indexParams = some types ∧
        AbiType.AllHeaded types ∧
        ¬∃ normals decoded,
          AbiType.normaliseAll Externals.simple types [.bigint 7] =
              some normals ∧
            ({} : AbiCoder).decode Externals.simple indexParams
                (.string (hexlify (Spec.lengthWord 7))) false = .ok decoded ∧
            decoded.plain? =
              some (.list (AbiValue.plains
                Externals.simple.toCryptography normals)) := by
  refine ⟨?_, by decide +kernel, _, rfl, ⟨trivial, trivial⟩, ?_⟩
  · simp [indexParams, ParamType.AllNonempty, ParamType.Nonempty]
  · rintro ⟨normals, decoded, -, read, plain⟩
    have gaps : (({} : AbiCoder).decode Externals.simple indexParams
        (.string (hexlify (Spec.lengthWord 7))) false).toOption.all
          (·.plain?.isNone) = true := by
      decide +kernel
    rw [read] at gaps
    simp [Except.toOption, plain] at gaps

/-- The coerce function of the contracts' coder keeps values. -/
theorem ethersAbiCoder_faithful :
    ∀ coerceFunc ∈ ethersAbiCoder.coerceFunc, coerceFunc.Faithful := by
  intro coerceFunc own name decoded plain readable
  cases Option.mem_some_iff.mp own
  cases decoded with
  | bigNumber integer => exact ⟨.bigint integer, rfl, readable⟩
  | null | boolean | number | bigint | string | result | failure =>
      exact ⟨_, rfl, readable⟩

end Results

end Web3Js.Abi
