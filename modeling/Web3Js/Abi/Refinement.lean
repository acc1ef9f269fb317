import Web3Js.Abi.Correspondence
import Web3Js.Abi.Numbers
import Web3Js.Abi.Packing

/-!
# The encoder refines the head and tail encoding

Every coder class appends the reference encoding of its value, so the coder
of a parameter does by induction on the parameter, and the top-level writer
holds the sequence of the parameters.
-/

namespace Web3Js.Abi

section Classes

variable {externals : Externals}

theorem AddressCoder.encodes (documented : externals.Documented)
    (name : Option String) :
    Encodes externals (AddressCoder externals name) .address where
  dynamic := rfl
  encode := by
    intro writer next value length encoded
    obtain ⟨hex, hexOk, rest⟩ := Outcome.bind_eq_ok.mp encoded
    obtain ⟨number, numberOk, written⟩ := Outcome.bind_eq_ok.mp rest
    obtain ⟨-, -, appends⟩ := Writer.writeValue_appends written
    unfold AddressCoder.hex at hexOk
    split at hexOk
    · rename_i text
      split at hexOk
      · rename_i hex' converted
        cases hexOk
        have validated := Utils.addressToHex_eq_ok converted
        obtain ⟨bytes, bytesLength, spelled⟩ :=
          Validator.addressToHex_eq_ok validated
        have word : Spec.lengthWord number.toNat = bytes := by
          rw [spelled] at numberOk
          rw [documented.bigNumberFrom_hexlify bytes number numberOk,
            Int.toNat_natCast, Spec.lengthWord,
            show wordSize = bytes.length from bytesLength.symm,
            BigEndian.ofNat_toNat]
        rw [word] at appends
        refine ⟨.address bytes, ?_, appends⟩
        simp [AbiType.normalise, validated, spelled, hexlify,
          Except.toOption]
      · cases hexOk
    · cases hexOk

theorem BooleanCoder.encodes (name : Option String) :
    Encodes externals (BooleanCoder name) .bool where
  dynamic := rfl
  encode := by
    intro writer next value length encoded
    obtain ⟨nonneg, bounded, appends⟩ := Writer.writeValue_appends encoded
    rw [← Spec.word_eq_lengthWord nonneg bounded] at appends
    exact ⟨.bool value.truthy, rfl, appends⟩

theorem DynamicBytesCoder.encode_appends (documented : externals.Documented)
    {writer next : Writer} {bytes : Bytes} {length : Nat}
    (encoded : DynamicBytesCoder.encode externals writer bytes =
      .ok (next, length)) :
    Appends writer next
      (Spec.lengthWord bytes.length ++ Spec.padRight bytes) := by
  obtain ⟨number, numberOk, rest⟩ := Outcome.bind_eq_ok.mp encoded
  obtain ⟨⟨middle, head⟩, written, done⟩ := Outcome.bind_eq_ok.mp rest
  obtain ⟨-, -, appends⟩ := Writer.writeValue_appends written
  rw [documented.bigNumberFrom_number _ _ numberOk, Int.toNat_natCast]
    at appends
  cases done
  exact appends.trans (Appends.writeBytes middle bytes)

theorem BytesCoder.encodes (documented : externals.Documented)
    (name : Option String) :
    Encodes externals (BytesCoder externals name) .bytes where
  dynamic := rfl
  encode := by
    intro writer next value length encoded
    obtain ⟨bytes, bytesOk, written⟩ := Outcome.bind_eq_ok.mp encoded
    refine ⟨.bytes bytes, ?_,
      DynamicBytesCoder.encode_appends documented written⟩
    simp [AbiType.normalise, bytesOk, Except.toOption]

theorem StringCoder.encodes (documented : externals.Documented)
    (name : Option String) :
    Encodes externals (StringCoder externals name) .string where
  dynamic := rfl
  encode := by
    intro writer next value length encoded
    simp only [StringCoder] at encoded
    split at encoded
    · exact ⟨.string _, rfl,
        DynamicBytesCoder.encode_appends documented encoded⟩
    · cases encoded

theorem FixedBytesCoder.encodes (size : ByteSize) (name : Option String) :
    Encodes externals (FixedBytesCoder externals size.bytes name)
      (.fixedBytes size) where
  dynamic := rfl
  encode := by
    intro writer next value length encoded
    obtain ⟨bytes, bytesOk, rest⟩ := Outcome.bind_eq_ok.mp encoded
    split at rest
    · cases rest
    · rename_i exact
      cases rest
      refine ⟨.bytes bytes, ?_, Appends.writeBytes writer bytes⟩
      simp [AbiType.normalise, bytesOk, Except.toOption, not_not.mp exact]

/-- The bounds of a type are below the power of its width. -/
theorem within_power {signed : Bool} {bits : Nat} {number : Int}
    (low : lowerBound signed bits ≤ number)
    (high : number < upperBound signed bits) :
    -2 ^ bits ≤ number ∧ number < 2 ^ bits := by
  have half : (2 ^ (bits - 1) : Int) ≤ 2 ^ bits :=
    pow_le_pow_right₀ (by decide) (Nat.sub_le _ _)
  have power : (0 : Int) < 2 ^ bits := by positivity
  cases signed with
  | true =>
      simp only [lowerBound, upperBound, if_true] at low high
      omega
  | false =>
      simp only [lowerBound, upperBound, Bool.false_eq_true, if_false]
        at low high
      omega

/-- In bounds, the number coder writes the residue of the number. -/
theorem NumberCoder.written_word {size : ByteSize} {signed : Bool}
    {number masked : Int}
    (low : lowerBound signed (size.bytes * 8) ≤ number)
    (high : number < upperBound signed (size.bytes * 8))
    (maskedOk : BigNumber.mask (BigNumber.toTwos number (size.bytes * 8))
      (size.bytes * 8) = .ok masked) :
    (if signed then
      BigNumber.toTwos (BigNumber.fromTwos masked (size.bytes * 8))
        (8 * wordSize)
    else masked) = number % 2 ^ (8 * wordSize) := by
  have positive : 0 < size.bytes * 8 :=
    Nat.mul_pos size.positive (by decide)
  have within : size.bytes * 8 ≤ 8 * wordSize := by
    have := size.withinWord
    omega
  have wider : (2 ^ (size.bytes * 8) : Int) ≤ 2 ^ (8 * wordSize) :=
    pow_le_pow_right₀ (by decide) within
  have half : (2 ^ (size.bytes * 8 - 1) : Int) ≤ 2 ^ (size.bytes * 8) :=
    pow_le_pow_right₀ (by decide) (Nat.sub_le _ _)
  have power : (0 : Int) < 2 ^ (size.bytes * 8) := by positivity
  have range := within_power low high
  rw [BigNumber.toTwos_eq_emod range.1 range.2, BigNumber.mask_of_nonneg
    (Int.emod_nonneg _ (by omega)), Int.emod_emod] at maskedOk
  cases maskedOk
  cases signed with
  | true =>
      simp only [lowerBound, upperBound, if_true] at low high ⊢
      rw [BigNumber.fromTwos_emod positive low high,
        BigNumber.toTwos_eq_emod (by omega) (by omega)]
  | false =>
      simp only [lowerBound, upperBound, Bool.false_eq_true, if_false]
        at low high ⊢
      rw [Int.emod_eq_of_lt low high,
        Int.emod_eq_of_lt low (by omega)]

theorem NumberCoder.encodes (size : ByteSize) (signed : Bool)
    (name : Option String) :
    Encodes externals (NumberCoder externals size.bytes signed name)
      (.number signed size) where
  dynamic := rfl
  encode := by
    intro writer next value length encoded
    obtain ⟨number, numberOk, rest⟩ := Outcome.bind_eq_ok.mp encoded
    rw [numberInBounds_eq, Outcome.ok_bind] at rest
    split at rest
    · rename_i inBounds
      obtain ⟨low, high⟩ := of_decide_eq_true inBounds
      obtain ⟨masked, maskedOk, written⟩ := Outcome.bind_eq_ok.mp rest
      rw [NumberCoder.written_word low high maskedOk] at written
      obtain ⟨-, -, appends⟩ := Writer.writeValue_appends written
      refine ⟨.number number, ?_, appends⟩
      simp [AbiType.normalise, numberOk, Except.toOption, low, high]
    · cases rest

theorem ArrayCoder.encodes (documented : externals.Documented)
    {coder : Coder} {element : AbiType} (length : Option Nat)
    (name : Option String) (encodes : Encodes externals coder element) :
    Encodes externals (ArrayCoder externals coder length name)
      (.array element length) where
  dynamic := by
    cases length with
    | none => rfl
    | some length => exact encodes.dynamic
  encode := by
    intro writer next value total encoded
    cases value with
    | array values =>
        obtain ⟨middle, middleOk, rest⟩ := Outcome.bind_eq_ok.mp encoded
        obtain ⟨_, counted, packedOk⟩ := Outcome.bind_eq_ok.mp rest
        have related : List.Forall₂ (Encodes externals)
            (List.replicate values.length coder)
            (List.replicate values.length element) := by
          rw [List.forall₂_iff_zip]
          simp only [List.length_replicate, true_and]
          intro left right member
          rw [List.zip_replicate', List.mem_replicate] at member
          cases member.2
          exact encodes
        obtain ⟨values', normals, extracted, normalised, appends⟩ :=
          pack_encodes documented related packedOk
        cases extracted
        have lengths := (length_normaliseAll normalised).1
        rw [← lengths, Spec.parts_replicate] at appends
        rw [normaliseAll_replicate] at normalised
        have fits : length.all (· = values.length) = true := by
          cases length with
          | none => rfl
          | some length =>
              simp only [checkArgumentCount, Option.getD_some] at counted
              split at counted
              · cases counted
              · split at counted
                · cases counted
                · simp
                  omega
        refine ⟨.list normals, ?_, ?_⟩
        · simp [AbiType.normalise, fits, normalised]
        · cases length with
          | none =>
              obtain ⟨count, countOk, rest⟩ := Outcome.bind_eq_ok.mp middleOk
              obtain ⟨⟨counted, _⟩, written, done⟩ :=
                Outcome.bind_eq_ok.mp rest
              obtain ⟨-, -, prefixed⟩ := Writer.writeValue_appends written
              rw [documented.bigNumberFrom_number _ _ countOk,
                Int.toNat_natCast, ← lengths] at prefixed
              cases done
              exact prefixed.trans appends
          | some length =>
              cases middleOk
              exact appends
    | undefined | null | boolean | number | notANumber | infinity | bigint
      | string | function | object | byteArray =>
        cases encoded

private theorem any_dynamic {coders : List Coder} {types : List AbiType}
    (encodes : List.Forall₂ (Encodes externals) coders types) :
    coders.any (·.dynamic) = AbiType.anyDynamic types := by
  induction encodes with
  | nil => rfl
  | cons head tail induction =>
      rw [List.any_cons, head.dynamic, induction, AbiType.anyDynamic]

theorem TupleCoder.encodes (documented : externals.Documented)
    {coders : List Coder} {components : List AbiType} (name : Option String)
    (encodes : List.Forall₂ (Encodes externals) coders components) :
    Encodes externals (TupleCoder externals coders name)
      (.tuple (coders.map (·.localName)) components) where
  dynamic := any_dynamic encodes
  encode := by
    intro writer next value length encoded
    obtain ⟨values, normals, extracted, normalised, appends⟩ :=
      pack_encodes documented encodes encoded
    refine ⟨.list normals, ?_, appends⟩
    simp [AbiType.normalise, extracted, normalised]

theorem encodes_respected (documented : externals.Documented) :
    RespectedByClasses externals (Encodes externals) where
  address := AddressCoder.encodes documented
  bool := BooleanCoder.encodes
  string := StringCoder.encodes documented
  bytes := BytesCoder.encodes documented
  number := NumberCoder.encodes
  fixedBytes := FixedBytesCoder.encodes
  array _ _ length name encodes :=
    ArrayCoder.encodes documented length name encodes
  tuple _ _ name encodes := TupleCoder.encodes documented name encodes

end Classes

section Results

variable {externals : Externals}

/-- What the top-level writer holds is the sequence of the parameters. -/
theorem AbiCoder.encode_eq_ok (documented : externals.Documented)
    {params : List ParamType} {values : List Value} {data : String}
    (nonempty : ParamType.AllNonempty params)
    (encoded : AbiCoder.encode externals params values = .ok data) :
    ∃ types normals, ParamType.abiTypes params = some types ∧
      AbiType.normaliseAll externals types values = some normals ∧
      data = hexlify (Spec.sequence
        (Spec.parts externals.toCryptography types normals)) ∧
      2 + 2 * (Spec.sequence (Spec.parts externals.toCryptography types
        normals)).length ≤ maxSafeInteger := by
  unfold AbiCoder.encode at encoded
  split at encoded
  · cases encoded
  · obtain ⟨coders, codersOk, rest⟩ := Outcome.bind_eq_ok.mp encoded
    obtain ⟨⟨writer, _⟩, packed, rest⟩ := Outcome.bind_eq_ok.mp rest
    obtain ⟨types, typed, -, encodes⟩ :=
      getCoders_induction (encodes_respected documented) params nonempty
        codersOk
    obtain ⟨values', normals, extracted, normalised, appends⟩ :=
      pack_encodes documented encodes packed
    cases extracted
    have flat := appends.flatten
    simp only [Writer.text] at rest
    rw [flat] at rest
    split at rest
    · rename_i fits
      cases rest
      exact ⟨types, normals, typed, normalised, by simp, by simpa using fits⟩
    · cases rest

/-- The encoder computes the head and tail encoding of the typed values. -/
theorem AbiCoder.encode_refines_headTail (documented : externals.Documented)
    (params : List ParamType) (values : List Value) (data : String)
    (nonempty : ParamType.AllNonempty params)
    (encoded : AbiCoder.encode externals params values = .ok data) :
    ∃ types normals, ParamType.abiTypes params = some types ∧
      AbiType.normaliseAll externals types values = some normals ∧
      data = hexlify (Spec.sequence
        (Spec.parts externals.toCryptography types normals)) ∧
      wordSize ∣ (Spec.sequence
        (Spec.parts externals.toCryptography types normals)).length ∧
      ∀ param coder, param.Nonempty →
        getCoder externals param = .ok coder →
          ∃ type, param.abiType = some type ∧
            coder.dynamic = type.isDynamic := by
  obtain ⟨types, normals, typed, normalised, text, -⟩ :=
    AbiCoder.encode_eq_ok documented nonempty encoded
  have aligned :=
    (Spec.parts_sized (AbiType.allSized types) normalised).1
  refine ⟨types, normals, typed, normalised, text,
    Spec.dvd_length_sequence aligned, ?_⟩
  intro param coder paramNonempty built
  obtain ⟨type, paramTyped, -, encodes⟩ :=
    getCoder_induction (encodes_respected documented) param paramNonempty
      built
  exact ⟨type, paramTyped, encodes.dynamic⟩

/-- An array of dynamic length, a flag and a tuple of a text and a number. -/
def orderParams : List ParamType :=
  [.array (some "amounts") none (.elementary none "uint16"),
    .elementary (some "ready") "bool",
    .tuple (some "order") [.elementary (some "text") "string",
      .elementary (some "count") "uint8"]]

def orderValues : List Value :=
  [.array [.bigint 1, .bigint 513], .boolean true,
    .array [.string "ab", .bigint 5]]

/-- The links to the array and to the tuple are in the head; the text in the
tuple is linked from there. -/
def orderData : Bytes :=
  [192, 1, 384, 2, 1, 513, 128, 5, 2].flatMap Spec.lengthWord ++
    Spec.padRight "ab".toUTF8.toList

theorem AbiCoder.encode_order :
    AbiCoder.encode Externals.simple orderParams orderValues =
      .ok (hexlify orderData) := by
  -- The bytes are compared, and not their texts.
  have written : (getCoders Externals.simple orderParams >>= fun coders =>
      (TupleCoder Externals.simple coders (some "_")).encode {}
        (.array orderValues)).map (·.1.data.flatten) = .ok orderData := by
    decide +kernel
  obtain ⟨⟨writer, size⟩, encoded, flat⟩ := Outcome.map_eq_ok.mp written
  obtain ⟨coders, codersOk, encoded⟩ := Outcome.bind_eq_ok.mp encoded
  have fits : 2 + 2 * orderData.length ≤ maxSafeInteger := by decide +kernel
  simp only [AbiCoder.encode, codersOk, Outcome.ok_bind, encoded]
  rw [if_neg (by decide), Writer.text, flat, if_pos fits]

theorem AbiCoder.encode_refines_headTail_order :
    ∃ types normals,
      ParamType.abiTypes orderParams = some types ∧
      AbiType.normaliseAll Externals.simple types orderValues =
        some normals ∧
      hexlify orderData =
        hexlify (Spec.sequence
          (Spec.parts Externals.simple.toCryptography types normals)) ∧
      wordSize ∣ (Spec.sequence
        (Spec.parts Externals.simple.toCryptography types normals)).length ∧
      ∀ param coder, param.Nonempty →
        getCoder Externals.simple param = .ok coder →
          ∃ type, param.abiType = some type ∧
            coder.dynamic = type.isDynamic :=
  AbiCoder.encode_refines_headTail Externals.simple_documented _ _ _
    (by simp [orderParams, ParamType.AllNonempty, ParamType.Nonempty])
    AbiCoder.encode_order

end Results

end Web3Js.Abi
