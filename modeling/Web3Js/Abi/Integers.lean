import Web3Js.Abi.RoundTrip

/-!
# Integers of every width

The number coder takes exactly the integers of its type, writes the residue of
an integer modulo the largest word, and reads the low bits of any word as an
integer of its type.
-/

namespace Web3Js.Abi

/-- The low bits of a number, as an unsigned integer or in two's
complement. -/
def Spec.integerOfWord (signed : Bool) (bits : Nat) (number : Nat) : Int :=
  let low : Int := (number % 2 ^ bits : Nat)
  if signed ∧ 2 ^ (bits - 1) ≤ low then low - 2 ^ bits else low

section Writing

theorem Writer.getValue_of_bounded {value : Int} (nonneg : 0 ≤ value)
    (bounded : value < 2 ^ (8 * wordSize)) :
    Writer.getValue value = .ok (Spec.lengthWord value.toNat) := by
  have small : value.toNat < 256 ^ wordSize := by
    have limit : 256 ^ wordSize = 2 ^ (8 * wordSize) := by
      rw [pow_mul]
      rfl
    rw [limit]
    zify
    rw [Int.toNat_of_nonneg nonneg]
    exact bounded
  have fits := BigEndian.length_minimal_le (show 0 < wordSize by decide) small
  cases written : Writer.getValue value with
  | ok bytes =>
      obtain ⟨-, -, word⟩ := Writer.getValue_eq_ok written
      rw [word]
  | error problem =>
      rw [Writer.getValue, BigNumber.toBytes, if_neg (Int.not_lt.mpr nonneg),
        Outcome.ok_bind, if_neg (Nat.not_lt.mpr fits)] at written
      split at written
      · cases written
      · cases written

variable {externals : Externals}

/-- The coder accepts a number of its range and no other one. -/
theorem NumberCoder.encode_of_number (size : ByteSize) (signed : Bool)
    (name : Option String) {value : Value} {number : Int}
    (given : externals.bigNumberFrom value = .ok number) (writer : Writer) :
    (NumberCoder externals size.bytes signed name).encode writer value =
      if lowerBound signed (size.bytes * 8) ≤ number ∧
          number < upperBound signed (size.bytes * 8) then
        .ok (writer.writeData (Spec.word number))
      else Coder.throwError "value out-of-bounds" name := by
  simp only [NumberCoder, given, Outcome.ok_bind, numberInBounds_eq]
  by_cases inBounds : lowerBound signed (size.bytes * 8) ≤ number ∧
      number < upperBound signed (size.bytes * 8)
  · rw [if_pos (decide_eq_true inBounds), if_pos inBounds]
    cases masked : BigNumber.mask
        (BigNumber.toTwos number (size.bytes * 8)) (size.bytes * 8) with
    | error problem =>
        have range := within_power inBounds.1 inBounds.2
        rw [BigNumber.toTwos_eq_emod range.1 range.2, BigNumber.mask_of_nonneg
          (Int.emod_nonneg _ (by positivity))] at masked
        cases masked
    | ok residue =>
        have word := NumberCoder.written_word inBounds.1 inBounds.2 masked
        rw [Outcome.ok_bind, word, Writer.writeValue,
          Writer.getValue_of_bounded (Int.emod_nonneg _ (by positivity))
            (Int.emod_lt_of_pos _ (by positivity)), Outcome.ok_bind]
        rfl
  · rw [if_neg inBounds, if_neg (by simpa using inBounds)]

end Writing

section Reading

variable {externals : Externals}

theorem ByteSize.bits_pos (size : ByteSize) : 0 < size.bytes * 8 :=
  Nat.mul_pos size.positive (by decide)

/-- Masking a number and reading its sign gives the integer of its low
bits. -/
theorem Spec.integerOfWord_eq {bits : Nat} (positive : 0 < bits)
    (signed : Bool) (number : Nat) :
    (if signed then BigNumber.fromTwos ((number : Int) % 2 ^ bits) bits
      else (number : Int) % 2 ^ bits) =
        Spec.integerOfWord signed bits number := by
  have low : ((number % 2 ^ bits : Nat) : Int) = (number : Int) % 2 ^ bits := by
    push_cast
    rfl
  cases signed with
  | false =>
      rw [Spec.integerOfWord, low]
      simp
  | true =>
      have below : (number : Int) % 2 ^ bits < 2 ^ bits :=
        Int.emod_lt_of_pos _ (by positivity)
      have nonneg : 0 ≤ (number : Int) % 2 ^ bits :=
        Int.emod_nonneg _ (by positivity)
      rw [Spec.integerOfWord, low]
      generalize (number : Int) % 2 ^ bits = residue at below nonneg
      have double : (2 ^ bits : Int) = 2 * 2 ^ (bits - 1) := by
        conv_lhs => rw [← Nat.sub_add_cancel positive]
        rw [pow_succ, mul_comm]
      have half : (0 : Int) < 2 ^ (bits - 1) := by positivity
      simp only [if_true, true_and, BigNumber.fromTwos]
      by_cases high : (2 ^ (bits - 1) : Int) ≤ residue
      · have top : residue / 2 ^ (bits - 1) = 1 := by
          apply Int.ediv_eq_iff_of_pos half |>.mpr
          omega
        rw [top, if_pos (by decide), if_pos high]
      · rw [Int.ediv_eq_zero_of_lt nonneg (by omega), if_neg (by decide),
          if_neg high]

theorem NumberCoder.decode_word (size : ByteSize) (signed : Bool)
    (name : Option String) {reader : Reader} {word : Bytes}
    (width : word.length = wordSize) (present : word <+: reader.ahead) :
    (NumberCoder externals size.bytes signed name).decode reader =
      Reader.coerce (numberName size.bytes signed)
        (.bigNumber (Spec.integerOfWord signed (size.bytes * 8)
          (BigEndian.toNat word)))
        (reader.advance wordSize) := by
  have bounded := BigEndian.toNat_lt word
  rw [width] at bounded
  have spelled : Spec.lengthWord (BigEndian.toNat word) = word := by
    rw [Spec.lengthWord, ← width, BigEndian.ofNat_toNat]
  have read := Reader.readValue_of_prefix
    (show BigEndian.toNat word < 2 ^ (8 * wordSize) by
      rw [pow_mul]
      exact bounded) (spelled ▸ present)
  have masked : BigNumber.mask (BigEndian.toNat word) (size.bytes * 8) =
      .ok ((BigEndian.toNat word : Int) % 2 ^ (size.bytes * 8)) :=
    BigNumber.mask_of_nonneg (Int.natCast_nonneg _) _
  simp only [NumberCoder]
  rw [Read.bind_of_ok read, Read.lift_bind_of_ok masked,
    Spec.integerOfWord_eq size.bits_pos]

theorem Spec.integerOfWord_bounds {bits : Nat} (positive : 0 < bits)
    (signed : Bool) (number : Nat) :
    lowerBound signed bits ≤ Spec.integerOfWord signed bits number ∧
      Spec.integerOfWord signed bits number < upperBound signed bits := by
  have double : (2 ^ bits : Int) = 2 * 2 ^ (bits - 1) := by
    conv_lhs => rw [← Nat.sub_add_cancel positive]
    rw [pow_succ, mul_comm]
  have below : ((number % 2 ^ bits : Nat) : Int) < 2 ^ bits := by
    exact_mod_cast Nat.mod_lt number (by positivity)
  have nonneg : (0 : Int) ≤ (number % 2 ^ bits : Nat) := Int.natCast_nonneg _
  unfold Spec.integerOfWord lowerBound upperBound
  cases signed with
  | false =>
      simp only [Bool.false_eq_true, false_and, if_false]
      exact ⟨nonneg, below⟩
  | true =>
      simp only [true_and, if_true]
      split
      · omega
      · omega

end Reading

section Results

/-- The emitted word is the residue of the number, and any word is read as the
integer of its low bits. -/
theorem NumberCoder.exact_at_every_width (externals : Externals)
    (size : ByteSize) (signed : Bool) (name : Option String) :
    (∀ (writer : Writer) (value : Value) (number : Int),
      externals.bigNumberFrom value = .ok number →
        ((∃ result, (NumberCoder externals size.bytes signed name).encode
            writer value = .ok result) ↔
          lowerBound signed (size.bytes * 8) ≤ number ∧
            number < upperBound signed (size.bytes * 8)) ∧
        ∀ result, (NumberCoder externals size.bytes signed name).encode
            writer value = .ok result →
          ∃ word : Bytes, result = writer.writeData word ∧
            word.length = 64 ∧
            (BigEndian.toNat word : Int) = number % 2 ^ 512) ∧
    ∀ (reader : Reader) (word : Bytes), word.length = 64 →
      word <+: reader.ahead →
      (∀ coerceFunc ∈ reader.coerceFunc, coerceFunc.Faithful) →
        ∃ decoded,
          (NumberCoder externals size.bytes signed name).decode reader =
            (.ok decoded, reader.advance 64) ∧
          decoded.plain? = some (.integer (Spec.integerOfWord signed
            (size.bytes * 8) (BigEndian.toNat word))) := by
  constructor
  · intro writer value number given
    rw [NumberCoder.encode_of_number size signed name given writer]
    constructor
    · constructor
      · rintro ⟨result, accepted⟩
        split at accepted
        · rename_i inBounds
          exact inBounds
        · cases accepted
      · intro inBounds
        exact ⟨_, if_pos inBounds⟩
    · intro result accepted
      split at accepted
      · cases accepted
        refine ⟨Spec.word number, rfl, Spec.length_word number, ?_⟩
        have nonneg : 0 ≤ number % 2 ^ (8 * wordSize) :=
          Int.emod_nonneg _ (by positivity)
        have bounded : (number % 2 ^ (8 * wordSize)).toNat <
            256 ^ wordSize := by
          have limit : 256 ^ wordSize = 2 ^ (8 * wordSize) := by
            rw [pow_mul]
            rfl
          rw [limit]
          zify
          rw [Int.toNat_of_nonneg nonneg]
          exact Int.emod_lt_of_pos _ (by positivity)
        rw [Spec.word, BigEndian.toNat_ofNat_of_lt bounded,
          Int.toNat_of_nonneg nonneg]
        rfl
      · cases accepted
  · intro reader word width present coerces
    obtain ⟨low, high⟩ := Spec.integerOfWord_bounds size.bits_pos signed
      (BigEndian.toNat word)
    obtain ⟨decoded, done, plain⟩ := Reader.coerce_of_faithful
      (show ∀ coerceFunc ∈ (reader.advance wordSize).coerceFunc,
        coerceFunc.Faithful from coerces)
      (keptByDefault_number low high) rfl
    refine ⟨decoded, ?_, plain⟩
    rw [NumberCoder.decode_word size signed name width present, done]
    rfl

/-- The least number of one byte, and a word of ones. -/
theorem NumberCoder.exact_at_every_width_byte :
    (∃ result, (NumberCoder Externals.simple 1 true none).encode {}
        (.bigint (-128)) = .ok result) ∧
      ∃ decoded,
        (NumberCoder Externals.simple 1 true none).decode
            { data := List.replicate 64 255, coerceFunc := none,
              allowLoose := false } =
          (.ok decoded, { data := List.replicate 64 255, coerceFunc := none,
                          allowLoose := false, offset := 64 }) ∧
        decoded.plain? = some (.integer (Spec.integerOfWord true 8
          (BigEndian.toNat (List.replicate 64 255)))) := by
  obtain ⟨writes, reads⟩ := NumberCoder.exact_at_every_width
    Externals.simple ⟨1, by decide, by decide⟩ true none
  refine ⟨(writes {} (.bigint (-128)) (-128) rfl).1.mpr
    ⟨by norm_num [lowerBound], by norm_num [upperBound]⟩, ?_⟩
  apply reads _ (List.replicate 64 255) List.length_replicate
  · simp [Reader.ahead]
  · simp

end Results

end Web3Js.Abi
