import Web3Js.Utils.PackedIntegers

/-!
# Packed bytes

Bytes of a type with a size are packed as they are, with zeros behind them.  The
text that is padded must be that of an integer in the range of the largest
type, which a text without digits and one of 64 bytes with the first bit set are
not.
-/

namespace Web3Js.Utils

/-- The name of the type of as many bytes. -/
def bytesType (size : Nat) : String :=
  String.ofList (['b', 'y', 't', 'e', 's'] ++ Nat.toDigits 10 size)

section Bytes

variable (cryptography : Cryptography) {size : Nat} {digits : List Char}
    {bytes : Bytes}

theorem toList_bytesType (size : Nat) : (bytesType size).toList =
    'b' :: 'y' :: 't' :: 'e' :: 's' :: Nat.toDigits 10 size := by
  rw [bytesType, String.toList_ofList]
  simp only [List.cons_append, List.nil_append]

theorem parseTypeN_bytesType (size : Nat) :
    parseTypeN (bytesType size) 5 = size := by
  have allDigits : (Nat.toDigits 10 size).all Char.isDigit = true :=
    List.all_eq_true.mpr fun _ => Decimal.isDigit_toDigits size
  have whole := Words.takeWhile_word allDigits (Words.stops_nil _)
  rw [List.append_nil] at whole
  rw [parseTypeN, toList_bytesType]
  simp only [List.drop_succ_cons, List.drop_zero]
  rw [whole, Decimal.value_toDigits]

/-- A value of a type of bytes is padded. -/
theorem hyperionPack_bytesType (size : Nat) (val : EncodingValue) :
    hyperionPack cryptography (bytesType size) val =
      packBytes (bytesType size) val.shown := by
  have chars := toList_bytesType size
  have other : ∀ name : String, (∀ rest,
      name.toList ≠ 'b' :: 'y' :: 't' :: 'e' :: 's' :: rest) →
        bytesType size ≠ name := by
    intro name different same
    rw [same] at chars
    exact different _ chars
  have noBytes : elementaryName (bytesType size) ≠ "bytes" := by
    have same : elementaryName (bytesType size) = bytesType size := by
      rw [elementaryName, chars]
      split
      next other => cases other
      next other => cases other
      next other => cases other
      next other => cases other
      next => rfl
    rw [same]
    intro equal
    have sized := congrArg String.toList equal
    rw [chars] at sized
    simp at sized
  have unsigned : startsWith (bytesType size) "uint".toList = false := by
    rw [startsWith, chars]
    rfl
  have signed : startsWith (bytesType size) "int".toList = false := by
    rw [startsWith, chars]
    rfl
  have isBytes : startsWith (bytesType size) "bytes".toList = true := by
    rw [startsWith, chars]
    rfl
  unfold hyperionPack
  rw [if_neg (other "string" (by rintro _ ⟨⟩)),
    if_neg (not_or.mpr ⟨other "bool" (by rintro _ ⟨⟩), other "boolean" (by rintro _ ⟨⟩)⟩),
    if_neg (other "address" (by rintro _ ⟨⟩)), unsigned, signed,
    if_neg Bool.false_ne_true, if_neg Bool.false_ne_true, if_neg noBytes,
    isBytes, if_pos rfl]

theorem encodePacked_bytesType (size : Nat) (value : String) :
    encodePacked cryptography
        [.typed (bytesType size) (.single (.numbers (.text value)))] = (do
      let packed ← packBytes (bytesType size) value
      .ok (String.ofList ('0' :: 'x' ::
        (withoutFirstPrefix packed.toList).map Char.toLower))) := by
  have other : (bytesType size).toList.map Char.toLower ≠
      "bigint".toList := by
    rw [toList_bytesType]
    exact nofun
  have unsigned : isIntegerType (bytesType size) = false := by
    rw [isIntegerType, startsWith, startsWith, toList_bytesType]
    rfl
  have typed : getType cryptography
      (.typed (bytesType size) (.single (.numbers (.text value)))) =
        .ok (bytesType size, .single (.numbers (.text value))) := by
    rw [getType, if_neg other, typedValue, unsigned]
    rfl
  simp only [encodePacked, List.mapM_cons, List.mapM_nil,
    processHyperionEncodePackedArgs, typed, hyperionPack_bytesType,
    EncodingValue.shown, shown, Outcome.ok_bind, Outcome.pure_eq_ok,
    bind_assoc, List.flatten_singleton]

/-- Text of bytes is one of an integer in range unless there are no bytes or
their value is too large. -/
theorem isInt_hexText (decoded : Hex.decode digits = some bytes) :
    isInt (.text (String.ofList ('0' :: 'x' :: digits))) = true ↔
      bytes ≠ [] ∧ BigEndian.toNat bytes < 2 ^ 511 := by
  have allDigits := Hex.isDigit_of_decode decoded
  have strict : Validator.isHexStrict
      (String.ofList ('0' :: 'x' :: digits)) = true := by
    rw [Validator.isHexStrict, String.toList_ofList]
    simp only [allDigits]
    rfl
  have read : Validator.hexToNumber (String.ofList ('0' :: 'x' :: digits)) =
      (parseDigits 16 digits).map Int.ofNat := by
    rw [Validator.hexToNumber, String.toList_ofList]
    rfl
  rw [isInt, Validator.isIntString, if_pos strict, read]
  cases digits with
  | nil =>
      cases decoded
      exact iff_of_false (by rintro ⟨⟩) fun both => both.1 rfl
  | cons digit digits =>
      have nonempty : bytes ≠ [] := by
        rintro rfl
        have length := Hex.length_of_decode decoded
        simp at length
      rw [parseDigits_hex (List.cons_ne_nil _ _) allDigits,
        ← Hex.toNat_of_decode decoded, Option.map_some]
      simp only [decide_eq_true_iff, Int.ofNat_eq_natCast]
      have cast : ((2 : Nat) ^ 511 : Nat) = (2 : Int) ^ 511 :=
        Nat.cast_pow 2 511
      generalize BigEndian.toNat bytes = number
      constructor
      · intro bounds
        exact ⟨nonempty, by omega⟩
      · intro small
        have := small.2
        omega

/-- The text is padded where it is one of an integer in range. -/
theorem packBytes_hexText (positive : 1 ≤ size) (bounded : size ≤ 64)
    (decoded : Hex.decode digits = some bytes) (fits : bytes.length ≤ size) :
    packBytes (bytesType size) (String.ofList ('0' :: 'x' :: digits)) =
      if isInt (.text (String.ofList ('0' :: 'x' :: digits))) = true then
        .ok (String.ofList ('0' :: 'x' :: (digits ++
          List.replicate (2 * (size - bytes.length)) '0')))
      else .error (validationMessage "int"
        (String.ofList ('0' :: 'x' :: digits))) := by
  have length := Hex.length_of_decode decoded
  have strict : Validator.isHexStrict
      (String.ofList ('0' :: 'x' :: digits)) = true := by
    rw [Validator.isHexStrict, String.toList_ofList]
    simp only [Hex.isDigit_of_decode decoded]
    rfl
  have behind : withoutHexPrefix (String.ofList ('0' :: 'x' :: digits)) =
      digits := by
    rw [withoutHexPrefix, String.toList_ofList]
    rfl
  have unsigned : startsWith (String.ofList ('0' :: 'x' :: digits)) ['-'] =
      false := by
    rw [startsWith, String.toList_ofList]
    rfl
  have missing : size * 2 + 2 - (digits.length + 2) =
      2 * (size - bytes.length) := by
    omega
  rw [packBytes, behind, parseTypeN_bytesType]
  rw [if_neg (by omega), if_neg (by omega), padRight, strict,
    if_neg Bool.true_eq_false.mp, unsigned]
  cases valid : isInt (.text (String.ofList ('0' :: 'x' :: digits))) with
  | true =>
      rw [if_neg Bool.true_eq_false.mp, if_pos rfl]
      simp only [Bool.false_eq_true, if_false, padEnd, String.toList_ofList,
        List.length_cons, missing, List.cons_append]
  | false => rw [if_pos rfl, if_neg Bool.false_ne_true]

/-- Bytes of at most the size are packed as themselves and zeros exactly if there
is one and their value is below the half of the largest range; otherwise packing
them throws. -/
theorem encodePacked_bytes_iff (positive : 1 ≤ size) (bounded : size ≤ 64)
    (decoded : Hex.decode digits = some bytes) (fits : bytes.length ≤ size) :
    encodePacked cryptography [.typed (bytesType size)
        (.single (.numbers (.text (String.ofList ('0' :: 'x' :: digits)))))] =
      .ok (hexlify (bytes ++ List.replicate (size - bytes.length) 0)) ↔
        bytes ≠ [] ∧ BigEndian.toNat bytes < 2 ^ 511 := by
  rw [← isInt_hexText decoded, encodePacked_bytesType,
    packBytes_hexText positive bounded decoded fits]
  cases valid : isInt (.text (String.ofList ('0' :: 'x' :: digits))) with
  | false =>
      rw [if_neg Bool.false_ne_true]
      exact iff_of_false (by rintro ⟨⟩) (by rintro ⟨⟩)
  | true =>
      rw [if_pos rfl, Outcome.ok_bind, String.toList_ofList]
      refine iff_of_true ?_ rfl
      change Except.ok (String.ofList ('0' :: 'x' ::
        List.map Char.toLower (digits ++ List.replicate _ '0'))) = _
      rw [hexlify, Hex.encode_append, Hex.encode_replicate_zero,
        Hex.encode_of_decode decoded, List.map_append, List.map_replicate]
      rfl

/-- Three bytes of a type with four, given with a capital letter. -/
theorem encodePacked_threeBytes :
    encodePacked .simple [.typed (bytesType 4)
        (.single (.numbers (.text (String.ofList
          ['0', 'x', '0', '1', 'F', 'f', '8', '0']))))] =
      .ok (hexlify ([1, 255, 128] ++ List.replicate (4 - 3) 0)) :=
  (encodePacked_bytes_iff .simple (by decide) (by decide)
    (rfl : Hex.decode ['0', '1', 'F', 'f', '8', '0'] = some [1, 255, 128])
    (by decide)).mpr ⟨by decide, by decide +kernel⟩

/-- No bytes are no integer, and 64 bytes with the first bit set are too
large. -/
theorem encodePacked_bytes_throws :
    encodePacked .simple [.typed "bytes4"
        (.single (.numbers (.text "0x")))] =
      .error (validationMessage "int" "0x") ∧
    encodePacked .simple [.typed "bytes64" (.single (.numbers (.text
        (hexlify (128 :: List.replicate 63 0)))))] =
      .error (validationMessage "int"
        (hexlify (128 :: List.replicate 63 0))) := by
  decide +kernel

end Bytes

end Web3Js.Utils
