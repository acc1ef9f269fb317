import Web3Js.Hash

/-!
# Hashing messages

A message is read as bytes, from hexadecimal text or as UTF-8, and hashed
behind a preamble with the decimal number of its bytes.  What is hashed
determines the bytes of the message, since the number of bytes determines the
length of the whole.  Reading text as UTF-8 drops a null character at either
end.
-/

namespace Web3Js.Accounts

open Utils (hexToBytes utf8ToHex sha3Raw)

/-- `\x19` and the rest of the preamble up to the number. -/
def preambleText : String := "\x19QRL Signed Message:\n"

/-- What `hashMessage` hashes. -/
def qrlMessage (message : String) : Except String Bytes := do
  let messageHex :=
    if Validator.isHexStrict message then message else utf8ToHex message
  let messageBytes ← hexToBytes messageHex
  let preamble ←
    hexToBytes (utf8ToHex (preambleText ++ toString messageBytes.length))
  pure (preamble ++ messageBytes)

def hashMessage (cryptography : Cryptography) (message : String) :
    Except String String := do
  let qrlMessage ← qrlMessage message
  sha3Raw cryptography (.bytes qrlMessage)

/-- Text without a null character in front and without one at its end. -/
def withoutNull (text : String) : String :=
  let dropNull (chars : List Char) : List Char :=
    if chars.head? = some (Char.ofNat 0) then chars.tail else chars
  String.ofList (dropNull (dropNull text.toList).reverse).reverse

/-- The bytes of a message: those that hexadecimal text spells, and the
UTF-8 of any other text. -/
def messageBytes (message : String) : Option Bytes :=
  if Validator.isHexStrict message then Hex.decode (message.toList.drop 2)
  else some (utf8Bytes message)

/-- The bytes that are hashed for a message. -/
def signedBytes (message : String) : Option Bytes :=
  if Validator.isHexStrict message then Hex.decode (message.toList.drop 2)
  else some (utf8Bytes (withoutNull message))

def preambleBytes (length : Nat) : Bytes :=
  utf8Bytes (preambleText ++ toString length)

section Preamble

/-- Behind its own length a byte string is determined, when longer strings
do not have shorter preambles. -/
theorem framed_injective {α : Type} {preamble : Nat → List α}
    (monotone : ∀ {short long : Nat}, short ≤ long →
      (preamble short).length ≤ (preamble long).length)
    {left right : List α}
    (same : preamble left.length ++ left = preamble right.length ++ right) :
    left = right := by
  have whole := congrArg List.length same
  rw [List.length_append, List.length_append] at whole
  have lengths : left.length = right.length := by
    rcases Nat.lt_trichotomy left.length right.length with less | equal | more
    · have front := monotone (Nat.le_of_lt less)
      omega
    · exact equal
    · have front := monotone (Nat.le_of_lt more)
      omega
  rw [lengths] at same
  exact List.append_cancel_left same

theorem length_repr_mono {short long : Nat} (order : short ≤ long) :
    short.repr.length ≤ long.repr.length := by
  rw [Nat.length_repr_le_iff Nat.length_repr_pos]
  exact Nat.lt_of_le_of_lt order
    ((Nat.length_repr_le_iff Nat.length_repr_pos).mp (Nat.le_refl _))

theorem utf8Bytes_append (left right : String) :
    utf8Bytes (left ++ right) = utf8Bytes left ++ utf8Bytes right := by
  rw [utf8Bytes, String.toByteArray_append, ByteArray.toList_data_append]
  rfl

theorem size_utf8Encode_digits {chars : List Char}
    (digits : ∀ char ∈ chars, char.isDigit = true) :
    chars.utf8Encode.size = chars.length := by
  induction chars with
  | nil => rfl
  | cons char chars induction =>
      have isDigit := digits char List.mem_cons_self
      have single : char.utf8Size = 1 := by
        simp only [Char.isDigit, Bool.and_eq_true, decide_eq_true_eq]
          at isDigit
        have nine : char.val.toNat ≤ 57 := isDigit.2
        rw [Char.utf8Size_eq_one_iff, UInt32.le_iff_toNat_le]
        exact Nat.le_trans nine (by decide)
      have one : [char].utf8Encode.size = 1 := by
        rw [List.utf8Encode_singleton, List.size_toByteArray,
          String.length_utf8EncodeChar, single]
      rw [List.utf8Encode_cons, ByteArray.size_append, one, List.length_cons,
        induction fun other member =>
          digits other (List.mem_cons_of_mem _ member), Nat.add_comm]

theorem length_utf8Bytes_repr (number : Nat) :
    (utf8Bytes (toString number)).length = number.repr.length := by
  have encoded : (toString number).toByteArray =
      (Nat.toDigits 10 number).utf8Encode := by
    rw [← String.toByteArray_ofList, Nat.toString_eq_ofList_toDigits]
  rw [utf8Bytes, encoded, Array.length_toList, ← String.length_toList,
    Nat.toList_repr]
  apply size_utf8Encode_digits
  intro char member
  exact Nat.isDigit_of_mem_toDigits (by decide) (by decide) member

theorem length_preambleBytes_mono {short long : Nat} (order : short ≤ long) :
    (preambleBytes short).length ≤ (preambleBytes long).length := by
  rw [preambleBytes, preambleBytes, utf8Bytes_append, utf8Bytes_append,
    List.length_append, List.length_append, length_utf8Bytes_repr,
    length_utf8Bytes_repr]
  exact Nat.add_le_add_left (length_repr_mono order) _

end Preamble

section Reading

theorem toList_byteArray (bytes : ByteArray) :
    bytes.toList = bytes.data.toList := by
  have loop : ∀ index (read : List UInt8), index ≤ bytes.size →
      ByteArray.toList.loop bytes index read =
        read.reverse ++ bytes.data.toList.drop index := by
    intro index read
    fun_induction ByteArray.toList.loop bytes index read with
    | case1 index read more induction =>
        intro _
        have next : bytes.data.toList.drop index =
            bytes.get! index :: bytes.data.toList.drop (index + 1) := by
          have inRange : index < bytes.data.toList.length := by
            rw [Array.length_toList]
            exact more
          have read : bytes.get! index = bytes.data.toList[index] := by
            change bytes.data[index]! = _
            rw [getElem!_pos bytes.data index more, Array.getElem_toList]
          rw [List.drop_eq_getElem_cons inRange, read]
        rw [induction more, List.reverse_cons, List.append_assoc, next]
        rfl
    | case2 index read done =>
        intro within
        have ended : bytes.data.toList.drop index = [] := by
          apply List.drop_eq_nil_of_le
          rw [Array.length_toList]
          exact Nat.le_of_not_lt done
        rw [ended, List.append_nil]
  exact loop 0 [] (Nat.zero_le _)

/-- Text becomes the hexadecimal text of its UTF-8, without null
characters. -/
theorem utf8ToHex_eq (text : String) :
    utf8ToHex text = hexlify (utf8Bytes (withoutNull text)) := by
  rw [utf8ToHex, toList_byteArray]
  rfl

theorem hexToBytes_hexlify (bytes : Bytes) :
    hexToBytes (hexlify bytes) = .ok bytes := by
  have chars : (hexlify bytes).toList = '0' :: 'x' :: Hex.encode bytes := by
    rw [hexlify, String.toList_ofList]
  rw [Utils.hexToBytes_of_digits chars, Hex.decode_encode_bytes]

theorem withoutNull_preamble (number : Nat) :
    withoutNull (preambleText ++ toString number) =
      preambleText ++ toString number := by
  have front : (preambleText ++ toString number).toList.head? ≠
      some (Char.ofNat 0) := by
    rw [String.toList_append]
    change some (Char.ofNat 25) ≠ _
    decide
  have back : (preambleText ++ toString number).toList.reverse.head? ≠
      some (Char.ofNat 0) := by
    rw [String.toList_append, List.reverse_append, List.head?_append,
      List.head?_reverse, Nat.toString_eq_ofList_toDigits,
      String.toList_ofList, List.getLast?_eq_some_getLast Nat.toDigits_ne_nil,
      Option.some_or]
    intro isNull
    have nonempty : Nat.toDigits 10 number ≠ [] := Nat.toDigits_ne_nil
    have digit := Nat.isDigit_of_mem_toDigits (by decide) (by decide)
      (List.getLast_mem nonempty)
    rw [Option.some.inj isNull] at digit
    exact absurd digit (by decide)
  unfold withoutNull
  simp only [if_neg front, if_neg back, List.reverse_reverse,
    String.ofList_toList]

private theorem toOption_decoded (decoded : Option Bytes) (message : String) :
    (match decoded with
      | some bytes => Except.ok bytes
      | none => .error message : Except String Bytes).toOption = decoded := by
  cases decoded with
  | none => rfl
  | some bytes => rfl

/-- A sign is no part of bytes, so neither reading accepts it. -/
private theorem decode_letter {letter : Char} (isLetter : letter = 'x' ∨
    letter = 'X') (digits : List Char) :
    Hex.decode (letter :: digits) = none := by
  have notDigit : Hex.digitValue letter = none := by
    rcases isLetter with rfl | rfl
    · rfl
    · rfl
  cases digits with
  | nil => rfl
  | cons digit digits =>
      rw [Hex.decode, notDigit]
      rfl

theorem hexToBytes_of_isHexStrict {message : String}
    (strict : Validator.isHexStrict message = true) :
    (hexToBytes message).toOption = Hex.decode (message.toList.drop 2) := by
  unfold Validator.isHexStrict at strict
  split at strict
  · rename_i letter digits chars
    simp only [Bool.and_eq_true, Bool.or_eq_true, beq_iff_eq] at strict
    rw [chars, List.drop_succ_cons, List.drop_succ_cons, List.drop_zero,
      decode_letter strict.1.1]
    simp only [hexToBytes, Utils.hexToUint8Array, chars,
      String.toList_ofList]
    rfl
  · rename_i letter digits chars
    simp only [Bool.and_eq_true, Bool.or_eq_true, beq_iff_eq] at strict
    rw [chars, List.drop_succ_cons, List.drop_succ_cons, List.drop_zero]
    rcases strict.1 with rfl | rfl
    · rw [Utils.hexToBytes_of_digits chars]
      exact toOption_decoded _ _
    · simp only [hexToBytes, Utils.hexToUint8Array, chars]
      exact toOption_decoded _ _
  · cases strict

/-- What is hashed is the bytes of the message behind their preamble. -/
theorem qrlMessage_eq (message : String) :
    (qrlMessage message).toOption =
      (signedBytes message).map fun bytes =>
        preambleBytes bytes.length ++ bytes := by
  have enveloped : ∀ messageHex : String,
      (do
        let messageBytes ← hexToBytes messageHex
        let preamble ← hexToBytes
          (utf8ToHex (preambleText ++ toString messageBytes.length))
        pure (preamble ++ messageBytes) : Except String Bytes).toOption =
      (hexToBytes messageHex).toOption.map fun bytes =>
        preambleBytes bytes.length ++ bytes := by
    intro messageHex
    cases hexToBytes messageHex with
    | error message => rfl
    | ok bytes =>
        change Except.toOption (hexToBytes _ >>= fun preamble => _) = _
        rw [utf8ToHex_eq, withoutNull_preamble, hexToBytes_hexlify]
        rfl
  unfold qrlMessage
  rw [enveloped]
  unfold signedBytes
  split
  · rename_i strict
    rw [hexToBytes_of_isHexStrict strict]
  · rw [utf8ToHex_eq, hexToBytes_hexlify]
    rfl

end Reading

theorem qrlMessage_eq_ok {message : String} {hashed : Bytes} :
    qrlMessage message = .ok hashed ↔
      ∃ bytes, signedBytes message = some bytes ∧
        preambleBytes bytes.length ++ bytes = hashed := by
  have equation := qrlMessage_eq message
  constructor
  · intro isHashed
    rw [isHashed] at equation
    exact Option.map_eq_some_iff.mp equation.symm
  · rintro ⟨bytes, signed, rfl⟩
    rw [signed, Option.map_some] at equation
    cases outcome : qrlMessage message with
    | error failure =>
        rw [outcome] at equation
        cases equation
    | ok hashed =>
        rw [outcome] at equation
        exact congrArg Except.ok (Option.some.inj equation)

/-- Two messages are hashed alike exactly when they have the same bytes,
where text counts without a null character at either end. -/
theorem qrlMessage_separates (left right : String) :
    (∃ hashed, qrlMessage left = .ok hashed ∧
        qrlMessage right = .ok hashed) ↔
      ∃ bytes, signedBytes left = some bytes ∧
        signedBytes right = some bytes := by
  constructor
  · rintro ⟨hashed, leftHashed, rightHashed⟩
    obtain ⟨leftBytes, leftSigned, rfl⟩ := qrlMessage_eq_ok.mp leftHashed
    obtain ⟨rightBytes, rightSigned, same⟩ := qrlMessage_eq_ok.mp rightHashed
    have equal : rightBytes = leftBytes :=
      framed_injective length_preambleBytes_mono same
    exact ⟨leftBytes, leftSigned, equal ▸ rightSigned⟩
  · rintro ⟨bytes, leftSigned, rightSigned⟩
    exact ⟨_, qrlMessage_eq_ok.mpr ⟨bytes, leftSigned, rfl⟩,
      qrlMessage_eq_ok.mpr ⟨bytes, rightSigned, rfl⟩⟩

/-- A null character in front of `a` is not hashed. -/
theorem not_separates_null :
    messageBytes "\x00a" = some [0, 97] ∧ messageBytes "a" = some [97] ∧
      ∃ hashed, qrlMessage "\x00a" = .ok hashed ∧
        qrlMessage "a" = .ok hashed := by
  refine ⟨by decide, by decide, preambleBytes 1 ++ [97], ?_, ?_⟩
  · exact qrlMessage_eq_ok.mpr ⟨[97], by decide, rfl⟩
  · exact qrlMessage_eq_ok.mpr ⟨[97], by decide, rfl⟩

end Web3Js.Accounts
