import Web3Js.Lib.BigEndian

/-!
# Recursive length prefixes

An item is a byte string or a list of items.  A single byte below 128 is its
own encoding; everything else follows a header with its length.  The format
has no header for lengths from 2 ^ 64 on; an escape that no other header looks
like keeps encoding total.  Decoding is strict: it inverts encoding and
accepts nothing else.
-/

namespace Web3Js

namespace Rlp

inductive Item
  | bytes (content : Bytes)
  | list (items : List Item)

/-- The lengths that the format has headers for. -/
def lengthLimit : Nat := 256 ^ 8

section Headers

/-- A header of the strings (offset 128) or of the lists (offset 192). -/
def header (offset length : Nat) : Bytes :=
  if length < 56 then [UInt8.ofNat (offset + length)]
  else if length < lengthLimit then
    let field := BigEndian.minimal length
    UInt8.ofNat (offset + 55 + field.length) :: field
  else
    UInt8.ofNat (offset + 63) :: 0 :: (List.replicate length 1 ++ [0])

/-- The length after a long header's first byte. -/
def readField (width : Nat) (input : Bytes) : Option (Nat × Bytes) :=
  let field := input.take width
  if field.length = width ∧ BigEndian.Canonical field ∧
      56 ≤ BigEndian.toNat field then
    some (BigEndian.toNat field, input.drop width)
  else none

/-- The length after the escape. -/
def readEscaped (input : Bytes) : Option (Nat × Bytes) :=
  let length := (input.takeWhile (· == 1)).length
  match input.drop length with
  | 0 :: rest => if lengthLimit ≤ length then some (length, rest) else none
  | _ => none

/-- The length and the rest, for a first byte `offset + code`. -/
def readHeader (code : Nat) (input : Bytes) : Option (Nat × Bytes) :=
  if code < 56 then some (code, input)
  else if code = 63 ∧ input.head? = some 0 then readEscaped input.tail
  else readField (code - 55) input

theorem readField_minimal {length : Nat} (long : 56 ≤ length)
    (rest : Bytes) :
    readField (BigEndian.minimal length).length
        (BigEndian.minimal length ++ rest) = some (length, rest) := by
  have canonical := BigEndian.canonical_minimal
    (show 0 < length by omega)
  simp [readField, canonical, long]

theorem readEscaped_replicate {length : Nat} (huge : lengthLimit ≤ length)
    (rest : Bytes) :
    readEscaped (List.replicate length 1 ++ 0 :: rest) =
      some (length, rest) := by
  have ones : (List.replicate length (1 : UInt8) ++ 0 :: rest).takeWhile
      (· == 1) = List.replicate length 1 := by
    rw [List.takeWhile_append_of_pos (by simp)]
    simp
  simp [readEscaped, ones, huge]

/-- The first byte of a header, and what it says about the rest. -/
theorem header_eq (offset length : Nat) :
    ∃ code field, header offset length = UInt8.ofNat (offset + code) :: field ∧
      code < 64 ∧
      ∀ rest, readHeader code (field ++ rest) = some (length, rest) := by
  unfold header
  split
  · rename_i short
    exact ⟨length, [], rfl, by omega, fun rest => by simp [readHeader, short]⟩
  · rename_i long
    split
    · rename_i fits
      rw [lengthLimit] at fits
      have widthLe := BigEndian.length_minimal_le (by decide) fits
      have widthPos := List.length_pos_iff.mpr
        (BigEndian.minimal_ne_nil length)
      refine ⟨55 + (BigEndian.minimal length).length, _,
        by rw [← Nat.add_assoc], by omega, fun rest => ?_⟩
      have notShort :
          ¬55 + (BigEndian.minimal length).length < 56 := by omega
      have canonical := BigEndian.canonical_minimal
        (show 0 < length by omega)
      -- A field does not start like the escape.
      have plain : ¬(55 + (BigEndian.minimal length).length = 63 ∧
          (BigEndian.minimal length ++ rest).head? = some 0) := by
        rintro ⟨-, starts⟩
        obtain ⟨byte, field, own⟩ :=
          List.exists_cons_of_ne_nil (BigEndian.minimal_ne_nil length)
        apply canonical
        rw [own] at starts ⊢
        exact starts
      rw [readHeader, if_neg notShort, if_neg plain, Nat.add_sub_cancel_left]
      exact readField_minimal (Nat.not_lt.mp long) rest
    · rename_i huge
      refine ⟨63, 0 :: (List.replicate length 1 ++ [0]), rfl, by decide,
        fun rest => ?_⟩
      have shape : (0 :: (List.replicate length 1 ++ [0])) ++ rest =
          (0 : UInt8) :: (List.replicate length 1 ++ 0 :: rest) := by
        simp
      rw [shape, readHeader, if_neg (by decide), if_pos ⟨rfl, rfl⟩]
      exact readEscaped_replicate (Nat.not_lt.mp huge) rest

theorem readField_eq_some {width : Nat} {input rest : Bytes} {length : Nat}
    (read : readField width input = some (length, rest)) :
    BigEndian.minimal length = input.take width ∧
      (BigEndian.minimal length).length = width ∧ 56 ≤ length ∧
      rest = input.drop width := by
  unfold readField at read
  dsimp only at read
  split at read
  · rename_i accepted
    obtain ⟨wide, canonical, long⟩ := accepted
    simp only [Option.some.injEq, Prod.mk.injEq] at read
    obtain ⟨rfl, rfl⟩ := read
    have own : BigEndian.minimal (BigEndian.toNat (input.take width)) =
        input.take width :=
      (BigEndian.canonical_minimal (by omega)).eq_of_toNat_eq canonical
        (BigEndian.toNat_minimal _)
    exact ⟨own, by rw [own, wide], long, rfl⟩
  · cases read

theorem readEscaped_eq_some {input rest : Bytes} {length : Nat}
    (read : readEscaped input = some (length, rest)) :
    input = List.replicate length 1 ++ 0 :: rest ∧ lengthLimit ≤ length := by
  unfold readEscaped at read
  dsimp only at read
  split at read
  · rename_i after shape
    split at read
    · rename_i huge
      simp only [Option.some.injEq, Prod.mk.injEq] at read
      obtain ⟨rfl, rfl⟩ := read
      refine ⟨?_, huge⟩
      have ones : input.takeWhile (· == 1) =
          List.replicate (input.takeWhile (· == 1)).length 1 := by
        apply List.eq_replicate_iff.mpr
        refine ⟨rfl, fun byte member => ?_⟩
        simpa using List.all_eq_true.mp List.all_takeWhile byte member
      have parts := List.take_append_drop
        (input.takeWhile (· == 1)).length input
      have front : input.take (input.takeWhile (· == 1)).length =
          input.takeWhile (· == 1) :=
        (List.prefix_iff_eq_take.mp (List.takeWhile_prefix _)).symm
      rw [front, shape] at parts
      rw [← ones]
      exact parts.symm
    · cases read
  · cases read

/-- A header that is read is the header of the length. -/
theorem readHeader_eq_some {offset code : Nat} {input rest : Bytes}
    {length : Nat} (small : code < 64)
    (read : readHeader code input = some (length, rest)) :
    UInt8.ofNat (offset + code) :: input = header offset length ++ rest := by
  unfold readHeader at read
  split at read
  · rename_i short
    simp only [Option.some.injEq, Prod.mk.injEq] at read
    obtain ⟨rfl, rfl⟩ := read
    simp [header, short]
  · rename_i long
    split at read
    · rename_i escaped
      obtain ⟨isLast, starts⟩ := escaped
      obtain ⟨ones, huge⟩ := readEscaped_eq_some read
      obtain ⟨tail, rfl⟩ : ∃ tail, input = 0 :: tail := by
        cases input with
        | nil => cases starts
        | cons byte tail => exact ⟨tail, by rw [Option.some.inj starts]⟩
      rw [List.tail_cons] at ones
      have limit : 56 ≤ lengthLimit := by decide
      rw [header, if_neg (by omega), if_neg (by omega), isLast, ones]
      simp
    · obtain ⟨field, width, atLeast, rfl⟩ := readField_eq_some read
      have fits : length < lengthLimit := by
        have below := BigEndian.toNat_lt (BigEndian.minimal length)
        rw [BigEndian.toNat_minimal, width] at below
        exact Nat.lt_of_lt_of_le below
          (Nat.pow_le_pow_right (by decide) (by omega))
      have codeEq : offset + 55 + (code - 55) = offset + code := by omega
      rw [header, if_neg (by omega), if_pos fits]
      simp only [List.cons_append, width, codeEq]
      rw [field, List.take_append_drop]

end Headers

section Items

/-- A byte that stands for itself. -/
def isOwn : Bytes → Bool
  | [byte] => byte < 128
  | _ => false

mutual

def encode : Item → Bytes
  | .bytes content =>
      if isOwn content then content
      else header 128 content.length ++ content
  | .list items =>
      header 192 (encodeAll items).length ++ encodeAll items

def encodeAll : List Item → Bytes
  | [] => []
  | item :: items => encode item ++ encodeAll items

end

mutual

/-- One item off the front of the input; `fuel` bounds the nesting. -/
def decodeItem : (fuel : Nat) → Bytes → Option (Item × Bytes)
  | 0, _ => none
  | _ + 1, [] => none
  | fuel + 1, byte :: input =>
      if byte < 128 then some (.bytes [byte], input)
      else if byte < 192 then do
        let (length, rest) ← readHeader (byte.toNat - 128) input
        if length ≤ rest.length ∧ isOwn (rest.take length) = false then
          some (.bytes (rest.take length), rest.drop length)
        else none
      else do
        let (length, rest) ← readHeader (byte.toNat - 192) input
        if length ≤ rest.length then
          let items ← decodeItems fuel (rest.take length)
          some (.list items, rest.drop length)
        else none

def decodeItems : (fuel : Nat) → Bytes → Option (List Item)
  | _, [] => some []
  | 0, _ :: _ => none
  | fuel + 1, byte :: input => do
      let (item, rest) ← decodeItem fuel (byte :: input)
      let items ← decodeItems fuel rest
      some (item :: items)

end

def decode (input : Bytes) : Option Item :=
  match decodeItem (2 * input.length) input with
  | some (item, []) => some item
  | _ => none

mutual

/-- The fuel that decoding an item takes. -/
def fuel : Item → Nat
  | .bytes _ => 1
  | .list items => fuelAll items + 1

def fuelAll : List Item → Nat
  | [] => 0
  | item :: items => max (fuel item) (fuelAll items) + 1

end

theorem encode_ne_nil (item : Item) : encode item ≠ [] := by
  have headed (offset length : Nat) (rest : Bytes) :
      header offset length ++ rest ≠ [] := by
    obtain ⟨code, field, starts, -⟩ := header_eq offset length
    simp [starts]
  cases item with
  | bytes content =>
      rw [encode]
      split
      · rename_i own
        rintro rfl
        cases own
      · exact headed _ _ _
  | list items =>
      rw [encode]
      exact headed _ _ _

mutual

theorem fuel_lt (item : Item) : fuel item < 2 * (encode item).length := by
  have nonempty := List.length_pos_iff.mpr (encode_ne_nil item)
  cases item with
  | bytes content =>
      rw [fuel]
      omega
  | list items =>
      have inner := fuelAll_le items
      obtain ⟨code, field, starts, -⟩ :=
        header_eq 192 (encodeAll items).length
      rw [fuel, encode, starts, List.length_append, List.length_cons]
      omega

theorem fuelAll_le (items : List Item) :
    fuelAll items ≤ 2 * (encodeAll items).length := by
  cases items with
  | nil => exact Nat.le_refl 0
  | cons item items =>
      have first := fuel_lt item
      have others := fuelAll_le items
      have nonempty := List.length_pos_iff.mpr (encode_ne_nil item)
      rw [fuelAll, encodeAll, List.length_append]
      omega

end

private theorem toNat_ofNat_of_small {code : Nat} (small : code < 256) :
    (UInt8.ofNat code).toNat = code := by
  simp [Nat.mod_eq_of_lt small]

/-- Past the first byte of a string that is not its own encoding. -/
theorem decodeItem_string {steps code : Nat} {input : Bytes}
    (small : code < 64) :
    decodeItem (steps + 1) (UInt8.ofNat (128 + code) :: input) =
      (readHeader code input).bind fun (length, rest) =>
        if length ≤ rest.length ∧ isOwn (rest.take length) = false then
          some (.bytes (rest.take length), rest.drop length)
        else none := by
  have value := toNat_ofNat_of_small (show 128 + code < 256 by omega)
  have notOwn : ¬UInt8.ofNat (128 + code) < 128 := by
    rw [UInt8.lt_iff_toNat_lt, value]
    exact Nat.not_lt.mpr (Nat.le_add_right 128 code)
  have string : UInt8.ofNat (128 + code) < 192 := by
    rw [UInt8.lt_iff_toNat_lt, value]
    exact Nat.add_lt_add_left small 128
  rw [decodeItem, if_neg notOwn, if_pos string, value,
    Nat.add_sub_cancel_left]
  rfl

theorem decodeItem_list {steps code : Nat} {input : Bytes}
    (small : code < 64) :
    decodeItem (steps + 1) (UInt8.ofNat (192 + code) :: input) =
      (readHeader code input).bind fun (length, rest) =>
        if length ≤ rest.length then
          (decodeItems steps (rest.take length)).map fun items =>
            (.list items, rest.drop length)
        else none := by
  have value := toNat_ofNat_of_small (show 192 + code < 256 by omega)
  have notOwn : ¬UInt8.ofNat (192 + code) < 128 := by
    rw [UInt8.lt_iff_toNat_lt, value]
    exact Nat.not_lt.mpr (by simp; omega)
  have notString : ¬UInt8.ofNat (192 + code) < 192 := by
    rw [UInt8.lt_iff_toNat_lt, value]
    exact Nat.not_lt.mpr (Nat.le_add_right 192 code)
  rw [decodeItem, if_neg notOwn, if_neg notString, value,
    Nat.add_sub_cancel_left]
  rw [Option.bind_eq_bind]
  apply congrArg
  funext header
  obtain ⟨length, rest⟩ := header
  dsimp only
  split
  · cases decodeItems steps (rest.take length) <;> rfl
  · rfl

mutual

theorem decodeItem_encode (item : Item) {steps : Nat}
    (enough : fuel item ≤ steps) (rest : Bytes) :
    decodeItem steps (encode item ++ rest) = some (item, rest) := by
  obtain ⟨steps, rfl⟩ : ∃ fewer, steps = fewer + 1 := by
    apply Nat.exists_eq_succ_of_ne_zero
    cases item with
    | bytes content =>
        rw [fuel] at enough
        omega
    | list items =>
        rw [fuel] at enough
        omega
  cases item with
  | bytes content =>
      by_cases own : isOwn content = true
      · rw [encode, if_pos own]
        obtain ⟨byte, rfl, small⟩ : ∃ byte, content = [byte] ∧ byte < 128 := by
          match content, own with
          | [byte], own => exact ⟨byte, rfl, of_decide_eq_true own⟩
        rw [List.singleton_append, decodeItem, if_pos small]
      · rw [encode, if_neg own]
        obtain ⟨code, field, starts, small, read⟩ :=
          header_eq 128 content.length
        rw [starts, List.append_assoc, List.cons_append,
          decodeItem_string small, read, Option.bind_some]
        dsimp only
        rw [List.take_left, List.drop_left,
          if_pos ⟨by simp, by simpa using own⟩]
  | list items =>
      obtain ⟨code, field, starts, small, read⟩ :=
        header_eq 192 (encodeAll items).length
      rw [fuel] at enough
      have inner := decodeItems_encodeAll items (Nat.le_of_succ_le_succ enough)
      rw [encode, starts, List.append_assoc, List.cons_append,
        decodeItem_list small, read, Option.bind_some]
      dsimp only
      rw [List.take_left, List.drop_left, inner, if_pos (by simp)]
      rfl

theorem decodeItems_encodeAll (items : List Item) {steps : Nat}
    (enough : fuelAll items ≤ steps) :
    decodeItems steps (encodeAll items) = some items := by
  cases items with
  | nil => cases steps <;> rfl
  | cons item items =>
      rw [fuelAll] at enough
      obtain ⟨steps, rfl⟩ : ∃ fewer, steps = fewer + 1 :=
        Nat.exists_eq_succ_of_ne_zero (by omega)
      have first := decodeItem_encode item
        (show fuel item ≤ steps by omega) (encodeAll items)
      have others := decodeItems_encodeAll items
        (show fuelAll items ≤ steps by omega)
      rw [encodeAll]
      cases start : encode item with
      | nil => exact absurd start (encode_ne_nil item)
      | cons byte input =>
          rw [start, List.cons_append] at first
          rw [List.cons_append, decodeItems, first]
          dsimp only [Option.bind_eq_bind, Option.bind_some]
          rw [others]
          rfl

end

/-- Decoding inverts encoding. -/
theorem decode_encode_item (item : Item) : decode (encode item) = some item := by
  have whole := decodeItem_encode item (fuel_lt item).le []
  rw [List.append_nil] at whole
  rw [decode, whole]

/-- A byte is its own encoding or starts a string or a list. -/
theorem byte_cases (byte : UInt8) :
    byte < 128 ∨ (∃ code, code < 64 ∧ byte = UInt8.ofNat (128 + code)) ∨
      ∃ code, code < 64 ∧ byte = UInt8.ofNat (192 + code) := by
  have small : byte.toNat < 256 := byte.toNat_lt
  by_cases own : byte.toNat < 128
  · left
    rw [UInt8.lt_iff_toNat_lt]
    exact own
  · right
    by_cases string : byte.toNat < 192
    · left
      refine ⟨byte.toNat - 128, by omega, ?_⟩
      rw [show 128 + (byte.toNat - 128) = byte.toNat by omega]
      simp
    · right
      refine ⟨byte.toNat - 192, by omega, ?_⟩
      rw [show 192 + (byte.toNat - 192) = byte.toNat by omega]
      simp

/-- Whatever is decoded was encoded. -/
theorem encode_of_decodeItem (steps : Nat) :
    (∀ (input : Bytes) (item : Item) (rest : Bytes),
      decodeItem steps input = some (item, rest) →
        input = encode item ++ rest) ∧
    ∀ (input : Bytes) (items : List Item),
      decodeItems steps input = some items → input = encodeAll items := by
  induction steps with
  | zero =>
      refine ⟨fun input item rest decoded => ?_, fun input items decoded => ?_⟩
      · cases decoded
      · cases input with
        | nil =>
            cases decoded
            rfl
        | cons byte input => cases decoded
  | succ steps induction =>
      obtain ⟨one, many⟩ := induction
      refine ⟨fun input item rest decoded => ?_, fun input items decoded => ?_⟩
      · cases input with
        | nil => cases decoded
        | cons byte input =>
            rcases byte_cases byte with
              own | ⟨code, small, rfl⟩ | ⟨code, small, rfl⟩
            · rw [decodeItem, if_pos own] at decoded
              cases decoded
              rw [encode, if_pos (by simpa [isOwn] using own),
                List.singleton_append]
            · rw [decodeItem_string small] at decoded
              obtain ⟨⟨length, after⟩, read, taken⟩ :=
                Option.bind_eq_some_iff.mp decoded
              dsimp only at taken
              split at taken
              · rename_i accepted
                obtain ⟨within, notOwn⟩ := accepted
                cases taken
                have width : (after.take length).length = length := by
                  simpa using within
                rw [readHeader_eq_some small read, encode,
                  if_neg (by simp [notOwn]), width, List.append_assoc,
                  List.take_append_drop]
              · cases taken
            · rw [decodeItem_list small] at decoded
              obtain ⟨⟨length, after⟩, read, taken⟩ :=
                Option.bind_eq_some_iff.mp decoded
              dsimp only at taken
              split at taken
              · rename_i within
                obtain ⟨items, inner, done⟩ := Option.map_eq_some_iff.mp taken
                cases done
                have width : (after.take length).length = length := by
                  simpa using within
                rw [readHeader_eq_some small read, encode,
                  ← many _ _ inner, width, List.append_assoc,
                  List.take_append_drop]
              · cases taken
      · cases input with
        | nil =>
            cases decoded
            rfl
        | cons byte input =>
            simp only [decodeItems, Option.bind_eq_bind,
              Option.bind_eq_some_iff] at decoded
            obtain ⟨⟨item, rest⟩, first, others, remaining, done⟩ := decoded
            cases done
            rw [encodeAll, ← many rest others remaining]
            exact one _ _ _ first

/-- Decoding accepts encodings only. -/
theorem encode_of_decode {input : Bytes} {item : Item}
    (decoded : decode input = some item) : encode item = input := by
  unfold decode at decoded
  split at decoded
  · rename_i whole
    cases decoded
    have own := (encode_of_decodeItem _).1 _ _ _ whole
    rw [own, List.append_nil]
  · cases decoded

end Items

end Rlp

end Web3Js
