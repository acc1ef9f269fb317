import Web3Js.Numbers

/-!
# Base types

The validator and the formatter read the text of a type alike: the base type,
its size in bits or bytes where one is given, and the sizes of the array
dimensions from left to right.
-/

namespace Web3Js.Validator

/-- `VALID_QRL_BASE_TYPES` -/
inductive BaseType where
  | bool
  | int
  | uint
  | bytes
  | string
  | address
  | tuple
deriving DecidableEq, Repr

def BaseType.text : BaseType → String
  | .bool => "bool"
  | .int => "int"
  | .uint => "uint"
  | .bytes => "bytes"
  | .string => "string"
  | .address => "address"
  | .tuple => "tuple"

/-- `VALID_QRL_BASE_TYPES.includes(strippedType)`, with the type found. -/
def validBaseType (text : List Char) : Option BaseType :=
  [BaseType.bool, .int, .uint, .bytes, .string, .address, .tuple].find?
    fun baseType => baseType.text.toList == text

/-- `parseInt(text, 10)`; `none` where it is not a number. -/
def parseInt (text : List Char) : Option Int :=
  let digits (rest : List Char) : Option Nat :=
    parseDigits 10 (rest.takeWhile Char.isDigit)
  match text.dropWhile isWhiteSpace with
  | '-' :: rest => (digits rest).map fun number => -(number : Int)
  | '+' :: rest => (digits rest).map Int.ofNat
  | rest => (digits rest).map Int.ofNat

/-- The digits of all matches of `/(?:\[(\d*)\])/g`; the first argument holds
the digits since an open bracket. -/
def matchSizes : Option (List Char) → List Char → List (List Char)
  | _, [] => []
  | none, char :: rest =>
      matchSizes (if char = '[' then some [] else none) rest
  | some digits, char :: rest =>
      if char = ']' then digits :: matchSizes none rest
      else if char.isDigit then matchSizes (some (digits ++ [char])) rest
      else matchSizes (if char = '[' then some [] else none) rest

structure ParsedType where
  baseType : Option BaseType
  /-- The result of `parseInt` where the type is read that far. -/
  baseTypeSize : Option (Option Int)
  isArray : Bool
  arraySizes : List Int
deriving DecidableEq, Repr

/-- The base type and its size, once spaces and dimensions are removed. -/
def readBaseType (strippedType : List Char) (isArray : Bool)
    (arraySizes : List Int) : ParsedType :=
  match validBaseType strippedType with
  | some baseType => ⟨baseType, none, isArray, arraySizes⟩
  | none =>
      match strippedType with
      | 'i' :: 'n' :: 't' :: size =>
          ⟨some .int, some (parseInt size), isArray, arraySizes⟩
      | 'u' :: 'i' :: 'n' :: 't' :: size =>
          ⟨some .uint, some (parseInt size), isArray, arraySizes⟩
      | 'b' :: 'y' :: 't' :: 'e' :: 's' :: size =>
          ⟨some .bytes, some (parseInt size), isArray, arraySizes⟩
      | _ => ⟨none, none, false, arraySizes⟩

def parseBaseType (type : String) : ParsedType :=
  let strippedType := type.toList.erase ' '
  if type.toList.contains '[' then
    -- A dimension without a length counts as `-1`.
    let arraySizes := (matchSizes none type.toList).map fun digits =>
      (parseInt digits).getD (-1)
    readBaseType (strippedType.takeWhile (· != '['))
      (!arraySizes.isEmpty) arraySizes
  else readBaseType strippedType false []

example : parseBaseType "uint8[2][]" =
    ⟨some .uint, some (some 8), true, [2, -1]⟩ := by
  decide

/-! ## Decimal sizes -/

theorem parseDigits_ten {digits : List Char} (nonempty : digits ≠ [])
    (allDigits : digits.all Char.isDigit = true) :
    parseDigits 10 digits = some (Nat.ofDigitChars 10 digits 0) := by
  have folded : ∀ (rest : List Char) (number : Nat),
      rest.all Char.isDigit = true →
      rest.foldlM (fun number digit =>
        (Hex.digitValue digit).bind fun value =>
          if value < 10 then some (10 * number + value) else none) number =
        some (Nat.ofDigitChars 10 rest number) := by
    intro rest
    induction rest with
    | nil => intro number _; rfl
    | cons digit rest induction =>
        intro number all
        rw [List.all_cons, Bool.and_eq_true] at all
        have decimal := all.1
        rw [Char.isDigit, Bool.and_eq_true, decide_eq_true_iff,
          decide_eq_true_iff] at decimal
        obtain ⟨low, high⟩ : '0' ≤ digit ∧ digit ≤ '9' := decimal
        have bounds : 48 ≤ digit.toNat ∧ digit.toNat ≤ 57 := ⟨low, high⟩
        have value : Hex.digitValue digit = some (digit.toNat - 48) :=
          if_pos ⟨low, high⟩
        rw [List.foldlM_cons, Nat.ofDigitChars_cons, value, Option.bind_some,
          if_pos (by omega)]
        exact induction _ all.2
  rw [parseDigits, if_neg nonempty]
  exact folded digits 0 allDigits

theorem isDigit_toDigits (number : Nat) :
    (Nat.toDigits 10 number).all Char.isDigit = true := by
  rw [List.all_eq_true]
  intro digit member
  exact Nat.isDigit_of_mem_toDigits (by decide) (by decide) member

theorem parseInt_digits {digits : List Char} (nonempty : digits ≠ [])
    (allDigits : digits.all Char.isDigit = true) :
    parseInt digits = some (Int.ofNat (Nat.ofDigitChars 10 digits 0)) := by
  obtain ⟨digit, rest, rfl⟩ := List.exists_cons_of_ne_nil nonempty
  have first : digit.isDigit = true := by
    rw [List.all_cons, Bool.and_eq_true] at allDigits
    exact allDigits.1
  have bounds : 48 ≤ digit.toNat ∧ digit.toNat ≤ 57 := by
    rw [Char.isDigit, Bool.and_eq_true, decide_eq_true_iff,
      decide_eq_true_iff] at first
    exact first
  have visible : isWhiteSpace digit = false := by
    rw [isWhiteSpace]
    simp
    omega
  have whole : (digit :: rest).takeWhile Char.isDigit = digit :: rest := by
    have kept := @List.takeWhile_append_of_pos _ Char.isDigit
      (digit :: rest) [] (List.all_eq_true.mp allDigits)
    rwa [List.append_nil, List.takeWhile_nil, List.append_nil] at kept
  have minus : digit ≠ '-' := by
    rintro rfl
    exact absurd first (by decide)
  have plus : digit ≠ '+' := by
    rintro rfl
    exact absurd first (by decide)
  rw [parseInt, List.dropWhile_cons_of_neg (by simp [visible])]
  split
  · rename_i rest same
    exact absurd (List.cons.inj same).1 minus
  · rename_i rest same
    exact absurd (List.cons.inj same).1 plus
  · change (parseDigits 10 ((digit :: rest).takeWhile Char.isDigit)).map
      Int.ofNat = _
    rw [whole, parseDigits_ten nonempty allDigits]
    rfl

theorem parseInt_toDigits (number : Nat) :
    parseInt (Nat.toDigits 10 number) = some (Int.ofNat number) := by
  rw [parseInt_digits Nat.toDigits_ne_nil (isDigit_toDigits number),
    Nat.ofDigitChars_ten_toDigits]

/-! ## Dimensions -/

/-- The text of a dimension. -/
def bracket (length : Option Nat) : List Char :=
  '[' :: (length.map (Nat.toDigits 10)).getD [] ++ [']']

theorem matchSizes_plain {plain : List Char}
    (unbracketed : ∀ char ∈ plain, char ≠ '[') (rest : List Char) :
    matchSizes none (plain ++ rest) = matchSizes none rest := by
  induction plain with
  | nil => rfl
  | cons char plain induction =>
      rw [List.cons_append, matchSizes,
        if_neg (unbracketed char List.mem_cons_self)]
      exact induction fun other member =>
        unbracketed other (List.mem_cons_of_mem char member)

theorem matchSizes_digits {digits : List Char}
    (allDigits : digits.all Char.isDigit = true) (found rest : List Char) :
    matchSizes (some found) (digits ++ ']' :: rest) =
      (found ++ digits) :: matchSizes none rest := by
  induction digits generalizing found with
  | nil => rw [List.nil_append, List.append_nil, matchSizes, if_pos rfl]
  | cons digit digits induction =>
      rw [List.all_cons, Bool.and_eq_true] at allDigits
      have other : digit ≠ ']' := by
        rintro rfl
        exact absurd allDigits.1 (by decide)
      rw [List.cons_append, matchSizes, if_neg other, if_pos allDigits.1,
        induction allDigits.2, List.append_assoc]
      rfl

theorem matchSizes_brackets (dimensions : List (Option Nat)) :
    matchSizes none (dimensions.flatMap bracket) =
      dimensions.map fun length => (length.map (Nat.toDigits 10)).getD [] := by
  induction dimensions with
  | nil => rfl
  | cons length dimensions induction =>
      have allDigits :
          ((length.map (Nat.toDigits 10)).getD []).all Char.isDigit = true := by
        cases length with
        | none => rfl
        | some number => exact isDigit_toDigits number
      rw [List.flatMap_cons, bracket, List.map_cons, List.append_assoc,
        List.singleton_append, List.cons_append, matchSizes, if_pos rfl,
        matchSizes_digits allDigits, induction]
      rfl

/-- The sizes that the text of dimensions is read as. -/
def arraySizes (dimensions : List (Option Nat)) : List Int :=
  dimensions.map fun length => (length.map Int.ofNat).getD (-1)

theorem parseBaseType_brackets {plain : List Char}
    (visible : ' ' ∉ plain) (unbracketed : '[' ∉ plain)
    (dimensions : List (Option Nat)) :
    parseBaseType (String.ofList (plain ++ dimensions.flatMap bracket)) =
      readBaseType plain (!dimensions.isEmpty) (arraySizes dimensions) := by
  have spaceless : ' ' ∉ dimensions.flatMap bracket := by
    intro member
    obtain ⟨length, _, inside⟩ := List.mem_flatMap.mp member
    cases length with
    | none => simp [bracket] at inside
    | some number =>
        simp only [bracket, Option.map_some, Option.getD_some,
          List.cons_append, List.mem_cons, List.mem_append,
          List.not_mem_nil, or_false] at inside
        rcases inside with first | digit | last
        · exact absurd first (by decide)
        · have decimal := List.all_eq_true.mp (isDigit_toDigits number) _ digit
          exact absurd decimal (by decide)
        · exact absurd last (by decide)
  have sizes :
      (matchSizes none (plain ++ dimensions.flatMap bracket)).map
        (fun digits => (parseInt digits).getD (-1)) =
        arraySizes dimensions := by
    rw [matchSizes_plain (fun char member same => unbracketed (same ▸ member)),
      matchSizes_brackets, List.map_map, arraySizes]
    apply List.map_congr_left
    intro length _
    cases length with
    | none => rfl
    | some number =>
        simp [parseInt_toDigits]
  rw [parseBaseType, String.toList_ofList,
    List.erase_of_not_mem (by simp [visible, spaceless])]
  simp only [sizes]
  cases dimensions with
  | nil =>
      rw [if_neg (by simpa using unbracketed), List.flatMap_nil,
        List.append_nil]
      rfl
  | cons length dimensions =>
      have kept : (plain ++ (length :: dimensions).flatMap bracket).takeWhile
          (· != '[') = plain := by
        rw [List.flatMap_cons, bracket, List.cons_append, List.cons_append,
          List.takeWhile_append_of_pos]
        · simp
        · intro char member
          simpa using fun same : char = '[' => unbracketed (same ▸ member)
      rw [if_pos (by simp [bracket]), kept]
      rfl

end Web3Js.Validator
