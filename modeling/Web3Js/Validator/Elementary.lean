import Web3Js.Validator.BaseType

/-!
# Elementary types

An elementary type is a base type with the size that it may have.  Its text is
read as that base type and size.
-/

namespace Web3Js.Validator

/-- The size of an elementary type in bytes. -/
structure Size where
  bytes : Nat
  positive : 1 ≤ bytes
  atMost : bytes ≤ 64

theorem Size.one_positive : 1 ≤ 1 := Nat.le_refl 1

theorem Size.one_atMost : 1 ≤ 64 := by decide

def Size.one : Size := ⟨1, one_positive, one_atMost⟩

inductive Elementary where
  | bool
  | address
  | string
  | bytes (size : Option Size)
  | uint (size : Option Size)
  | int (size : Option Size)

namespace Elementary

def baseType : Elementary → BaseType
  | .bool => .bool
  | .address => .address
  | .string => .string
  | .bytes _ => .bytes
  | .uint _ => .uint
  | .int _ => .int

/-- The number that follows the base type: bytes for byte strings and bits for
integers. -/
def size : Elementary → Option Nat
  | .bytes size => size.map Size.bytes
  | .uint size | .int size => size.map fun size => 8 * size.bytes
  | _ => none

/-- The type without its size. -/
def base : Elementary → Elementary
  | .bytes _ => .bytes none
  | .uint _ => .uint none
  | .int _ => .int none
  | type => type

def chars (type : Elementary) : List Char :=
  type.baseType.text.toList ++ (type.size.map (Nat.toDigits 10)).getD []

end Elementary

theorem toDigits_cons (number : Nat) :
    ∃ digit rest, Nat.toDigits 10 number = digit :: rest :=
  List.exists_cons_of_ne_nil Nat.toDigits_ne_nil

theorem BaseType.isAlpha_text (baseType : BaseType) :
    baseType.text.toList.all Char.isAlpha = true := by
  cases baseType <;> decide

namespace Elementary

theorem not_mem_chars (type : Elementary) {char : Char}
    (other : char.isAlphanum = false) : char ∉ type.chars := by
  rw [Char.isAlphanum, Bool.or_eq_false_iff] at other
  intro member
  rcases List.mem_append.mp member with letter | digit
  · have alpha := type.baseType.isAlpha_text
    rw [List.all_eq_true] at alpha
    rw [alpha char letter] at other
    cases other.1
  · cases size : type.size with
    | none =>
        rw [size] at digit
        cases digit
    | some number =>
        rw [size] at digit
        have decimal := List.all_eq_true.mp (isDigit_toDigits number) _ digit
        rw [decimal] at other
        cases other.2

theorem chars_of_size {type : Elementary} {number : Nat}
    (size : type.size = some number) :
    type.chars =
      type.baseType.text.toList ++ Nat.toDigits 10 number := by
  rw [chars, size]
  rfl

/-- The base type of a text with a size ends where the digits begin. -/
theorem readBaseType_sized {type : Elementary} {number : Nat}
    (size : type.size = some number) (isArray : Bool) (sizes : List Int) :
    readBaseType type.chars isArray sizes =
      ⟨some type.baseType, some (some (Int.ofNat number)), isArray,
        sizes⟩ := by
  obtain ⟨digit, rest, digits⟩ := toDigits_cons number
  have parsed := parseInt_toDigits number
  rw [chars_of_size size, digits]
  rw [digits] at parsed
  cases type with
  | bool | address | string => cases size
  | bytes bound =>
      have other : validBaseType
          ('b' :: 'y' :: 't' :: 'e' :: 's' :: digit :: rest) = none := rfl
      have letters : (Elementary.bytes bound).baseType.text.toList =
          ['b', 'y', 't', 'e', 's'] :=
        (by decide : BaseType.bytes.text.toList = _)
      rw [letters]
      simp only [List.cons_append, List.nil_append, readBaseType, other,
        parsed]
      rfl
  | uint bound =>
      have other : validBaseType
          ('u' :: 'i' :: 'n' :: 't' :: digit :: rest) = none := rfl
      have letters : (Elementary.uint bound).baseType.text.toList =
          ['u', 'i', 'n', 't'] :=
        (by decide : BaseType.uint.text.toList = _)
      rw [letters]
      simp only [List.cons_append, List.nil_append, readBaseType, other,
        parsed]
      rfl
  | int bound =>
      have other : validBaseType
          ('i' :: 'n' :: 't' :: digit :: rest) = none := rfl
      have letters : (Elementary.int bound).baseType.text.toList =
          ['i', 'n', 't'] :=
        (by decide : BaseType.int.text.toList = _)
      rw [letters]
      simp only [List.cons_append, List.nil_append, readBaseType, other,
        parsed]
      rfl

theorem readBaseType_chars (type : Elementary) (isArray : Bool)
    (sizes : List Int) :
    readBaseType type.chars isArray sizes =
      ⟨some type.baseType, type.size.map fun size => some (Int.ofNat size),
        isArray, sizes⟩ := by
  cases size : type.size with
  | some number => exact readBaseType_sized size isArray sizes
  | none =>
      cases type with
      | bool | address | string => rfl
      | bytes bound | uint bound | int bound =>
          cases bound with
          | none => rfl
          | some bound => cases size

theorem parseBaseType_chars (type : Elementary) :
    parseBaseType (String.ofList type.chars) =
      ⟨some type.baseType, type.size.map fun size => some (Int.ofNat size),
        false, []⟩ := by
  have visible : ' ' ∉ type.chars :=
    type.not_mem_chars (by decide)
  have unbracketed : '[' ∉ type.chars :=
    type.not_mem_chars (by decide)
  have read := parseBaseType_brackets visible unbracketed []
  rw [List.flatMap_nil, List.append_nil] at read
  rw [read, readBaseType_chars]
  rfl

theorem chars_base (type : Elementary) :
    String.ofList type.base.chars = type.baseType.text := by
  have letters : type.base.chars = type.baseType.text.toList := by
    cases type <;> simp [base, chars, baseType, size]
  rw [letters, String.ofList_toList]

end Elementary

end Web3Js.Validator
