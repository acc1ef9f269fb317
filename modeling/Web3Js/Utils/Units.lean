import Mathlib.Data.List.DropRight
import Mathlib.Data.Rat.Floor
import Web3Js.Utils.Conversion
import Web3Js.Validator.BaseType

/-!
# Units of the currency

A unit is a power of ten of the smallest one.  Amounts are scaled on their
decimal texts: digits are padded with zeros and cut at a place, and trailing
zeros are dropped.
-/

namespace Web3Js.Utils

inductive QRLUnits
  | noquanta
  | planck
  | kplanck
  | Kplanck
  | mplanck
  | Mplanck
  | shor
  | nano
  | kshor
  | Kshor
  | micro
  | mshor
  | Mshor
  | milli
  | quanta
  | kquanta
  | grand
  | mquanta
  | gquanta
  | tquanta
  deriving DecidableEq, Repr

def qrlUnitMap : QRLUnits → Nat
  | .noquanta => 0
  | .planck => 1
  | .kplanck | .Kplanck => 10 ^ 3
  | .mplanck | .Mplanck => 10 ^ 6
  | .shor | .nano => 10 ^ 9
  | .kshor | .Kshor | .micro => 10 ^ 12
  | .mshor | .Mshor | .milli => 10 ^ 15
  | .quanta => 10 ^ 18
  | .kquanta | .grand => 10 ^ 21
  | .mquanta => 10 ^ 24
  | .gquanta => 10 ^ 27
  | .tquanta => 10 ^ 30

/-- The message of an `InvalidUnitError`. -/
def invalidUnit : String := invalidValue "noquanta" "invalid unit"

/-- `/[^0-9.]/` does not match the character. -/
def isNumberChar (char : Char) : Bool := char.isDigit || char == '.'

/-- `isNumber` -/
def isNumber : Numbers → Bool
  | .number _ | .fraction _ => true
  | .bigint value => isInt (.bigint value)
  | .text content =>
      Validator.isIntString content ||
        (content.toList.any isNumberChar && content.toList.all isNumberChar &&
          decide (content.toList.count '.' ≤ 1))

/-- `padStart` with zeros. -/
def padStart (text : List Char) (length : Nat) : List Char :=
  List.replicate (length - text.length) '0' ++ text

/-- `denomination.toString().length - 1` -/
def numberOfZeros (denomination : Nat) : Nat :=
  (Nat.toDigits 10 denomination).length - 1

/-- The first two parts of `split('.')`. -/
def splitPoint (text : List Char) : List Char × List Char :=
  (text.takeWhile (· != '.'),
    (text.dropWhile (· != '.')).tail.takeWhile (· != '.'))

/-- The text of an amount that is scaled, on the places of a denomination. -/
def scaledText (value : Int) (fractionLength zeros : Nat) : List Char :=
  let decimals := min fractionLength zeros
  if decimals = 0 then Decimal.text value
  else
    let padded := padStart (Decimal.text value) decimals
    padded.take (padded.length - decimals)

def toPlanck (number : Numbers) (unit : QRLUnits) : Except String String :=
  if isNumber number = false then
    .error (validationMessage "number" (shown number))
  else if qrlUnitMap unit = 0 then .error invalidUnit
  else do
    let amount ←
      match number with
      | .text content =>
          if Validator.isHexStrict content then shownNumber number
          else .ok content
      | number => shownNumber number
    let (integer, fraction) := splitPoint amount.toList
    match bigIntOfString (String.ofList (integer ++ fraction)) with
    | none => .error (notBigInt (String.ofList (integer ++ fraction)))
    | some value =>
        .ok (String.ofList (scaledText (value * qrlUnitMap unit)
          fraction.length (numberOfZeros (qrlUnitMap unit))))

/-- A text in the places of a denomination, with its point. -/
def pointedText (value : List Char) (zeros : Nat) : List Char :=
  let padded := padStart value zeros
  let integer := padded.take (padded.length - zeros)
  let rawFraction := padded.drop (padded.length - zeros)
  let fraction := rawFraction.rdropWhile (· == '0')
  if integer = [] then '0' :: '.' :: fraction
  else if fraction = [] then integer
  else integer ++ '.' :: fraction

def fromPlanck (number : Numbers) (unit : QRLUnits) : Except String String :=
  if qrlUnitMap unit = 0 then .error invalidUnit
  else do
    let value ← shownNumber number
    let zeros := numberOfZeros (qrlUnitMap unit)
    if zeros = 0 then .ok value
    else .ok (String.ofList (pointedText value.toList zeros))

theorem numberOfZeros_pow (zeros : Nat) :
    numberOfZeros (10 ^ zeros) = zeros := by
  have digits := Decimal.toDigits_mul_pow (show 0 < 1 by decide) zeros
  rw [Nat.one_mul] at digits
  rw [numberOfZeros, digits, List.length_append, List.length_replicate]
  change 1 + zeros - 1 = zeros
  omega

/-! ## Reading decimal texts -/

/-- Characters that stand nowhere in a text of the integer notations but in
front. -/
def isForeign (char : Char) : Bool :=
  (Hex.digitValue char).isNone &&
    !(['x', 'X', 'o', 'O', 'b', 'B'].contains char)

theorem parseDigits_foreign (base : Nat) {text : List Char} {char : Char}
    (member : char ∈ text) (foreign : Hex.digitValue char = none) :
    parseDigits base text = none := by
  have folded : ∀ (rest : List Char) (number : Nat), char ∈ rest →
      rest.foldlM (fun number digit =>
        (Hex.digitValue digit).bind fun value =>
          if value < base then some (base * number + value) else none) number =
        none := by
    intro rest
    induction rest with
    | nil => intro number within; cases within
    | cons digit rest induction =>
        intro number within
        rw [List.foldlM_cons]
        rcases List.mem_cons.mp within with rfl | later
        · rw [foreign]
          rfl
        · cases (Hex.digitValue digit).bind fun value =>
            if value < base then some (base * number + value) else none with
          | none => rfl
          | some value => exact induction value later
  rw [parseDigits, if_neg (List.ne_nil_of_mem member)]
  exact folded text 0 member

/-- A text with a foreign character after its first one is no integer. -/
theorem readNumber_foreign {text : List Char} {char : Char}
    (visible : ∀ char ∈ text, isWhiteSpace char = false)
    (member : char ∈ text.tail) (foreign : isForeign char = true) :
    bigIntOfString (String.ofList text) = none ∧
      Validator.isHexStrict (String.ofList text) = false := by
  simp only [isForeign, Bool.and_eq_true, Option.isNone_iff_eq_none,
    Bool.not_eq_true', List.contains_eq_mem, decide_eq_false_iff_not,
    List.mem_cons, List.not_mem_nil, or_false, not_or] at foreign
  obtain ⟨undigit, x, X, o, O, b, B⟩ := foreign
  have inside : ∀ {rest : List Char} {second : Char},
      char ∈ second :: rest → char ≠ second → char ∈ rest :=
    fun within different => (List.mem_cons.mp within).resolve_left different
  constructor
  · rw [bigIntOfString, String.toList_ofList, trim_of_visible visible]
    split
    · cases member
    · rw [parseDigits_foreign 16 (inside member x) undigit]
      rfl
    · rw [parseDigits_foreign 16 (inside member X) undigit]
      rfl
    · rw [parseDigits_foreign 8 (inside member o) undigit]
      rfl
    · rw [parseDigits_foreign 8 (inside member O) undigit]
      rfl
    · rw [parseDigits_foreign 2 (inside member b) undigit]
      rfl
    · rw [parseDigits_foreign 2 (inside member B) undigit]
      rfl
    · rw [List.tail_cons] at member
      rw [parseDigits_foreign 10 member undigit]
      rfl
    · rw [List.tail_cons] at member
      rw [parseDigits_foreign 10 member undigit]
      rfl
    · rw [parseDigits_foreign 10 (List.mem_of_mem_tail member) undigit]
      rfl
  · have notDigits : ∀ {digits : List Char}, char ∈ digits →
        digits.all Hex.isDigit = false := by
      intro digits within
      rw [List.all_eq_false]
      refine ⟨char, within, ?_⟩
      rw [Hex.isDigit, undigit]
      exact Bool.false_ne_true
    rw [Validator.isHexStrict, String.toList_ofList]
    split
    next second digits =>
      by_cases same : char = second
      · subst same
        simp [x, X]
      · have zero : char ≠ '0' := by
          rintro rfl
          cases undigit
        rw [notDigits (inside (inside member zero) same), Bool.and_false]
    next _ second digits =>
      by_cases same : char = second
      · subst same
        simp [x, X]
      · rw [notDigits (inside member same), Bool.and_false]
    next => rfl

theorem isHexStrict_of_absent {text : List Char} (noSmall : 'x' ∉ text)
    (noCapital : 'X' ∉ text) :
    Validator.isHexStrict (String.ofList text) = false := by
  have other : ∀ char ∈ text, (char == 'x' || char == 'X') = false := by
    intro char member
    rw [Bool.or_eq_false_iff, beq_eq_false_iff_ne, beq_eq_false_iff_ne]
    constructor
    · rintro rfl
      exact noSmall member
    · rintro rfl
      exact noCapital member
  rw [Validator.isHexStrict, String.toList_ofList]
  split
  next x digits =>
    rw [other x (by simp)]
    rfl
  next _ x digits =>
    rw [other x (by simp)]
    rfl
  next => rfl

theorem isWhiteSpace_of_isDigit {digit : Char}
    (decimal : digit.isDigit = true) : isWhiteSpace digit = false := by
  rw [Char.isDigit, Bool.and_eq_true, decide_eq_true_iff,
    decide_eq_true_iff] at decimal
  have bounds : 48 ≤ digit.toNat ∧ digit.toNat ≤ 57 := decimal
  rw [isWhiteSpace]
  simp
  omega

theorem parseDigits_decimal {digits : List Char} (nonempty : digits ≠ [])
    (allDigits : digits.all Char.isDigit = true) :
    parseDigits 10 digits = some (Decimal.value digits) :=
  Validator.parseDigits_ten nonempty allDigits

/-- Decimal digits are read as their number, and no digits as zero. -/
theorem bigIntOfString_digits {digits : List Char}
    (allDigits : digits.all Char.isDigit = true) :
    bigIntOfString (String.ofList digits) =
      some (Decimal.value digits : Int) := by
  have isDigit := List.all_eq_true.mp allDigits
  have trimmed : trim digits = digits :=
    trim_of_visible fun char member => isWhiteSpace_of_isDigit
      (isDigit char member)
  rw [bigIntOfString, String.toList_ofList, trimmed]
  have absent : ∀ char, char.isDigit = false → char ∉ digits := by
    intro char other member
    rw [isDigit char member] at other
    cases other
  cases digits with
  | nil => rfl
  | cons digit rest =>
      have nonempty := List.cons_ne_nil digit rest
      split
      next empty => cases empty
      next same => exact absurd (same ▸ by simp) (absent 'x' (by decide))
      next same => exact absurd (same ▸ by simp) (absent 'X' (by decide))
      next same => exact absurd (same ▸ by simp) (absent 'o' (by decide))
      next same => exact absurd (same ▸ by simp) (absent 'O' (by decide))
      next same => exact absurd (same ▸ by simp) (absent 'b' (by decide))
      next same => exact absurd (same ▸ by simp) (absent 'B' (by decide))
      next same => exact absurd (same ▸ by simp) (absent '-' (by decide))
      next same => exact absurd (same ▸ by simp) (absent '+' (by decide))
      next =>
        rw [parseDigits_decimal nonempty allDigits]
        rfl

theorem bigIntOfString_positive {digits : List Char}
    (allDigits : digits.all Char.isDigit = true) :
    bigIntOfString (String.ofList ('+' :: digits)) =
      if digits = [] then none else some (Decimal.value digits : Int) := by
  have trimmed : trim ('+' :: digits) = '+' :: digits := by
    apply trim_of_visible
    intro char member
    rcases List.mem_cons.mp member with rfl | member
    · decide
    · exact isWhiteSpace_of_isDigit (List.all_eq_true.mp allDigits char member)
  rw [bigIntOfString, String.toList_ofList, trimmed]
  change (parseDigits 10 digits).map Int.ofNat = _
  split
  next empty =>
    rw [empty]
    rfl
  next nonempty =>
    rw [parseDigits_decimal nonempty allDigits]
    rfl

theorem bigIntOfString_negative {digits : List Char}
    (allDigits : digits.all Char.isDigit = true) :
    bigIntOfString (String.ofList ('-' :: digits)) =
      if digits = [] then none else some (-(Decimal.value digits : Int)) := by
  have trimmed : trim ('-' :: digits) = '-' :: digits := by
    apply trim_of_visible
    intro char member
    rcases List.mem_cons.mp member with rfl | member
    · decide
    · exact isWhiteSpace_of_isDigit (List.all_eq_true.mp allDigits char member)
  rw [bigIntOfString, String.toList_ofList, trimmed]
  change (parseDigits 10 digits).map (fun number => -(number : Int)) = _
  split
  next empty =>
    rw [empty]
    rfl
  next nonempty =>
    rw [parseDigits_decimal nonempty allDigits]
    rfl

/-! ## Texts of numbers -/

theorem isWhiteSpace_of_isPlain {char : Char}
    (plain : Double.isPlain char = true) : isWhiteSpace char = false := by
  change (decide (char.val ≥ 'A'.val ∧ char.val ≤ 'Z'.val) ||
    (char.val ≥ 'a'.val && char.val ≤ 'z'.val) || char.isDigit || char == '.' ||
    char == '+') = true at plain
  rw [Bool.or_eq_true, Bool.or_eq_true, Bool.or_eq_true, Bool.or_eq_true,
    beq_iff_eq, beq_iff_eq] at plain
  rcases plain with (((upper | lower) | digit) | rfl) | rfl
  · rw [decide_eq_true_iff] at upper
    have bounds : 65 ≤ char.toNat ∧ char.toNat ≤ 90 := upper
    rw [isWhiteSpace]
    simp
    omega
  · rw [Bool.and_eq_true, decide_eq_true_iff, decide_eq_true_iff] at lower
    have bounds : 97 ≤ char.toNat ∧ char.toNat ≤ 122 := lower
    rw [isWhiteSpace]
    simp
    omega
  · exact isWhiteSpace_of_isDigit digit
  · decide
  · decide

/-- A number is written as the numeral of an integer that is rounded to it, or
with an exponent. -/
theorem numberText_spec (number : Int) :
    (∃ other : Int, numberText number = Decimal.text other ∧
        (other < 0 ↔ number < 0) ∧
          (other.natAbs = number.natAbs ∨
            Double.nearest other.natAbs = some number.natAbs)) ∨
      ('+' ∈ numberText number ∧ (numberText number).head? ≠ some '+') ∧
        ∀ char ∈ numberText number, isWhiteSpace char = false := by
  by_cases zero : number = 0
  · rw [zero]
    exact .inl ⟨0, rfl, Iff.rfl, .inl rfl⟩
  · have plain : ∀ char ∈ Double.text (some number.natAbs),
        isWhiteSpace char = false := by
      intro char member
      exact isWhiteSpace_of_isPlain
        (List.all_eq_true.mp (Double.isPlain_text _) char member)
    have positive : 0 < number.natAbs := by omega
    rw [numberText]
    rcases Double.text_spec positive with
      ⟨other, some, rounded, same⟩ | ⟨first, rest, same, noPlus, exponent⟩
    · left
      rw [same]
      split
      next negative =>
        refine ⟨-other, ?_, iff_of_true (by omega) negative, ?_⟩
        · rw [Decimal.text_of_neg (by omega), Int.natAbs_neg,
            Int.natAbs_natCast]
        · rw [Int.natAbs_neg, Int.natAbs_natCast]
          exact rounded
      next least =>
        exact ⟨other, (Decimal.text_natCast other).symm,
          iff_of_false (by omega) least, rounded⟩
    · right
      rw [same] at plain ⊢
      have within : '+' ∈ first :: rest := List.mem_cons_of_mem _ exponent
      split
      next =>
        refine ⟨⟨List.mem_cons_of_mem _ within, nofun⟩, ?_⟩
        intro char member
        rcases List.mem_cons.mp member with rfl | member
        · decide
        · exact plain char member
      next =>
        exact ⟨⟨within, fun other => noPlus (Option.some.inj other)⟩, plain⟩

theorem numberText_ne_nil (number : Int) : numberText number ≠ [] := by
  rcases numberText_spec number with ⟨other, same, -⟩ | ⟨⟨member, -⟩, -⟩
  · rw [same]
    exact Decimal.text_ne_nil other
  · exact List.ne_nil_of_mem member

theorem readNumber_text (number : Int) :
    readNumber (String.ofList (Decimal.text number)) = some number := by
  have digit : ∀ char ∈ Decimal.text number,
      char.isDigit = true ∨ char = '-' := by
    intro char member
    rw [Decimal.text] at member
    split at member
    next =>
      rcases List.mem_cons.mp member with sign | member
      · exact .inr sign
      · exact .inl (Decimal.isDigit_toDigits _ member)
    next => exact .inl (Decimal.isDigit_toDigits _ member)
  have plain : Validator.isHexStrict
      (String.ofList (Decimal.text number)) = false := by
    apply isHexStrict_of_absent
    · intro member
      rcases digit _ member with digit | same
      · cases digit
      · cases same
    · intro member
      rcases digit _ member with digit | same
      · cases digit
      · cases same
  have allDigits : ∀ natural : Nat,
      (Nat.toDigits 10 natural).all Char.isDigit = true := fun natural =>
    List.all_eq_true.mpr fun _ => Decimal.isDigit_toDigits natural
  rw [readNumber, plain]
  by_cases negative : number < 0
  · rw [Decimal.text_of_neg negative]
    change bigIntOfString _ = _
    rw [bigIntOfString_negative (allDigits _), if_neg Nat.toDigits_ne_nil,
      Decimal.value_toDigits]
    have back : -(number.natAbs : Int) = number := by omega
    exact congrArg some back
  · obtain ⟨natural, rfl⟩ := Int.eq_ofNat_of_zero_le (Int.not_lt.mp negative)
    rw [Decimal.text_natCast]
    change bigIntOfString _ = _
    rw [bigIntOfString_digits (allDigits _), Decimal.value_toDigits]

/-- The text of a number is read as the integer whose numeral it is, if it is
one. -/
theorem numberText_of_read {number other : Int}
    (read : readNumber (String.ofList (numberText number)) = some other) :
    numberText number = Decimal.text other ∧ (other < 0 ↔ number < 0) ∧
      (other.natAbs = number.natAbs ∨
        Double.nearest other.natAbs = some number.natAbs) := by
  rcases numberText_spec number with
    ⟨written, same, sign, rounded⟩ | ⟨⟨member, head⟩, plain⟩
  · rw [same, readNumber_text] at read
    obtain rfl := Option.some.inj read
    exact ⟨same, sign, rounded⟩
  · have behind : '+' ∈ (numberText number).tail := by
      obtain ⟨first, rest, same⟩ :=
        List.exists_cons_of_ne_nil (List.ne_nil_of_mem member)
      rw [same] at member head ⊢
      refine (List.mem_cons.mp member).resolve_left ?_
      rintro rfl
      exact head rfl
    obtain ⟨unread, plainText⟩ :=
      readNumber_foreign plain behind (by decide)
    rw [readNumber, plainText] at read
    cases unread.symm.trans read

end Web3Js.Utils
