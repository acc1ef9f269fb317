import Web3Js.Lib.Words
import Web3Js.Utils.Units

/-!
# Scaling an amount

A decimal text has digits before and after a point, and a sign perhaps.  It
denotes a rational number, and in the smallest unit the number is multiplied
with the scale and truncated.  The digits of the text, as they are cut at a
place, denote that number for some of the texts.
-/

namespace Web3Js.Utils

inductive Sign
  | unsigned
  | plus
  | minus
  deriving DecidableEq, Repr

def Sign.text : Sign → List Char
  | .unsigned => []
  | .plus => ['+']
  | .minus => ['-']

def Sign.factor : Sign → Int
  | .unsigned | .plus => 1
  | .minus => -1

/-- An optional sign, an integer part and an optional fraction. -/
structure DecimalText where
  sign : Sign
  integer : List Char
  fraction : Option (List Char)
  isDigit_integer : integer.all Char.isDigit = true
  isDigit_fraction :
    ∀ digits, fraction = some digits → digits.all Char.isDigit = true

/-- A rational number without what is behind its point. -/
def truncated (number : ℚ) : Int :=
  if 0 ≤ number then ⌊number⌋ else ⌈number⌉

theorem truncated_intCast (number : Int) : truncated number = number := by
  rw [truncated, Int.floor_intCast, Int.ceil_intCast, ite_self]

theorem truncated_natCast_div (number divisor : Nat) :
    truncated ((number : ℚ) / divisor) = (number / divisor : Nat) := by
  rw [truncated, if_pos (by positivity), Rat.floor_natCast_div_natCast]
  rfl

/-! ## Cutting digits -/

theorem scaledText_zero (number : Int) (zeros : Nat) :
    scaledText number 0 zeros = Decimal.text number := by
  rw [scaledText, Nat.zero_min, if_pos rfl]

theorem scaledText_of_zero (decimals zeros : Nat) :
    scaledText ((0 * 10 ^ zeros : Nat) : Int) decimals zeros =
      if min decimals zeros = 0 then ['0'] else [] := by
  rw [Nat.zero_mul, scaledText, Decimal.text_natCast]
  split
  next none => rfl
  next some =>
    have length : (padStart (Nat.toDigits 10 0) (min decimals zeros)).length =
        min decimals zeros := by
      rw [padStart, List.length_append, List.length_replicate]
      change min decimals zeros - 1 + 1 = min decimals zeros
      omega
    change (padStart (Nat.toDigits 10 0) (min decimals zeros)).take
      (_ - min decimals zeros) = []
    rw [length, Nat.sub_self, List.take_zero]

theorem scaledText_of_pos {number : Nat} (positive : 0 < number)
    (decimals zeros : Nat) :
    scaledText ((number * 10 ^ zeros : Nat) : Int) decimals zeros =
      Nat.toDigits 10 (number * 10 ^ (zeros - decimals)) := by
  rw [scaledText, Decimal.text_natCast, Decimal.toDigits_mul_pow positive,
    Decimal.toDigits_mul_pow positive]
  have left : zeros - min decimals zeros = zeros - decimals := by omega
  split
  next none =>
    rw [none, Nat.sub_zero] at left
    rw [← left]
  next some =>
    have unpadded : padStart
        (Nat.toDigits 10 number ++ List.replicate zeros '0')
        (min decimals zeros) =
          Nat.toDigits 10 number ++ List.replicate zeros '0' := by
      rw [padStart, List.length_append, List.length_replicate,
        Nat.sub_eq_zero_of_le (by omega)]
      rfl
    change (padStart _ (min decimals zeros)).take
      ((padStart _ (min decimals zeros)).length - min decimals zeros) = _
    rw [unpadded, List.length_append, List.length_replicate,
      Nat.add_sub_assoc (by omega), List.take_length_add_append, left,
      List.take_replicate, Nat.min_eq_left (by omega)]

namespace DecimalText

variable (amount : DecimalText)

def text : List Char :=
  amount.sign.text ++ amount.integer ++
    amount.fraction.elim [] fun digits => '.' :: digits

/-- The digits behind the point. -/
def decimals : List Char := amount.fraction.getD []

/-- The number of all digits, whatever place the point is at. -/
def magnitude : Nat := Decimal.value (amount.integer ++ amount.decimals)

def value : ℚ :=
  amount.sign.factor * amount.magnitude / 10 ^ amount.decimals.length

theorem isDigit_decimals : amount.decimals.all Char.isDigit = true := by
  rw [decimals]
  cases present : amount.fraction with
  | none => rfl
  | some digits => exact amount.isDigit_fraction digits present

theorem isDigit_digits :
    (amount.integer ++ amount.decimals).all Char.isDigit = true := by
  rw [List.all_append, amount.isDigit_integer, amount.isDigit_decimals]
  rfl

/-- A character of a decimal text is a digit, a point or a sign. -/
theorem mem_text {char : Char} (member : char ∈ amount.text) :
    char.isDigit = true ∨ char = '.' ∨ char ∈ amount.sign.text := by
  rw [text, List.mem_append, List.mem_append] at member
  rcases member with (sign | digit) | rest
  · exact .inr (.inr sign)
  · exact .inl (List.all_eq_true.mp amount.isDigit_integer char digit)
  · cases present : amount.fraction with
    | none =>
        rw [present] at rest
        cases rest
    | some digits =>
        rw [present] at rest
        rcases List.mem_cons.mp rest with point | digit
        · exact .inr (.inl point)
        · exact .inl (List.all_eq_true.mp
            (amount.isDigit_fraction digits present) char digit)

theorem not_mem_text {char : Char} (other : char.isDigit = false)
    (point : char ≠ '.') (plus : char ≠ '+') (minus : char ≠ '-') :
    char ∉ amount.text := by
  intro member
  rcases amount.mem_text member with digit | same | sign
  · rw [other] at digit
    cases digit
  · exact point same
  · cases kind : amount.sign with
    | unsigned =>
        rw [kind] at sign
        cases sign
    | plus =>
        rw [kind] at sign
        exact plus (List.mem_singleton.mp sign)
    | minus =>
        rw [kind] at sign
        exact minus (List.mem_singleton.mp sign)

theorem visible {char : Char} (member : char ∈ amount.text) :
    isWhiteSpace char = false := by
  rcases amount.mem_text member with digit | rfl | sign
  · exact isWhiteSpace_of_isDigit digit
  · decide
  · cases kind : amount.sign with
    | unsigned =>
        rw [kind] at sign
        cases sign
    | plus =>
        rw [kind] at sign
        rw [List.mem_singleton.mp sign]
        decide
    | minus =>
        rw [kind] at sign
        rw [List.mem_singleton.mp sign]
        decide

theorem splitPoint_text :
    splitPoint amount.text =
      (amount.sign.text ++ amount.integer, amount.decimals) := by
  have pointless : ∀ digits : List Char, digits.all Char.isDigit = true →
      digits.all (· != '.') = true := by
    intro digits allDigits
    rw [List.all_eq_true] at allDigits ⊢
    intro char member
    rw [bne_iff_ne]
    rintro rfl
    cases allDigits '.' member
  have front : (amount.sign.text ++ amount.integer).all (· != '.') = true := by
    rw [List.all_append, pointless _ amount.isDigit_integer, Bool.and_true]
    cases amount.sign <;> decide
  have stops : Words.Stops (· != '.')
      (amount.fraction.elim [] fun digits => '.' :: digits) := by
    intro char first
    cases present : amount.fraction with
    | none =>
        rw [present] at first
        cases first
    | some digits =>
        rw [present] at first
        cases first
        rfl
  have behind := pointless _ amount.isDigit_decimals
  have whole := Words.takeWhile_word behind (Words.stops_nil _)
  rw [List.append_nil] at whole
  rw [splitPoint, text, Words.takeWhile_word front stops,
    Words.dropWhile_word front stops]
  refine congrArg _ (Eq.trans ?_ whole)
  rw [decimals]
  cases amount.fraction <;> rfl

/-! ## Reading the digits -/

theorem isHexStrict_text :
    Validator.isHexStrict (String.ofList amount.text) = false :=
  isHexStrict_of_absent
    (amount.not_mem_text (by decide) (by decide) (by decide) (by decide))
    (amount.not_mem_text (by decide) (by decide) (by decide) (by decide))

/-- Only digits without a sign are accepted with a point. -/
theorem unsigned_of_accepted
    (accepted : isNumber (.text (String.ofList amount.text)) = true)
    (pointed : amount.fraction ≠ none) : amount.sign = .unsigned := by
  obtain ⟨digits, present⟩ := Option.ne_none_iff_exists'.mp pointed
  have signless : ∀ sign : Char, amount.sign.text = [sign] →
      isNumberChar sign = false → False := by
    intro sign signed other
    have shape : amount.text = sign :: (amount.integer ++ '.' :: digits) := by
      rw [text, signed, present]
      rfl
    have point : '.' ∈ amount.text.tail := by
      rw [shape, List.tail_cons, List.mem_append]
      exact .inr List.mem_cons_self
    obtain ⟨unread, -⟩ := readNumber_foreign
      (fun char member => amount.visible member) point (by decide)
    have foreign : amount.text.all isNumberChar = false := by
      rw [shape, List.all_cons, other, Bool.false_and]
    rw [isNumber, Validator.isIntString, amount.isHexStrict_text, unread,
      String.toList_ofList, foreign] at accepted
    simp at accepted
  cases kind : amount.sign with
  | unsigned => rfl
  | plus => exact (signless '+' (by rw [kind]; rfl) (by decide)).elim
  | minus => exact (signless '-' (by rw [kind]; rfl) (by decide)).elim

/-- All digits of an accepted text are read as one integer. -/
theorem bigIntOfString_digits
    (accepted : isNumber (.text (String.ofList amount.text)) = true) :
    bigIntOfString (String.ofList
      (amount.sign.text ++ amount.integer ++ amount.decimals)) =
        some (amount.sign.factor * amount.magnitude) := by
  have read : amount.sign ≠ .unsigned →
      (bigIntOfString (String.ofList amount.text)).isSome = true ∧
        amount.text =
          amount.sign.text ++ (amount.integer ++ amount.decimals) := by
    intro signed
    have pointless : amount.fraction = none := by
      by_contra pointed
      exact signed (amount.unsigned_of_accepted accepted pointed)
    have shape : amount.text =
        amount.sign.text ++ (amount.integer ++ amount.decimals) := by
      rw [text, decimals, pointless, List.append_assoc]
      rfl
    refine ⟨?_, shape⟩
    have foreign : amount.text.all isNumberChar = false := by
      rw [shape, List.all_append]
      cases kind : amount.sign with
      | unsigned => exact absurd kind signed
      | plus => rfl
      | minus => rfl
    rw [isNumber, Validator.isIntString, amount.isHexStrict_text,
      String.toList_ofList, foreign] at accepted
    cases number : bigIntOfString (String.ofList amount.text) with
    | some number => rfl
    | none =>
        rw [number] at accepted
        simp at accepted
  rw [List.append_assoc]
  cases kind : amount.sign with
  | unsigned =>
      rw [Sign.factor, one_mul]
      exact Utils.bigIntOfString_digits amount.isDigit_digits
  | plus =>
      obtain ⟨number, shape⟩ := read (by rw [kind]; decide)
      rw [shape, kind] at number
      change (bigIntOfString (String.ofList
        ('+' :: (amount.integer ++ amount.decimals)))).isSome = true at number
      change bigIntOfString (String.ofList
        ('+' :: (amount.integer ++ amount.decimals))) = _
      rw [bigIntOfString_positive amount.isDigit_digits] at number ⊢
      split at number
      next empty => cases number
      next nonempty =>
        rw [if_neg nonempty, Sign.factor, one_mul]
        rfl
  | minus =>
      obtain ⟨number, shape⟩ := read (by rw [kind]; decide)
      rw [shape, kind] at number
      change (bigIntOfString (String.ofList
        ('-' :: (amount.integer ++ amount.decimals)))).isSome = true at number
      change bigIntOfString (String.ofList
        ('-' :: (amount.integer ++ amount.decimals))) = _
      rw [bigIntOfString_negative amount.isDigit_digits] at number ⊢
      split at number
      next empty => cases number
      next nonempty =>
        rw [if_neg nonempty, Sign.factor, neg_one_mul]
        rfl

/-- An accepted text is scaled on the numeral of its digits. -/
theorem toPlanck_text {unit : QRLUnits} {zeros : Nat}
    (accepted : isNumber (.text (String.ofList amount.text)) = true)
    (scale : qrlUnitMap unit = 10 ^ zeros) :
    toPlanck (.text (String.ofList amount.text)) unit =
      .ok (String.ofList (scaledText
        (amount.sign.factor * amount.magnitude * 10 ^ zeros)
        amount.decimals.length zeros)) := by
  have supported : qrlUnitMap unit ≠ 0 := by
    rw [scale]
    positivity
  rw [toPlanck, if_neg (by simp [accepted]), if_neg supported]
  simp only [amount.isHexStrict_text, Bool.false_eq_true, if_false,
    Outcome.ok_bind, String.toList_ofList, amount.splitPoint_text,
    amount.bigIntOfString_digits accepted, scale, numberOfZeros_pow,
    Nat.cast_pow, Nat.cast_ofNat]

theorem value_mul_of_whole (zeros : Nat) (whole : amount.decimals = []) :
    amount.value * 10 ^ zeros =
      (amount.sign.factor * amount.magnitude * 10 ^ zeros : Int) := by
  rw [value, whole, List.length_nil, pow_zero, div_one]
  push_cast
  rfl

theorem value_mul_of_unsigned (zeros : Nat)
    (unsigned : amount.sign = .unsigned) :
    amount.value * 10 ^ zeros =
      ((amount.magnitude * 10 ^ zeros : Nat) : ℚ) /
        (10 ^ amount.decimals.length : Nat) := by
  rw [value, unsigned, Sign.factor]
  push_cast
  ring

/-! ## Exactness -/

/-- The scaled text of an accepted amount is the numeral of its value in the
smallest unit, truncated, exactly if the amount has no digits behind the point,
or is zero in the smallest unit, or is not zero and has no more digits behind
the point than the unit has places. -/
theorem toPlanck_exact_iff {unit : QRLUnits} {zeros : Nat}
    (accepted : isNumber (.text (String.ofList amount.text)) = true)
    (scale : qrlUnitMap unit = 10 ^ zeros) :
    toPlanck (.text (String.ofList amount.text)) unit =
        .ok (String.ofList
          (Decimal.text (truncated (amount.value * 10 ^ zeros)))) ↔
      amount.decimals = [] ∨
        if amount.magnitude = 0 then zeros = 0
        else amount.decimals.length ≤ zeros := by
  rw [amount.toPlanck_text accepted scale, Except.ok.injEq, String.ofList_inj]
  by_cases whole : amount.decimals = []
  · rw [amount.value_mul_of_whole zeros whole, truncated_intCast, whole,
      List.length_nil, scaledText_zero]
    exact iff_of_true rfl (.inl rfl)
  · have pointed : amount.fraction ≠ none := by
      intro absent
      apply whole
      rw [decimals, absent]
      rfl
    have unsigned := amount.unsigned_of_accepted accepted pointed
    have scaled : amount.sign.factor * amount.magnitude * 10 ^ zeros =
        ((amount.magnitude * 10 ^ zeros : Nat) : Int) := by
      rw [unsigned, Sign.factor]
      push_cast
      ring
    have some : 0 < amount.decimals.length := List.length_pos_iff.mpr whole
    rw [amount.value_mul_of_unsigned zeros unsigned, truncated_natCast_div,
      scaled, Decimal.text_natCast, or_iff_right whole]
    split
    next zero =>
      rw [zero, scaledText_of_zero, Nat.zero_mul, Nat.zero_div]
      split
      next noDecimals => exact iff_of_true rfl (by omega)
      next decimals => exact iff_of_false (List.cons_ne_nil _ _).symm (by omega)
    next nonzero =>
      have positive := Nat.pos_of_ne_zero nonzero
      rw [scaledText_of_pos positive]
      constructor
      · intro same
        have equal := Decimal.toDigits_injective same
        by_contra more
        rw [Nat.sub_eq_zero_of_le (by omega), pow_zero, Nat.mul_one] at equal
        have smaller : amount.magnitude * 10 ^ zeros <
            amount.magnitude * 10 ^ amount.decimals.length :=
          Nat.mul_lt_mul_of_pos_left
            (Nat.pow_lt_pow_right (by decide) (by omega)) positive
        have less := Nat.div_lt_of_lt_mul
          (Nat.mul_comm _ (10 ^ amount.decimals.length) ▸ smaller)
        omega
      · intro enough
        refine congrArg _ ?_
        have split : 10 ^ zeros = 10 ^ (zeros - amount.decimals.length) *
            10 ^ amount.decimals.length := by
          rw [← pow_add, Nat.sub_add_cancel enough]
        rw [split, ← Nat.mul_assoc, Nat.mul_div_cancel _ (by positivity)]

/-- A quarter of a thousand. -/
def quarter : DecimalText :=
  ⟨.unsigned, [], some ['2', '5'], rfl, by rintro _ ⟨⟩; rfl⟩

theorem toPlanck_exact_quarter :
    toPlanck (.text (String.ofList quarter.text)) .kplanck =
      .ok (String.ofList (Decimal.text (truncated (quarter.value * 10 ^ 3)))) :=
  (quarter.toPlanck_exact_iff (by decide +kernel) rfl).mpr
    (.inr (by decide))

/-- One and a half of the smallest unit. -/
def oneAndHalf : DecimalText :=
  ⟨.unsigned, ['1'], some ['5'], rfl, by rintro _ ⟨⟩; rfl⟩

/-- The digit behind the point is not cut off. -/
theorem not_toPlanck_exact :
    isNumber (.text (String.ofList oneAndHalf.text)) = true ∧
      qrlUnitMap .planck = 10 ^ 0 ∧
        toPlanck (.text (String.ofList oneAndHalf.text)) .planck = .ok "15" ∧
          truncated (oneAndHalf.value * 10 ^ 0) = 1 := by
  refine ⟨by decide +kernel, rfl, by decide +kernel, by decide +kernel⟩

end DecimalText

end Web3Js.Utils
