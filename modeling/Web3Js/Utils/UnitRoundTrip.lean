import Web3Js.Utils.Scaling

/-!
# There and back between units

An integer is written in a larger unit by setting a point into its digits.  The
text is to denote the quotient, and is scaled back to the integer.
-/

namespace Web3Js.Utils

/-! ## Setting the point -/

/-- The digits before the point, with zeros in front where there are too
few. -/
def integerPart (digits : List Char) (zeros : Nat) : List Char :=
  let padded := padStart digits zeros
  padded.take (padded.length - zeros)

/-- The digits behind the point, without zeros at their end. -/
def fractionPart (digits : List Char) (zeros : Nat) : List Char :=
  let padded := padStart digits zeros
  (padded.drop (padded.length - zeros)).rdropWhile (· == '0')

theorem pointedText_eq (digits : List Char) (zeros : Nat) :
    pointedText digits zeros =
      if integerPart digits zeros = [] then
        '0' :: '.' :: fractionPart digits zeros
      else if fractionPart digits zeros = [] then integerPart digits zeros
      else integerPart digits zeros ++ '.' :: fractionPart digits zeros :=
  rfl

theorem length_padStart (digits : List Char) (zeros : Nat) :
    (padStart digits zeros).length = max zeros digits.length := by
  rw [padStart, List.length_append, List.length_replicate]
  omega

/-- Both parts together, with the zeros that were dropped. -/
theorem parts_append (digits : List Char) (zeros : Nat) :
    (fractionPart digits zeros).length ≤ zeros ∧
      padStart digits zeros =
        integerPart digits zeros ++ fractionPart digits zeros ++
          List.replicate (zeros - (fractionPart digits zeros).length) '0' := by
  have length : ((padStart digits zeros).drop
      ((padStart digits zeros).length - zeros)).length = zeros := by
    rw [List.length_drop, length_padStart]
    omega
  generalize raw : (padStart digits zeros).drop
    ((padStart digits zeros).length - zeros) = behind at length
  have fraction : fractionPart digits zeros =
      behind.rdropWhile (· == '0') := by rw [← raw]; rfl
  have shape : behind.rdropWhile (· == '0') ++ behind.rtakeWhile (· == '0') =
      behind := List.rdropWhile_append_rtakeWhile
  have allZero : behind.rtakeWhile (· == '0') =
      List.replicate (behind.rtakeWhile (· == '0')).length '0' :=
    List.eq_replicate_of_mem fun char member => by
      have zero := List.mem_rtakeWhile_imp member
      exact beq_iff_eq.mp zero
  have total := congrArg List.length shape
  rw [length, List.length_append, ← fraction] at total
  rw [allZero, ← fraction] at shape
  refine ⟨by omega, ?_⟩
  have dropped : zeros - (fractionPart digits zeros).length =
      (behind.rtakeWhile (· == '0')).length := by omega
  rw [List.append_assoc, dropped, shape, ← raw]
  exact (List.take_append_drop _ _).symm

theorem mem_padStart {digits : List Char} {zeros : Nat} {char : Char}
    (member : char ∈ padStart digits zeros) : char = '0' ∨ char ∈ digits := by
  rw [padStart, List.mem_append] at member
  exact member.imp_left List.eq_of_mem_replicate

theorem mem_parts {digits : List Char} {zeros : Nat} {char : Char}
    (member : char ∈ integerPart digits zeros ∨
      char ∈ fractionPart digits zeros) : char = '0' ∨ char ∈ digits := by
  apply @mem_padStart _ zeros
  rw [(parts_append digits zeros).2, List.append_assoc, List.mem_append,
    List.mem_append]
  exact member.imp_right .inl

theorem mem_pointedText {digits : List Char} {zeros : Nat} {char : Char}
    (member : char ∈ pointedText digits zeros) :
    char = '0' ∨ char = '.' ∨ char ∈ digits := by
  rw [pointedText_eq] at member
  split at member
  next =>
    rcases List.mem_cons.mp member with zero | member
    · exact .inl zero
    · rcases List.mem_cons.mp member with point | member
      · exact .inr (.inl point)
      · exact (mem_parts (.inr member)).imp_right .inr
  next =>
    split at member
    next => exact (mem_parts (.inl member)).imp_right .inr
    next =>
      rcases List.mem_append.mp member with member | member
      · exact (mem_parts (.inl member)).imp_right .inr
      · rcases List.mem_cons.mp member with point | member
        · exact .inr (.inl point)
        · exact (mem_parts (.inr member)).imp_right .inr

/-- Other characters than zeros are kept. -/
theorem pointedText_mem {digits : List Char} (zeros : Nat) {char : Char}
    (member : char ∈ digits) (nonzero : char ≠ '0') :
    char ∈ pointedText digits zeros := by
  have padded : char ∈ padStart digits zeros :=
    List.mem_append_right _ member
  rw [(parts_append digits zeros).2, List.append_assoc, List.mem_append,
    List.mem_append] at padded
  rw [pointedText_eq]
  have kept : char ∈ integerPart digits zeros ∨
      char ∈ fractionPart digits zeros := by
    rcases padded with integer | fraction | zero
    · exact .inl integer
    · exact .inr fraction
    · exact absurd (List.eq_of_mem_replicate zero) nonzero
  split
  next empty =>
    rw [empty] at kept
    refine List.mem_cons_of_mem _ (List.mem_cons_of_mem _ ?_)
    exact kept.resolve_left List.not_mem_nil
  next =>
    split
    next empty =>
      rw [empty] at kept
      exact kept.resolve_right List.not_mem_nil
    next =>
      exact List.mem_append.mpr (kept.imp_right (List.mem_cons_of_mem _))

theorem pointedText_whole {digits : List Char} (nonempty : digits ≠ []) :
    pointedText digits 0 = digits := by
  have padded : padStart digits 0 = digits := by
    rw [padStart, Nat.zero_sub, List.replicate_zero, List.nil_append]
  have front : integerPart digits 0 = digits := by
    rw [integerPart, padded, Nat.sub_zero, List.take_length]
  have behind : fractionPart digits 0 = [] := by
    rw [fractionPart, padded, Nat.sub_zero, List.drop_length,
      List.rdropWhile_nil]
  rw [pointedText_eq, front, behind, if_neg nonempty, if_pos rfl]

/-- A pointed text begins with a zero or as its digits do. -/
theorem head_pointedText {digits : List Char} {zeros : Nat} {first : Char}
    (head : (pointedText digits zeros).head? = some first) :
    first = '0' ∨ digits.head? = some first := by
  have padded : ∀ char, (padStart digits zeros).head? = some char →
      char = '0' ∨ digits.head? = some char := by
    intro char
    rw [padStart]
    cases zeros - digits.length with
    | zero => exact .inr
    | succ count =>
        intro same
        cases same
        exact .inl rfl
  have integer : ∀ rest, integerPart digits zeros ≠ [] →
      (integerPart digits zeros ++ rest).head? = some first →
        first = '0' ∨ digits.head? = some first := by
    intro rest nonempty same
    apply padded
    rw [(parts_append digits zeros).2, List.append_assoc,
      List.head?_append_of_ne_nil _ nonempty]
    rw [List.head?_append_of_ne_nil _ nonempty] at same
    exact same
  rw [pointedText_eq] at head
  split at head
  next =>
    cases head
    exact .inl rfl
  next nonempty =>
    split at head
    next =>
      refine integer [] nonempty ?_
      rw [List.append_nil]
      exact head
    next => exact integer _ nonempty head

/-! ## Texts that are not accepted -/

/-- A text with a foreign character behind its first one, and with a character
that is neither a digit nor a point, is not accepted. -/
theorem toPlanck_of_foreign {text : List Char} {inner other : Char}
    (visible : ∀ char ∈ text, isWhiteSpace char = false)
    (within : inner ∈ text.tail) (foreign : isForeign inner = true)
    (member : other ∈ text) (noNumber : isNumberChar other = false)
    (unit : QRLUnits) (result : String) :
    toPlanck (.text (String.ofList text)) unit ≠ .ok result := by
  obtain ⟨unread, noHex⟩ := readNumber_foreign visible within foreign
  have refused : isNumber (.text (String.ofList text)) = false := by
    have some : text.all isNumberChar = false :=
      List.all_eq_false.mpr ⟨other, member, by simp [noNumber]⟩
    rw [isNumber, Validator.isIntString, noHex, unread, String.toList_ofList,
      some]
    simp
  rw [toPlanck, if_pos refused]
  rintro ⟨⟩

/-! ## Well-formed numerals -/

namespace DecimalText

/-- At least one digit before the point, and behind it if there is one. -/
structure WellFormed (amount : DecimalText) : Prop where
  integer : amount.integer ≠ []
  fraction : amount.fraction ≠ some []

/-- A well-formed numeral ends with a digit. -/
theorem WellFormed.getLast_text {amount : DecimalText}
    (wellFormed : amount.WellFormed) {last : Char}
    (final : amount.text.getLast? = some last) : last.isDigit = true := by
  have digit : ∀ digits : List Char, digits.all Char.isDigit = true →
      digits.getLast? = some last → last.isDigit = true :=
    fun digits allDigits ends =>
      List.all_eq_true.mp allDigits last (List.mem_of_getLast? ends)
  rw [text] at final
  cases present : amount.fraction with
  | none =>
      rw [present, Option.elim_none, List.append_nil,
        List.getLast?_append_of_ne_nil _ wellFormed.integer] at final
      exact digit _ amount.isDigit_integer final
  | some digits =>
      have nonempty : digits ≠ [] := by
        rintro rfl
        exact wellFormed.fraction present
      obtain ⟨first, rest, rfl⟩ := List.exists_cons_of_ne_nil nonempty
      rw [present, Option.elim_some, List.getLast?_append_of_ne_nil _
        (List.cons_ne_nil _ _), List.getLast?_cons_cons] at final
      exact digit _ (amount.isDigit_fraction _ present) final

end DecimalText

/-- The text is a well-formed numeral of the number. -/
def Denotes (text : String) (number : ℚ) : Prop :=
  ∃ amount : DecimalText, amount.WellFormed ∧
    text = String.ofList amount.text ∧ amount.value = number

/-- Digits without a sign are accepted, if there is a digit or a point. -/
theorem DecimalText.accepted_of_unsigned {amount : DecimalText}
    (unsigned : amount.sign = .unsigned) (nonempty : amount.integer ≠ []) :
    isNumber (.text (String.ofList amount.text)) = true := by
  have chars : amount.text.all isNumberChar = true := by
    rw [List.all_eq_true]
    intro char member
    rcases amount.mem_text member with digit | point | sign
    · rw [isNumberChar, digit, Bool.true_or]
    · rw [point]
      decide
    · rw [unsigned] at sign
      cases sign
  have some : amount.text.any isNumberChar = true := by
    obtain ⟨digit, rest, same⟩ := List.exists_cons_of_ne_nil nonempty
    have member : digit ∈ amount.text := by
      rw [text, unsigned, same]
      exact List.mem_cons_self
    exact List.any_eq_true.mpr
      ⟨digit, member, List.all_eq_true.mp chars digit member⟩
  have pointless : ∀ digits : List Char, digits.all Char.isDigit = true →
      digits.count '.' = 0 := by
    intro digits allDigits
    rw [List.count_eq_zero]
    intro member
    cases List.all_eq_true.mp allDigits '.' member
  have once : amount.text.count '.' ≤ 1 := by
    rw [text, unsigned, List.count_append, List.count_append,
      pointless _ amount.isDigit_integer]
    cases present : amount.fraction with
    | none => decide
    | some digits =>
        change 0 + 0 + ('.' :: digits).count '.' ≤ 1
        rw [List.count_cons_self,
          pointless _ (amount.isDigit_fraction digits present)]
  rw [isNumber, String.toList_ofList, some, chars, decide_eq_true once]
  simp

/-! ## Numbers without a sign -/

/-- The amount that digits with a point are the text of. -/
def pointedAmount (digits : List Char)
    (allDigits : digits.all Char.isDigit = true) (zeros : Nat) :
    DecimalText where
  sign := .unsigned
  integer :=
    if integerPart digits zeros = [] then ['0'] else integerPart digits zeros
  fraction :=
    if integerPart digits zeros = [] then some (fractionPart digits zeros)
    else if fractionPart digits zeros = [] then none
    else some (fractionPart digits zeros)
  isDigit_integer := by
    rw [List.all_eq_true] at allDigits ⊢
    intro char member
    split at member
    next =>
      rw [List.mem_singleton.mp member]
      decide
    next =>
      rcases mem_parts (.inl member) with rfl | digit
      · decide
      · exact allDigits char digit
  isDigit_fraction := by
    have fraction : (fractionPart digits zeros).all Char.isDigit = true := by
      rw [List.all_eq_true] at allDigits ⊢
      intro char member
      rcases mem_parts (.inr member) with rfl | digit
      · decide
      · exact allDigits char digit
    intro behind same
    split at same
    next =>
      cases same
      exact fraction
    next =>
      split at same
      next => cases same
      next =>
        cases same
        exact fraction

section Unsigned

variable (digits : List Char) (allDigits : digits.all Char.isDigit = true)
  (zeros : Nat)

theorem integer_pointedAmount :
    (pointedAmount digits allDigits zeros).integer =
      if integerPart digits zeros = [] then ['0']
      else integerPart digits zeros :=
  rfl

theorem fraction_pointedAmount :
    (pointedAmount digits allDigits zeros).fraction =
      if integerPart digits zeros = [] then some (fractionPart digits zeros)
      else if fractionPart digits zeros = [] then none
      else some (fractionPart digits zeros) :=
  rfl

theorem integer_pointedAmount_ne_nil :
    (pointedAmount digits allDigits zeros).integer ≠ [] := by
  rw [integer_pointedAmount]
  split
  next => exact List.cons_ne_nil _ _
  next nonempty => exact nonempty

theorem text_pointedAmount :
    (pointedAmount digits allDigits zeros).text =
      pointedText digits zeros := by
  rw [pointedText_eq, DecimalText.text, pointedAmount]
  split
  next => rfl
  next =>
    split
    next => exact List.append_nil _
    next => rfl

theorem decimals_pointedAmount :
    (pointedAmount digits allDigits zeros).decimals =
      fractionPart digits zeros := by
  rw [DecimalText.decimals, fraction_pointedAmount]
  split
  next => rfl
  next =>
    split
    next empty => exact empty.symm
    next => rfl

theorem magnitude_pointedAmount :
    (pointedAmount digits allDigits zeros).magnitude *
        10 ^ (zeros - (fractionPart digits zeros).length) =
      Decimal.value digits := by
  have same : (pointedAmount digits allDigits zeros).magnitude =
      Decimal.value
        (integerPart digits zeros ++ fractionPart digits zeros) := by
    rw [DecimalText.magnitude, decimals_pointedAmount, integer_pointedAmount]
    split
    next empty =>
      rw [empty]
      exact Decimal.value_zeros_append 1 _
    next => rfl
  rw [same, ← Decimal.value_append_zeros, ← (parts_append digits zeros).2,
    padStart, Decimal.value_zeros_append]

theorem value_pointedAmount :
    (pointedAmount digits allDigits zeros).value =
      (Decimal.value digits : ℚ) / 10 ^ zeros := by
  have within := (parts_append digits zeros).1
  have places : 10 ^ zeros = 10 ^ (fractionPart digits zeros).length *
      10 ^ (zeros - (fractionPart digits zeros).length) := by
    rw [← pow_add, Nat.add_sub_cancel' within]
  rw [DecimalText.value, decimals_pointedAmount,
    ← magnitude_pointedAmount digits allDigits zeros]
  have scale : (10 : ℚ) ^ zeros = 10 ^ (fractionPart digits zeros).length *
      10 ^ (zeros - (fractionPart digits zeros).length) :=
    mod_cast places
  have nonzero : (10 : ℚ) ^ (zeros - (fractionPart digits zeros).length) ≠ 0 :=
    pow_ne_zero _ (by decide)
  rw [scale, Nat.cast_mul, Nat.cast_pow, Nat.cast_ofNat,
    mul_div_mul_right _ _ nonzero]
  change ((1 : Int) : ℚ) * _ / _ = _
  rw [Int.cast_one, one_mul]

theorem accepted_pointedAmount :
    isNumber (.text (String.ofList
      (pointedAmount digits allDigits zeros).text)) = true := by
  exact DecimalText.accepted_of_unsigned rfl
    (integer_pointedAmount_ne_nil digits allDigits zeros)

end Unsigned

/-- A positive number is denoted by its text, and is scaled back. -/
theorem pointedText_positive {unit : QRLUnits} {zeros number : Nat}
    (scale : qrlUnitMap unit = 10 ^ zeros) (positive : 0 < number) :
    Denotes (String.ofList (pointedText (Nat.toDigits 10 number) zeros))
        ((number : ℚ) / 10 ^ zeros) ∧
      toPlanck (.text (String.ofList
        (pointedText (Nat.toDigits 10 number) zeros))) unit =
          .ok (String.ofList (Nat.toDigits 10 number)) := by
  have allDigits : (Nat.toDigits 10 number).all Char.isDigit = true :=
    List.all_eq_true.mpr fun char => Decimal.isDigit_toDigits number
  have magnitude := magnitude_pointedAmount _ allDigits zeros
  rw [Decimal.value_toDigits] at magnitude
  rw [← text_pointedAmount _ allDigits]
  generalize amountIs : pointedAmount _ allDigits zeros = amount at magnitude ⊢
  have decimals := decimals_pointedAmount _ allDigits zeros
  rw [amountIs] at decimals
  rw [← decimals] at magnitude
  have nonzero : 0 < amount.magnitude := by
    rw [Nat.pos_iff_ne_zero]
    intro zero
    rw [zero, Nat.zero_mul] at magnitude
    omega
  constructor
  · refine ⟨amount, ⟨?_, ?_⟩, rfl, ?_⟩
    · rw [← amountIs]
      exact integer_pointedAmount_ne_nil _ allDigits zeros
    · intro pointless
      have integer : amount.integer = ['0'] := by
        rw [← amountIs] at pointless ⊢
        rw [fraction_pointedAmount] at pointless
        rw [integer_pointedAmount]
        split at pointless
        next empty => exact if_pos empty
        next =>
          split at pointless
          next => cases pointless
          next other => exact absurd (Option.some.inj pointless) other
      rw [DecimalText.magnitude, integer, DecimalText.decimals,
        pointless] at nonzero
      exact absurd nonzero (by decide)
    · rw [← amountIs, value_pointedAmount, Decimal.value_toDigits]
  · have accepted := accepted_pointedAmount _ allDigits zeros
    rw [amountIs] at accepted
    have scaled : amount.sign.factor * amount.magnitude * 10 ^ zeros =
        ((amount.magnitude * 10 ^ zeros : Nat) : Int) := by
      rw [← amountIs]
      change (1 : Int) * _ * _ = _
      push_cast
      ring
    rw [amount.toPlanck_text accepted scale, scaled,
      scaledText_of_pos nonzero, magnitude]

/-- The text of zero ends with its point, unless there is no place behind
it. -/
theorem pointedText_zero (zeros : Nat) :
    pointedText ['0'] zeros = if zeros = 0 then ['0'] else ['0', '.'] := by
  cases zeros with
  | zero => rfl
  | succ zeros =>
      have padded : padStart ['0'] (zeros + 1) =
          List.replicate (zeros + 1) '0' := by
        rw [padStart, List.replicate_succ']
        rfl
      have front : integerPart ['0'] (zeros + 1) = [] := by
        rw [integerPart, padded, List.length_replicate, Nat.sub_self,
          List.take_zero]
      have behind : fractionPart ['0'] (zeros + 1) = [] := by
        rw [fractionPart, padded, List.length_replicate, Nat.sub_self,
          List.drop_zero, List.rdropWhile_eq_nil_iff]
        intro char member
        rw [List.eq_of_mem_replicate member]
        rfl
      rw [pointedText_eq, front, behind]
      rfl

theorem toPlanck_zero {unit : QRLUnits} {zeros : Nat}
    (scale : qrlUnitMap unit = 10 ^ zeros) :
    toPlanck (.text (String.ofList (pointedText ['0'] zeros))) unit =
      .ok (String.ofList ['0']) := by
  have allDigits : ['0'].all Char.isDigit = true := rfl
  have accepted := accepted_pointedAmount _ allDigits zeros
  have whole : (pointedAmount _ allDigits zeros).decimals = [] := by
    rw [decimals_pointedAmount, fractionPart, List.rdropWhile_eq_nil_iff]
    intro char member
    rcases mem_padStart (List.mem_of_mem_drop member) with rfl | member
    · rfl
    · rw [List.mem_singleton.mp member]
      rfl
  have magnitude := magnitude_pointedAmount _ allDigits zeros
  have zero : (pointedAmount _ allDigits zeros).magnitude = 0 := by
    rcases Nat.mul_eq_zero.mp magnitude with zero | power
    · exact zero
    · exact absurd power (by positivity)
  have scaled := DecimalText.toPlanck_text _ accepted scale
  rw [whole, zero, List.length_nil, scaledText_zero, text_pointedAmount,
    Nat.cast_zero, Int.mul_zero, Int.zero_mul] at scaled
  exact scaled

/-! ## Negative numbers -/

/-- The numeral of a negative integer. -/
def negativeAmount (number : Nat) : DecimalText where
  sign := .minus
  integer := Nat.toDigits 10 number
  fraction := none
  isDigit_integer :=
    List.all_eq_true.mpr fun _ => Decimal.isDigit_toDigits number
  isDigit_fraction := nofun

theorem accepted_negativeAmount (number : Nat) :
    isNumber (.text (String.ofList (negativeAmount number).text)) =
      decide (number ≤ 2 ^ 511) := by
  have shape : (negativeAmount number).text =
      '-' :: Nat.toDigits 10 number := List.append_nil _
  have signed : (negativeAmount number).text.all isNumberChar = false := by
    rw [shape]
    rfl
  have noHex := (negativeAmount number).isHexStrict_text
  have read : bigIntOfString (String.ofList (negativeAmount number).text) =
      some (-(number : Int)) := by
    have allDigits : (Nat.toDigits 10 number).all Char.isDigit = true :=
      (negativeAmount number).isDigit_integer
    rw [shape, bigIntOfString_negative allDigits, if_neg Nat.toDigits_ne_nil,
      Decimal.value_toDigits]
  rw [isNumber, Validator.isIntString, noHex, read, String.toList_ofList,
    signed, Bool.and_false, Bool.false_and, Bool.or_false]
  refine decide_eq_decide.mpr ?_
  omega

/-- A negative multiple of the scale is divided exactly. -/
theorem pointedText_multiple {number : Nat} (positive : 0 < number)
    (zeros : Nat) :
    pointedText (Decimal.text (-(number * 10 ^ zeros : Nat))) zeros =
      (negativeAmount number).text := by
  have scaled : 0 < number * 10 ^ zeros := by positivity
  have digits : Decimal.text (-(number * 10 ^ zeros : Nat)) =
      '-' :: Nat.toDigits 10 number ++ List.replicate zeros '0' := by
    rw [Decimal.text_of_neg (by omega), Int.natAbs_neg, Int.natAbs_natCast,
      Decimal.toDigits_mul_pow positive]
    rfl
  have padded : padStart (Decimal.text (-(number * 10 ^ zeros : Nat))) zeros =
      '-' :: Nat.toDigits 10 number ++ List.replicate zeros '0' := by
    rw [padStart, digits, List.length_append, List.length_replicate,
      Nat.sub_eq_zero_of_le (by omega)]
    rfl
  have front : integerPart (Decimal.text (-(number * 10 ^ zeros : Nat)))
      zeros = '-' :: Nat.toDigits 10 number := by
    rw [integerPart, padded, List.length_append, List.length_replicate,
      Nat.add_sub_cancel, List.take_left]
  have behind : fractionPart (Decimal.text (-(number * 10 ^ zeros : Nat)))
      zeros = [] := by
    rw [fractionPart, padded, List.length_append, List.length_replicate,
      Nat.add_sub_cancel, List.drop_left, List.rdropWhile_eq_nil_iff]
    intro char member
    rw [List.eq_of_mem_replicate member]
    rfl
  rw [pointedText_eq, front, behind]
  exact (List.append_nil _).symm

/-- Another negative number gets a point behind its sign. -/
theorem point_mem_of_not_dvd {number : Int} (negative : number < 0)
    {zeros : Nat} (indivisible : ¬(10 ^ zeros : Int) ∣ number) :
    '.' ∈ (pointedText (Decimal.text number) zeros).tail := by
  rw [pointedText_eq]
  split
  next => exact List.mem_cons_self
  next nonempty =>
    obtain ⟨first, rest, same⟩ := List.exists_cons_of_ne_nil nonempty
    split
    next empty =>
      exfalso
      apply indivisible
      have shape := (parts_append (Decimal.text number) zeros).2
      have length := length_padStart (Decimal.text number) zeros
      rw [empty, List.length_nil, Nat.sub_zero, List.append_nil, same] at shape
      have unpadded : padStart (Decimal.text number) zeros =
          Decimal.text number := by
        rw [padStart, Nat.sub_eq_zero_of_le, List.replicate_zero,
          List.nil_append]
        rw [shape, List.length_append, List.length_replicate,
          List.length_cons] at length
        omega
      rw [unpadded, Decimal.text_of_neg negative] at shape
      have digits := congrArg Decimal.value (List.cons.inj shape).2
      change _ = Decimal.value (rest ++ List.replicate zeros '0') at digits
      rw [Decimal.value_toDigits, Decimal.value_append_zeros] at digits
      refine ⟨-(Decimal.value rest : Int), ?_⟩
      have back : number = -(number.natAbs : Int) := by omega
      rw [back, digits]
      push_cast
      ring
    next =>
      rw [same]
      exact List.mem_append_right _ List.mem_cons_self

/-- The sign of a negative number is kept. -/
theorem sign_mem {number : Int} (negative : number < 0) (zeros : Nat) :
    '-' ∈ pointedText (Decimal.text number) zeros := by
  apply pointedText_mem zeros _ (by decide)
  rw [Decimal.text_of_neg negative]
  exact List.mem_cons_self

theorem visible_of_digit_or_sign {digits : List Char} {zeros : Nat}
    (visible : ∀ char ∈ digits, isWhiteSpace char = false) :
    ∀ char ∈ pointedText digits zeros, isWhiteSpace char = false := by
  intro char member
  rcases mem_pointedText member with rfl | rfl | digit
  · decide
  · decide
  · exact visible char digit

theorem visible_text (number : Int) :
    ∀ char ∈ Decimal.text number, isWhiteSpace char = false := by
  intro char member
  rw [Decimal.text] at member
  split at member
  next =>
    rcases List.mem_cons.mp member with rfl | digit
    · decide
    · exact isWhiteSpace_of_isDigit (Decimal.isDigit_toDigits _ digit)
  next => exact isWhiteSpace_of_isDigit (Decimal.isDigit_toDigits _ member)

/-! ## Exact texts of integers -/

/-- The integers that are written as numerals that are accepted again. -/
def Divides (number : Int) (zeros : Nat) : Prop :=
  0 < number ∨ (number = 0 ∧ zeros = 0) ∨
    (number < 0 ∧ (10 ^ zeros : Int) ∣ number ∧
      -2 ^ 511 ≤ number / 10 ^ zeros)

theorem exists_multiple {number : Int} {zeros : Nat} (negative : number < 0)
    (divisible : (10 ^ zeros : Int) ∣ number) :
    ∃ quotient : Nat, 0 < quotient ∧
      number = -((quotient * 10 ^ zeros : Nat) : Int) ∧
        number / 10 ^ zeros = -(quotient : Int) := by
  obtain ⟨quotient, rfl⟩ := divisible
  have scale : (0 : Int) < 10 ^ zeros := by positivity
  have smaller : quotient < 0 := by
    by_contra least
    have product : 0 ≤ 10 ^ zeros * quotient :=
      Int.mul_nonneg scale.le (by omega)
    omega
  obtain ⟨natural, rfl⟩ := Int.exists_eq_neg_ofNat smaller.le
  refine ⟨natural, by omega, ?_, Int.mul_ediv_cancel_left _ scale.ne'⟩
  push_cast
  ring

/-- The numeral of a negative quotient is scaled back where it is accepted. -/
theorem toPlanck_negativeAmount {unit : QRLUnits} {zeros quotient : Nat}
    (scale : qrlUnitMap unit = 10 ^ zeros)
    (accepted : quotient ≤ 2 ^ 511) :
    toPlanck (.text (String.ofList (negativeAmount quotient).text)) unit =
      .ok (String.ofList
        (Decimal.text (-((quotient * 10 ^ zeros : Nat) : Int)))) := by
  have whole : (negativeAmount quotient).decimals = [] := rfl
  have product : (negativeAmount quotient).sign.factor *
      (negativeAmount quotient).magnitude * 10 ^ zeros =
        -((quotient * 10 ^ zeros : Nat) : Int) := by
    rw [DecimalText.magnitude, whole, List.append_nil]
    change (-1 : Int) * (Decimal.value (Nat.toDigits 10 _) : Int) * _ = _
    rw [Decimal.value_toDigits]
    push_cast
    ring
  have valid : isNumber (.text (String.ofList
      (negativeAmount quotient).text)) = true := by
    rw [accepted_negativeAmount, decide_eq_true accepted]
  rw [(negativeAmount quotient).toPlanck_text valid scale, whole, product,
    List.length_nil, scaledText_zero]

/-- What a text is scaled back to, if it is, is the integer of its digits. -/
theorem toPlanck_pointedText {unit : QRLUnits} {zeros : Nat} {number : Int}
    (scale : qrlUnitMap unit = 10 ^ zeros) {result : String}
    (scaled : toPlanck (.text (String.ofList
      (pointedText (Decimal.text number) zeros))) unit = .ok result) :
    result = String.ofList (Decimal.text number) ∧
      (number < 0 → Divides number zeros) := by
  rcases lt_trichotomy number 0 with negative | rfl | positive
  · by_cases divisible : (10 ^ zeros : Int) ∣ number
    · obtain ⟨quotient, positive, multiple, divided⟩ :=
        exists_multiple negative divisible
      have pointed := pointedText_multiple positive zeros
      rw [← multiple] at pointed
      rw [pointed] at scaled
      have accepted : quotient ≤ 2 ^ 511 := by
        by_contra beyond
        have refused := accepted_negativeAmount quotient
        rw [decide_eq_false beyond] at refused
        rw [toPlanck, if_pos refused] at scaled
        cases scaled
      rw [toPlanck_negativeAmount scale accepted, ← multiple] at scaled
      refine ⟨(Except.ok.inj scaled).symm, fun _ => .inr (.inr ?_)⟩
      refine ⟨negative, divisible, ?_⟩
      rw [divided]
      omega
    · have point := point_mem_of_not_dvd negative divisible
      exact absurd scaled (toPlanck_of_foreign
        (visible_of_digit_or_sign (visible_text number)) point (by decide)
        (sign_mem negative zeros) (by decide) unit result)
  · have zero : Decimal.text 0 = ['0'] := rfl
    rw [zero, toPlanck_zero scale] at scaled
    exact ⟨(Except.ok.inj scaled).symm, fun negative => by omega⟩
  · obtain ⟨natural, rfl⟩ := Int.eq_ofNat_of_zero_le positive.le
    rw [Decimal.text_natCast] at scaled ⊢
    rw [(pointedText_positive scale (by omega)).2] at scaled
    exact ⟨(Except.ok.inj scaled).symm, fun negative => by omega⟩

theorem not_denotes_zero {zeros : Nat} (some : zeros ≠ 0) (number : ℚ) :
    ¬Denotes (String.ofList (pointedText ['0'] zeros)) number := by
  rintro ⟨amount, wellFormed, same, -⟩
  rw [pointedText_zero, if_neg some, String.ofList_inj] at same
  have final : amount.text.getLast? = Option.some '.' := by
    rw [← same]
    rfl
  cases wellFormed.getLast_text final

/-- The text of an integer in a larger unit is a numeral of the quotient and is
scaled back exactly for positive integers, for zero where no digits are behind
the point, and for negative multiples of the scale in the integer type. -/
theorem pointedText_roundTrip_iff {unit : QRLUnits} {zeros : Nat}
    {number : Int} (scale : qrlUnitMap unit = 10 ^ zeros) :
    Denotes (String.ofList (pointedText (Decimal.text number) zeros))
          ((number : ℚ) / 10 ^ zeros) ∧
        toPlanck (.text (String.ofList
          (pointedText (Decimal.text number) zeros))) unit =
            .ok (String.ofList (Decimal.text number)) ↔
      Divides number zeros := by
  constructor
  · rintro ⟨denoted, scaled⟩
    rcases lt_trichotomy number 0 with negative | rfl | positive
    · exact (toPlanck_pointedText scale scaled).2 negative
    · by_contra other
      exact not_denotes_zero
        (fun none => other (.inr (.inl ⟨rfl, none⟩))) _ denoted
    · exact .inl positive
  · rintro (positive | ⟨rfl, rfl⟩ | ⟨negative, divisible, bounded⟩)
    · obtain ⟨natural, rfl⟩ := Int.eq_ofNat_of_zero_le positive.le
      rw [Decimal.text_natCast]
      exact pointedText_positive scale (by omega)
    · have allDigits : ['0'].all Char.isDigit = true := rfl
      refine ⟨⟨pointedAmount _ allDigits 0, ⟨?_, nofun⟩, rfl, ?_⟩,
        toPlanck_zero scale⟩
      · exact integer_pointedAmount_ne_nil _ allDigits 0
      · rw [value_pointedAmount]
        rfl
    · obtain ⟨quotient, positive, multiple, divided⟩ :=
        exists_multiple negative divisible
      rw [divided] at bounded
      have pointed := pointedText_multiple positive zeros
      rw [multiple, pointed]
      refine ⟨⟨negativeAmount quotient, ⟨Nat.toDigits_ne_nil, nofun⟩, rfl, ?_⟩,
        toPlanck_negativeAmount scale (by omega)⟩
      have whole : (negativeAmount quotient).decimals = [] := rfl
      rw [DecimalText.value, DecimalText.magnitude, whole, List.append_nil]
      change ((-1 : Int) : ℚ) * (Decimal.value (Nat.toDigits 10 _) : ℚ) / 1 = _
      rw [Decimal.value_toDigits]
      push_cast
      field_simp

/-! ## Integers as they are given -/

/-- The text that a point is set into is the numeral of the integer, unless
the integer is given as a number. -/
theorem fromPlanck_eq {given : Numbers} {unit : QRLUnits} {number : Int}
    {zeros : Nat} (denotes : integer? given = some number)
    (scale : qrlUnitMap unit = 10 ^ zeros) :
    ∃ digits, fromPlanck given unit =
        .ok (String.ofList (pointedText digits zeros)) ∧
      (digits = Decimal.text number ∧ given ≠ .number number ∨
        given = .number number ∧ digits = numberText number) := by
  have supported : qrlUnitMap unit ≠ 0 := by
    rw [scale]
    positivity
  have pointed (digits : List Char) (nonempty : digits ≠ [])
      (read : shownNumber given = .ok (String.ofList digits)) :
      fromPlanck given unit =
        .ok (String.ofList (pointedText digits zeros)) := by
    rw [fromPlanck, if_neg supported, read, Outcome.ok_bind, scale,
      numberOfZeros_pow, String.toList_ofList]
    dsimp only
    split
    next none => rw [none, pointedText_whole nonempty]
    next => rfl
  have nonempty := Decimal.text_ne_nil number
  cases given with
  | number value =>
      obtain rfl : value = number := Option.some.inj denotes
      exact ⟨_, pointed _ (numberText_ne_nil value) rfl, .inr ⟨rfl, rfl⟩⟩
  | bigint value =>
      obtain rfl : value = number := Option.some.inj denotes
      exact ⟨_, pointed _ nonempty rfl, .inl ⟨rfl, nofun⟩⟩
  | fraction shown => nomatch denotes
  | text content =>
      change readNumber content = some number at denotes
      refine ⟨_, pointed _ nonempty ?_, .inl ⟨rfl, nofun⟩⟩
      rw [shownNumber, toNumber, denotes]
      rfl

/-- The integer is written in the unit as a numeral of its quotient, and is
scaled back to its own numeral. -/
def RoundTrips (given : Numbers) (number : Int) (unit : QRLUnits)
    (zeros : Nat) : Prop :=
  ∃ shown, fromPlanck given unit = .ok shown ∧
    Denotes shown ((number : ℚ) / 10 ^ zeros) ∧
      toPlanck (.text shown) unit = .ok (String.ofList (Decimal.text number))

/-- Conversion to a unit and back works exactly for an integer that is positive,
zero of the smallest unit, or a negative multiple of the scale whose quotient
is in the integer type, as far as it is not given as a number that is written
in another way than its decimal digits. -/
theorem roundTrips_iff {given : Numbers} {unit : QRLUnits} {number : Int}
    {zeros : Nat} (denotes : integer? given = some number)
    (scale : qrlUnitMap unit = 10 ^ zeros) :
    RoundTrips given number unit zeros ↔
      (given = .number number → numberText number = Decimal.text number) ∧
        Divides number zeros := by
  obtain ⟨digits, written, shown⟩ := fromPlanck_eq denotes scale
  have exactly (same : digits = Decimal.text number) :
      RoundTrips given number unit zeros ↔ Divides number zeros := by
    rw [← pointedText_roundTrip_iff scale, ← same]
    constructor
    · rintro ⟨text, texts, denoted, scaled⟩
      obtain rfl : _ = text := Except.ok.inj (written.symm.trans texts)
      rw [← same] at scaled
      exact ⟨denoted, scaled⟩
    · rintro ⟨denoted, scaled⟩
      rw [same] at scaled
      refine ⟨_, written, denoted, ?_⟩
      rw [same]
      exact scaled
  rcases shown with ⟨same, other⟩ | ⟨asNumber, same⟩
  · rw [exactly same]
    exact (and_iff_right fun asNumber => absurd asNumber other).symm
  · by_cases exact' : numberText number = Decimal.text number
    · rw [exactly (same.trans exact')]
      exact (and_iff_right fun _ => exact').symm
    · refine iff_of_false ?_ fun ⟨shape, _⟩ => exact' (shape asNumber)
      rintro ⟨text, texts, -, scaled⟩
      obtain rfl : _ = text := Except.ok.inj (written.symm.trans texts)
      rw [same] at scaled
      rcases numberText_spec number with
        ⟨wrong, texts, -⟩ | ⟨⟨plus, head⟩, plain⟩
      · rw [texts] at scaled
        have back := (toPlanck_pointedText scale scaled).1
        rw [String.ofList_inj] at back
        exact exact' (texts.trans back.symm)
      · have member := pointedText_mem zeros plus (by decide)
        have behind : '+' ∈ (pointedText (numberText number) zeros).tail := by
          cases text : pointedText (numberText number) zeros with
          | nil =>
              rw [text] at member
              cases member
          | cons first rest =>
              rw [text] at member
              refine (List.mem_cons.mp member).resolve_left ?_
              rintro rfl
              have first := congrArg List.head? text
              rcases head_pointedText first with zero | front
              · cases zero
              · exact head front
        exact toPlanck_of_foreign (visible_of_digit_or_sign plain) behind
          (by decide) member (by decide) unit _ scaled

theorem roundTrips_minusTwoThousand :
    RoundTrips (.number (-2000)) (-2000) .kplanck 3 :=
  (roundTrips_iff rfl rfl).mpr ⟨fun _ => by decide,
    .inr (.inr ⟨by decide, by decide, by decide +kernel⟩)⟩

/-- Zero is written with a point and no digit behind it, and a negative fraction
with its sign behind the point. -/
theorem not_roundTrips :
    qrlUnitMap .quanta = 10 ^ 18 ∧
      fromPlanck (.number 0) .quanta = .ok "0." ∧
        fromPlanck (.number (-5)) .kplanck = .ok "0.0-5" ∧
          ¬RoundTrips (.number 0) 0 .quanta 18 ∧
            ¬RoundTrips (.number (-5)) (-5) .kplanck 3 := by
  refine ⟨rfl, by decide +kernel, by decide +kernel, ?_, ?_⟩
  · rintro ⟨shown, written, denoted, -⟩
    have zero : fromPlanck (.number 0) .quanta =
        .ok (String.ofList (pointedText ['0'] 18)) := by decide +kernel
    obtain rfl := Except.ok.inj (zero.symm.trans written)
    exact not_denotes_zero (by decide) _ denoted
  · rintro ⟨shown, written, -, scaled⟩
    have five : fromPlanck (.number (-5)) .kplanck = .ok "0.0-5" := by
      decide +kernel
    obtain rfl := Except.ok.inj (five.symm.trans written)
    have refused : isNumber (.text "0.0-5") = false := by decide +kernel
    rw [toPlanck, if_pos refused] at scaled
    cases scaled

end Web3Js.Utils
