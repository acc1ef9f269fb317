import Mathlib.Data.Nat.Log
import Web3Js.Utils.Units

/-!
# Two's complement

A negative integer is written as the hexadecimal digits of its complement, and
digits are read as negative where the largest bit is that of the width.  The
bits are counted by a logarithm of the nearest double.
-/

namespace Web3Js.Utils

/-- The message of a `NibbleWidthError`. -/
def nibbleWidthProblem (value : String) : String :=
  invalidValue value "value greater than the nibble width"

/-- `toTwosComplement` -/
def toTwosComplement (value : Numbers) (nibbleWidth : Nat) :
    Except String String :=
  if isInt value = false then .error (validationMessage "int" (shown value))
  else
    match integer? value with
    | none => .error (validationMessage "int" (shown value))
    | some val =>
        if 0 ≤ val then .ok (padLeft (numberToHex val) nibbleWidth)
        else
          let largestBit : Int := 2 ^ (nibbleWidth * 4)
          if largestBit ≤ -val then
            .error (nibbleWidthProblem ("value: " ++ shown value ++
              ", nibbleWidth: " ++ toString nibbleWidth))
          else .ok (padLeft (numberToHex (val + largestBit)) nibbleWidth)

/-- `fromTwosComplement`, with the exact logarithm of the double that the value
is converted to. -/
def fromTwosComplement (value : Numbers) (nibbleWidth : Nat) :
    Except String Int :=
  let problem := nibbleWidthProblem ("value: \"" ++ shown value ++
    "\", nibbleWidth: \"" ++ toString nibbleWidth ++ "\"")
  if isInt value = false then .error (validationMessage "int" (shown value))
  else
    match integer? value with
    | none => .error (validationMessage "int" (shown value))
    | some val =>
        if val < 0 then .ok val
        -- The logarithm of zero is below every width.
        else if val = 0 then .ok val
        else
          match (Double.nearest val.toNat).map (Nat.clog 2) with
          | none => .error problem
          | some largestBit =>
              if nibbleWidth * 4 < largestBit then .error problem
              else if nibbleWidth * 4 ≠ largestBit then .ok val
              else .ok (val - 2 ^ (nibbleWidth * 4))

/-- The integers of a width. -/
def InRange (number : Int) (nibbleWidth : Nat) : Prop :=
  -2 ^ (4 * nibbleWidth - 1) ≤ number ∧ number < 2 ^ (4 * nibbleWidth - 1)

instance (number : Int) (nibbleWidth : Nat) :
    Decidable (InRange number nibbleWidth) :=
  inferInstanceAs (Decidable (_ ∧ _))

/-! ## Hexadecimal words -/

/-- The digits of a number, with zeros in front. -/
def wordDigits (number nibbleWidth : Nat) : List Char :=
  padStart (Hex.digits number) nibbleWidth

theorem padLeft_numberToHex (number nibbleWidth : Nat) :
    padLeft (numberToHex number) nibbleWidth =
      String.ofList ('0' :: 'x' :: wordDigits number nibbleWidth) := by
  obtain ⟨strict, -, -⟩ := hexToNumber_numberToHex number
  rw [padLeft, if_pos strict, numberToHex_natCast, String.toList_ofList]
  rfl

theorem isDigit_wordDigits (number nibbleWidth : Nat) :
    (wordDigits number nibbleWidth).all Hex.isDigit = true := by
  have zeros : ∀ count : Nat,
      (List.replicate count '0').all Hex.isDigit = true := by
    intro count
    rw [List.all_eq_true]
    intro char member
    rw [List.eq_of_mem_replicate member]
    decide
  rw [wordDigits, padStart, List.all_append, zeros, Hex.isDigit_digits]
  rfl

theorem numeral_wordDigits (number nibbleWidth : Nat) :
    Hex.numeral (wordDigits number nibbleWidth) = number := by
  rw [wordDigits, padStart, Hex.numeral_zeros_append, Hex.numeral_digits]

theorem length_wordDigits {number nibbleWidth : Nat} (some : 0 < nibbleWidth)
    (small : number < 16 ^ nibbleWidth) :
    (wordDigits number nibbleWidth).length = nibbleWidth := by
  have short : (Hex.digits number).length ≤ nibbleWidth :=
    (Nat.length_toDigits_le_iff (by decide) some).mpr small
  rw [wordDigits, padStart, List.length_append, List.length_replicate]
  omega

/-- A word is read as its number. -/
theorem integer?_word (number nibbleWidth : Nat) :
    integer? (.text (String.ofList
      ('0' :: 'x' :: wordDigits number nibbleWidth))) = some (number : Int) ∧
      Validator.isHexStrict (String.ofList
        ('0' :: 'x' :: wordDigits number nibbleWidth)) = true := by
  have allDigits := isDigit_wordDigits number nibbleWidth
  have nonempty : wordDigits number nibbleWidth ≠ [] := by
    rw [wordDigits, padStart]
    exact List.append_ne_nil_of_right_ne_nil _ (digits_ne_nil number)
  have strict : Validator.isHexStrict (String.ofList
      ('0' :: 'x' :: wordDigits number nibbleWidth)) = true := by
    simp [Validator.isHexStrict, allDigits]
  refine ⟨?_, strict⟩
  change readNumber _ = _
  rw [readNumber, if_pos strict, Validator.hexToNumber, String.toList_ofList]
  change (parseDigits 16 (wordDigits number nibbleWidth)).map Int.ofNat = _
  rw [parseDigits_hex nonempty allDigits, numeral_wordDigits]
  rfl

theorem isInt_text {content : String} {number : Int}
    (read : integer? (.text content) = some number) :
    isInt (.text content) =
      decide (-2 ^ 511 ≤ number ∧ number ≤ 2 ^ 511 - 1) := by
  change readNumber content = some number at read
  rw [readNumber] at read
  rw [isInt, Validator.isIntString, read]

/-- The logarithm of a double between two powers of two, rounded up. -/
theorem clog_between {double exponent : Nat} (low : 2 ^ exponent ≤ double)
    (high : double ≤ 2 ^ (exponent + 1)) :
    Nat.clog 2 double =
      if double = 2 ^ exponent then exponent else exponent + 1 := by
  split
  next same => rw [same, Nat.clog_pow 2 exponent (by decide)]
  next other =>
    have least := (Nat.lt_clog_iff_pow_lt (by decide : 1 < 2)).mpr
      (Nat.lt_of_le_of_ne low (Ne.symm other))
    have most := (Nat.clog_le_iff_le_pow (by decide : 1 < 2)).mpr high
    omega

/-! ## Reading a word -/

section Word

variable {number nibbleWidth : Nat}

theorem fromTwosComplement_zero :
    fromTwosComplement (.text (String.ofList
      ('0' :: 'x' :: wordDigits 0 nibbleWidth))) nibbleWidth = .ok 0 := by
  have read := (integer?_word 0 nibbleWidth).1
  have valid := isInt_text read
  rw [decide_eq_true (by decide +kernel)] at valid
  rw [fromTwosComplement, if_neg (ne_false_of_eq_true valid), read]
  rfl

/-- A word of an integer that is between two powers of two. -/
theorem fromTwosComplement_between {exponent : Nat}
    (low : 2 ^ exponent ≤ number) (high : number < 2 ^ (exponent + 1))
    (bounded : exponent < 511) (fits : exponent < nibbleWidth * 4) :
    fromTwosComplement (.text (String.ofList
      ('0' :: 'x' :: wordDigits number nibbleWidth))) nibbleWidth =
        .ok (if nibbleWidth * 4 = exponent + 1 ∧
            2 ^ exponent + 2 ^ exponent / 2 ^ 53 < number then
          number - 2 ^ (nibbleWidth * 4) else number) := by
  have read := (integer?_word number nibbleWidth).1
  have valid := isInt_text read
  have limit : 2 ^ (exponent + 1) ≤ 2 ^ 511 :=
    pow_le_pow_right₀ one_le_two bounded
  have positive : 0 < 2 ^ exponent := Nat.pow_pos (by decide)
  rw [decide_eq_true (by omega)] at valid
  obtain ⟨double, nearest, least, most, first⟩ :=
    Double.nearest_between low high (by omega)
  rw [fromTwosComplement, if_neg (ne_false_of_eq_true valid), read]
  dsimp only
  rw [if_neg (by omega), if_neg (by omega), Int.toNat_natCast, nearest]
  simp only [Option.map_some, clog_between least most, first]
  split
  next near =>
    rw [if_neg (by omega), if_pos (by omega), if_neg (by omega)]
  next far =>
    rw [if_neg (by omega)]
    split
    next other => rw [if_neg (by omega)]
    next same => rw [if_pos (by omega)]

end Word

/-! ## There and back -/

/-- The integer is written as a word of its remainder, which is read as the
integer. -/
def Represented (given : Numbers) (number : Int) (nibbleWidth : Nat) : Prop :=
  ∃ digits : List Char,
    toTwosComplement given nibbleWidth =
        .ok (String.ofList ('0' :: 'x' :: digits)) ∧
      (digits.length = nibbleWidth ∧ digits.all Hex.isDigit = true) ∧
        (Hex.numeral digits : Int) = number % 2 ^ (4 * nibbleWidth) ∧
          fromTwosComplement (.text (String.ofList ('0' :: 'x' :: digits)))
            nibbleWidth = .ok number

/-- Integers of the width are represented and all others refused. -/
def Complements (given : Numbers) (number : Int) (nibbleWidth : Nat) : Prop :=
  if InRange number nibbleWidth then Represented given number nibbleWidth
  else ∃ problem, toTwosComplement given nibbleWidth = .error problem

variable {given : Numbers} {number : Int} {nibbleWidth : Nat}

theorem toTwosComplement_invalid (invalid : isInt given = false) :
    toTwosComplement given nibbleWidth =
      .error (validationMessage "int" (shown given)) := by
  rw [toTwosComplement, if_pos invalid]

theorem toTwosComplement_natCast {natural : Nat}
    (denotes : integer? given = some (natural : Int))
    (valid : isInt given = true) :
    toTwosComplement given nibbleWidth =
      .ok (String.ofList ('0' :: 'x' :: wordDigits natural nibbleWidth)) := by
  rw [toTwosComplement, if_neg (ne_false_of_eq_true valid), denotes]
  dsimp only
  rw [if_pos (Int.natCast_nonneg natural), padLeft_numberToHex]

/-- A negative integer becomes the word of its complement, if there is one. -/
theorem toTwosComplement_of_neg {complement : Nat}
    (denotes : integer? given = some number) (valid : isInt given = true)
    (negative : number < 0)
    (sum : (complement : Int) = number + 2 ^ (nibbleWidth * 4))
    (some : complement ≠ 0) :
    toTwosComplement given nibbleWidth =
      .ok (String.ofList
        ('0' :: 'x' :: wordDigits complement nibbleWidth)) := by
  rw [toTwosComplement, if_neg (ne_false_of_eq_true valid), denotes]
  dsimp only
  rw [if_neg (by omega), if_neg (by omega), ← sum, padLeft_numberToHex]

theorem toTwosComplement_low (denotes : integer? given = some number)
    (valid : isInt given = true) (low : number ≤ -2 ^ (nibbleWidth * 4)) :
    ∃ problem, toTwosComplement given nibbleWidth = .error problem := by
  have positive : (0 : Int) < 2 ^ (nibbleWidth * 4) := by positivity
  rw [toTwosComplement, if_neg (ne_false_of_eq_true valid), denotes]
  dsimp only
  rw [if_neg (by omega), if_pos (by omega)]
  exact ⟨_, rfl⟩

/-- What is represented is the word of the remainder. -/
theorem represented_iff {natural : Nat} (positive : 0 < nibbleWidth)
    (written : toTwosComplement given nibbleWidth =
      .ok (String.ofList ('0' :: 'x' :: wordDigits natural nibbleWidth)))
    (small : natural < 2 ^ (nibbleWidth * 4))
    (remainder : (natural : Int) = number % 2 ^ (nibbleWidth * 4)) :
    Represented given number nibbleWidth ↔
      fromTwosComplement (.text (String.ofList
        ('0' :: 'x' :: wordDigits natural nibbleWidth))) nibbleWidth =
          .ok number := by
  have power : 16 ^ nibbleWidth = 2 ^ (nibbleWidth * 4) := by
    rw [Nat.mul_comm, pow_mul]
    rfl
  constructor
  · rintro ⟨digits, other, -, -, back⟩
    rw [Except.ok.inj (written.symm.trans other)]
    exact back
  · intro back
    refine ⟨_, written, ⟨length_wordDigits positive (power ▸ small),
      isDigit_wordDigits _ _⟩, ?_, back⟩
    rw [numeral_wordDigits, remainder, Nat.mul_comm 4]

theorem represented_natCast {natural : Nat} (positive : 0 < nibbleWidth)
    (bounded : nibbleWidth ≤ 128)
    (denotes : integer? given = some (natural : Int))
    (valid : isInt given = true) (small : natural < 2 ^ (nibbleWidth * 4 - 1)) :
    Represented given natural nibbleWidth := by
  have half : 2 ^ (nibbleWidth * 4 - 1) < 2 ^ (nibbleWidth * 4) :=
    Nat.pow_lt_pow_right (by decide) (by omega)
  have remainder : (natural : Int) = natural % 2 ^ (nibbleWidth * 4) := by
    have within : natural < 2 ^ (nibbleWidth * 4) := by omega
    exact mod_cast (Nat.mod_eq_of_lt within).symm
  rw [represented_iff positive (toTwosComplement_natCast denotes valid)
    (by omega) remainder]
  by_cases zero : natural = 0
  · rw [zero]
    exact fromTwosComplement_zero
  · obtain ⟨low, high⟩ := (Nat.log2_eq_iff zero).mp rfl
    have exponent : natural.log2 < nibbleWidth * 4 - 1 := by
      rw [Nat.log2_lt zero]
      exact small
    rw [fromTwosComplement_between low high (by omega) (by omega),
      if_neg (by omega)]

theorem represented_negative_iff (positive : 0 < nibbleWidth)
    (bounded : nibbleWidth ≤ 128) (denotes : integer? given = some number)
    (valid : isInt given = true) (negative : number < 0)
    (least : -2 ^ (nibbleWidth * 4 - 1) ≤ number) :
    Represented given number nibbleWidth ↔
      nibbleWidth < 128 ∧ 2 ^ (nibbleWidth * 4 - 1) / 2 ^ 53 <
        number + 2 ^ (nibbleWidth * 4 - 1) := by
  have whole : 2 ^ (nibbleWidth * 4) = 2 * 2 ^ (nibbleWidth * 4 - 1) := by
    rw [← pow_succ']
    exact congrArg _ (by omega)
  have wholeInt : (2 : Int) ^ (nibbleWidth * 4) =
      2 * 2 ^ (nibbleWidth * 4 - 1) := mod_cast whole
  obtain ⟨complement, sum⟩ : ∃ complement : Nat,
      (complement : Int) = number + 2 ^ (nibbleWidth * 4) :=
    ⟨(number + 2 ^ (nibbleWidth * 4)).toNat, Int.toNat_of_nonneg (by omega)⟩
  have low : 2 ^ (nibbleWidth * 4 - 1) ≤ complement := by
    zify
    omega
  have high : complement < 2 ^ (nibbleWidth * 4) := by
    zify
    omega
  have positiveHalf : 0 < 2 ^ (nibbleWidth * 4 - 1) :=
    Nat.pow_pos (by decide)
  have remainder : (complement : Int) = number % 2 ^ (nibbleWidth * 4) := by
    rw [← Int.add_mul_emod_self_left number (2 ^ (nibbleWidth * 4)) 1, mul_one,
      ← sum]
    exact mod_cast (Nat.mod_eq_of_lt high).symm
  rw [represented_iff positive (toTwosComplement_of_neg denotes valid negative
    sum (by omega)) high remainder]
  by_cases inside : nibbleWidth < 128
  · have exponent : nibbleWidth * 4 = nibbleWidth * 4 - 1 + 1 := by omega
    have above : 2 ^ (nibbleWidth * 4 - 1) / 2 ^ 53 <
          number + 2 ^ (nibbleWidth * 4 - 1) ↔
        2 ^ (nibbleWidth * 4 - 1) + 2 ^ (nibbleWidth * 4 - 1) / 2 ^ 53 <
          complement := by
      zify
      omega
    rw [fromTwosComplement_between low (exponent ▸ high) (by omega) (by omega),
      and_iff_right inside, above]
    split
    next far => exact iff_of_true (congrArg _ (by omega)) far.2
    next near =>
      refine iff_of_false (fun same => ?_) fun far => near ⟨exponent, far⟩
      have back := Except.ok.inj same
      omega
  · have widest : nibbleWidth = 128 := by omega
    refine iff_of_false (fun same => ?_) fun within => inside within.1
    have read := (integer?_word complement nibbleWidth).1
    have invalid := isInt_text read
    rw [widest] at low
    rw [decide_eq_false (by omega)] at invalid
    rw [fromTwosComplement, if_pos invalid] at same
    cases same

/-- Every integer is written as a word of its width and read again, or refused
where it is out of range: exactly for integers in range that are validated, and
are not negative, or are so in a width below the largest one and above the
least integer by more than half a place of a double; and for integers out of
range that are not validated or have no complement. -/
theorem complements_iff (positive : 1 ≤ nibbleWidth)
    (bounded : nibbleWidth ≤ 128) (denotes : integer? given = some number) :
    Complements given number nibbleWidth ↔
      if InRange number nibbleWidth then
        isInt given = true ∧ (number < 0 → nibbleWidth < 128 ∧
          2 ^ (4 * nibbleWidth - 1) / 2 ^ 53 <
            number + 2 ^ (4 * nibbleWidth - 1))
      else isInt given = false ∨ number ≤ -2 ^ (4 * nibbleWidth) := by
  rw [Complements]
  split
  next inRange =>
    rw [InRange, Nat.mul_comm 4] at inRange
    rw [Nat.mul_comm 4]
    cases valid : isInt given with
    | false =>
        refine iff_of_false ?_ fun accepted => by cases accepted.1
        rintro ⟨digits, written, -⟩
        rw [toTwosComplement_invalid valid] at written
        cases written
    | true =>
        rw [and_iff_right rfl]
        by_cases negative : number < 0
        · rw [represented_negative_iff positive bounded denotes valid negative
            inRange.1, forall_prop_of_true negative]
        · obtain ⟨natural, rfl⟩ :=
            Int.eq_ofNat_of_zero_le (Int.not_lt.mp negative)
          refine iff_of_true (represented_natCast positive bounded denotes valid
            ?_) fun below => absurd below negative
          exact mod_cast inRange.2
  next outOfRange =>
    rw [Nat.mul_comm 4]
    cases valid : isInt given with
    | false =>
        exact iff_of_true ⟨_, toTwosComplement_invalid valid⟩ (.inl rfl)
    | true =>
        rw [or_iff_right (by decide : ¬true = false)]
        by_cases low : number ≤ -2 ^ (nibbleWidth * 4)
        · exact iff_of_true (toTwosComplement_low denotes valid low) low
        · refine iff_of_false ?_ low
          rintro ⟨problem, refused⟩
          by_cases negative : number < 0
          · have sum := Int.toNat_of_nonneg
              (show 0 ≤ number + 2 ^ (nibbleWidth * 4) by omega)
            rw [toTwosComplement_of_neg denotes valid negative sum
              (by omega)] at refused
            cases refused
          · obtain ⟨natural, rfl⟩ :=
              Int.eq_ofNat_of_zero_le (Int.not_lt.mp negative)
            rw [toTwosComplement_natCast denotes valid] at refused
            cases refused

theorem complements_minusOne :
    Complements (.number (-1)) (-1) 64 :=
  (complements_iff (by decide) (by decide) rfl).mpr (by decide +kernel)

/-- The least integer of a byte is read as a positive one, and an integer above
the largest one is written. -/
theorem not_complements :
    toTwosComplement (.number (-128)) 2 = .ok "0x80" ∧
      fromTwosComplement (.text "0x80") 2 = .ok 128 ∧
        toTwosComplement (.number 200) 2 = .ok "0xc8" ∧
          ¬Complements (.number (-128)) (-128) 2 ∧
            ¬Complements (.number 200) 200 2 := by
  have least : toTwosComplement (.number (-128)) 2 = .ok "0x80" := by
    decide +kernel
  have read : fromTwosComplement (.text "0x80") 2 = .ok 128 := by
    decide +kernel
  have above : toTwosComplement (.number 200) 2 = .ok "0xc8" := by
    decide +kernel
  refine ⟨least, read, above, ?_, ?_⟩
  · rw [Complements, if_pos (by decide)]
    rintro ⟨digits, written, -, -, back⟩
    rw [← Except.ok.inj (least.symm.trans written), read] at back
    exact absurd (Except.ok.inj back) (by decide)
  · rw [Complements, if_neg (by decide)]
    rintro ⟨problem, refused⟩
    cases above.symm.trans refused

end Web3Js.Utils
