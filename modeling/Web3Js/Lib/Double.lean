import Web3Js.Lib.Decimal

/-!
# Integers as doubles

A double holds every integer below two to the power of 53.  A larger one is
rounded to 53 binary digits, and to the even one of two equally near.  Its text
has no more digits than it takes to be read as the same double again.
-/

namespace Web3Js.Double

/-- The double nearest to an integer; `none` for the infinite one. -/
def nearest (number : Nat) : Option Nat :=
  if number < 2 ^ 53 then some number
  else
    let exponent := number.log2 - 52
    let quotient := number / 2 ^ exponent
    let remainder := number % 2 ^ exponent
    let isUp := 2 ^ exponent < 2 * remainder ∨
      (2 ^ exponent = 2 * remainder ∧ quotient % 2 = 1)
    let rounded := (if isUp then quotient + 1 else quotient) * 2 ^ exponent
    if rounded < 2 ^ 1024 then some rounded else none

/-- Whether the double nearest to a quotient is an integer.  Below two to the
power of 52 the doubles between two integers are as near to each other as the
binary digits of the lower one leave room for, so that only what is next to an
integer is rounded to it. -/
def isIntegral (numerator denominator : Nat) : Bool :=
  let floor := numerator / denominator
  let rest := numerator % denominator
  if rest = 0 ∨ 2 ^ 52 ≤ floor then (nearest floor).isSome
  else if floor = 0 then
    -- The least double is two to the power of -1074.
    numerator * 2 ^ 1075 ≤ denominator ∨
      (denominator - numerator) * 2 ^ 54 ≤ denominator
  else
    rest * 2 ^ 53 ≤ denominator * 2 ^ floor.log2 ∨
      (denominator - rest) * 2 ^ 53 ≤ denominator * 2 ^ floor.log2

/-- The decimal numerals with few digits next to a double: the numeral of a
number of digits and the power of ten that it is multiplied with. -/
def candidates (number : Nat) : List (Nat × Nat) :=
  let length := (Nat.toDigits 10 number).length
  (List.range length).flatMap fun missing =>
    let exponent := length - 1 - missing
    let low := number / 10 ^ exponent
    let up := low + 1
    let above := up * 10 ^ exponent - number
    let below := number - low * 10 ^ exponent
    -- The nearer numeral comes first, of two equally near the even one.
    if above < below ∨ (above = below ∧ up % 2 = 0) then
      [(up, exponent), (low, exponent)]
    else [(low, exponent), (up, exponent)]

/-- The shortest numeral that is read as the double. -/
def shortest (number : Nat) : Nat × Nat :=
  ((candidates number).find? fun candidate =>
    nearest (candidate.1 * 10 ^ candidate.2) == some number).getD (number, 0)

/-- Digits with a point after the first one. -/
def mantissa : List Char → List Char
  | [] => []
  | [digit] => [digit]
  | digit :: rest => digit :: '.' :: rest

/-- A numeral of few digits, with zeros up to 21 digits and with an exponent
beyond. -/
def numeralText (numeral : Nat × Nat) : List Char :=
  let digits := Nat.toDigits 10 numeral.1
  let point := digits.length + numeral.2
  if point ≤ 21 then digits ++ List.replicate numeral.2 '0'
  else
    mantissa ((digits.reverse.dropWhile (· == '0')).reverse) ++
      "e+".toList ++ Nat.toDigits 10 (point - 1)

/-- The text of a double that is a natural number; `none` is infinite. -/
def text (double : Option Nat) : List Char :=
  double.elim "Infinity".toList fun number =>
    if number < 2 ^ 53 then Nat.toDigits 10 number
    else numeralText (shortest number)

example : text (nearest (2 ^ 53 + 1)) = "9007199254740992".toList := by
  decide +kernel

example : text (nearest (2 ^ 64)) = "18446744073709552000".toList := by
  decide +kernel

theorem nearest_of_lt {number : Nat} (small : number < 2 ^ 53) :
    nearest number = some number :=
  if_pos small

/-- The double nearest to a number between two powers of two is between them,
and is the lower one for the numbers that are within half a place of it. -/
theorem nearest_between {number exponent : Nat} (low : 2 ^ exponent ≤ number)
    (high : number < 2 ^ (exponent + 1)) (finite : exponent < 1023) :
    ∃ double, nearest number = some double ∧ 2 ^ exponent ≤ double ∧
      double ≤ 2 ^ (exponent + 1) ∧
        (double = 2 ^ exponent ↔
          number ≤ 2 ^ exponent + 2 ^ exponent / 2 ^ 53) := by
  by_cases small : exponent < 53
  · have none : 2 ^ exponent / 2 ^ 53 = 0 :=
      Nat.div_eq_of_lt (Nat.pow_lt_pow_right (by decide) small)
    have within : number < 2 ^ 53 :=
      Nat.lt_of_lt_of_le high (Nat.pow_le_pow_right (by decide) small)
    exact ⟨number, nearest_of_lt within, low, high.le, by omega⟩
  · obtain ⟨place, rfl⟩ : ∃ place, exponent = place + 53 :=
      ⟨exponent - 53, by omega⟩
    have large : ¬number < 2 ^ 53 := by
      have power : 2 ^ 53 ≤ 2 ^ (place + 53) :=
        Nat.pow_le_pow_right (by decide) (by omega)
      omega
    have log : number.log2 = place + 53 := by
      rw [Nat.log2_eq_iff (by omega)]
      exact ⟨low, high⟩
    have lower : 2 ^ (place + 53) = 2 ^ 52 * 2 ^ (place + 1) := by
      rw [← pow_add]
      exact congrArg _ (by omega)
    have upper : 2 ^ (place + 53 + 1) = 2 ^ 53 * 2 ^ (place + 1) := by
      rw [← pow_add]
      exact congrArg _ (by omega)
    have halved : 2 ^ (place + 53) / 2 ^ 53 = 2 ^ place := by
      rw [pow_add, Nat.mul_div_cancel _ (by decide)]
    have double : 2 ^ (place + 1) = 2 * 2 ^ place := by
      rw [pow_succ, Nat.mul_comm]
    have bound : 2 ^ (place + 53 + 1) < 2 ^ 1024 :=
      pow_lt_pow_right₀ one_lt_two (by omega)
    have unit : 0 < 2 ^ place := Nat.pow_pos (by decide)
    rw [halved]
    rw [lower, double] at low
    rw [upper, double] at high bound
    rw [lower, upper, double]
    have parts := Nat.div_add_mod number (2 * 2 ^ place)
    have rest := Nat.mod_lt number (show 0 < 2 * 2 ^ place by omega)
    have least : 2 ^ 52 ≤ number / (2 * 2 ^ place) :=
      (Nat.le_div_iff_mul_le (by omega)).mpr low
    have most : number / (2 * 2 ^ place) < 2 ^ 53 :=
      (Nat.div_lt_iff_lt_mul (by omega)).mpr high
    have exponent : number.log2 - 52 = place + 1 := by omega
    rw [nearest, if_neg large]
    simp only [exponent, double]
    generalize number / (2 * 2 ^ place) = quotient at *
    generalize number % (2 * 2 ^ place) = remainder at *
    generalize 2 ^ place = half at *
    generalize 2 ^ 1024 = limit at *
    have rounded (chosen : Nat) (lowest : 2 ^ 52 ≤ chosen)
        (highest : chosen ≤ 2 ^ 53) :
        (if chosen * (2 * half) < limit then some (chosen * (2 * half))
          else none) = some (chosen * (2 * half)) ∧
            2 ^ 52 * (2 * half) ≤ chosen * (2 * half) ∧
              chosen * (2 * half) ≤ 2 ^ 53 * (2 * half) ∧
                (chosen * (2 * half) = 2 ^ 52 * (2 * half) ↔
                  chosen = 2 ^ 52) := by
      have below := Nat.mul_le_mul_right (2 * half) highest
      refine ⟨if_pos (by omega), Nat.mul_le_mul_right _ lowest, below, ?_⟩
      exact Nat.mul_left_inj (by omega)
    have lowest : number ≤ 2 ^ 52 * (2 * half) + half ↔
        quotient = 2 ^ 52 ∧ remainder ≤ half := by
      constructor
      · intro near
        have first : quotient = 2 ^ 52 := by
          by_cases more : 2 ^ 52 + 1 ≤ quotient
          · have above := Nat.mul_le_mul_left (2 * half) more
            omega
          · omega
        subst first
        exact ⟨rfl, by omega⟩
      · rintro ⟨rfl, near⟩
        omega
    rw [lowest]
    by_cases isUp : 2 * half < 2 * remainder ∨
        (2 * half = 2 * remainder ∧ quotient % 2 = 1)
    · obtain ⟨given, above, below, same⟩ :=
        rounded (quotient + 1) (by omega) (by omega)
      rw [if_pos isUp]
      refine ⟨_, given, above, below, same.trans (iff_of_false ?_ ?_)⟩
      · omega
      · rintro ⟨first, near⟩
        omega
    · obtain ⟨given, above, below, same⟩ :=
        rounded quotient least most.le
      rw [if_neg isUp]
      refine ⟨_, given, above, below, same.trans ⟨fun first => ?_, And.left⟩⟩
      exact ⟨first, by omega⟩

/-- Rounding does not cross a power of two. -/
theorem le_of_nearest {number exponent double : Nat}
    (low : number ≤ 2 ^ exponent) (bounded : exponent < 1023)
    (nearest : nearest number = some double) : double ≤ 2 ^ exponent := by
  by_cases zero : number = 0
  · rw [zero, nearest_of_lt (by decide)] at nearest
    cases nearest
    exact Nat.zero_le _
  · obtain ⟨below, above⟩ := (Nat.log2_eq_iff zero).mp rfl
    have within : number.log2 ≤ exponent := by
      by_contra more
      have power : 2 ^ (exponent + 1) ≤ 2 ^ number.log2 :=
        Nat.pow_le_pow_right (by decide) (by omega)
      have step : 2 ^ exponent < 2 ^ (exponent + 1) :=
        Nat.pow_lt_pow_right (by decide) (by omega)
      omega
    obtain ⟨rounded, same, least, most, first⟩ :=
      nearest_between below above (by omega)
    obtain rfl := Option.some.inj (nearest.symm.trans same)
    rcases Nat.lt_or_eq_of_le within with less | equal
    · exact most.trans (Nat.pow_le_pow_right (by decide) less)
    · rw [equal] at below first
      have power : number = 2 ^ exponent := Nat.le_antisymm low below
      exact (first.mpr (by omega)).le

/-- The characters in the text of a double. -/
def isPlain (char : Char) : Bool :=
  char.isAlphanum || char == '.' || char == '+'

theorem isPlain_of_isDigit {char : Char} (digit : char.isDigit = true) :
    isPlain char = true := by
  rw [isPlain, Char.isAlphanum, digit]
  simp

theorem isPlain_toDigits (number : Nat) :
    (Nat.toDigits 10 number).all isPlain = true := by
  rw [List.all_eq_true]
  intro char member
  exact isPlain_of_isDigit
    (Nat.isDigit_of_mem_toDigits (by decide) (by decide) member)

theorem isPlain_mantissa {digits : List Char}
    (plain : digits.all isPlain = true) :
    (mantissa digits).all isPlain = true := by
  match digits with
  | [] => rfl
  | [_] => exact plain
  | digit :: next :: rest =>
      rw [List.all_cons, Bool.and_eq_true] at plain
      rw [mantissa, List.all_cons, List.all_cons, plain.1, plain.2]
      · decide
      · intro missing
        cases missing

theorem isPlain_numeralText (numeral : Nat × Nat) :
    (numeralText numeral).all isPlain = true := by
  have digits := isPlain_toDigits numeral.1
  rw [numeralText]
  split
  · have zeros : (List.replicate numeral.2 '0').all isPlain = true := by
      rw [List.all_eq_true]
      intro char member
      rw [List.eq_of_mem_replicate member]
      decide
    rw [List.all_append, digits, zeros]
    rfl
  · have significant : ((Nat.toDigits 10 numeral.1).reverse.dropWhile
        (· == '0')).reverse.all isPlain = true := by
      rw [List.all_eq_true] at digits ⊢
      intro char member
      have inside := (List.dropWhile_suffix _).subset
        (List.mem_reverse.mp member)
      exact digits char (List.mem_reverse.mp inside)
    have sign : "e+".toList.all isPlain = true := by decide
    rw [List.all_append, List.all_append, sign, isPlain_toDigits,
      isPlain_mantissa significant]
    rfl

theorem isPlain_text (double : Option Nat) :
    (text double).all isPlain = true := by
  cases double with
  | none => decide
  | some number =>
      by_cases small : number < 2 ^ 53
      · exact (congrArg (List.all · isPlain) (if_pos small)).trans
          (isPlain_toDigits number)
      · exact (congrArg (List.all · isPlain) (if_neg small)).trans
          (isPlain_numeralText _)

/-! ## Numerals and exponents -/

theorem shortest_pos {number : Nat} (positive : 0 < number) :
    0 < (shortest number).1 := by
  rw [shortest]
  cases found : (candidates number).find? fun candidate =>
      nearest (candidate.1 * 10 ^ candidate.2) == some number with
  | none => exact positive
  | some candidate =>
      have member := List.mem_of_find?_eq_some found
      rw [candidates, List.mem_flatMap] at member
      obtain ⟨missing, -, member⟩ := member
      have low : 0 < number /
          10 ^ ((Nat.toDigits 10 number).length - 1 - missing) := by
        refine Nat.div_pos (Nat.le_of_not_lt fun less => ?_)
          (Nat.pow_pos (by decide))
        generalize exponentIs : (Nat.toDigits 10 number).length - 1 - missing =
          exponent at less
        cases exponent with
        | zero => omega
        | succ exponent =>
            have short := (Nat.length_toDigits_le_iff (by decide)
              (Nat.succ_pos exponent)).mpr less
            omega
      dsimp only at member
      split at member
      all_goals
        rcases List.mem_cons.mp member with rfl | member
        · simp only [Option.getD_some]
          omega
        · rw [List.mem_singleton.mp member]
          simp only [Option.getD_some]
          omega

/-- The shortest numeral is one of the double. -/
theorem nearest_shortest (number : Nat) :
    (shortest number).1 * 10 ^ (shortest number).2 = number ∨
      nearest ((shortest number).1 * 10 ^ (shortest number).2) =
        some number := by
  rw [shortest]
  cases found : (candidates number).find? fun candidate =>
      nearest (candidate.1 * 10 ^ candidate.2) == some number with
  | none => exact .inl (Nat.mul_one number)
  | some candidate =>
      have same := List.find?_some found
      exact .inr (beq_iff_eq.mp same)

/-- The text of an integer is the numeral of an integer that is rounded to it,
or has an exponent behind its first digit. -/
theorem text_spec {number : Nat} (positive : 0 < number) :
    (∃ other, 0 < other ∧ (other = number ∨ nearest other = some number) ∧
        text (some number) = Nat.toDigits 10 other) ∨
      ∃ first rest, text (some number) = first :: rest ∧ first ≠ '+' ∧
        '+' ∈ rest := by
  by_cases small : number < 2 ^ 53
  · exact .inl ⟨number, positive, .inl rfl, if_pos small⟩
  · have large : text (some number) = numeralText (shortest number) :=
      if_neg small
    have digits := shortest_pos positive
    rw [large, numeralText]
    split
    · refine .inl ⟨(shortest number).1 * 10 ^ (shortest number).2,
        Nat.mul_pos digits (Nat.pow_pos (by decide)),
        nearest_shortest number, ?_⟩
      exact (Decimal.toDigits_mul_pow digits _).symm
    · right
      generalize kept : ((Nat.toDigits 10 (shortest number).1).reverse.dropWhile
        (· == '0')).reverse = significant
      cases significant with
      | nil =>
          exact ⟨'e', _, rfl, by decide, List.mem_cons_self⟩
      | cons digit significant =>
          have member : digit ∈ Nat.toDigits 10 (shortest number).1 := by
            have inside : digit ∈
                (Nat.toDigits 10 (shortest number).1).reverse.dropWhile
                  (· == '0') := by
              rw [← List.mem_reverse, kept]
              exact List.mem_cons_self
            exact List.mem_reverse.mp ((List.dropWhile_suffix _).subset inside)
          obtain ⟨front, same⟩ : ∃ front,
              mantissa (digit :: significant) = digit :: front := by
            cases significant with
            | nil => exact ⟨[], rfl⟩
            | cons next significant => exact ⟨_, rfl⟩
          rw [same]
          refine ⟨digit, _, rfl, ?_, ?_⟩
          · rintro rfl
            exact Decimal.not_mem_toDigits (by decide) _ member
          · change '+' ∈ front ++ ['e', '+'] ++ _
            rw [List.append_assoc, List.mem_append]
            exact .inr (List.mem_cons_of_mem _ List.mem_cons_self)

/-- A large double that is printed as a numeral has at most 21 digits. -/
theorem lt_of_text {number other : Nat} (large : 2 ^ 53 ≤ number)
    (printed : text (some number) = Nat.toDigits 10 other) :
    other < 10 ^ 21 := by
  have given : text (some number) = numeralText (shortest number) :=
    if_neg large.not_gt
  rw [given, numeralText] at printed
  split at printed
  · rename_i short
    refine (Nat.length_toDigits_le_iff (by decide) (by decide)).mp ?_
    rw [← printed, List.length_append, List.length_replicate]
    exact short
  · have plus : '+' ∈ Nat.toDigits 10 other := by
      rw [← printed]
      simp
    exact absurd plus (Decimal.not_mem_toDigits (by decide) other)

end Web3Js.Double
