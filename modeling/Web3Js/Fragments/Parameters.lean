import Web3Js.Fragments.Types
import Web3Js.Lib.Words
import Web3Js.Validator.Elementary

/-!
# Parameters of elementary types, tuples and arrays

A well formed parameter is an elementary type or a tuple of such parameters,
in arrays of any depth.  Its type is made from the JSON object that describes
it and is printed in each format.
-/

namespace Web3Js.Fragments

open Validator (Elementary Size)
open Abi (verifyType arraySuffix endsWidth)

/-- The digits between the brackets of an array; none for a dynamic one. -/
structure Length where
  digits : Text
  decimal : digits.all Char.isDigit = true

namespace Length

theorem nil_decimal : [].all Char.isDigit = true := rfl

def dynamic : Length := ⟨[], nil_decimal⟩

theorem two_decimal : ['2'].all Char.isDigit = true := by decide

def two : Length := ⟨['2'], two_decimal⟩

def bracket (length : Length) : Text := '[' :: length.digits ++ [']']

/-- The brackets with the length as it is printed. -/
def printed (length : Length) : Text :=
  '[' :: (readLength length.digits).text ++ [']']

/-- The length is printed with the digits that it is given with. -/
def Exact (length : Length) : Prop :=
  (readLength length.digits).text = length.digits

instance (length : Length) : Decidable length.Exact :=
  inferInstanceAs (Decidable (_ = _))

theorem isPlain_text (length : Length) :
    (readLength length.digits).text.all Double.isPlain = true := by
  cases readLength length.digits with
  | dynamic => rfl
  | fixed length => exact Double.isPlain_text length

theorem Exact.printed_eq {length : Length} (exact : length.Exact) :
    length.printed = length.bracket := by
  rw [printed, exact]
  rfl

end Length

/-- The lengths of nested arrays, the elements' first. -/
def brackets (lengths : List Length) : Text := lengths.flatMap Length.bracket

def printedBrackets (lengths : List Length) : Text :=
  lengths.flatMap Length.printed

theorem printedBrackets_of_exact {lengths : List Length}
    (exact : ∀ length ∈ lengths, length.Exact) :
    printedBrackets lengths = brackets lengths := by
  rw [printedBrackets, brackets, List.flatMap_def, List.flatMap_def]
  congr 1
  exact List.map_congr_left fun length member =>
    (exact length member).printed_eq

/-- Brackets are printed as they are given only if every length is. -/
theorem cut_brackets {lengths : List Length} {rest rest' : Text}
    (same : brackets lengths ++ rest = printedBrackets lengths ++ rest') :
    (∀ length ∈ lengths, length.Exact) ∧ rest = rest' := by
  induction lengths with
  | nil => exact ⟨List.forall_mem_nil _, same⟩
  | cons length lengths induction =>
      have closes : ∀ text : Text, Words.Stops (· != ']') (']' :: text) :=
        fun text => Words.stops_cons rfl text
      have unclosed : ∀ text : Text, text.all Double.isPlain = true →
          text.all (· != ']') = true := by
        intro text plain
        rw [List.all_eq_true] at plain ⊢
        intro char member
        rw [bne_iff_ne]
        rintro rfl
        cases plain ']' member
      have given : length.digits.all Double.isPlain = true := by
        have decimal := length.decimal
        rw [List.all_eq_true] at decimal ⊢
        exact fun char member =>
          Double.isPlain_of_isDigit (decimal char member)
      have printed := length.isPlain_text
      have bracketed : length.digits ++ ']' :: (brackets lengths ++ rest) =
          (readLength length.digits).text ++
            ']' :: (printedBrackets lengths ++ rest') := by
        simpa [brackets, printedBrackets, Length.bracket, Length.printed]
          using same
      obtain ⟨exact, rests⟩ := Words.cut (unclosed _ given)
        (unclosed _ printed) (closes _) (closes _) bracketed
      obtain ⟨exacts, ends⟩ := induction (List.cons.inj rests).2
      exact ⟨List.forall_mem_cons.mpr ⟨exact.symm, exacts⟩, ends⟩

inductive Parameter where
  | value (name : Option Text) (indexed : Option Bool) (type : Elementary)
      (lengths : List Length)
  | tuple (name : Option Text) (indexed : Option Bool)
      (components : List Parameter) (lengths : List Length)

theorem Parameter.induction {motive : Parameter → Prop}
    (value : ∀ name indexed type lengths,
      motive (.value name indexed type lengths))
    (tuple : ∀ name indexed components lengths,
      (∀ component ∈ components, motive component) →
        motive (.tuple name indexed components lengths))
    (parameter : Parameter) : motive parameter :=
  @Parameter.rec motive
    (fun components => ∀ component ∈ components, motive component)
    value tuple (fun _ member => nomatch member)
    (fun _ _ head tail => List.forall_mem_cons.mpr ⟨head, tail⟩) parameter

def tupleWord : Text := "tuple".toList

mutual

/-- The object of the JSON interface. -/
def Parameter.json : Parameter → JsonFragmentType
  | .value name indexed type lengths =>
      ⟨name, type.chars ++ brackets lengths, indexed, none⟩
  | .tuple name indexed components lengths =>
      ⟨name, tupleWord ++ brackets lengths, indexed,
        some (Parameter.jsons components)⟩

def Parameter.jsons : List Parameter → List JsonFragmentType
  | [] => []
  | parameter :: parameters =>
      parameter.json :: Parameter.jsons parameters

end

namespace Parameter

/-- The name, where there is one. -/
def name : Parameter → Option Text
  | .value name _ _ _ | .tuple name _ _ _ => ParamType.givenName name

def indexed : Parameter → Option Bool
  | .value _ indexed _ _ | .tuple _ indexed _ _ => indexed

/-- The lengths of the arrays around the value or the tuple. -/
def lengths : Parameter → List Length
  | .value _ _ _ lengths | .tuple _ _ _ lengths => lengths

mutual

/-- The parameter and its components at any depth. -/
def parts : Parameter → List Parameter
  | .value name indexed type lengths => [.value name indexed type lengths]
  | .tuple name indexed components lengths =>
      .tuple name indexed components lengths :: partsAll components

def partsAll : List Parameter → List Parameter
  | [] => []
  | parameter :: parameters => parts parameter ++ partsAll parameters

end

theorem partsAll_eq_flatMap (parameters : List Parameter) :
    partsAll parameters = parameters.flatMap parts := by
  induction parameters with
  | nil => rfl
  | cons parameter parameters induction =>
      rw [partsAll, induction, List.flatMap_cons]

theorem forall_parts_value {holds : Parameter → Prop} {name : Option Text}
    {indexed : Option Bool} {type : Elementary} {lengths : List Length} :
    (∀ part ∈ (value name indexed type lengths).parts, holds part) ↔
      holds (value name indexed type lengths) := by
  rw [parts, List.forall_mem_singleton]

theorem forall_parts_tuple {holds : Parameter → Prop} {name : Option Text}
    {indexed : Option Bool} {components : List Parameter}
    {lengths : List Length} :
    (∀ part ∈ (tuple name indexed components lengths).parts, holds part) ↔
      holds (tuple name indexed components lengths) ∧
        ∀ component ∈ components, ∀ part ∈ component.parts, holds part := by
  rw [parts, List.forall_mem_cons, partsAll_eq_flatMap]
  simp only [List.mem_flatMap, forall_exists_index, and_imp]
  constructor
  · rintro ⟨itself, inner⟩
    exact ⟨itself, fun component member part inside =>
      inner part component member inside⟩
  · rintro ⟨itself, inner⟩
    exact ⟨itself, fun part component member inside =>
      inner component member part inside⟩

end Parameter

/-! ## Types of arrays -/

/-- Integers without a width have the full one. -/
def canonical : Elementary → Elementary
  | .uint none => .uint (some ⟨64, by decide, by decide⟩)
  | .int none => .int (some ⟨64, by decide, by decide⟩)
  | type => type

/-- An integer is given with its width. -/
def Parameter.Explicit : Parameter → Prop
  | .value _ _ type _ => canonical type = type
  | .tuple _ _ _ _ => True

theorem canonical_canonical (type : Elementary) :
    canonical (canonical type) = canonical type := by
  cases type with
  | bool | address | string | bytes => rfl
  | uint size | int size => cases size <;> rfl

theorem canonical_of_chars {type : Elementary}
    (same : (canonical type).chars = type.chars) : canonical type = type := by
  cases type with
  | bool | address | string | bytes => rfl
  | uint size =>
      cases size with
      | some size => rfl
      | none => exact absurd same (by decide)
  | int size =>
      cases size with
      | some size => rfl
      | none => exact absurd same (by decide)

/-- The number of bits of an integer has no leading zero. -/
theorem endsWidth_bits (size : Size) (rest : Text) :
    endsWidth (Nat.toDigits 10 (8 * size.bytes) ++ rest) = false := by
  have small : ∀ bytes : Fin 65, 1 ≤ bytes.val →
      (Nat.toDigits 10 (8 * bytes.val)).head?.any fun char =>
        char.isDigit && char != '0' := by
    decide
  have head := small ⟨size.bytes, Nat.lt_succ_of_le size.atMost⟩ size.positive
  rw [endsWidth]
  cases digits : Nat.toDigits 10 (8 * size.bytes) with
  | nil =>
      rw [digits] at head
      cases head
  | cons digit digits' =>
      rw [digits] at head
      change (digit.isDigit && digit != '0') = true at head
      change (!(digit.isDigit && digit != '0')) = false
      rw [head]
      rfl

theorem verifyType_uint (rest : Text) :
    verifyType ("uint".toList ++ rest) =
      if endsWidth rest then "uint512".toList ++ rest
      else "uint".toList ++ rest :=
  rfl

theorem verifyType_int (rest : Text) :
    verifyType ("int".toList ++ rest) =
      if endsWidth rest then "int512".toList ++ rest
      else "int".toList ++ rest :=
  rfl

theorem verifyType_bytes (rest : Text) :
    verifyType ("bytes".toList ++ rest) = "bytes".toList ++ rest :=
  rfl

theorem verifyType_chars (type : Elementary) {rest : Text}
    (ends : endsWidth rest = true) :
    verifyType (type.chars ++ rest) = (canonical type).chars ++ rest := by
  cases type with
  | bool | address | string => rfl
  | bytes size =>
      change verifyType ("bytes".toList ++ _ ++ rest) =
        "bytes".toList ++ _ ++ rest
      rw [List.append_assoc, List.append_assoc, verifyType_bytes]
      rfl
  | uint size =>
      cases size with
      | none => exact if_pos ends
      | some size =>
          have wide := endsWidth_bits size rest
          change verifyType ("uint".toList ++ _ ++ rest) =
            "uint".toList ++ Nat.toDigits 10 _ ++ rest
          rw [List.append_assoc, List.append_assoc, verifyType_uint]
          exact if_neg (Bool.eq_false_iff.mp wide)
  | int size =>
      cases size with
      | none => exact if_pos ends
      | some size =>
          have wide := endsWidth_bits size rest
          change verifyType ("int".toList ++ _ ++ rest) =
            "int".toList ++ Nat.toDigits 10 _ ++ rest
          rw [List.append_assoc, List.append_assoc, verifyType_int]
          exact if_neg (Bool.eq_false_iff.mp wide)

theorem endsWidth_brackets (lengths : List Length) :
    endsWidth (brackets lengths) = true := by
  cases lengths with
  | nil => rfl
  | cons length lengths => rfl

theorem endsWidth_printedBrackets (lengths : List Length) :
    endsWidth (printedBrackets lengths) = true := by
  cases lengths with
  | nil => rfl
  | cons length lengths => rfl

/-- A printed type is a type that stays as it is. -/
theorem verifyType_printed (type : Elementary) (lengths : List Length) :
    verifyType ((canonical type).chars ++ printedBrackets lengths) =
      (canonical type).chars ++ printedBrackets lengths := by
  rw [verifyType_chars _ (endsWidth_printedBrackets lengths),
    canonical_canonical]

theorem verifyType_tuple (rest : Text) :
    verifyType (tupleWord ++ rest) = tupleWord ++ rest :=
  rfl

theorem arraySuffix_bracket (child : Text) (length : Length) :
    arraySuffix (child ++ length.bracket) = some (child, length.digits) := by
  have reversed : (child ++ length.bracket).reverse =
      ']' :: (length.digits.reverse ++ '[' :: child.reverse) := by
    simp [Length.bracket]
  have decimal : length.digits.reverse.all Char.isDigit = true := by
    rw [List.all_reverse]
    exact length.decimal
  have dropped : (length.digits.reverse ++ '[' :: child.reverse).dropWhile
      Char.isDigit = '[' :: child.reverse := by
    rw [List.dropWhile_append_of_pos (List.all_eq_true.mp decimal)]
    rfl
  have taken : (length.digits.reverse ++ '[' :: child.reverse).takeWhile
      Char.isDigit = length.digits.reverse := by
    rw [List.takeWhile_append_of_pos (List.all_eq_true.mp decimal)]
    exact List.append_nil _
  rw [arraySuffix, reversed]
  simp only [dropped, taken, List.reverse_reverse]

/-- The type of arrays with the given lengths, the outermost first, around
an element. -/
def arrays (word : Text) (components : Option (List ParamType)) :
    List Length → (name : Option Text) → (indexed : Option Bool) → ParamType
  | [], name, indexed =>
      ⟨name, word, if components.isSome then "tuple".toList else word,
        indexed, components, none, none⟩
  | length :: lengths, name, indexed =>
      ⟨name, word ++ brackets (length :: lengths).reverse, "array".toList,
        indexed, components, some (readLength length.digits),
        some (arrays word components lengths none none)⟩

theorem brackets_reverse_cons (length : Length) (lengths : List Length) :
    brackets (length :: lengths).reverse =
      brackets lengths.reverse ++ length.bracket := by
  simp [brackets]

theorem construct_arrays {word : Text}
    (components : Option (List ParamType))
    (stable : ∀ lengths : List Length,
      verifyType (word ++ brackets lengths) = word ++ brackets lengths)
    (unbracketed : arraySuffix word = none) {lengths : List Length}
    {fuel : Nat} (enough : lengths.length ≤ fuel) (name : Option Text)
    (indexed : Option Bool) :
    ParamType.construct components fuel name
        (word ++ brackets lengths.reverse) indexed =
      arrays word components lengths name indexed := by
  induction lengths generalizing fuel name indexed with
  | nil =>
      have bare : word ++ brackets [].reverse = word := List.append_nil word
      rw [bare]
      cases fuel with
      | zero => rfl
      | succ fuel => rw [ParamType.construct, unbracketed]; rfl
  | cons length lengths induction =>
      cases fuel with
      | zero => nomatch enough
      | succ fuel =>
          have child : arraySuffix
              (word ++ brackets (length :: lengths).reverse) =
                some (word ++ brackets lengths.reverse, length.digits) := by
            rw [brackets_reverse_cons, ← List.append_assoc]
            exact arraySuffix_bracket _ length
          rw [ParamType.construct, child]
          simp only [stable, induction (Nat.le_of_succ_le_succ enough)]
          rfl

theorem isAlphanum_chars (type : Elementary) :
    type.chars.all Char.isAlphanum = true := by
  rw [List.all_eq_true]
  intro char member
  cases other : char.isAlphanum with
  | true => rfl
  | false => exact absurd member (type.not_mem_chars other)

theorem chars_ne_nil (type : Elementary) : type.chars ≠ [] := by
  apply List.append_ne_nil_of_left_ne_nil
  cases type.baseType <;> decide

theorem arraySuffix_chars (type : Elementary) : arraySuffix type.chars = none :=
  Abi.arraySuffix_word (isAlphanum_chars type)

theorem length_le_brackets (lengths : List Length) :
    lengths.length ≤ (brackets lengths).length := by
  induction lengths with
  | nil => exact Nat.le_refl 0
  | cons length lengths induction =>
      change lengths.length + 1 ≤
        (length.bracket ++ brackets lengths).length
      rw [List.length_append, Length.bracket, List.length_append]
      change lengths.length + 1 ≤ _ + (0 + 1) + _
      omega

namespace Parameter

mutual

/-- The parameter type that is made from the object. -/
def paramType : Parameter → ParamType
  | .value name indexed type lengths =>
      arrays (canonical type).chars none lengths.reverse
        (ParamType.givenName name) indexed
  | .tuple name indexed components lengths =>
      arrays tupleWord (some (paramTypes components)) lengths.reverse
        (ParamType.givenName name) indexed

def paramTypes : List Parameter → List ParamType
  | [] => []
  | parameter :: parameters =>
      paramType parameter :: paramTypes parameters

end

theorem jsons_eq_map (parameters : List Parameter) :
    jsons parameters = parameters.map json := by
  induction parameters with
  | nil => rfl
  | cons parameter parameters induction =>
      rw [jsons, induction, List.map_cons]

theorem paramTypes_eq_map (parameters : List Parameter) :
    paramTypes parameters = parameters.map paramType := by
  induction parameters with
  | nil => rfl
  | cons parameter parameters induction =>
      rw [paramTypes, induction, List.map_cons]

end Parameter

namespace ParamType

theorem fromObjects_eq_map (values : List JsonFragmentType) :
    fromObjects values = values.map fromObject := by
  induction values with
  | nil => rfl
  | cons value values induction =>
      rw [fromObjects, induction, List.map_cons]

theorem formatAll_eq_map (kind : FormatType) (params : List ParamType) :
    formatAll kind params = params.map (format kind) := by
  induction params with
  | nil => rfl
  | cons param params induction =>
      rw [formatAll, induction, List.map_cons]

theorem jsonAll_eq_map (params : List ParamType) :
    jsonAll params = params.map json := by
  induction params with
  | nil => rfl
  | cons param params induction =>
      rw [jsonAll, induction, List.map_cons]

end ParamType

theorem construct_brackets {word : Text} (components : Option (List ParamType))
    (stable : ∀ lengths : List Length,
      verifyType (word ++ brackets lengths) = word ++ brackets lengths)
    (unbracketed : arraySuffix word = none) (lengths : List Length)
    {fuel : Nat} (enough : lengths.length ≤ fuel) (name : Option Text)
    (indexed : Option Bool) :
    ParamType.construct components fuel name (word ++ brackets lengths)
        indexed =
      arrays word components lengths.reverse name indexed := by
  have built := construct_arrays components stable unbracketed
    (List.length_reverse.trans_le enough) name indexed
  rw [List.reverse_reverse] at built
  exact built

theorem verifyType_canonical (type : Elementary) (lengths : List Length) :
    verifyType ((canonical type).chars ++ brackets lengths) =
      (canonical type).chars ++ brackets lengths := by
  rw [verifyType_chars _ (endsWidth_brackets lengths), canonical_canonical]

theorem fromObject_json (parameter : Parameter) :
    ParamType.fromObject parameter.json = parameter.paramType := by
  induction parameter using Parameter.induction with
  | value name indexed type lengths =>
      have enough : lengths.length ≤
          (type.chars ++ brackets lengths).length + 4 := by
        have bound := length_le_brackets lengths
        rw [List.length_append]
        omega
      rw [Parameter.json, ParamType.fromObject, Parameter.paramType,
        verifyType_chars type (endsWidth_brackets lengths)]
      exact construct_brackets none (verifyType_canonical type)
        (arraySuffix_chars _) lengths enough _ indexed
  | tuple name indexed components lengths induction =>
      have enough : lengths.length ≤
          (tupleWord ++ brackets lengths).length + 4 := by
        have bound := length_le_brackets lengths
        rw [List.length_append]
        omega
      have made : ParamType.fromObjects (Parameter.jsons components) =
          Parameter.paramTypes components := by
        rw [Parameter.jsons_eq_map, ParamType.fromObjects_eq_map,
          Parameter.paramTypes_eq_map, List.map_map]
        exact List.map_congr_left induction
      rw [Parameter.json, ParamType.fromObject, Parameter.paramType, made,
        verifyType_tuple]
      exact construct_brackets _ (fun _ => verifyType_tuple _) rfl
        lengths enough _ indexed

/-! ## Formats -/

namespace Parameter

mutual

/-- The text of a parameter. -/
def text (kind : FormatType) : Parameter → Text
  | .value name indexed type lengths =>
      (canonical type).chars ++ printedBrackets lengths ++
        ParamType.formatSuffix kind (ParamType.givenName name) indexed
  | .tuple name indexed components lengths =>
      (if kind = .sighash then [] else tupleWord) ++
        '(' :: (ParamType.separator kind).intercalate (texts kind components)
          ++ ')' :: printedBrackets lengths ++
        ParamType.formatSuffix kind (ParamType.givenName name) indexed

def texts (kind : FormatType) : List Parameter → List Text
  | [] => []
  | parameter :: parameters => text kind parameter :: texts kind parameters

end

theorem texts_eq_map (kind : FormatType) (parameters : List Parameter) :
    texts kind parameters = parameters.map (text kind) := by
  induction parameters with
  | nil => rfl
  | cons parameter parameters induction =>
      rw [texts, induction, List.map_cons]

end Parameter

theorem formatSuffix_none (kind : FormatType) :
    ParamType.formatSuffix kind none none = [] := by
  cases kind <;> rfl

theorem printedBrackets_reverse_cons (length : Length)
    (lengths : List Length) :
    printedBrackets (length :: lengths).reverse =
      printedBrackets lengths.reverse ++ length.printed := by
  simp [printedBrackets]

/-- The text of an element without its brackets. -/
def elementText (kind : FormatType) (word : Text) :
    Option (List ParamType) → Text
  | none => word
  | some components =>
      (if kind = .sighash then [] else word) ++
        '(' :: (ParamType.separator kind).intercalate
          (ParamType.formatAll kind components) ++ [')']

theorem format_element (kind : FormatType) {word : Text}
    {components : Option (List ParamType)}
    (plain : components = none →
      word ≠ "array".toList ∧ word ≠ "tuple".toList)
    (name : Option Text) (indexed : Option Bool) :
    ParamType.format kind (arrays word components [] name indexed) =
      elementText kind word components ++
        ParamType.formatSuffix kind name indexed := by
  cases components with
  | none =>
      have word := plain rfl
      simp only [arrays, ParamType.format, Option.isSome_none,
        Bool.false_eq_true, if_false, if_neg word.1, if_neg word.2,
        elementText]
  | some components =>
      simp only [arrays, ParamType.format, Option.isSome_some, if_true,
        elementText, ParamType.formatComponents]
      rfl

theorem format_arrays (kind : FormatType) {word : Text}
    {components : Option (List ParamType)}
    (plain : components = none →
      word ≠ "array".toList ∧ word ≠ "tuple".toList)
    (lengths : List Length) (name : Option Text) (indexed : Option Bool) :
    ParamType.format kind (arrays word components lengths name indexed) =
      elementText kind word components ++ printedBrackets lengths.reverse ++
        ParamType.formatSuffix kind name indexed := by
  induction lengths generalizing name indexed with
  | nil =>
      have bare : printedBrackets [].reverse = [] := rfl
      rw [bare, List.append_nil]
      exact format_element kind plain name indexed
  | cons length lengths induction =>
      have element := induction none none
      rw [formatSuffix_none, List.append_nil] at element
      rw [printedBrackets_reverse_cons, arrays, ParamType.format]
      simp only [ParamType.formatChild, element, Length.printed]
      simp

theorem chars_ne (type : Elementary) :
    type.chars ≠ "array".toList ∧ type.chars ≠ "tuple".toList := by
  have begins : type.baseType.text.toList <+: type.chars :=
    List.prefix_append _ _
  have untupled : type.baseType ≠ .tuple := by
    cases type <;> exact fun same => nomatch same
  have other : ¬type.baseType.text.toList <+: "array".toList ∧
      ¬type.baseType.text.toList <+: "tuple".toList := by
    generalize type.baseType = baseType at untupled
    cases baseType with
    | tuple => exact absurd rfl untupled
    | bool | int | uint | bytes | string | address => decide
  constructor
  · intro same
    exact other.1 (same ▸ begins)
  · intro same
    exact other.2 (same ▸ begins)

theorem format_paramType (kind : FormatType) (parameter : Parameter) :
    ParamType.format kind parameter.paramType = parameter.text kind := by
  induction parameter using Parameter.induction with
  | value name indexed type lengths =>
      rw [Parameter.paramType, format_arrays kind fun _ => chars_ne _,
        List.reverse_reverse]
      rfl
  | tuple name indexed components lengths induction =>
      have printed : ParamType.formatAll kind
          (Parameter.paramTypes components) =
            Parameter.texts kind components := by
        rw [Parameter.paramTypes_eq_map, ParamType.formatAll_eq_map,
          Parameter.texts_eq_map, List.map_map]
        exact List.map_congr_left induction
      rw [Parameter.paramType,
        format_arrays kind (by intro missing; cases missing),
        List.reverse_reverse, elementText, printed, Parameter.text]
      simp

end Web3Js.Fragments
