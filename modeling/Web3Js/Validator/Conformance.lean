import Mathlib.Algebra.Order.Ring.Int
import Web3Js.Validator.Elementary
import Web3Js.Validator.Schema

/-!
# What the validator accepts

An ABI type says which values conform to it: arrays of the declared lengths,
tuples with a value for each component, and leaves that satisfy the format of
their elementary type.  The validator accepts the values of the types in which
the elements of arrays have lost their size.
-/

namespace Web3Js.Validator

open Format (Data Scalar)

/-! ## Types -/

inductive AbiType where
  | elementary (type : Elementary)
  /-- Of any length when there is no length. -/
  | array (element : AbiType) (length : Option Nat)
  | tuple (components : List (String × AbiType))

namespace Elementary

/-- The values that satisfy the format of the type. -/
def check (cryptography : Cryptography) : Elementary → Data → Bool
  | .bool => isBoolean
  | .address => isAddress cryptography
  | .string => isString
  | .bytes size => isBytes (size.map Size.bytes)
  | .uint size => isUInt (size.map fun size => 8 * size.bytes)
  | .int size => isInt (size.map fun size => 8 * size.bytes)

end Elementary

namespace AbiType

/-- The type of the elements below all dimensions. -/
def innermost : AbiType → AbiType
  | .array element _ => element.innermost
  | type => type

/-- The lengths of the dimensions from the innermost to the outermost. -/
def dimensions : AbiType → List (Option Nat)
  | .array element length => element.dimensions ++ [length]
  | _ => []

def baseChars (type : AbiType) : List Char :=
  match type.innermost with
  | .elementary type => type.chars
  | _ => BaseType.tuple.text.toList

/-- The text of the type. -/
def text (type : AbiType) : String :=
  String.ofList (type.baseChars ++ type.dimensions.flatMap bracket)

mutual

/-- The components that a full parameter of the type has. -/
def components : AbiType → Option (List Schema)
  | .elementary _ => none
  | .array element _ => element.components
  | .tuple components => some (parameters components)

def parameters : List (String × AbiType) → List Schema
  | [] => []
  | (name, type) :: rest =>
      .parameter name type.text type.components :: parameters rest

end

/-- The element of a schema names the type: as a full parameter, or by its
text unless it has components. -/
def Named (schema : Schema) (type : AbiType) : Prop :=
  (∃ name, schema = .parameter name type.text type.components) ∨
    (type.components = none ∧ schema = .text type.text)

mutual

/-- The type as the validator takes it: the elements of arrays lose their
size. -/
def loosen : AbiType → AbiType
  | .elementary type => .elementary type
  | .array element length => .array element.loosenElement length
  | .tuple components => .tuple (loosenAll components)

def loosenElement : AbiType → AbiType
  | .elementary type => .elementary type.base
  | .array element length => .array element.loosenElement length
  | .tuple components => .tuple (loosenAll components)

def loosenAll : List (String × AbiType) → List (String × AbiType)
  | [] => []
  | (name, type) :: rest => (name, type.loosen) :: loosenAll rest

end

end AbiType

section Values

variable (cryptography : Cryptography)

mutual

def Conforms : AbiType → Data → Prop
  | .elementary type, value => type.check cryptography value
  | .array element length, .array values =>
      (∀ declared ∈ length, values.length = declared) ∧
        ∀ value ∈ values, Conforms element value
  | .tuple components, .array values => ConformsEach components values
  | _, _ => False

def ConformsEach : List (String × AbiType) → List Data → Prop
  | [], [] => True
  | (_, type) :: rest, value :: values =>
      Conforms type value ∧ ConformsEach rest values
  | _, _ => False

end

mutual

/-- The elements of arrays have the size of their type. -/
def KeepsSizes : AbiType → Data → Prop
  | .array element _, .array values =>
      ∀ value ∈ values, ElementKeepsSizes element value
  | .tuple components, .array values => EachKeepsSizes components values
  | _, _ => True

def ElementKeepsSizes : AbiType → Data → Prop
  | .elementary type, value => type.check cryptography value
  | .array element _, .array values =>
      ∀ value ∈ values, ElementKeepsSizes element value
  | .tuple components, .array values => EachKeepsSizes components values
  | _, _ => True

def EachKeepsSizes : List (String × AbiType) → List Data → Prop
  | (_, type) :: rest, value :: values =>
      KeepsSizes type value ∧ EachKeepsSizes rest values
  | _, _ => True

end

end Values

/-! ## The text of a type -/

namespace Elementary

/-- The key of the format of a type. -/
def formatKey (type : Elementary) : FormatKey :=
  .base type.baseType (type.size.map fun size => some (Int.ofNat size))

theorem convertEthType_chars (type : Elementary) :
    convertEthType (String.ofList type.chars) = .ok (some type.formatKey) := by
  have supported : assertSupportedSize (String.ofList type.chars)
      ⟨some type.baseType, type.size.map fun size => some (Int.ofNat size),
        false, []⟩ = .ok () := by
    cases type with
    | bool | address | string => rfl
    | bytes bound =>
        cases bound with
        | none => rfl
        | some bound =>
            have atMost := bound.atMost
            have positive := bound.positive
            refine if_neg ?_
            simp only [Int.ofNat_eq_natCast]
            omega
    | uint bound | int bound =>
        cases bound with
        | none => rfl
        | some bound =>
            have atMost := bound.atMost
            have positive := bound.positive
            refine if_neg ?_
            simp only [Int.ofNat_eq_natCast]
            omega
  rw [convertEthType, parseBaseType_chars]
  simp only [bind, Except.bind, supported]
  cases type <;> rfl

theorem formats_formatKey (cryptography : Cryptography)
    (extraFormats : String → Data → Bool) (type : Elementary) :
    formats cryptography extraFormats type.formatKey =
      some (type.check cryptography) := by
  cases type with
  | bool | address | string => rfl
  | bytes bound =>
      cases bound with
      | none => rfl
      | some bound =>
          have atMost := bound.atMost
          have positive := bound.positive
          refine if_pos ?_
          simp only [Int.ofNat_eq_natCast]
          omega
  | uint bound | int bound =>
      cases bound with
      | none => rfl
      | some bound =>
          have atMost := bound.atMost
          have positive := bound.positive
          refine if_pos ?_
          simp only [Int.ofNat_eq_natCast]
          omega

end Elementary

/-! ## The schema of a type -/

namespace AbiType

mutual

/-- The schema of a type that keeps the sizes it has. -/
def jsonSchema : AbiType → JsonSchema
  | .elementary type => .leaf (some type.formatKey)
  | .array element length =>
      ⟨some "array", none, some (.inl element.jsonSchema), length, length⟩
  | .tuple components => listSchema (jsonSchemas components)

def jsonSchemas : List (String × AbiType) → List JsonSchema
  | [] => []
  | (_, type) :: rest => type.jsonSchema :: jsonSchemas rest

end

theorem not_mem_baseChars (type : AbiType) {char : Char}
    (other : char.isAlphanum = false) : char ∉ type.baseChars := by
  rw [baseChars]
  split
  · exact Elementary.not_mem_chars _ other
  · intro member
    have alpha := List.all_eq_true.mp BaseType.tuple.isAlpha_text char member
    rw [Char.isAlphanum, alpha] at other
    cases other

theorem parseBaseType_text (type : AbiType) :
    parseBaseType type.text =
      readBaseType type.baseChars (!type.dimensions.isEmpty)
        (arraySizes type.dimensions) :=
  parseBaseType_brackets (type.not_mem_baseChars (by decide))
    (type.not_mem_baseChars (by decide)) type.dimensions

theorem wrapDimensions_append (element : JsonSchema) (sizes : List Int)
    (size : Int) :
    wrapDimensions element (sizes ++ [size]) =
      ⟨some "array", none, some (.inl (wrapDimensions element sizes)),
        if 0 ≤ size then some size.toNat else none,
        if 0 ≤ size then some size.toNat else none⟩ := by
  rw [wrapDimensions, List.foldl_append]
  rfl

theorem wrapDimensions_innermost : ∀ type : AbiType,
    wrapDimensions type.innermost.jsonSchema (arraySizes type.dimensions) =
      type.jsonSchema
  | .elementary _ => rfl
  | .tuple _ => rfl
  | .array element length => by
      have inner := wrapDimensions_innermost element
      rw [arraySizes] at inner
      rw [innermost, dimensions, arraySizes, List.map_append, List.map_singleton,
        wrapDimensions_append, inner, jsonSchema]
      cases length with
      | none => rfl
      | some length => simp

@[simp] theorem loosenElement_innermost : ∀ type : AbiType,
    type.loosenElement.innermost = type.innermost.loosenElement
  | .elementary _ => by simp [loosenElement, innermost]
  | .tuple _ => by simp [loosenElement, innermost]
  | .array element _ => by
      rw [loosenElement, innermost, innermost, loosenElement_innermost]

@[simp] theorem loosenElement_dimensions : ∀ type : AbiType,
    type.loosenElement.dimensions = type.dimensions
  | .elementary _ => by simp [loosenElement, dimensions]
  | .tuple _ => by simp [loosenElement, dimensions]
  | .array element _ => by
      rw [loosenElement, dimensions, dimensions, loosenElement_dimensions]

theorem innermost_array : ∀ (type element : AbiType) (length : Option Nat),
    type.innermost ≠ .array element length
  | .elementary _, _, _ => by simp [innermost]
  | .tuple _, _, _ => by simp [innermost]
  | .array inner _, _, _ => innermost_array inner _ _

/-- A type with dimensions is an array. -/
theorem loosen_of_dimensions {type : AbiType}
    (array : type.dimensions ≠ []) : type.loosen = type.loosenElement := by
  cases type with
  | elementary | tuple => exact absurd rfl array
  | array => rfl

theorem innermost_of_dimensions {type : AbiType}
    (single : type.dimensions = []) : type.innermost = type := by
  cases type with
  | elementary | tuple => rfl
  | array => simp [dimensions] at single

theorem components_of_innermost : ∀ type : AbiType,
    type.components = type.innermost.components
  | .elementary _ => rfl
  | .tuple _ => rfl
  | .array element _ => by
      rw [components, innermost]
      exact components_of_innermost element

/-- The schema of a type whose components, if any, have theirs. -/
theorem typeSchema_text (type : AbiType)
    (given : Except SchemaError JsonSchema)
    (inner : ∀ components, type.innermost = .tuple components →
      given = .ok (listSchema (jsonSchemas (loosenAll components)))) :
    typeSchema type.text given = .ok type.loosen.jsonSchema := by
  have parsed := type.parseBaseType_text
  have wrapped := type.loosenElement.wrapDimensions_innermost
  rw [loosenElement_innermost, loosenElement_dimensions] at wrapped
  cases root : type.innermost with
  | array element length => exact absurd root (innermost_array type _ _)
  | tuple components =>
      have chars : type.baseChars = BaseType.tuple.text.toList := by
        rw [baseChars, root]
      rw [chars] at parsed
      have read : parseBaseType type.text =
          ⟨some .tuple, none, !type.dimensions.isEmpty,
            arraySizes type.dimensions⟩ := parsed
      rw [root, loosenElement, jsonSchema] at wrapped
      simp only [typeSchema, read, if_true, inner components root, bind,
        Except.bind]
      cases dimensions : type.dimensions with
      | nil =>
          have same := innermost_of_dimensions dimensions
          rw [root] at same
          subst same
          rfl
      | cons first rest =>
          rw [loosen_of_dimensions (by simp [dimensions]), ← wrapped,
            dimensions]
          rfl
  | elementary leaf =>
      have chars : type.baseChars = leaf.chars := by rw [baseChars, root]
      rw [chars, leaf.readBaseType_chars] at parsed
      have other : some leaf.baseType ≠ some .tuple := by
        cases leaf <;> simp [Elementary.baseType]
      rw [root, loosenElement, jsonSchema] at wrapped
      cases dimensions : type.dimensions with
      | nil =>
          have same := innermost_of_dimensions dimensions
          rw [root] at same
          subst same
          have converted := leaf.convertEthType_chars
          have text : (AbiType.elementary leaf).text =
              String.ofList leaf.chars := by
            rw [AbiType.text, chars, dimensions, List.flatMap_nil,
              List.append_nil]
          rw [dimensions, text] at parsed
          rw [text]
          simp only [typeSchema, parsed, if_neg other, List.isEmpty_nil,
            Bool.not_true, Bool.false_eq_true, if_false, converted,
            Except.map, bind, Except.bind]
          rfl
      | cons first rest =>
          have converted := leaf.base.convertEthType_chars
          rw [leaf.chars_base] at converted
          rw [dimensions] at parsed
          simp only [typeSchema, parsed, if_neg other, List.isEmpty_cons,
            Bool.not_false, if_true, Option.map_some, Option.getD_some,
            converted, Except.map, bind, Except.bind]
          rw [loosen_of_dimensions (by simp [dimensions]), ← wrapped,
            dimensions]

mutual

theorem componentSchemas :
    ∀ (type : AbiType) (components : List (String × AbiType)),
    type.innermost = .tuple components →
      type.components = some (parameters components) ∧
        itemSchemas (parameters components) =
          .ok (jsonSchemas (loosenAll components))
  | .elementary _, _, root => by
      simp [innermost] at root
  | .array element _, components, root => by
      rw [innermost] at root
      rw [AbiType.components]
      exact componentSchemas element components root
  | .tuple inner, components, root => by
      obtain rfl : inner = components := by simpa [innermost] using root
      exact ⟨rfl, parameterSchemas inner⟩

theorem parameterSchemas : ∀ components : List (String × AbiType),
    itemSchemas (parameters components) =
      .ok (jsonSchemas (loosenAll components))
  | [] => rfl
  | (name, type) :: rest => by
      have others := parameterSchemas rest
      have own := componentSchemas type
      have first : itemSchema (.parameter name type.text type.components) =
          .ok type.loosen.jsonSchema := by
        cases components : type.components with
        | none =>
            rw [itemSchema]
            refine typeSchema_text type _ ?_
            intro inner root
            rw [(own inner root).1] at components
            cases components
        | some schemas =>
            rw [itemSchema]
            refine typeSchema_text type _ ?_
            intro inner root
            obtain ⟨given, read⟩ := own inner root
            rw [components] at given
            cases given
            rw [read]
            rfl
      rw [parameters, itemSchemas, first, others]
      rfl

end

/-- A named type has the schema of the type as the validator takes it. -/
theorem itemSchema_named {schema : Schema} {type : AbiType}
    (named : Named schema type) :
    itemSchema schema = .ok type.loosen.jsonSchema := by
  rcases named with ⟨name, rfl⟩ | ⟨single, rfl⟩
  · have alone := parameterSchemas [(name, type)]
    rw [parameters, parameters, itemSchemas] at alone
    cases schema : itemSchema
        (.parameter name type.text type.components) with
    | error error =>
        rw [schema] at alone
        cases alone
    | ok found =>
        rw [schema] at alone
        simp only [bind, Except.bind, itemSchemas, loosenAll, jsonSchemas,
          Except.ok.injEq, List.cons.injEq] at alone
        rw [alone.1]
  · rw [itemSchema]
    refine typeSchema_text type _ ?_
    intro components root
    rw [(componentSchemas type components root).1] at single
    cases single

end AbiType

/-! ## What the validators of the schemas accept -/

section Acceptance

variable (cryptography : Cryptography)
    (extraFormats : String → Data → Bool)

mutual

theorem accepts_jsonSchema : ∀ (type : AbiType) (value : Data),
    (convertToZod type.jsonSchema).accepts
        (formats cryptography extraFormats) value ↔
      Conforms cryptography type value
  | .elementary type, value => by
      rw [AbiType.jsonSchema, JsonSchema.leaf, Conforms]
      simp only [convertToZod, ZodType.accepts,
        type.formats_formatKey cryptography extraFormats]
  | .array element length, .array values => by
      have inner := accepts_jsonSchema element
      rw [AbiType.jsonSchema, convertToZod, ZodType.accepts, Conforms,
        Bool.and_eq_true, List.all_eq_true]
      have lengths : (length.all (fun bound => decide (bound ≤ values.length)) &&
          length.all fun bound => decide (values.length ≤ bound)) = true ↔
          ∀ declared ∈ length, values.length = declared := by
        cases length with
        | none => simp
        | some declared =>
            simp only [Option.all_some, Bool.and_eq_true, decide_eq_true_iff,
              Option.mem_some_iff, forall_eq']
            omega
      rw [lengths]
      simp only [inner]
  | .array element length, .scalar value => by
      simp [AbiType.jsonSchema, convertToZod, ZodType.accepts, Conforms]
  | .array element length, .object entries => by
      simp [AbiType.jsonSchema, convertToZod, ZodType.accepts, Conforms]
  | .tuple [], .array values => by
      cases values with
      | nil => simp [AbiType.jsonSchema, AbiType.jsonSchemas, listSchema,
          convertToZod, ZodType.accepts, Conforms, ConformsEach]
      | cons => simp [AbiType.jsonSchema, AbiType.jsonSchemas, listSchema,
          convertToZod, ZodType.accepts, Conforms, ConformsEach]
  | .tuple (component :: rest), .array values => by
      have each := acceptsEach_jsonSchemas (component :: rest) values
      rw [AbiType.jsonSchema, Conforms, ← each]
      obtain ⟨name, type⟩ := component
      rw [AbiType.jsonSchemas, listSchema, convertToZod, ZodType.accepts]
  | .tuple [], .scalar value => by
      simp [AbiType.jsonSchema, AbiType.jsonSchemas, listSchema,
        convertToZod, ZodType.accepts, Conforms]
  | .tuple [], .object entries => by
      simp [AbiType.jsonSchema, AbiType.jsonSchemas, listSchema,
        convertToZod, ZodType.accepts, Conforms]
  | .tuple (component :: rest), .scalar value => by
      simp [AbiType.jsonSchema, AbiType.jsonSchemas, listSchema,
        convertToZod, ZodType.accepts, Conforms]
  | .tuple (component :: rest), .object entries => by
      simp [AbiType.jsonSchema, AbiType.jsonSchemas, listSchema,
        convertToZod, ZodType.accepts, Conforms]

theorem acceptsEach_jsonSchemas :
    ∀ (components : List (String × AbiType)) (values : List Data),
    acceptsEach (formats cryptography extraFormats)
        (convertAllToZod (AbiType.jsonSchemas components)) values ↔
      ConformsEach cryptography components values
  | [], [] => by simp [AbiType.jsonSchemas, convertAllToZod, acceptsEach,
      ConformsEach]
  | [], _ :: _ => by simp [AbiType.jsonSchemas, convertAllToZod, acceptsEach,
      ConformsEach]
  | _ :: _, [] => by simp [AbiType.jsonSchemas, convertAllToZod, acceptsEach,
      ConformsEach]
  | (_, type) :: rest, value :: values => by
      rw [AbiType.jsonSchemas, convertAllToZod, acceptsEach, ConformsEach,
        Bool.and_eq_true, accepts_jsonSchema type value,
        acceptsEach_jsonSchemas rest values]

end

end Acceptance

/-! ## Sizes below arrays -/

section Sizes

variable (cryptography : Cryptography)

theorem power_le {bits : Nat} (small : bits ≤ 512) :
    (2 : Int) ^ bits ≤ 2 ^ 512 :=
  pow_le_pow_right₀ one_le_two small

theorem isUInt_default {bits : Nat} (small : bits ≤ 512) {value : Data}
    (checked : isUInt (some bits) value = true) :
    isUInt none value = true := by
  have bound := power_le small
  simp only [isUInt, Option.getD_some, Option.getD_none] at checked ⊢
  split at checked
  · exact checked
  · cases number : integerToCheck value with
    | none =>
        rw [number] at checked
        cases checked
    | some number =>
        simp only [number, Bool.and_eq_true, decide_eq_true_iff] at checked ⊢
        exact ⟨checked.1, by omega⟩

theorem isInt_default {bits : Nat} (small : bits ≤ 512) {value : Data}
    (checked : isInt (some bits) value = true) :
    isInt none value = true := by
  have bound : (2 : Int) ^ (bits - 1) ≤ 2 ^ 511 :=
    pow_le_pow_right₀ one_le_two (by omega)
  simp only [isInt, Option.getD_some, Option.getD_none, Bool.and_eq_true]
    at checked ⊢
  refine ⟨checked.1, ?_⟩
  have ranged := checked.2
  cases number : integerToCheck value with
  | none =>
      rw [number] at ranged
      cases ranged
  | some number =>
      simp only [number, Bool.and_eq_true, decide_eq_true_iff] at ranged ⊢
      constructor
      · omega
      · omega

theorem isBytes_default {bytes : Nat} {value : Data}
    (checked : isBytes (some bytes) value = true) :
    isBytes none value = true := by
  rw [isBytes] at checked ⊢
  cases content : Format.bytesToUint8Array value with
  | none =>
      rw [content] at checked
      cases checked
  | some content => rfl

/-- What satisfies the format of a sized type satisfies that of its base. -/
theorem Elementary.check_base {type : Elementary} {value : Data}
    (checked : type.check cryptography value = true) :
    type.base.check cryptography value = true := by
  cases type with
  | bool | address | string => exact checked
  | bytes size =>
      cases size with
      | none => exact checked
      | some size => exact isBytes_default checked
  | uint size =>
      cases size with
      | none => exact checked
      | some size =>
          have bits : 8 * size.bytes ≤ 512 :=
            Nat.mul_le_mul_left 8 size.atMost
          exact isUInt_default bits checked
  | int size =>
      cases size with
      | none => exact checked
      | some size =>
          have bits : 8 * size.bytes ≤ 512 :=
            Nat.mul_le_mul_left 8 size.atMost
          exact isInt_default bits checked

mutual

/-- Conforming is conforming to the type without sizes below arrays, and
having these sizes. -/
theorem conforms_loosen : ∀ (type : AbiType) (value : Data),
    Conforms cryptography type value ↔
      Conforms cryptography type.loosen value ∧
        KeepsSizes cryptography type value
  | .elementary type, value => by
      simp [AbiType.loosen, KeepsSizes]
  | .array element length, .array values => by
      have inner := conforms_loosenElement element
      rw [AbiType.loosen, Conforms, Conforms, KeepsSizes]
      simp only [inner]
      constructor
      · rintro ⟨lengths, each⟩
        exact ⟨⟨lengths, fun value member => (each value member).1⟩,
          fun value member => (each value member).2⟩
      · rintro ⟨⟨lengths, each⟩, sizes⟩
        exact ⟨lengths, fun value member =>
          ⟨each value member, sizes value member⟩⟩
  | .array _ _, .scalar _ => by simp [AbiType.loosen, Conforms]
  | .array _ _, .object _ => by simp [AbiType.loosen, Conforms]
  | .tuple components, .array values => by
      rw [AbiType.loosen, Conforms, Conforms, KeepsSizes]
      exact conformsEach_loosen components values
  | .tuple _, .scalar _ => by simp [AbiType.loosen, Conforms]
  | .tuple _, .object _ => by simp [AbiType.loosen, Conforms]

theorem conforms_loosenElement : ∀ (type : AbiType) (value : Data),
    Conforms cryptography type value ↔
      Conforms cryptography type.loosenElement value ∧
        ElementKeepsSizes cryptography type value
  | .elementary type, value => by
      rw [AbiType.loosenElement, Conforms, Conforms, ElementKeepsSizes]
      exact ⟨fun checked => ⟨type.check_base cryptography checked, checked⟩,
        And.right⟩
  | .array element length, .array values => by
      have inner := conforms_loosenElement element
      rw [AbiType.loosenElement, Conforms, Conforms, ElementKeepsSizes]
      simp only [inner]
      constructor
      · rintro ⟨lengths, each⟩
        exact ⟨⟨lengths, fun value member => (each value member).1⟩,
          fun value member => (each value member).2⟩
      · rintro ⟨⟨lengths, each⟩, sizes⟩
        exact ⟨lengths, fun value member =>
          ⟨each value member, sizes value member⟩⟩
  | .array _ _, .scalar _ => by simp [AbiType.loosenElement, Conforms]
  | .array _ _, .object _ => by simp [AbiType.loosenElement, Conforms]
  | .tuple components, .array values => by
      rw [AbiType.loosenElement, Conforms, Conforms, ElementKeepsSizes]
      exact conformsEach_loosen components values
  | .tuple _, .scalar _ => by simp [AbiType.loosenElement, Conforms]
  | .tuple _, .object _ => by simp [AbiType.loosenElement, Conforms]

theorem conformsEach_loosen :
    ∀ (components : List (String × AbiType)) (values : List Data),
    ConformsEach cryptography components values ↔
      ConformsEach cryptography (AbiType.loosenAll components) values ∧
        EachKeepsSizes cryptography components values
  | [], [] => by simp [AbiType.loosenAll, ConformsEach, EachKeepsSizes]
  | [], _ :: _ => by simp [AbiType.loosenAll, ConformsEach]
  | _ :: _, [] => by simp [AbiType.loosenAll, ConformsEach]
  | (_, type) :: rest, value :: values => by
      rw [AbiType.loosenAll, ConformsEach, ConformsEach, EachKeepsSizes,
        conforms_loosen type value, conformsEach_loosen rest values]
      exact and_and_and_comm

end

end Sizes

/-! ## Validation -/

/-- The elements of the schema name the types of the components in order. -/
inductive NamedAll : List Schema → List (String × AbiType) → Prop
  | nil : NamedAll [] []
  | cons {schema : Schema} {name : String} {type : AbiType}
      {schemas : List Schema} {types : List (String × AbiType)} :
      AbiType.Named schema type → NamedAll schemas types →
      NamedAll (schema :: schemas) ((name, type) :: types)

section Validate

variable (cryptography : Cryptography)
    (extraFormats : String → Data → Bool)

theorem itemSchemas_named {schemas : List Schema}
    {types : List (String × AbiType)} (named : NamedAll schemas types) :
    itemSchemas schemas =
      .ok (AbiType.jsonSchemas (AbiType.loosenAll types)) := by
  induction named with
  | nil => rfl
  | cons first _ rest =>
      rw [itemSchemas, AbiType.itemSchema_named first, rest]
      rfl

/-- The validator accepts the values of the types without sizes below
arrays. -/
theorem validate_named {schemas : List Schema}
    {types : List (String × AbiType)} (named : NamedAll schemas types)
    (data : List Data) :
    validate cryptography extraFormats schemas data = .ok () ↔
      ConformsEach cryptography (AbiType.loosenAll types) data := by
  have each := acceptsEach_jsonSchemas cryptography extraFormats
    (AbiType.loosenAll types) data
  rw [validate, abiSchemaToJsonSchema, itemSchemas_named named]
  cases named with
  | nil =>
      cases data with
      | nil => simp [Except.map, Except.mapError, AbiType.loosenAll,
          ConformsEach, bind, Except.bind]
      | cons => simp [Except.map, Except.mapError, AbiType.loosenAll,
          ConformsEach, bind, Except.bind]
  | cons first rest =>
      rw [AbiType.loosenAll] at each ⊢
      rw [← each]
      simp only [Except.map, Except.mapError, bind, Except.bind, listSchema,
        AbiType.jsonSchemas, convertToZod, ZodType.accepts,
        List.isEmpty_cons, Bool.false_and, Bool.false_eq_true, if_false]
      split
      · rename_i accepted
        simp [accepted]
      · rename_i refused
        simp [refused]

/-- Validation succeeds exactly for the conforming values if and only if the
sizes below arrays decide nothing: the data does not conform even without
them, or keeps them. -/
theorem validate_conforms_iff (schemas : List Schema)
    (types : List (String × AbiType)) (named : NamedAll schemas types)
    (data : List Data) :
    (validate cryptography extraFormats schemas data = .ok () ↔
      ConformsEach cryptography types data) ↔
    (ConformsEach cryptography (AbiType.loosenAll types) data →
      EachKeepsSizes cryptography types data) := by
  rw [validate_named cryptography extraFormats named,
    conformsEach_loosen cryptography types data]
  exact iff_self_and

end Validate

/-- `uint8[1]` -/
def byteArray : AbiType :=
  .array (.elementary (.uint (some .one))) (some 1)

theorem named_byteArray :
    NamedAll [.text "uint8[1]"] [("", byteArray)] := by
  refine .cons (Or.inr ⟨rfl, ?_⟩) .nil
  exact congrArg Schema.text (by decide)

theorem validate_conforms_iff_byte :
    validate .simple (fun _ _ => false) [.text "uint8[1]"]
        [.array [.scalar (.number 255)]] = .ok () ↔
      ConformsEach .simple [("", byteArray)]
        [.array [.scalar (.number 255)]] := by
  refine (validate_conforms_iff .simple (fun _ _ => false)
    [.text "uint8[1]"] [("", byteArray)] named_byteArray
    [.array [.scalar (.number 255)]]).mpr ?_
  intro _
  refine ⟨?_, trivial⟩
  intro value member
  obtain rfl := List.mem_singleton.mp member
  exact (by decide : isUInt (some 8) (.scalar (.number 255)) = true)

/-- The element of an array of bytes may be any integer. -/
theorem not_validate_conforms :
    ¬ ∀ (schemas : List Schema) (types : List (String × AbiType)),
      NamedAll schemas types → ∀ data : List Data,
        validate .simple (fun _ _ => false) schemas data = .ok () ↔
          ConformsEach .simple types data := by
  intro claim
  have accepted : validate .simple (fun _ _ => false) [.text "uint8[1]"]
      [.array [.scalar (.number 256)]] = .ok () := by
    refine (validate_named .simple _ named_byteArray _).mpr ?_
    refine ⟨⟨?_, ?_⟩, trivial⟩
    · intro declared member
      cases member
      rfl
    intro value member
    obtain rfl := List.mem_singleton.mp member
    have base : isUInt none (.scalar (.number 256)) = true :=
      isUInt_default (by decide : 16 ≤ 512) (by decide)
    exact base
  have conforms := (claim _ _ named_byteArray _).mp accepted
  have checked : isUInt (some 8) (.scalar (.number 256)) = true :=
    conforms.1.2 (.scalar (.number 256)) List.mem_cons_self
  exact absurd checked (by decide)

end Web3Js.Validator
