import Web3Js.Format.Conversion

/-!
# Validation of values against types

Types become a JSON schema, with one array schema around the element for each
dimension, and the schema becomes a validator of the library that checks the
data.  An array of elementary values has the schema of the base type for its
elements.
-/

namespace Web3Js.Validator

open Format (Data Scalar)

section Formats

variable (cryptography : Cryptography)

/-- The integer that `isInt` and `isUInt` compare; `none` where `BigInt`
throws. -/
def integerToCheck : Data → Option Int
  | .scalar (.number value) => some value
  | .scalar (.bigint value) => some value
  | .scalar (.text content) =>
      if isHexStrict content then hexToNumber content
      else bigIntOfString content
  | _ => none

def isUInt (size : Option Nat) (value : Data) : Bool :=
  match value with
  | .scalar (.text "") => false
  | value =>
      match integerToCheck value with
      | some number => 0 ≤ number && number ≤ 2 ^ size.getD 512 - 1
      | none => false

def isInt (size : Option Nat) (value : Data) : Bool :=
  let isUnsafe := match value with
    | .scalar (.number number) => (maxSafeInteger : Int) < number
    | _ => false
  !isUnsafe &&
    match integerToCheck value with
    | some number =>
        -2 ^ (size.getD 512 - 1) ≤ number &&
          number ≤ 2 ^ (size.getD 512 - 1) - 1
    | none => false

def isBytes (size : Option Nat) (value : Data) : Bool :=
  match Format.bytesToUint8Array value with
  | some bytes => size.all fun size => bytes.length == size
  | none => false

def isBoolean : Data → Bool
  | .scalar (.boolean _) => true
  | .scalar (.text content) =>
      if isHexStrict content then content == "0x1" || content == "0x0"
      else content == "1" || content == "0"
  | .scalar (.number value) => value == 1 || value == 0
  | _ => false

def isString : Data → Bool
  | .scalar (.text _) => true
  | _ => false

def isAddress : Data → Bool
  | .scalar (.text content) => isAddressString cryptography content true
  | _ => false

/-- The key of a format: `${baseType}${baseTypeSize}`, or the name of a format
that is no ABI type. -/
inductive FormatKey where
  | base (baseType : BaseType) (baseTypeSize : Option (Option Int))
  | extra (name : String)
deriving DecidableEq

/-- `extraTypes` -/
def extraTypes : List String :=
  ["hex", "number", "blockNumber", "blockNumberOrTag", "filter", "bloom",
    "qrlTypedData"]

/-- `formats`; the predicates of the extra types are given. -/
def formats (extraFormats : String → Data → Bool) :
    FormatKey → Option (Data → Bool)
  | .base .bool none => some isBoolean
  | .base .string none => some isString
  | .base .address none => some (isAddress cryptography)
  | .base .int none => some (isInt none)
  | .base .uint none => some (isUInt none)
  | .base .bytes none => some (isBytes none)
  | .base .int (some (some size)) =>
      if 8 ≤ size ∧ size ≤ 512 ∧ size % 8 = 0 then
        some (isInt (some size.toNat))
      else none
  | .base .uint (some (some size)) =>
      if 8 ≤ size ∧ size ≤ 512 ∧ size % 8 = 0 then
        some (isUInt (some size.toNat))
      else none
  | .base .bytes (some (some size)) =>
      if 1 ≤ size ∧ size ≤ 64 then some (isBytes (some size.toNat))
      else if size = 256 then some (isBytes none)
      else none
  | .extra name => if name ∈ extraTypes then some (extraFormats name) else none
  | _ => none

end Formats

/-- An element of a validation schema: a type, a full parameter, or the types
of a tuple in short. -/
inductive Schema where
  | text (type : String)
  | parameter (name type : String) (components : Option (List Schema))
  | list (items : List Schema)

/-- The parts of a JSON schema that are made of types. -/
structure JsonSchema where
  type : Option String
  format : Option FormatKey
  /-- One schema for all elements, or one for each. -/
  items : Option (JsonSchema ⊕ List JsonSchema)
  minItems : Option Nat
  maxItems : Option Nat

inductive SchemaError where
  | unsupportedSize (type : String) (baseType : BaseType)
  | notValid (type : String)
  | tupleNotImplemented
  | typeError
deriving DecidableEq

/-- `assertSupportedSize` -/
def assertSupportedSize (type : String) (parsed : ParsedType) :
    Except SchemaError Unit :=
  match parsed.baseType, parsed.baseTypeSize.join with
  | some .int, some size =>
      if size ≤ 0 ∨ 512 < size ∨ size % 8 ≠ 0 then
        .error (.unsupportedSize type .int)
      else .ok ()
  | some .uint, some size =>
      if size ≤ 0 ∨ 512 < size ∨ size % 8 ≠ 0 then
        .error (.unsupportedSize type .uint)
      else .ok ()
  | some .bytes, some size =>
      if size ≤ 0 ∨ 64 < size then .error (.unsupportedSize type .bytes)
      else .ok ()
  | _, _ => .ok ()

def convertEthType (type : String) : Except SchemaError (Option FormatKey) := do
  let parsed := parseBaseType type
  assertSupportedSize type parsed
  match parsed.baseType with
  | none =>
      if type ∈ extraTypes then .ok (some (.extra type))
      else .error (.notValid type)
  | some .tuple => .error .tupleNotImplemented
  | some baseType => .ok (some (.base baseType parsed.baseTypeSize))

def JsonSchema.leaf (format : Option FormatKey) : JsonSchema :=
  ⟨none, format, none, none, none⟩

/-- The array schemas around an element, from the inside out. -/
def wrapDimensions (element : JsonSchema) (arraySizes : List Int) :
    JsonSchema :=
  arraySizes.foldl
    (fun schema size =>
      let bound := if 0 ≤ size then some size.toNat else none
      ⟨some "array", none, some (.inl schema), bound, bound⟩)
    element

/-- The schema of one type; that of its components is only read for a
tuple. -/
def typeSchema (abiType : String)
    (components : Except SchemaError JsonSchema) :
    Except SchemaError JsonSchema := do
  let parsed := parseBaseType abiType
  let elementSchema ←
    if parsed.baseType = some .tuple then components
    else if parsed.isArray then
      (convertEthType ((parsed.baseType.map BaseType.text).getD "undefined")).map
        JsonSchema.leaf
    else (convertEthType abiType).map JsonSchema.leaf
  if parsed.isArray then
    .ok (wrapDimensions elementSchema parsed.arraySizes)
  else .ok elementSchema

/-- The schema of a list of types, of which the schemas are given. -/
def listSchema (items : List JsonSchema) : JsonSchema :=
  ⟨some "array", none, some (.inr items), some items.length,
    some items.length⟩

/-- The type text of a tuple in short form, `['tuple[2]', [...]]`. -/
def isTupleText (type : String) : Bool := type.startsWith "tuple"

mutual

/-- The schemas of `abiSchemaToJsonSchema`, one for each type. -/
def itemSchemas : List Schema → Except SchemaError (List JsonSchema)
  | [] => .ok []
  | abi :: abis => do
      let schema ← itemSchema abi
      let schemas ← itemSchemas abis
      .ok (schema :: schemas)

def itemSchema : Schema → Except SchemaError JsonSchema
  | .parameter _ type (some components) =>
      typeSchema type ((itemSchemas components).map listSchema)
  | .parameter _ type none => typeSchema type (.error .typeError)
  | .text type => typeSchema type (.ok (listSchema []))
  | .list (.text type :: .list components :: rest) =>
      if isTupleText type then
        typeSchema type ((itemSchemas components).map listSchema)
      else
        typeSchema "tuple"
          ((itemSchemas (.text type :: .list components :: rest)).map
            listSchema)
  | .list items => typeSchema "tuple" ((itemSchemas items).map listSchema)

end

def abiSchemaToJsonSchema (abis : List Schema) :
    Except SchemaError JsonSchema :=
  (itemSchemas abis).map listSchema

/-- The validators of the library that types are checked with. -/
inductive ZodType where
  | tuple (items : List ZodType)
  | array (element : ZodType) (min max : Option Nat)
  | refine (format : FormatKey)
  /-- `z.object({ data: z.any() }).partial()` -/
  | data

mutual

/-- `convertToZod` on the schemas of types. -/
def convertToZod : JsonSchema → ZodType
  | ⟨some "array", _, some (.inr (item :: items)), _, _⟩ =>
      .tuple (convertAllToZod (item :: items))
  -- The schema of no types is a list without elements, which has no key.
  | ⟨some "array", _, some (.inr []), minItems, maxItems⟩ =>
      .array .data minItems maxItems
  | ⟨some "array", _, some (.inl item), minItems, maxItems⟩ =>
      .array (convertToZod item) minItems maxItems
  | ⟨_, some format, _, _, _⟩ => .refine format
  | _ => .data

def convertAllToZod : List JsonSchema → List ZodType
  | [] => []
  | item :: items => convertToZod item :: convertAllToZod items

end

section Acceptance

variable (checks : FormatKey → Option (Data → Bool))

mutual

/-- What the validators of the library accept, as documented: a tuple takes an
array with an element for each item, an array an array of a length within the
bounds, and a refinement what its predicate holds of. -/
def ZodType.accepts : ZodType → Data → Bool
  | .tuple items, .array elements => acceptsEach items elements
  | .array element min max, .array elements =>
      min.all (· ≤ elements.length) && max.all (elements.length ≤ ·) &&
        elements.all fun value => element.accepts value
  | .refine format, value =>
      match checks format with
      | some check => check value
      | none => false
  | .data, .object _ | .data, .scalar (.bytes _) => true
  | _, _ => false

def acceptsEach : List ZodType → List Data → Bool
  | [], [] => true
  | item :: items, element :: elements =>
      item.accepts element && acceptsEach items elements
  | _, _ => false

end

end Acceptance

inductive ValidationError where
  | schema (error : SchemaError)
  /-- `empty schema against data can not be validated` -/
  | emptySchema
  | invalid
deriving DecidableEq

/-- `Web3Validator.validate` -/
def validate (cryptography : Cryptography)
    (extraFormats : String → Data → Bool) (schema : List Schema)
    (data : List Data) : Except ValidationError Unit := do
  let jsonSchema ← (abiSchemaToJsonSchema schema).mapError .schema
  if schema.isEmpty && data.isEmpty then .ok ()
  else if schema.isEmpty then .error .emptySchema
  else if (convertToZod jsonSchema).accepts
      (formats cryptography extraFormats) (.array data) then .ok ()
  else .error .invalid

end Web3Js.Validator
