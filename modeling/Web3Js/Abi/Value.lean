import Mathlib.Data.Rat.Defs
import Web3Js.Lib.Outcome
import Web3Js.Address
import Web3Js.Abi.Keys

/-!
# Values and errors of the ABI coder

`Value` is what a caller hands to the encoder, `Decoded` what the decoder
returns.  Big numbers are integers; the conversions of the number and byte
packages that the coders call on caller values are parameters, and
`Externals.Documented` says what the coders rely on.
-/

namespace Web3Js.Abi

/-- A JavaScript value.  An object is known by its visible properties, big
numbers included; of a function only the text matters here. -/
inductive Value
  | undefined
  | null
  | boolean (value : Bool)
  | number (value : ℚ)
  | notANumber
  | infinity (negative : Bool)
  | bigint (value : Int)
  | string (value : String)
  | function (source : String)
  | array (elements : List Value)
  | object (properties : List (String × Value))
  /-- A `Uint8Array`. -/
  | byteArray (bytes : Bytes)

/-- `value ? 1 : 0` takes the first branch. -/
def Value.truthy : Value → Bool
  | .undefined | .null | .notANumber => false
  | .boolean value => value
  | .number value => value ≠ 0
  | .bigint value => value ≠ 0
  | .string value => value ≠ ""
  | .infinity _ | .function _ | .array _ | .object _
  | .byteArray _ => true

/-- The own properties of a byte array, which a copy of it keeps. -/
def byteProperties (bytes : Bytes) : List (String × Value) :=
  bytes.zipIdx.map fun (byte, index) => (toString index, .number byte.toNat)

/-- What is read of a byte array by name. -/
def readableProperties (bytes : Bytes) : List (String × Value) :=
  ("length", .number bytes.length) :: byteProperties bytes

/-- The error codes of the logger that the coders raise or distinguish. -/
inductive ErrorCode
  | bufferOverrun
  | numericFault
  | invalidArgument
  | missingArgument
  | unexpectedArgument
  | unspecified
  deriving DecidableEq, Repr

structure Error where
  code : ErrorCode
  message : String
  /-- The argument that `throwArgumentError` names. -/
  argument : Option String := none
  deriving DecidableEq, Repr

/-- `logger.throwArgumentError` -/
def Error.ofArgument (message : String) (argument : Option String) : Error :=
  { code := .invalidArgument, message, argument }

/-- `Number.MAX_SAFE_INTEGER`, also the length limit of strings and arrays. -/
def maxSafeInteger : Nat := 2 ^ 53 - 1

namespace BigNumber

/-- The low bits of a number. -/
def mask (value : Int) (bits : Nat) : Except Error Int :=
  if value < 0 then
    .error { code := .numericFault, message := "negative-width" }
  else
    .ok (value % 2 ^ bits)

/-- Two's complement of a negative number; others stay. -/
def toTwos (value : Int) (width : Nat) : Int :=
  if value < 0 then 2 ^ width + value else value

/-- A number whose top bit is set stands for a negative one. -/
def fromTwos (value : Int) (width : Nat) : Int :=
  if value / 2 ^ (width - 1) % 2 = 1 then value - 2 ^ width else value

def toNumber (value : Int) : Except Error Int :=
  if value.natAbs ≤ maxSafeInteger then
    .ok value
  else
    .error { code := .numericFault, message := "overflow" }

def toHexString (value : Nat) : String := hexlify (BigEndian.minimal value)

/-- `arrayify` of a big number. -/
def toBytes (value : Int) : Except Error Bytes :=
  if value < 0 then
    .error (Error.ofArgument "invalid arrayify value" (some "value"))
  else
    .ok (BigEndian.minimal value.toNat)

end BigNumber

/-- `hexZeroPad` -/
def hexZeroPad (value : String) (length : Nat) : Except Error String :=
  let digits := value.toList.drop 2
  if 2 * length < digits.length then
    .error (Error.ofArgument "value out of range" (some "value"))
  else
    .ok (String.ofList ('0' :: 'x' ::
      (List.replicate (2 * length - digits.length) '0' ++ digits)))

/-- The conversions that the coders apply to caller values. -/
structure Externals extends Cryptography where
  bigNumberFrom : Value → Except Error Int
  arrayify : Value → Except Error Bytes

/-- What the packages document of their conversions. -/
structure Externals.Documented (externals : Externals) : Prop where
  /-- `BigNumber.from` of a natural number, where it does not refuse it. -/
  bigNumberFrom_number : ∀ (number : Nat) (value : Int),
    externals.bigNumberFrom (.number number) = .ok value → value = number
  /-- `BigNumber.from` of a hex string. -/
  bigNumberFrom_hexlify : ∀ (bytes : Bytes) (value : Int),
    externals.bigNumberFrom (.string (hexlify bytes)) = .ok value →
      value = BigEndian.toNat bytes
  arrayify_hexlify : ∀ bytes : Bytes,
    externals.arrayify (.string (hexlify bytes)) = .ok bytes
  utf8Inverse : externals.toCryptography.Utf8Inverse

/-- Conversions of the simplest values: whole numbers and hex strings. -/
def Externals.simple : Externals where
  toCryptography := .simple
  bigNumberFrom value :=
    match value with
    | .number number =>
        if number.den = 1 ∧ number.num.natAbs < maxSafeInteger then
          .ok number.num
        else .error { code := .numericFault, message := "overflow" }
    | .bigint number => .ok number
    | .string text =>
        match Hex.decode (text.toList.drop 2) with
        | some bytes => .ok (BigEndian.toNat bytes)
        | none =>
            .error (Error.ofArgument "invalid BigNumber string" (some "value"))
    | _ => .error (Error.ofArgument "invalid BigNumber value" (some "value"))
  arrayify value :=
    match value with
    | .string text =>
        match Hex.decode (text.toList.drop 2) with
        | some bytes => .ok bytes
        | none =>
            .error (Error.ofArgument "hex data is odd-length" (some "value"))
    | _ => .error (Error.ofArgument "invalid arrayify value" (some "value"))

theorem Externals.simple_documented : Externals.simple.Documented where
  bigNumberFrom_number number value accepted := by
    simp only [Externals.simple] at accepted
    split at accepted
    · cases accepted
      exact Rat.num_natCast number
    · cases accepted
  bigNumberFrom_hexlify bytes value accepted := by
    simp [Externals.simple, hexlify] at accepted
    exact accepted.symm
  arrayify_hexlify bytes := by
    simp [Externals.simple, hexlify]
  utf8Inverse text := by
    simp only [Externals.simple, Cryptography.simple, String.fromUTF8?]
    exact dif_pos text.isValidUTF8

/-- What `decode` returns.  A result is an array: the elements that are pushed,
and the properties that are set by name, each with the position whose element
it holds, or one past the elements where it is `undefined`.  A name that is an
index past the elements makes the array longer.  A `failure` is a deferred
error, thrown when the element is read. -/
inductive Decoded
  | null
  | boolean (value : Bool)
  | number (value : Int)
  | bigint (value : Int)
  | bigNumber (value : Int)
  | string (value : String)
  | result (elements : List Decoded) (named : List (String × Nat))
  | failure (error : Error) (baseType : String) (name : Option String)
      (type : String)

/-- The value that a decoded result stands for, in whichever of the three
number types, without the names. -/
inductive Plain
  | boolean (value : Bool)
  | integer (value : Int)
  | text (value : String)
  | list (elements : List Plain)

/-- The position whose element a name has added to an array at an index. -/
def addedAt (named : List (String × Nat)) (index : Nat) : Option Nat :=
  (named.find? fun property => arrayIndex property.1 = some index).map Prod.snd

/-- The length of an array of elements and of properties set by name. -/
def arrayLength (length : Nat) (named : List (String × Nat)) : Nat :=
  (named.filterMap (arrayIndex ·.1)).foldl (fun total index =>
    max total (index + 1)) length

/-- The indices that names have added to an array. -/
def addedIndices (length : Nat) (named : List (String × Nat)) : List Nat :=
  List.range' length (arrayLength length named - length)

/-- The values behind the elements, of which there are none in the gaps. -/
def addedPlains (plains : List Plain) (named : List (String × Nat)) :
    Option (List Plain) :=
  (addedIndices plains.length named).mapM fun index =>
    (addedAt named index).bind (plains[·]?)

/-- The value of an array of plain elements. -/
def Plain.ofResult (plains : List Plain) (named : List (String × Nat)) :
    Option Plain :=
  (addedPlains plains named).map fun added => .list (plains ++ added)

mutual

/-- The plain value of a result without deferred errors. -/
def Decoded.plain? : Decoded → Option Plain
  | .null => none
  | .boolean value => some (.boolean value)
  | .number value => some (.integer value)
  | .bigint value => some (.integer value)
  | .bigNumber value => some (.integer value)
  | .string value => some (.text value)
  | .result elements named => do
      let plains ← Decoded.plains? elements
      Plain.ofResult plains named
  | .failure _ _ _ _ => none

def Decoded.plains? : List Decoded → Option (List Plain)
  | [] => some []
  | element :: elements => do
      let plain ← element.plain?
      let plains ← Decoded.plains? elements
      pure (plain :: plains)

end

/-- `null` and `undefined` are not pushed as elements. -/
def Decoded.isNull : Decoded → Bool
  | .null => true
  | _ => false

theorem Decoded.isNull_of_plain {decoded : Decoded} {plain : Plain}
    (readable : decoded.plain? = some plain) : decoded.isNull = false := by
  cases decoded with
  | null => simp [Decoded.plain?] at readable
  | boolean | number | bigint | bigNumber | string | result | failure => rfl

theorem Decoded.length_plains {elements : List Decoded}
    {plains : List Plain} (readable : Decoded.plains? elements = some plains) :
    plains.length = elements.length := by
  induction elements generalizing plains with
  | nil =>
      cases readable
      rfl
  | cons element elements induction =>
      obtain ⟨plain, -, rest⟩ := Option.bind_eq_some_iff.mp readable
      obtain ⟨others, later, whole⟩ := Option.bind_eq_some_iff.mp rest
      cases whole
      rw [List.length_cons, List.length_cons, induction later]

/-- Names that are no indices leave an array as long as it is. -/
theorem Plain.ofResult_of_unindexed {named : List (String × Nat)}
    (unindexed : ∀ property ∈ named, arrayIndex property.1 = none)
    (plains : List Plain) : Plain.ofResult plains named = some (.list plains) := by
  have same : arrayLength plains.length named = plains.length := by
    rw [arrayLength, List.filterMap_eq_nil_iff.mpr unindexed]
    rfl
  rw [Plain.ofResult, addedPlains, addedIndices, same, Nat.sub_self]
  exact congrArg (fun added => some (Plain.list added)) (List.append_nil plains)

theorem Plain.list_of_ofResult {plains : List Plain}
    {named : List (String × Nat)} {plain : Plain}
    (whole : Plain.ofResult plains named = some plain) :
    ∃ elements, plain = .list elements := by
  obtain ⟨added, -, rfl⟩ := Option.map_eq_some_iff.mp whole
  exact ⟨plains ++ added, rfl⟩

theorem Decoded.plain?_result {elements : List Decoded}
    {named : List (String × Nat)} {plain : Plain} :
    (Decoded.result elements named).plain? = some plain ↔
      ∃ plains, Decoded.plains? elements = some plains ∧
        Plain.ofResult plains named = some plain := by
  rw [Decoded.plain?]
  exact Option.bind_eq_some_iff

end Web3Js.Abi
