import Web3Js.Lib.Double
import Web3Js.Prepare.Formatter
import Web3Js.Validator.BaseType

/-!
# Conversion of single values

A value is converted by the type that the schema names for it: integers to the
number format, byte strings to the bytes format.  Where the conversion throws,
and for every other type, the value stays as it is.
-/

namespace Web3Js.Format

/-- The values that are neither arrays nor plain objects. -/
inductive Scalar where
  | undefined
  | null
  | boolean (value : Bool)
  | number (value : Int)
  /-- A number that is no integer, by its text. -/
  | fraction (text : String)
  | bigint (value : Int)
  | text (content : String)
  | bytes (content : Bytes)
  /-- A function that objects inherit, by its name. -/
  | function (name : String)
  /-- The place of an array element that was deleted. -/
  | hole
deriving DecidableEq

inductive Data where
  | scalar (value : Scalar)
  | array (items : List Data)
  | object (entries : List (String × Data))

inductive FMT_NUMBER where
  | NUMBER
  | HEX
  | STR
  | BIGINT
deriving DecidableEq

inductive FMT_BYTES where
  | HEX
  | UINT8ARRAY
deriving DecidableEq

structure DataFormat where
  number : FMT_NUMBER
  bytes : FMT_BYTES
deriving DecidableEq

/-- `Number` of a big integer. -/
def numberOfBigInt (value : Int) : Scalar :=
  match Double.nearest value.natAbs with
  | some rounded => .number (if value < 0 then -rounded else rounded)
  | none => .fraction (if value < 0 then "-Infinity" else "Infinity")

def toBigInt : Data → Option Int
  | .scalar (.number value) => Utils.toBigInt (.number value)
  | .scalar (.fraction text) => Utils.toBigInt (.fraction text)
  | .scalar (.bigint value) => Utils.toBigInt (.bigint value)
  | .scalar (.text content) => Utils.toBigInt (.text content)
  | _ => none

/-- An element of an array that is read as bytes. -/
def Data.byte? : Data → Option UInt8
  | .scalar (.number value) =>
      if 0 ≤ value ∧ value ≤ 255 then some (UInt8.ofNat value.toNat) else none
  | _ => none

/-- `bytesToUint8Array`; `none` where it throws. -/
def bytesToUint8Array : Data → Option Bytes
  | .scalar (.bytes content) => some content
  | .scalar (.text content) => (Utils.hexToUint8Array content).toOption
  | .array items => items.mapM Data.byte?
  | _ => none

/-- The value of a type `bytes<size>`, padded on the left. -/
def padBytes (size : Int) : Data → Option Data
  | .scalar (.text content) =>
      some (.scalar (.text (Utils.padLeft content (2 * size).toNat)))
  | .scalar (.bytes content) =>
      if (content.length : Int) ≤ size then
        some (.scalar (.bytes
          (List.replicate (size.toNat - content.length) 0 ++ content)))
      else none
  | _ => some (.scalar .undefined)

def convertNumber (value : Data) (format : FMT_NUMBER) : Option Data := do
  let number ← toBigInt value
  match format with
  | .NUMBER => some (.scalar (numberOfBigInt number))
  | .HEX => some (.scalar (.text (Utils.numberToHex number)))
  | .STR => some (.scalar (.text (toString number)))
  | .BIGINT => some (.scalar (.bigint number))

/-- A size that is missing, zero or not a number is no size. -/
def paddedValue (value : Data) (size : Option (Option Int)) : Option Data :=
  match size.join with
  | none => some value
  | some size => if size = 0 then some value else padBytes size value

def convertBytes (value : Data) (size : Option (Option Int))
    (format : FMT_BYTES) : Option Data := do
  let padded ← paddedValue value size
  let bytes ← bytesToUint8Array padded
  match format with
  | .HEX => some (.scalar (.text (hexlify bytes)))
  | .UINT8ARRAY => some (.scalar (.bytes bytes))

/-- A type that is missing makes `parseBaseType` throw. -/
def convertScalarValue (value : Data) (qrlType : Option String)
    (format : DataFormat) : Data :=
  match qrlType.map Validator.parseBaseType with
  | none => value
  | some type =>
      match type.baseType with
      | some .int | some .uint =>
          (convertNumber value format.number).getD value
      | some .bytes =>
          (convertBytes value type.baseTypeSize format.bytes).getD value
      | _ => value

@[simp] theorem convertScalarValue_none (value : Data) (format : DataFormat) :
    convertScalarValue value none format = value :=
  rfl

end Web3Js.Format
