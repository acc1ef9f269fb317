import Web3Js.Abi.AbiCoder
import Web3Js.Lib.HeadTail

/-!
# Head and tail encoding

The recursive reference encoding over words of 64 bytes, on typed values.
Types and typed values stand on their own; `ParamType.abiType` is the type
that a parameter names and `AbiType.normalise` the typed value that a caller
value denotes.
-/

namespace Web3Js.Abi

/-- The number of bytes of a sized type, at most a word. -/
structure ByteSize where
  bytes : Nat
  positive : 0 < bytes
  withinWord : bytes ≤ wordSize

inductive AbiType
  | address
  | bool
  | string
  | bytes
  | number (signed : Bool) (size : ByteSize)
  | fixedBytes (size : ByteSize)
  /-- Of dynamic length when there is no length. -/
  | array (element : AbiType) (length : Option Nat)
  | tuple (names : List (Option String)) (components : List AbiType)

inductive AbiValue
  | address (bytes : Bytes)
  | bool (value : Bool)
  | string (value : String)
  | bytes (value : Bytes)
  | number (value : Int)
  | list (elements : List AbiValue)

namespace AbiType

mutual

/-- Whether the encoding is referred to by an offset. -/
def isDynamic : AbiType → Bool
  | .address | .bool | .number _ _ | .fixedBytes _ => false
  | .string | .bytes => true
  | .array _ none => true
  | .array element (some _) => element.isDynamic
  | .tuple _ components => anyDynamic components

def anyDynamic : List AbiType → Bool
  | [] => false
  | component :: components => component.isDynamic || anyDynamic components

end

mutual

/-- The bytes that a value takes in the head of the enclosing sequence. -/
def headSize : AbiType → Nat
  | .address | .bool | .number _ _ | .fixedBytes _ => wordSize
  | .string | .bytes => wordSize
  | .array _ none => wordSize
  | .array element (some length) =>
      if element.isDynamic then wordSize else length * element.headSize
  | .tuple _ components =>
      if anyDynamic components then wordSize else headSizes components

def headSizes : List AbiType → Nat
  | [] => 0
  | component :: components => component.headSize + headSizes components

end

mutual

/-- Every element of an array of dynamic length takes a byte in the head. -/
def Headed : AbiType → Prop
  | .address | .bool | .number _ _ | .fixedBytes _ | .string | .bytes => True
  | .array element none => 1 ≤ element.headSize ∧ element.Headed
  | .array element (some _) => element.Headed
  | .tuple _ components => AllHeaded components

def AllHeaded : List AbiType → Prop
  | [] => True
  | component :: components => component.Headed ∧ AllHeaded components

end

end AbiType

namespace Spec

/-- A number as one word; a negative one in two's complement. -/
def word (value : Int) : Bytes :=
  BigEndian.ofNat wordSize (value % 2 ^ (8 * wordSize)).toNat

/-- An offset or a length as one word. -/
def lengthWord (length : Nat) : Bytes := BigEndian.ofNat wordSize length

/-- Zeros up to the next multiple of the word size. -/
def padRight (bytes : Bytes) : Bytes :=
  bytes ++ List.replicate ((wordSize - bytes.length % wordSize) % wordSize) 0

def sequence (parts : List (HeadTail.Part UInt8)) : Bytes :=
  HeadTail.layout wordSize lengthWord parts

mutual

/-- The encoding of a typed value; empty for a value of another type. -/
def encode (cryptography : Cryptography) : AbiType → AbiValue → Bytes
  | .address, .address bytes => bytes
  | .bool, .bool value => word (if value then 1 else 0)
  | .number _ _, .number value => word value
  | .fixedBytes _, .bytes bytes => padRight bytes
  | .bytes, .bytes bytes => lengthWord bytes.length ++ padRight bytes
  | .string, .string value =>
      let bytes := cryptography.utf8ToBytes value
      lengthWord bytes.length ++ padRight bytes
  | .array element none, .list values =>
      lengthWord values.length ++
        sequence (values.map fun value =>
          { outlined := element.isDynamic,
            contents := encode cryptography element value })
  | .array element (some _), .list values =>
      sequence (values.map fun value =>
        { outlined := element.isDynamic,
          contents := encode cryptography element value })
  | .tuple _ components, .list values =>
      sequence (parts cryptography components values)
  | _, _ => []

/-- The parts of a tuple, component by component. -/
def parts (cryptography : Cryptography) :
    List AbiType → List AbiValue → List (HeadTail.Part UInt8)
  | component :: components, value :: values =>
      { outlined := component.isDynamic,
        contents := encode cryptography component value } ::
          parts cryptography components values
  | _, _ => []

end

end Spec

/-- The integer type of a number of bits. -/
def integerType (signed : Bool) (bits : Nat) : Option AbiType :=
  if bounds : 0 < bits ∧ bits ≤ 512 ∧ 8 ∣ bits then
    some (.number signed
      { bytes := bits / 8
        positive := Nat.div_pos (Nat.le_of_dvd bounds.1 bounds.2.2)
          (by decide)
        withinWord := Nat.div_le_of_le_mul bounds.2.1 })
  else none

/-- The type that an elementary parameter names, other than the empty type. -/
def elementaryType (type : String) : Option AbiType :=
  if type = "address" then some .address
  else if type = "bool" then some .bool
  else if type = "string" then some .string
  else if type = "bytes" then some .bytes
  else if type = "tuple" then some (.tuple [] [])
  else
    match Reader.matchNumber type with
    | some (signed, digits) =>
        integerType signed (if digits = [] then 512 else Reader.parseInt digits)
    | none =>
      (matchBytes type).bind fun digits =>
        let size := Reader.parseInt digits
        if bounds : 0 < size ∧ size ≤ wordSize then
          some (.fixedBytes ⟨size, bounds.1, bounds.2⟩)
        else none

/-- The name that a parameter binds its value to. -/
def ParamType.localName : ParamType → Option String
  | .elementary name _ | .tuple name _ | .array name _ _ => name

mutual

def ParamType.abiType : ParamType → Option AbiType
  | .elementary _ type => elementaryType type
  | .tuple _ components => do
      let types ← ParamType.abiTypes components
      pure (.tuple (components.map (·.localName)) types)
  | .array _ length children => do
      let element ← children.abiType
      pure (.array element length)

def ParamType.abiTypes : List ParamType → Option (List AbiType)
  | [] => some []
  | param :: params => do
      let type ← param.abiType
      let types ← ParamType.abiTypes params
      pure (type :: types)

end

mutual

/-- The empty type does not occur in a parameter. -/
def ParamType.Nonempty : ParamType → Prop
  | .elementary _ type => type ≠ ""
  | .tuple _ components => ParamType.AllNonempty components
  | .array _ _ children => children.Nonempty

def ParamType.AllNonempty : List ParamType → Prop
  | [] => True
  | param :: params => param.Nonempty ∧ ParamType.AllNonempty params

end

/-- The values of the components of a tuple, by position or by name. -/
def componentValues (names : List (Option String)) :
    Value → Option (List Value)
  | .array values => some values
  | .object properties => names.mapM fun name => do
      let name ← name
      pure ((properties.lookup name).getD .undefined)
  | .byteArray bytes => names.mapM fun name => do
      let name ← name
      pure (((readableProperties bytes).lookup name).getD .undefined)
  | _ => none

/-- The least number of an integer type. -/
def lowerBound (signed : Bool) (bits : Nat) : Int :=
  if signed then -2 ^ (bits - 1) else 0

/-- The first number above an integer type. -/
def upperBound (signed : Bool) (bits : Nat) : Int :=
  if signed then 2 ^ (bits - 1) else 2 ^ bits

section Normalise

variable (externals : Externals)

mutual

/-- The typed value that a caller value denotes. -/
def AbiType.normalise : AbiType → Value → Option AbiValue
  | .address, value =>
      match value with
      | .string text => do
          let hex ←
            (Validator.addressToHex externals.toCryptography text).toOption
          let contents ← Hex.decode (hex.toList.drop 2)
          pure (.address contents)
      | _ => none
  | .bool, value => some (.bool value.truthy)
  | .string, value =>
      match value with
      | .string text => some (.string text)
      | _ => none
  | .bytes, value => do
      let contents ← (externals.arrayify value).toOption
      pure (.bytes contents)
  | .number signed size, value => do
      let integer ← (externals.bigNumberFrom value).toOption
      if lowerBound signed (size.bytes * 8) ≤ integer ∧
          integer < upperBound signed (size.bytes * 8) then
        pure (.number integer)
      else none
  | .fixedBytes size, value => do
      let contents ← (externals.arrayify value).toOption
      if contents.length = size.bytes then pure (.bytes contents) else none
  | .array element length, value =>
      match value with
      | .array values =>
          if length.all (· = values.length) then do
            let elements ← values.mapM fun value => element.normalise value
            pure (.list elements)
          else none
      | _ => none
  | .tuple names components, value => do
      let values ← componentValues names value
      let elements ← AbiType.normaliseAll components values
      pure (.list elements)

def AbiType.normaliseAll : List AbiType → List Value → Option (List AbiValue)
  | [], [] => some []
  | type :: types, value :: values => do
      let element ← type.normalise value
      let elements ← AbiType.normaliseAll types values
      pure (element :: elements)
  | _, _ => none

end

end Normalise

mutual

/-- What a reader of the decoded result sees of a typed value. -/
def AbiValue.plain (cryptography : Cryptography) : AbiValue → Plain
  | .address contents => .text (canonicalAddress cryptography contents)
  | .bool value => .boolean value
  | .string value => .text value
  | .bytes value => .text (hexlify value)
  | .number value => .integer value
  | .list elements => .list (AbiValue.plains cryptography elements)

def AbiValue.plains (cryptography : Cryptography) :
    List AbiValue → List Plain
  | [] => []
  | element :: elements =>
      element.plain cryptography :: AbiValue.plains cryptography elements

end

theorem AbiValue.length_plains (cryptography : Cryptography)
    (elements : List AbiValue) :
    (AbiValue.plains cryptography elements).length = elements.length := by
  induction elements with
  | nil => rfl
  | cons element elements induction =>
      rw [AbiValue.plains, List.length_cons, List.length_cons, induction]

end Web3Js.Abi
