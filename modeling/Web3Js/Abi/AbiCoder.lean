import Web3Js.Abi.Coders

/-!
# The ABI coder

`getCoder` turns a parsed parameter type into a coder; `encode` and `decode`
treat the parameters as the components of one tuple.
-/

namespace Web3Js.Abi

/-- A parsed parameter type, by the base type that its constructor works out:
a type with a trailing pair of brackets is an array, another one with
components a tuple.  A dynamic array has no length. -/
inductive ParamType
  | elementary (name : Option String) (type : String)
  | tuple (name : Option String) (components : List ParamType)
  | array (name : Option String) (arrayLength : Option Nat)
      (arrayChildren : ParamType)

/-- The digits of `/^bytes([0-9]*)$/`. -/
def matchBytes (type : String) : Option (List Char) :=
  match type.toList with
  | 'b' :: 'y' :: 't' :: 'e' :: 's' :: digits =>
      if digits.all Char.isDigit then some digits else none
  | _ => none

/-- A parameter whose base type is its whole type. -/
def getElementaryCoder (externals : Externals) (name : Option String)
    (type : String) : Except Error Coder :=
  if type = "address" then .ok (AddressCoder externals name)
  else if type = "bool" then .ok (BooleanCoder name)
  else if type = "string" then .ok (StringCoder externals name)
  else if type = "bytes" then .ok (BytesCoder externals name)
  else if type = "array" then
    -- There are no array children to read the base type of.
    .error { code := .unspecified,
             message := "Cannot read properties of null" }
  else if type = "tuple" then .ok (TupleCoder externals [] name)
  else if type = "" then .ok (NullCoder name)
  else
    match Reader.matchNumber type with
    | some (signed, digits) =>
        let size := Reader.parseInt (if digits = [] then "512".toList else digits)
        if size = 0 ∨ 512 < size ∨ size % 8 ≠ 0 then
          .error (Error.ofArgument
            ("invalid " ++ (if signed then "int" else "uint") ++ " bit length")
            (some "param"))
        else
          .ok (NumberCoder externals (size / 8) signed name)
    | none =>
        match matchBytes type with
        | some digits =>
            let size := Reader.parseInt digits
            if size = 0 ∨ 64 < size then
              .error (Error.ofArgument "invalid bytes length" (some "param"))
            else
              .ok (FixedBytesCoder externals size name)
        | none => .error (Error.ofArgument "invalid type" (some "type"))

mutual

/-- `AbiCoder._getCoder` -/
def getCoder (externals : Externals) : ParamType → Except Error Coder
  | .elementary name type => getElementaryCoder externals name type
  | .tuple name components => do
      let coders ← getCoders externals components
      pure (TupleCoder externals coders name)
  | .array name arrayLength arrayChildren => do
      let coder ← getCoder externals arrayChildren
      pure (ArrayCoder externals coder arrayLength name)

def getCoders (externals : Externals) :
    List ParamType → Except Error (List Coder)
  | [] => .ok []
  | param :: params => do
      let coder ← getCoder externals param
      let coders ← getCoders externals params
      pure (coder :: coders)

end

structure AbiCoder where
  coerceFunc : Option CoerceFunc := none

namespace AbiCoder

def encode (externals : Externals) (types : List ParamType)
    (values : List Value) : Except Error String :=
  if types.length ≠ values.length then
    .error { code := .invalidArgument, message := "types/values length mismatch" }
  else do
    let coders ← getCoders externals types
    let coder := TupleCoder externals coders (some "_")
    let (writer, _) ← coder.encode {} (.array values)
    writer.text

def getReader (abiCoder : AbiCoder) (data : Bytes) (allowLoose : Bool) :
    Reader :=
  { data, coerceFunc := abiCoder.coerceFunc, allowLoose }

def decode (externals : Externals) (abiCoder : AbiCoder)
    (types : List ParamType) (data : Value) (loose : Bool) :
    Except Error Decoded := do
  let coders ← getCoders externals types
  let coder := TupleCoder externals coders (some "_")
  let bytes ← externals.arrayify data
  (coder.decode (abiCoder.getReader bytes loose)).1

end AbiCoder

/-- The coder that contracts use: big numbers come back as `bigint`. -/
def ethersAbiCoder : AbiCoder where
  coerceFunc := some fun _ value =>
    match value with
    | .bigNumber integer => .ok (.bigint integer)
    | other => .ok other

end Web3Js.Abi
