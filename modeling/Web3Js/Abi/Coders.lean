import Web3Js.Abi.Wire

/-!
# Coders

A coder is the record of what its class gives it: the fields that the base
class sets and the two methods.  Every class of the source is the definition
of the same name that builds the record.
-/

namespace Web3Js.Abi

structure Coder where
  /-- Such as `address`, `uint512`, `tuple` or `array`. -/
  name : String
  /-- The expanded type, such as `tuple(address,bytes)` or `uint512[3][4][]`. -/
  type : String
  localName : Option String
  dynamic : Bool
  encode : Writer → Value → Except Error (Writer × Nat)
  decode : Read Decoded

/-- `Coder._throwError` -/
def Coder.throwError {α : Type} (message : String) (localName : Option String) :
    Except Error α :=
  .error (Error.ofArgument message localName)

/-- The properties that every plain object inherits. -/
def objectPrototypeNames : List String :=
  ["constructor", "__defineGetter__", "__defineSetter__", "hasOwnProperty",
    "__lookupGetter__", "__lookupSetter__", "isPrototypeOf",
    "propertyIsEnumerable", "toString", "valueOf", "__proto__",
    "toLocaleString"]

/-- The properties that every array inherits besides those. -/
def arrayPrototypeNames : List String :=
  ["at", "concat", "copyWithin", "entries", "every", "fill", "filter", "find",
    "findIndex", "findLast", "findLastIndex", "flat", "flatMap", "forEach",
    "includes", "indexOf", "join", "keys", "lastIndexOf", "map", "pop", "push",
    "reduce", "reduceRight", "reverse", "shift", "slice", "some", "sort",
    "splice", "toReversed", "toSorted", "toSpliced", "unshift", "values",
    "with"]

/-- The name of a parameter, where it has a nonempty one. -/
def givenName (localName : Option String) : Option String :=
  localName.filter (· ≠ "")

section Pack

/-- The values of an object in the order of the coders.  `unique` inherits the
properties of plain objects, so their names count as duplicates. -/
def namedValues (properties : List (String × Value)) :
    (coders : List Coder) → (unique : List String) →
      Except Error (List Value)
  | [], _ => .ok []
  | coder :: coders, unique =>
      match givenName coder.localName with
      | none =>
          .error (Error.ofArgument
            "cannot encode object for signature with missing names"
            (some "values"))
      | some name =>
          if name ∈ unique ∨ name ∈ objectPrototypeNames then
            .error (Error.ofArgument
              "cannot encode object for signature with duplicate names"
              (some "values"))
          else do
            let values ← namedValues properties coders (name :: unique)
            pure ((properties.lookup name).getD .undefined :: values)

def arrayValues (coders : List Coder) : Value → Except Error (List Value)
  | .array values => .ok values
  | .object properties => namedValues properties coders []
  | .byteArray bytes => namedValues (readableProperties bytes) coders []
  | _ => .error (Error.ofArgument "invalid tuple value" (some "tuple"))

/-- The writers of a packing and its update functions, each the place of a
word and the dynamic offset to write there. -/
structure Packing where
  staticWriter : Writer := {}
  dynamicWriter : Writer := {}
  updateFuncs : List (Nat × Nat) := []

def packComponent (packing : Packing) (component : Coder × Value) :
    Except Error Packing :=
  let (coder, value) := component
  if coder.dynamic then do
    let dynamicOffset := packing.dynamicWriter.dataLength
    let (dynamicWriter, _) ← coder.encode packing.dynamicWriter value
    let (staticWriter, place) := packing.staticWriter.writeUpdatableValue
    pure { staticWriter, dynamicWriter,
           updateFuncs := packing.updateFuncs ++ [(place, dynamicOffset)] }
  else do
    let (staticWriter, _) ← coder.encode packing.staticWriter value
    pure { packing with staticWriter }

/-- Fill in one dynamic offset, now that the static length is known. -/
def backfill (externals : Externals) (baseOffset : Nat) (writer : Writer)
    (updateFunc : Nat × Nat) : Except Error Writer := do
  let (place, dynamicOffset) := updateFunc
  let value ← externals.bigNumberFrom (.number (baseOffset + dynamicOffset : Nat))
  writer.updateValue place value

def pack (externals : Externals) (writer : Writer) (coders : List Coder)
    (values : Value) : Except Error (Writer × Nat) := do
  let arrayValues ← arrayValues coders values
  if coders.length ≠ arrayValues.length then
    .error (Error.ofArgument "types/value length mismatch" (some "tuple"))
  else
    let packing ← (coders.zip arrayValues).foldlM packComponent {}
    let staticWriter ← packing.updateFuncs.foldlM
      (backfill externals packing.staticWriter.dataLength)
      packing.staticWriter
    let (writer, staticLength) := writer.appendWriter staticWriter
    let (writer, dynamicLength) := writer.appendWriter packing.dynamicWriter
    pure (writer, staticLength + dynamicLength)

end Pack

section Unpack

/-- Run a decoder and defer its error to the element, except an overrun, from
which the unpacking cannot recover. -/
def deferError (coder : Coder) (decode : Read Decoded) : Read Decoded :=
  fun reader =>
    match decode reader with
    | (.ok value, moved) => (.ok value, moved)
    | (.error problem, moved) =>
        if problem.code = .bufferOverrun then (.error problem, moved)
        else (.ok (.failure problem coder.name coder.localName coder.type),
          moved)

def unpackComponent (baseReader : Reader) (coder : Coder) : Read Decoded :=
  if coder.dynamic then do
    let offset ← Reader.readValue
    let offset ← Read.lift (BigNumber.toNumber offset)
    -- The offset reader is another object, so its moves do not show here.
    Read.lift (deferError coder coder.decode
      (baseReader.subReader offset.toNat)).1
  else
    deferError coder coder.decode

/-- The value of the next component, pushed unless it is null. -/
def pushComponent (baseReader : Reader) (values : List Decoded)
    (coder : Coder) : Read (List Decoded) := do
  let value ← unpackComponent baseReader coder
  pure (if value.isNull then values else values ++ [value])

def unpackValues (baseReader : Reader) (coders : List Coder) :
    Read (List Decoded) :=
  coders.foldlM (pushComponent baseReader) []

/-- `values[name] != null` -/
def hasProperty (length : Nat) (named : List (String × Nat))
    (name : String) : Bool :=
  (arrayIndex name).any (· < length) ||
    objectPrototypeNames.contains name || arrayPrototypeNames.contains name ||
    named.any fun property => property.1 == name && property.2 < length

/-- The deferred error that an element is, if it is one. -/
def elementProblem (values : List Decoded) (position : Nat) : Option Error :=
  match values[position]? with
  | some (.failure problem _ _ _) => some problem
  | _ => none

/-- The error of the getter that a property is, if it is one. -/
def getterProblem (values : List Decoded) (named : List (String × Nat))
    (property : String) : Option Error :=
  (named.lookup property).bind (elementProblem values)

/-- The error of the getter that a name has added to the array at an index, if
it has. -/
def addedProblem (values : List Decoded) (named : List (String × Nat))
    (index : Nat) : Option Error :=
  (addedAt named index).bind (elementProblem values)

/-- The position of `values[index]`.  Past the elements it may be a getter that
a name has added. -/
def readPosition (values : List Decoded) (named : List (String × Nat))
    (index : Nat) : Except Error Nat :=
  if index < values.length then .ok index
  else
    match addedProblem values named index with
    | some problem => .error problem
    | none => .ok ((addedAt named index).getD index)

/-- The property for a name; `length` is the number of elements. -/
def propertyName (name : String) : String :=
  if name = "length" then "_length" else name

/-- The named property of one component.  The look at a property that is there
already throws where that is a getter. -/
def nameComponent (names : List String) (values : List Decoded)
    (named : List (String × Nat)) (component : Coder × Nat) :
    Except Error (List (String × Nat)) :=
  match givenName component.1.localName with
  | none => .ok named
  | some name =>
      if names.count name ≠ 1 then .ok named
      else
        match getterProblem values named (propertyName name) with
        | some problem => .error problem
        | none =>
            if hasProperty values.length named (propertyName name) then
              .ok named
            else do
              let position ← readPosition values named component.2
              .ok (named ++ [(propertyName name, position)])

def nameComponents (coders : List Coder) (values : List Decoded) :
    Except Error (List (String × Nat)) :=
  let names := coders.filterMap fun coder => givenName coder.localName
  coders.zipIdx.foldlM (nameComponent names values) []

/-- The last loop reads the elements that names have added, some of which may
be getters already. -/
def readAdded (values : List Decoded) (named : List (String × Nat)) :
    Except Error Unit :=
  match (addedIndices values.length named).findSome?
      (addedProblem values named) with
  | some problem => .error problem
  | none => .ok ()

/-- The properties of the result. -/
def completeResult (coders : List Coder) (values : List Decoded) :
    Except Error Decoded := do
  let named ← nameComponents coders values
  readAdded values named
  pure (.result values named)

def unpack (coders : List Coder) : Read Decoded := fun reader =>
  match unpackValues (reader.subReader 0) coders reader with
  | (.ok values, moved) => (completeResult coders values, moved)
  | (.error problem, moved) => (.error problem, moved)

end Unpack

section Classes

variable (externals : Externals)

/-- `addressToHex`, with its error thrown again as one of the argument. -/
def AddressCoder.hex (localName : Option String) :
    Value → Except Error String
  | .string address =>
      match Utils.addressToHex externals.toCryptography address with
      | .ok hex => .ok hex
      | .error message => Coder.throwError message localName
  | _ => Coder.throwError "Web3 validator found 1 error[s]" localName

def AddressCoder (localName : Option String) : Coder where
  name := "address"
  type := "address"
  localName := localName
  dynamic := false
  encode writer value := do
    let hex ← AddressCoder.hex externals localName value
    let number ← externals.bigNumberFrom (.string hex)
    writer.writeValue number
  decode := do
    let number ← Reader.readValue
    let hex ← Read.lift (hexZeroPad (BigNumber.toHexString number) 64)
    match Utils.hexToAddress hex >>=
        Utils.toChecksumAddress externals.toCryptography with
    | .ok address => pure (.string address)
    | .error message =>
        Read.throw { code := .unspecified, message }

def BooleanCoder (localName : Option String) : Coder where
  name := "bool"
  type := "bool"
  localName := localName
  dynamic := false
  encode writer value := writer.writeValue (if value.truthy then 1 else 0)
  decode := do
    let number ← Reader.readValue
    Reader.coerce "bool" (.boolean (number != 0))

def numberName (size : Nat) (signed : Bool) : String :=
  (if signed then "int" else "uint") ++ toString (size * 8)

/-- The check of `NumberCoder.encode`, with the largest unsigned word. -/
def numberInBounds (size : Nat) (signed : Bool) (value : Int) :
    Except Error Bool := do
  let maxUintValue ← BigNumber.mask (2 ^ 512 - 1) (wordSize * 8)
  if signed then do
    let bounds ← BigNumber.mask maxUintValue (size * 8 - 1)
    pure (¬(bounds < value ∨ value < (bounds + 1) * -1))
  else do
    let bounds ← BigNumber.mask maxUintValue (size * 8)
    pure (¬(value < 0 ∨ bounds < value))

def NumberCoder (size : Nat) (signed : Bool) (localName : Option String) :
    Coder where
  name := numberName size signed
  type := numberName size signed
  localName := localName
  dynamic := false
  encode writer value := do
    let number ← externals.bigNumberFrom value
    let inBounds ← numberInBounds size signed number
    if inBounds then do
      let masked ←
        BigNumber.mask (BigNumber.toTwos number (size * 8)) (size * 8)
      writer.writeValue
        (if signed then
          BigNumber.toTwos (BigNumber.fromTwos masked (size * 8))
            (8 * wordSize)
        else masked)
    else
      Coder.throwError "value out-of-bounds" localName
  decode := do
    let number ← Reader.readValue
    let masked ← Read.lift (BigNumber.mask number (size * 8))
    Reader.coerce (numberName size signed)
      (.bigNumber
        (if signed then BigNumber.fromTwos masked (size * 8) else masked))

def fixedBytesName (size : Nat) : String := "bytes" ++ toString size

def FixedBytesCoder (size : Nat) (localName : Option String) : Coder where
  name := fixedBytesName size
  type := fixedBytesName size
  localName := localName
  dynamic := false
  encode writer value := do
    let data ← externals.arrayify value
    if data.length ≠ size then
      Coder.throwError "incorrect data length" localName
    else
      pure (writer.writeBytes data)
  decode := do
    let data ← Reader.readBytes size false
    Reader.coerce (fixedBytesName size) (.string (hexlify data))

/-- The methods of `DynamicBytesCoder`, on a value that is a byte array. -/
def DynamicBytesCoder.encode (writer : Writer) (value : Bytes) :
    Except Error (Writer × Nat) := do
  let length ← externals.bigNumberFrom (.number value.length)
  let (writer, head) ← writer.writeValue length
  let (writer, tail) := writer.writeBytes value
  pure (writer, head + tail)

def DynamicBytesCoder.decode : Read Bytes := do
  let length ← Reader.readValue
  let length ← Read.lift (BigNumber.toNumber length)
  Reader.readBytes length.toNat true

def BytesCoder (localName : Option String) : Coder where
  name := "bytes"
  type := "bytes"
  localName := localName
  dynamic := true
  encode writer value := do
    let data ← externals.arrayify value
    DynamicBytesCoder.encode externals writer data
  decode := do
    let data ← DynamicBytesCoder.decode
    Reader.coerce "bytes" (.string (hexlify data))

/-- `utf8ToBytes` refuses what is no string. -/
def StringCoder (localName : Option String) : Coder where
  name := "string"
  type := "string"
  localName := localName
  dynamic := true
  encode writer value :=
    match value with
    | .string text =>
        DynamicBytesCoder.encode externals writer (externals.utf8ToBytes text)
    | _ => .error { code := .unspecified, message := "string expected" }
  decode := do
    let data ← DynamicBytesCoder.decode
    match externals.bytesToUtf8 data with
    | some text => pure (.string text)
    | none =>
        Read.throw
          { code := .unspecified,
            message := "The encoded data was not valid for encoding utf-8" }

def NullCoder (localName : Option String) : Coder where
  name := "null"
  type := ""
  localName := localName
  dynamic := false
  encode writer value :=
    match value with
    | .undefined | .null => pure (writer.writeBytes [])
    | _ => Coder.throwError "not null" localName
  decode := do
    let _ ← Reader.readBytes 0 false
    Reader.coerce "null" .null

/-- `logger.checkArgumentCount` -/
def checkArgumentCount (count expectedCount : Nat) (message : String) :
    Except Error Unit :=
  if count < expectedCount then
    .error { code := .missingArgument,
             message := "missing argument: " ++ message }
  else if expectedCount < count then
    .error { code := .unexpectedArgument,
             message := "too many arguments: " ++ message }
  else
    .ok ()

/-- A coder without a local name. -/
def AnonymousCoder (coder : Coder) : Coder := { coder with localName := none }

/-- Arrays of dynamic length are preceded by their length. -/
def ArrayCoder.writeCount (length : Option Nat) (writer : Writer)
    (count : Nat) : Except Error Writer :=
  match length with
  | none => do
      let count ← externals.bigNumberFrom (.number count)
      let (writer, _) ← writer.writeValue count
      pure writer
  | some _ => .ok writer

/-- Every element takes a word at least, as a value or as a link. -/
def ArrayCoder.checkCount (count : Nat) : Read Nat := fun reader =>
  if reader.data.length < count * wordSize then
    (.error { code := .bufferOverrun, message := "insufficient data length" },
      reader)
  else
    (.ok count, reader)

def ArrayCoder.readCount : Option Nat → Read Nat
  | some count => pure count
  | none => do
      let count ← Reader.readValue
      let count ← Read.lift (BigNumber.toNumber count)
      ArrayCoder.checkCount count.toNat

def ArrayCoder (coder : Coder) (length : Option Nat)
    (localName : Option String) : Coder where
  name := "array"
  type := coder.type ++ "[" ++ (length.map toString).getD "" ++ "]"
  localName := localName
  dynamic := length.isNone || coder.dynamic
  encode writer value :=
    match value with
    | .array values => do
        let writer ←
          ArrayCoder.writeCount externals length writer values.length
        checkArgumentCount values.length (length.getD values.length)
          ("coder array" ++
            ((givenName localName).map (" " ++ ·)).getD "")
        pack externals writer (List.replicate values.length coder) value
    | _ => Coder.throwError "expected array value" localName
  decode := do
    let count ← ArrayCoder.readCount length
    let value ← unpack (List.replicate count (AnonymousCoder coder))
    Reader.coerce "array" value

def TupleCoder (coders : List Coder) (localName : Option String) : Coder where
  name := "tuple"
  type := "tuple(" ++ String.intercalate "," (coders.map (·.type)) ++ ")"
  localName := localName
  dynamic := coders.any (·.dynamic)
  encode writer value := pack externals writer coders value
  decode := do
    let value ← unpack coders
    Reader.coerce "tuple" value

end Classes

end Web3Js.Abi
