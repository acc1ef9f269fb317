import Web3Js.Abi.Parameters

/-!
# Outlines of encoded data

What a type finds at a place of the data is outlined without the values: where
numbers and lists of elements stand, and which elements are errors.  A link or
a length that is no safe number, and a text that is no UTF-8, is an error of
the element that it belongs to; where the data end, nothing is read at all.
-/

namespace Web3Js.Abi

/-- Why nothing is found at a place. -/
inductive Stop where
  /-- The data end. -/
  | short
  | faulty
deriving DecidableEq

/-- What is found at a place.  A frame has the elements of an array or a tuple
and the properties that are set by name. -/
inductive Outline where
  | null
  | scalar
  | bigint
  | faulty
  | frame (elements : List Outline) (named : List (String × Nat))

namespace Outline

def isNull : Outline → Bool
  | .null => true
  | _ => false

def isFaulty : Outline → Bool
  | .faulty => true
  | _ => false

end Outline

/-! ## Words -/

/-- Bytes are padded to whole words. -/
def aligned (length : Nat) : Nat :=
  (length + (wordSize - 1)) / wordSize * wordSize

def bytesAt (length : Nat) (place : Bytes) : Except Stop Bytes :=
  if aligned length ≤ place.length then .ok (place.take length)
  else .error .short

def wordAt (place : Bytes) : Except Stop Nat :=
  (bytesAt wordSize place).map BigEndian.toNat

/-- A link or a length. -/
def safeAt (place : Bytes) : Except Stop Nat := do
  let number ← wordAt place
  if number ≤ maxSafeInteger then .ok number else .error .faulty

/-- The bytes after their length. -/
def dynamicBytesAt (place : Bytes) : Except Stop Bytes := do
  let length ← safeAt place
  bytesAt length (place.drop wordSize)

/-- The count of an array, for which the data must have room. -/
def countAt (place : Bytes) : Except Stop Nat := do
  let count ← safeAt place
  if place.length < count * wordSize then .error .short else .ok count

/-! ## Frames -/

/-- A type as a component: a dynamic one has a link in its head place, another
one its value, which takes a number of bytes. -/
structure Part where
  name : Option String
  dynamic : Bool
  size : Nat
  outline : Bytes → Except Stop Outline

/-- The bytes of the head place. -/
def Part.step (part : Part) : Nat :=
  if part.dynamic then wordSize else part.size

/-- An error is put in place of the element. -/
def deferStop : Except Stop Outline → Except Stop Outline
  | .error .faulty => .ok .faulty
  | outline => outline

/-- The component with a head place in the frame with a base. -/
def Part.outlineIn (part : Part) (base head : Bytes) : Except Stop Outline :=
  if part.dynamic then do
    let link ← safeAt head
    deferStop (part.outline (base.drop link))
  else deferStop (part.outline head)

/-- The elements of a frame from a head place on. -/
def outlineParts (base : Bytes) :
    List Part → (head : Bytes) → Except Stop (List Outline)
  | [], _ => .ok []
  | part :: parts, head => do
      let outline ← part.outlineIn base head
      let outlines ← outlineParts base parts (head.drop part.step)
      .ok (if outline.isNull then outlines else outline :: outlines)

/-- The names of a frame, as those of coders. -/
def nameCoders (parts : List Part) : List Coder :=
  parts.map fun part => NullCoder part.name

/-- The properties are set, which reads some of the elements. -/
def completeFrame (parts : List Part) (elements : List Outline) :
    Except Stop Outline :=
  if (resultReads (nameCoders parts) elements.length).any fun position =>
      elements[position]?.any Outline.isFaulty then
    .error .faulty
  else
    .ok (.frame elements (namedProperties (nameCoders parts) elements.length))

def frameAt (parts : List Part) (place : Bytes) : Except Stop Outline := do
  let elements ← outlineParts place parts place
  completeFrame parts elements

/-! ## Types -/

section Types

def wordPart (name : Option String) (outline : Outline) : Part where
  name
  dynamic := false
  size := wordSize
  outline place := (wordAt place).map fun _ => outline

def nullPart (name : Option String) : Part where
  name
  dynamic := false
  size := 0
  outline _ := .ok .null

def bytesPart (name : Option String) : Part where
  name
  dynamic := true
  size := 0
  outline place := do
    let _ ← dynamicBytesAt place
    .ok .scalar

def tuplePart (name : Option String) (parts : List Part) : Part where
  name
  dynamic := parts.any (·.dynamic)
  size := (parts.map Part.step).sum
  outline := frameAt parts

/-- The elements of an array, which have no names. -/
def elementParts (count : Nat) (part : Part) : List Part :=
  List.replicate count { part with name := none }

def arrayPart (name : Option String) (length : Option Nat) (part : Part) :
    Part where
  name
  dynamic := length.isNone || part.dynamic
  size := length.getD 0 * part.step
  outline place :=
    match length with
    | some count => frameAt (elementParts count part) place
    | none => do
        let count ← countAt place
        frameAt (elementParts count part) (place.drop wordSize)

variable (cryptography : Cryptography)

def stringPart (name : Option String) : Part where
  name
  dynamic := true
  size := 0
  outline place := do
    let bytes ← dynamicBytesAt place
    if (cryptography.bytesToUtf8 bytes).isSome then .ok .scalar
    else .error .faulty

/-- An elementary type; a tuple is without components there. -/
def AbiType.elementaryPart (name : Option String) : AbiType → Part
  | .string => stringPart cryptography name
  | .bytes => bytesPart name
  | .number _ _ => wordPart name .bigint
  | .tuple _ _ | .array _ _ => tuplePart name []
  | .address | .bool | .fixedBytes _ => wordPart name .scalar

mutual

/-- The part of a parameter that names a type. -/
def ParamType.part : ParamType → Option Part
  | .elementary name type =>
      if type = "" then some (nullPart name)
      else (elementaryType type).map (AbiType.elementaryPart cryptography name)
  | .tuple name components =>
      (ParamType.parts components).map (tuplePart name)
  | .array name length children =>
      children.part.map (arrayPart name length)

def ParamType.parts : List ParamType → Option (List Part)
  | [] => some []
  | param :: params => do
      let part ← param.part
      let parts ← ParamType.parts params
      pure (part :: parts)

end

end Types

end Web3Js.Abi
