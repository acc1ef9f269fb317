import Web3Js.Abi.Fragments
import Web3Js.Lib.Double

/-!
# Parameter types with their texts

A parameter type keeps the text of its type beside the structure that it
stands for: the base type, the components of a tuple, the length and the
elements of an array.  It is printed as text in several formats and as an
object of the JSON interface.
-/

namespace Web3Js.Fragments

/-- Texts, by their characters. -/
abbrev Text := List Char

/-- An object of the JSON interface. -/
structure JsonFragmentType where
  name : Option Text
  type : Text
  indexed : Option Bool
  components : Option (List JsonFragmentType)

inductive ArrayLength where
  /-- `-1` -/
  | dynamic
  /-- The number that the digits are read as; `none` is infinite. -/
  | fixed (length : Option Nat)
deriving DecidableEq, Repr

structure ParamType where
  name : Option Text
  type : Text
  baseType : Text
  indexed : Option Bool
  components : Option (List ParamType)
  arrayLength : Option ArrayLength
  arrayChildren : Option ParamType

inductive FormatType where
  | sighash
  | minimal
  | full
deriving DecidableEq, Repr

/-- `parseInt(match[2] || '-1')` -/
def readLength (digits : Text) : ArrayLength :=
  if digits = [] then .dynamic
  else .fixed (Double.nearest (Abi.Reader.parseInt digits))

/-- The text of a length between the brackets. -/
def ArrayLength.text : ArrayLength → Text
  | .dynamic => []
  | .fixed length => Double.text length

namespace ParamType

/-- The constructor, on the properties that `fromObject` passes; an array
while there are brackets, which the fuel bounds. -/
def construct (components : Option (List ParamType)) :
    (fuel : Nat) → (name : Option Text) → (type : Text) →
    (indexed : Option Bool) → ParamType
  | 0, name, type, indexed =>
      ⟨name, type, if components.isSome then "tuple".toList else type,
        indexed, components, none, none⟩
  | fuel + 1, name, type, indexed =>
      match Abi.arraySuffix type with
      | some (child, digits) =>
          ⟨name, type, "array".toList, indexed, components,
            some (readLength digits),
            some (construct components fuel none (Abi.verifyType child)
              none)⟩
      | none =>
          ⟨name, type, if components.isSome then "tuple".toList else type,
            indexed, components, none, none⟩

/-- `value.name || null` -/
def givenName (name : Option Text) : Option Text :=
  if name = some [] then none else name

mutual

def fromObject : JsonFragmentType → ParamType
  | ⟨name, type, indexed, none⟩ =>
      construct none (type.length + 4) (givenName name)
        (Abi.verifyType type) indexed
  | ⟨name, type, indexed, some components⟩ =>
      construct (some (fromObjects components)) (type.length + 4)
        (givenName name) (Abi.verifyType type) indexed

def fromObjects : List JsonFragmentType → List ParamType
  | [] => []
  | value :: values => fromObject value :: fromObjects values

end

/-- The separator of components. -/
def separator : FormatType → Text
  | .full => ", ".toList
  | _ => ",".toList

/-- What follows the type itself. -/
def formatSuffix (format : FormatType) (name : Option Text)
    (indexed : Option Bool) : Text :=
  match format with
  | .sighash => []
  | .minimal => if indexed = some true then " indexed".toList else []
  | .full =>
      (if indexed = some true then " indexed".toList else []) ++
        match name with
        | some name => if name = [] then [] else ' ' :: name
        | none => []

mutual

def format (kind : FormatType) : ParamType → Text
  | ⟨name, type, baseType, indexed, components, arrayLength, arrayChildren⟩ =>
      let shown :=
        if baseType = "array".toList then
          formatChild kind arrayChildren ++
            '[' :: (arrayLength.map ArrayLength.text).getD [] ++ [']']
        else if baseType = "tuple".toList then
          (if kind = .sighash then [] else type) ++
            '(' :: formatComponents kind components ++ [')']
        else type
      shown ++ formatSuffix kind name indexed

def formatChild (kind : FormatType) : Option ParamType → Text
  | some child => format kind child
  | none => []

def formatComponents (kind : FormatType) : Option (List ParamType) → Text
  | some components =>
      (separator kind).intercalate (formatAll kind components)
  | none => []

def formatAll (kind : FormatType) : List ParamType → List Text
  | [] => []
  | param :: params => format kind param :: formatAll kind params

end

mutual

/-- The object that `format('json')` writes. -/
def json : ParamType → JsonFragmentType
  | ⟨name, type, baseType, indexed, components, _, _⟩ =>
      ⟨givenName name,
        if baseType = "tuple".toList then "tuple".toList else type, indexed,
        jsonComponents components⟩

def jsonComponents : Option (List ParamType) → Option (List JsonFragmentType)
  | some components => some (jsonAll components)
  | none => none

def jsonAll : List ParamType → List JsonFragmentType
  | [] => []
  | param :: params => json param :: jsonAll params

end

end ParamType

end Web3Js.Fragments
