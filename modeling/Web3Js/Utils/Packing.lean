import Web3Js.Utils.TwosComplement

/-!
# Tightly packed arguments

An argument is given with its type, or its type is guessed.  Its text is checked
for the type and packed as hexadecimal digits; the elements of an array are
packed one behind another.
-/

namespace Web3Js.Utils

variable (cryptography : Cryptography)

/-- A value that is not an array; text is among the numbers. -/
inductive EncodingValue
  | numbers (given : Numbers)
  | boolean (value : Bool)

inductive EncodingTypes
  | single (value : EncodingValue)
  | array (values : List EncodingValue)

/-- An argument with its type, or one that the type is guessed of. -/
inductive Sha3Input
  | typed (type : String) (value : EncodingTypes)
  | numbers (value : Numbers)
  | boolean (value : Bool)

/-- `toString` -/
def EncodingValue.shown : EncodingValue → String
  | .numbers given => Utils.shown given
  | .boolean value => if value then "true" else "false"

def startsWith (text : String) (word : List Char) : Bool :=
  word.isPrefixOf text.toList

def isIntegerType (type : String) : Bool :=
  startsWith type "int".toList || startsWith type "uint".toList

/-- `/^(-)?0x/i` -/
def hasHexPrefix (content : String) : Bool :=
  match content.toList with
  | '-' :: '0' :: x :: _ | '0' :: x :: _ => x == 'x' || x == 'X'
  | _ => false

/-- The type and the value of an argument whose type is known. -/
def typedValue (type : String) (value : EncodingTypes) :
    Except String (String × EncodingTypes) :=
  match value with
  | .single (.numbers (.text content)) =>
      if isIntegerType type && !hasHexPrefix content then
        match toBigInt (.text content) with
        | some number => .ok (type, .single (.numbers (.bigint number)))
        | none =>
            .error (invalidValue content "can not parse as number data")
      else .ok (type, value)
  | value => .ok (type, value)

def getType : Sha3Input → Except String (String × EncodingTypes)
  | .typed type value =>
      typedValue
        (if type.toList.map Char.toLower = "bigint".toList then "int"
          else type) value
  | .numbers (.bigint value) =>
      .ok ("int", .single (.numbers (.bigint value)))
  | .numbers (.text content) => do
      let value ← toHex cryptography content
      typedValue
        (if ['-', '0', 'x'].isPrefixOf content.toList ||
            ['-', '0', 'X'].isPrefixOf content.toList then "int512"
          else "bytes") (.single (.numbers (.text value)))
  | .numbers given => do
      let value ← numbersToHex given
      let type :=
        match given with
        | .number number => if number < 0 then "int512" else "uint512"
        | _ => "uint512"
      typedValue type (.single (.numbers (.text value)))
  | .boolean value =>
      typedValue "bytes"
        (.single (.numbers (.text (if value then "0x01" else "0x00"))))

def elementaryName (name : String) : String :=
  match name.toList with
  | 'i' :: 'n' :: 't' :: '[' :: rest =>
      String.ofList ("int512[".toList ++ rest)
  | ['i', 'n', 't'] => "int512"
  | 'u' :: 'i' :: 'n' :: 't' :: '[' :: rest =>
      String.ofList ("uint512[".toList ++ rest)
  | ['u', 'i', 'n', 't'] => "uint512"
  | _ => name

/-- The size in a type name, behind the name of its kind. -/
def parseTypeN (value : String) (typeLength : Nat) : Nat :=
  Decimal.value ((value.toList.drop typeLength).takeWhile Char.isDigit)

/-- The characters of the binary text, with the sign of a negative number. -/
def bitLength (value : Int) : Nat :=
  (if value < 0 then 1 else 0) + (Nat.toDigits 2 value.natAbs).length

def isIntegerSize (size : Nat) : Bool :=
  size % 8 == 0 && 8 ≤ size && size ≤ 512

/-- `toString(16)` of a number that is not negative, padded. -/
def paddedHex (number : Int) (characterAmount : Nat) : String :=
  padLeft (String.ofList (Hex.digits number.toNat)) characterAmount

/-- `hyperionPack` of the types that begin with `uint`. -/
def packUnsigned (type value : String) : Except String String :=
  let size := parseTypeN (elementaryName type) 4
  if isIntegerSize size = false then
    .error (invalidValue value "invalid size given.")
  else do
    let number ← toNumber value
    if size < bitLength number then
      .error (invalidValue value "value is larger than size.")
    else if number < 0 then
      .error (invalidValue value "not a valid unsigned integer.")
    else .ok (paddedHex number (size / 8 * 2))

/-- `hyperionPack` of the types that begin with `int`. -/
def packSigned (type value : String) : Except String String :=
  let size := parseTypeN (elementaryName type) 3
  if isIntegerSize size = false then
    .error (invalidValue type "invalid size given.")
  else do
    let number ← toNumber value
    let signedLimit : Int := 2 ^ (size - 1)
    if number < -signedLimit ∨ signedLimit ≤ number then
      .error (invalidValue value "value is larger than size.")
    else if number < 0 then
      toTwosComplement (.text (String.ofList (Decimal.text number)))
        (size / 8 * 2)
    else .ok (paddedHex number (size / 4))

/-- `value.replace(/^0x/i, '')` -/
def withoutHexPrefix (value : String) : List Char :=
  match value.toList with
  | '0' :: x :: rest =>
      if x == 'x' || x == 'X' then rest else value.toList
  | text => text

def padEnd (text : List Char) (length : Nat) : List Char :=
  text ++ List.replicate (length - text.length) '0'

/-- `padRight` of text. -/
def padRight (value : String) (characterAmount : Nat) :
    Except String String :=
  if Validator.isHexStrict value = false then
    .ok (String.ofList (padEnd value.toList characterAmount))
  else if isInt (.text value) = false then
    .error (validationMessage "int" value)
  else
    let prefixLength := if startsWith value ['-'] then 3 else 2
    .ok (String.ofList
      (padEnd value.toList (characterAmount + prefixLength)))

/-- `hyperionPack` of the types that begin with `bytes` and have a size. -/
def packBytes (type value : String) : Except String String :=
  let length := (withoutHexPrefix value).length
  let size := parseTypeN type 5
  if length % 2 ≠ 0 then
    .error (invalidValue value "can not parse as byte data")
  else if size < 1 ∨ 64 < size ∨ 2 * size < length then
    .error (invalidValue value "can not parse as byte data")
  else padRight value (size * 2)

def hyperionPack (type : String) (val : EncodingValue) :
    Except String String :=
  let value := val.shown
  if type = "string" then
    match val with
    | .numbers (.text content) => .ok (utf8ToHex content)
    | _ => .error (invalidValue value "not a valid string")
  else if type = "bool" ∨ type = "boolean" then
    match val with
    | .boolean flag => .ok (if flag then "01" else "00")
    | _ => .error (invalidValue value "not a valid boolean.")
  else if type = "address" then
    if Validator.isAddressString cryptography value true then
      addressToHex cryptography value
    else .error (invalidValue value "invalid qrl address")
  else if startsWith type "uint".toList then packUnsigned type value
  else if startsWith type "int".toList then packSigned type value
  else if elementaryName type = "bytes" then
    if (withoutHexPrefix value).length % 2 ≠ 0 then
      .error (invalidValue value "can not parse as byte data")
    else .ok value
  else if startsWith type "bytes".toList then packBytes type value
  else .ok ""

/-- `replace('0x', '')`, of the first one only. -/
def withoutFirstPrefix : List Char → List Char
  | '0' :: 'x' :: rest => rest
  | char :: rest => char :: withoutFirstPrefix rest
  | [] => []

def processHyperionEncodePackedArgs (arg : Sha3Input) :
    Except String (List Char) := do
  let (type, val) ← getType cryptography arg
  match val with
  | .array values => do
      let hexArg ← values.mapM fun value => do
        let packed ← hyperionPack cryptography type value
        .ok (withoutFirstPrefix packed.toList)
      .ok hexArg.flatten
  | .single value => do
      let packed ← hyperionPack cryptography type value
      .ok (withoutFirstPrefix packed.toList)

def encodePacked (values : List Sha3Input) : Except String String := do
  let hexArgs ← values.mapM (processHyperionEncodePackedArgs cryptography)
  .ok (String.ofList ('0' :: 'x' :: hexArgs.flatten.map Char.toLower))

end Web3Js.Utils
