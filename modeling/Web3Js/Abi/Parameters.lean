import Mathlib.Data.List.Infix
import Web3Js.Abi.Fragments
import Web3Js.Abi.RoundTrip
import Web3Js.Prepare.Formatter

/-!
# Encoding and decoding parameters

The parameters of the API are given as objects of the JSON interface or as
text.  Values of textual types are first brought into the shape that the coder
takes; a decoded result with named elements becomes an object.
-/

namespace Web3Js.Abi

inductive AbiInput
  | parameter (param : JsonFragmentType)
  | text (type : String)

/-- `mapTypes`, of inputs that all have names. -/
def mapTypes (types : List AbiInput) : Except String (List AbiInput) :=
  types.mapM fun input =>
    match input with
    | .parameter param =>
        if param.type = "function" then
          .error "ABI function type is not supported for 64-byte QRL addresses."
        else .ok input
    | .text _ => .ok input

def ParamType.from : AbiInput → Except Error ParamType
  | .parameter param => .ok (.fromObject param)
  | .text type => ParamType.fromString type

section Formatting

/-- The number of UTF-16 code units. -/
def codeUnits (text : String) : Nat :=
  (text.toList.map fun char => if char.toNat < 65536 then 1 else 2).sum

def isOddHexstring (param : String) : Bool :=
  let digits :=
    match param.toList with
    | '-' :: '0' :: x :: digits | '0' :: x :: digits =>
        if x = 'x' ∨ x = 'X' then some digits else none
    | _ => none
  digits.any (·.all Hex.isDigit) && codeUnits param % 2 == 1

def formatOddHexstrings (param : String) : String :=
  if isOddHexstring param then
    String.ofList ('0' :: 'x' :: '0' :: param.toList.drop 2)
  else param

/-- `padRight` of a string, with zeros. -/
def rightPad (value : String) (characterAmount : Nat) :
    Except String String :=
  let padEnd (amount : Nat) : String :=
    value ++ String.ofList (List.replicate (amount - codeUnits value) '0')
  if Validator.isHexStrict value then
    if Validator.isIntString value then
      .ok (padEnd (characterAmount +
        if value.toList.head? = some '-' then 3 else 2))
    else .error (Utils.validationMessage "int" value)
  else .ok (padEnd characterAmount)

/-- Other values than strings have no length, or fail to be padded. -/
def formatNumber (size : Nat) : Value → Except String Value
  | .string text =>
      .ok (.string (if size < 8 * codeUnits text then Utils.padLeft text size
        else text))
  | .array elements =>
      if size < 8 * elements.length then .error "must pass \"int\" validation"
      else .ok (.array elements)
  | .undefined => .error "Cannot read properties of undefined"
  | value => .ok value

def formatSizedBytes (size : Nat) : Value → Except String Value
  | .string text => do
      let maxSize :=
        if ['0', 'x'].isPrefixOf text.toList then 2 * size + 2 else 2 * size
      let paddedParam ←
        if codeUnits text < maxSize then rightPad text (2 * size)
        else .ok text
      .ok (.string (formatOddHexstrings paddedParam))
  | _ => .error "param.startsWith is not a function"

/-- `formatParam` of a type without brackets. -/
def formatElementary (type : String) (param : Value) : Except String Value :=
  match Reader.matchNumber type with
  | some (_, digits) =>
      formatNumber
        (Reader.parseInt (if digits = [] then "512".toList else digits)) param
  | none =>
      match matchBytes type with
      | none => .ok param
      | some digits =>
          if Reader.parseInt digits = 0 then
            .ok (match param with
              | .string text => .string (formatOddHexstrings text)
              | value => value)
          else formatSizedBytes (Reader.parseInt digits) param

/-- What spreading a value into an array gives. -/
def spread : Value → Except String (List Value)
  | .array elements => .ok elements
  | .string text => .ok (text.toList.map fun char => .string char.toString)
  | _ => .error "param is not iterable"

/-- The copy of a value: `null` and byte arrays are copied to objects. -/
def Value.copy : Value → Value
  | .null => .object []
  | .byteArray bytes => .object (byteProperties bytes)
  | value => value

/-- `formatParam` of a textual type and a value that has been copied; the
elements of an array are copied in their turn. -/
def formatParam (type : String) (param : Value) : Except String Value :=
  match arraySuffix type.toList with
  | some (element, []) =>
      let element := String.ofList element
      if (Reader.matchNumber element).isSome ∨ (matchBytes element).isSome then do
        let values ← spread param
        let formatted ← values.mapM fun value =>
          formatElementary element value.copy
        .ok (.array formatted)
      else .ok param
  | _ => formatElementary type param

end Formatting

section Encoding

variable (externals : Externals)

/-- The message of an error of the coder. -/
def codedMessage {α : Type} (result : Except Error α) : Except String α :=
  result.mapError Error.message

/-- `text.replace('[]', '')` -/
def dropBrackets : List Char → List Char
  | '[' :: ']' :: text => text
  | char :: text => char :: dropBrackets text
  | [] => []

mutual

/-- One component of a tuple coder.  What is formatted is put back into the
list that wraps the values, and no further. -/
def modifyComponent : ParamType → (item : Value) → Except String Unit
  | .tuple _ components, item => modifyComponents components [item] 0
  | .elementary name type, item => do
      let coder ← codedMessage (getCoder externals (.elementary name type))
      discard (formatParam coder.name item.copy)
  | .array name length children, item => do
      let coder ← codedMessage
        (getCoder externals (.array name length children))
      discard (formatParam coder.name item.copy)

def modifyComponents :
    List ParamType → (param : List Value) → (index : Nat) → Except String Unit
  | [], _, _ => .ok ()
  | component :: components, param, index => do
      modifyComponent component (param[index]?.getD .undefined)
      modifyComponents components param (index + 1)

end

/-- The coder of an array is made again without the first brackets of its
type.  Where there are none to drop this never ends, which the fuel bounds. -/
def modifyParams : (fuel : Nat) → ParamType → (param : List Value) →
    Except String Unit
  | 0, _, _ => .error "Maximum call stack size exceeded"
  | fuel + 1, .array name length children, param => param.forM fun item => do
      let coder ← codedMessage
        (getCoder externals (.array name length children))
      let inner ← codedMessage (ParamType.fromString
        (String.ofList (dropBrackets coder.type.toList)))
      discard (codedMessage (getCoder externals inner))
      modifyParams fuel inner [item]
  | _ + 1, .tuple _ components, param => modifyComponents externals components
      param 0
  | _ + 1, .elementary _ type, _ =>
      if type = "tuple" then .ok ()
      else .error "Cannot read properties of undefined (reading 'forEach')"

/-- `type.includes('tuple')` -/
def mentionsTuple (type : String) : Bool :=
  decide ("tuple".toList <:+: type.toList)

/-- Where the item is an object, its text matches no type, and only the copy
is made. -/
def AbiInput.format : AbiInput → Value → Except String Value
  | .parameter _, value => .ok value.copy
  | .text type, value => do
      let newParam ← formatParam type value.copy
      if mentionsTuple type then do
        let param ← codedMessage (ParamType.fromString type)
        let coder ← codedMessage (getCoder externals param)
        modifyParams externals (coder.type.length + 1) param [newParam]
      .ok newParam

/-- A missing item leaves its value as it is. -/
def formatParams (types : List AbiInput) (params : List Value) :
    Except String (List Value) :=
  params.zipIdx.mapM fun (param, index) =>
    match types[index]? with
    | some item => item.format externals param
    | none => .ok param

def encodeParameters (abi : List AbiInput) (params : List Value) :
    Except String String :=
  Except.mapError (fun _ => "Parameter encoding error") do
    let modifiedTypes ← mapTypes abi
    let modifiedParams ← formatParams externals modifiedTypes params
    let types ← codedMessage (modifiedTypes.mapM ParamType.from)
    codedMessage (AbiCoder.encode externals types modifiedParams)

def encodeParameter (abi : AbiInput) (param : Value) : Except String String :=
  encodeParameters externals [abi] [param]

end Encoding

section Decoding

/-- A decoded value, or an object made of a result with named elements. -/
inductive DecodedParam
  | value (decoded : Decoded)
  | object (elements : List DecodedParam) (named : List (String × Nat))

/-- The keys of a result are its positions and its names. -/
def isParamRequiredToConvert (named : List (String × Nat)) : Bool :=
  named.any fun property => !isIntegerKey property.1

mutual

/-- The first error among the elements that the text of an array joins. -/
def Decoded.joinProblem : Decoded → Option Error
  | .failure problem _ _ _ => some problem
  | .result elements _ => Decoded.joinProblems elements
  | .null | .boolean _ | .number _ | .bigint _ | .bigNumber _ | .string _ =>
      none

def Decoded.joinProblems : List Decoded → Option Error
  | [] => none
  | element :: elements =>
      element.joinProblem.or (Decoded.joinProblems elements)

end

/-- What is thrown when a number is added to the value; the text of an object
has none of its properties. -/
def DecodedParam.countProblem : DecodedParam → Option Error
  | .value (.bigint _) =>
      some { code := .unspecified,
             message := "Cannot mix BigInt and other types" }
  | .value decoded => decoded.joinProblem
  | .object _ _ => none

/-- The keys are counted under `__length__`, which may be one of the names:
then the count goes on from its element. -/
def countKeys (elements : List DecodedParam) (named : List (String × Nat)) :
    Except Error Unit :=
  match ((named.lookup "__length__").bind (elements[·]?)).bind
      DecodedParam.countProblem with
  | some problem => .error problem
  | none => .ok ()

mutual

/-- An element as `formatArrayResToObject` keeps it; reading a deferred error
throws it. -/
def formatElement : Decoded → Except Error DecodedParam
  | .result elements named =>
      if isParamRequiredToConvert named then do
        let params ← formatElements elements
        countKeys params named
        .ok (.object params named)
      else .ok (.value (.result elements named))
  | .failure problem _ _ _ => .error problem
  | decoded => .ok (.value decoded)

def formatElements : List Decoded → Except Error (List DecodedParam)
  | [] => .ok []
  | element :: elements => do
      let param ← formatElement element
      let params ← formatElements elements
      .ok (param :: params)

end

/-- What `decodeParametersWith` returns, by position and by name. -/
structure DecodedParams where
  elements : List DecodedParam := []
  named : List (String × Nat) := []

/-- The property of a position; a name may be a position too. -/
def DecodedParams.at (params : DecodedParams) (position : Nat) :
    Option DecodedParam :=
  params.elements[position]? <|>
    (params.named.lookup (toString position)).bind (params.elements[·]?)

def formatArrayResToObject : Decoded → Except Error DecodedParams
  | .result elements named => do
      let params ← formatElements elements
      countKeys params named
      .ok { elements := params, named }
  | _ => .ok {}

/-- `bytes.replace(/0x/i, '')`, wherever the first match is. -/
def dropHexPrefix : List Char → List Char
  | '0' :: x :: text =>
      if x = 'x' ∨ x = 'X' then text else '0' :: dropHexPrefix (x :: text)
  | char :: text => char :: dropHexPrefix text
  | [] => []

def decodingMessage : String :=
  "Returned values aren't valid, did it run Out of Gas? " ++
    "You might also see this error if you are not using the " ++
    "correct ABI for the contract you are retrieving data from, " ++
    "requesting data from a block number that does not exist, " ++
    "or querying a node which is not fully synced."

variable (externals : Externals)

def decodeParametersWith (abis : List AbiInput) (bytes : String)
    (loose : Bool) : Except String DecodedParams :=
  Except.mapError (fun message => "Parameter decoding error: " ++ message) do
    if abis ≠ [] ∧ (bytes = "" ∨ bytes = "0x" ∨ bytes = "0X") then
      .error decodingMessage
    else do
      let modifiedTypes ← mapTypes abis
      let types ← codedMessage (modifiedTypes.mapM ParamType.from)
      let res ← codedMessage (AbiCoder.decode externals ethersAbiCoder types
        (.string (String.ofList ('0' :: 'x' :: dropHexPrefix bytes.toList)))
        loose)
      codedMessage (formatArrayResToObject res)

def decodeParameters (abi : List AbiInput) (bytes : String) :
    Except String DecodedParams :=
  decodeParametersWith externals abi bytes false

/-- The first of the decoded parameters. -/
def decodeParameter (abi : AbiInput) (bytes : String) :
    Except String (Option DecodedParam) := do
  let params ← decodeParameters externals [abi] bytes
  .ok (params.at 0)

end Decoding

end Web3Js.Abi
