import Web3Js.Fragments.Parser

/-!
# Fragments of an interface

Functions, events, constructors and errors are made from objects of the JSON
interface and from text.  The text is spaced evenly around its parentheses,
taken apart at the gas annotation, the outputs and the parentheses of the
inputs, and its parameters are split at the commas outside parentheses.
-/

namespace Web3Js.Fragments

open Abi (Error)

/-- A number as a fragment object gives it. -/
inductive Gas where
  | number (value : Int)
  | text (content : Text)
  | bigNumber (value : Int)
deriving DecidableEq

/-- An object of the JSON interface, or one made of parameter types. -/
structure FragmentObject (Param : Type) where
  type : Text
  name : Option Text := none
  anonymous : Option Bool := none
  payable : Option Bool := none
  constant : Option Bool := none
  stateMutability : Option Text := none
  inputs : Option (List Param) := none
  outputs : Option (List Param) := none
  gas : Option Gas := none

abbrev JsonFragment := FragmentObject JsonFragmentType

structure EventFragment where
  name : Text
  inputs : List ParamType
  anonymous : Option Bool

structure ConstructorFragment where
  inputs : List ParamType
  stateMutability : Text
  payable : Bool
  gas : Option Int

structure FunctionFragment where
  name : Text
  inputs : List ParamType
  outputs : List ParamType
  stateMutability : Text
  payable : Bool
  constant : Bool
  gas : Option Int

structure ErrorFragment where
  name : Text
  inputs : List ParamType

inductive Fragment where
  | event (fragment : EventFragment)
  | constructor (fragment : ConstructorFragment)
  | function (fragment : FunctionFragment)
  | error (fragment : ErrorFragment)

/-! ## Formats -/

/-- The parameters between the parentheses. -/
def formatParams (kind : FormatType) (params : List ParamType) : Text :=
  (ParamType.separator kind).intercalate (ParamType.formatAll kind params)

/-- The name and the inputs, followed by a space. -/
def formatCall (kind : FormatType) (name : Text) (inputs : List ParamType) :
    Text :=
  name ++ '(' :: formatParams kind inputs ++ ") ".toList

def EventFragment.format (kind : FormatType) (fragment : EventFragment) :
    Text :=
  trim ((if kind = .sighash then [] else "event ".toList) ++
    formatCall kind fragment.name fragment.inputs ++
    if kind ≠ .sighash ∧ fragment.anonymous = some true then
      "anonymous ".toList
    else [])

/-- A mutability other than the default, followed by a space. -/
def formatMutability (stateMutability : Text) : Text :=
  if stateMutability = [] ∨ stateMutability = "nonpayable".toList then []
  else stateMutability ++ [' ']

def ConstructorFragment.format (kind : FormatType)
    (fragment : ConstructorFragment) : Except Error Text :=
  if kind = .sighash then
    .error { code := .unspecified,
             message := "cannot format a constructor for sighash" }
  else
    .ok (trim (formatCall kind "constructor".toList fragment.inputs ++
      formatMutability fragment.stateMutability))

/-- The gas annotation, followed by a space. -/
def formatGas (gas : Option Int) : Text :=
  match gas with
  | some gas => '@' :: (toString gas).toList ++ [' ']
  | none => []

def FunctionFragment.format (kind : FormatType)
    (fragment : FunctionFragment) : Text :=
  trim ((if kind = .sighash then [] else "function ".toList) ++
    formatCall kind fragment.name fragment.inputs ++
    if kind = .sighash then []
    else
      (if fragment.stateMutability ≠ [] then
        formatMutability fragment.stateMutability
      else if fragment.constant then "view ".toList
      else []) ++
      (if fragment.outputs = [] then []
      else
        "returns (".toList ++
          ", ".toList.intercalate
            (ParamType.formatAll kind fragment.outputs) ++
          ") ".toList) ++
      formatGas fragment.gas)

def ErrorFragment.format (kind : FormatType) (fragment : ErrorFragment) :
    Text :=
  trim ((if kind = .sighash then [] else "error ".toList) ++
    formatCall kind fragment.name fragment.inputs)

def Fragment.format (kind : FormatType) : Fragment → Except Error Text
  | .event fragment => .ok (fragment.format kind)
  | .constructor fragment => fragment.format kind
  | .function fragment => .ok (fragment.format kind)
  | .error fragment => .ok (fragment.format kind)

/-- `this.gas ? this.gas.toNumber() : undefined` -/
def jsonGas : Option Int → Except Error (Option Gas)
  | none => .ok none
  | some gas => do
      let number ← Abi.BigNumber.toNumber gas
      .ok (some (.number number))

/-- A mutability other than the default. -/
def jsonMutability (stateMutability : Text) : Option Text :=
  if stateMutability = "nonpayable".toList then none else some stateMutability

/-- The object that `format('json')` writes. -/
def Fragment.json : Fragment → Except Error JsonFragment
  | .event fragment =>
      .ok { type := "event".toList
            anonymous := fragment.anonymous
            name := some fragment.name
            inputs := some (ParamType.jsonAll fragment.inputs) }
  | .constructor fragment => do
      let gas ← jsonGas fragment.gas
      .ok { type := "constructor".toList
            stateMutability := jsonMutability fragment.stateMutability
            payable := some fragment.payable
            gas
            inputs := some (ParamType.jsonAll fragment.inputs) }
  | .function fragment => do
      let gas ← jsonGas fragment.gas
      .ok { type := "function".toList
            name := some fragment.name
            constant := some fragment.constant
            stateMutability := jsonMutability fragment.stateMutability
            payable := some fragment.payable
            gas
            inputs := some (ParamType.jsonAll fragment.inputs)
            outputs := some (ParamType.jsonAll fragment.outputs) }
  | .error fragment =>
      .ok { type := "error".toList
            name := some fragment.name
            inputs := some (ParamType.jsonAll fragment.inputs) }

/-! ## Fragments from objects -/

structure StateOutputValue where
  constant : Bool
  payable : Bool
  stateMutability : Text
deriving DecidableEq

/-- `verifyState`; flags that a mutability comes with have to agree with it. -/
def verifyState {Param : Type} (value : FragmentObject Param) :
    Except Error StateOutputValue :=
  match value.stateMutability, value.payable, value.constant with
  | some stateMutability, payable, constant =>
      let isConstant := stateMutability = "view".toList ∨
        stateMutability = "pure".toList
      let isPayable := stateMutability = "payable".toList
      if constant.any fun flag => flag ≠ decide isConstant then
        .error (Error.ofArgument
          (String.ofList ("cannot have constant function with mutability ".toList
            ++ stateMutability)) (some "value"))
      else if payable.any fun flag => flag ≠ decide isPayable then
        .error (Error.ofArgument
          (String.ofList ("cannot have payable function with mutability ".toList
            ++ stateMutability)) (some "value"))
      else .ok ⟨isConstant, isPayable, stateMutability⟩
  | none, some payable, constant =>
      if constant = none ∧ payable = false ∧
          value.type ≠ "constructor".toList then
        .error (Error.ofArgument "unable to determine stateMutability"
          (some "value"))
      else
        let isConstant := constant.getD false
        if payable ∧ isConstant then
          .error (Error.ofArgument "cannot have constant payable function"
            (some "value"))
        else
          .ok ⟨isConstant, payable,
            if isConstant then "view".toList
            else if payable then "payable".toList
            else "nonpayable".toList⟩
  | none, none, some constant =>
      .ok ⟨constant, !constant,
        if constant then "view".toList else "payable".toList⟩
  | none, none, none =>
      if value.type ≠ "constructor".toList then
        .error (Error.ofArgument "unable to determine stateMutability"
          (some "value"))
      else .ok ⟨false, true, "payable".toList⟩

/-- `/^[a-zA-Z$_][a-zA-Z0-9$_]*$/` -/
def isIdentifier : Text → Bool
  | [] => false
  | first :: rest =>
      (first.isAlpha || first == '$' || first == '_') &&
        rest.all fun char => char.isAlphanum || char == '$' || char == '_'

def verifyIdentifier (value : Option Text) : Except Error Text :=
  match value with
  | some name =>
      if isIdentifier name then .ok name
      else
        .error (Error.ofArgument (String.ofList
          ("invalid identifier \"".toList ++ name ++ ['"'])) (some "value"))
  | none =>
      .error (Error.ofArgument "invalid identifier \"undefined\""
        (some "value"))

section Objects

variable (bigNumberFrom : Gas → Except Error Int)

/-- `value.gas ? BigNumber.from(value.gas) : null` -/
def readGas : Option Gas → Except Error (Option Int)
  | none => .ok none
  | some (.number 0) | some (.text []) => .ok none
  | some gas => do
      let value ← bigNumberFrom gas
      .ok (some value)

def EventFragment.fromObject (value : FragmentObject ParamType) :
    Except Error EventFragment := do
  let name ← verifyIdentifier value.name
  .ok ⟨name, value.inputs.getD [], value.anonymous⟩

def ConstructorFragment.fromObject (value : FragmentObject ParamType) :
    Except Error ConstructorFragment := do
  let state ← verifyState value
  if state.constant then
    .error (Error.ofArgument "constructor cannot be constant" (some "value"))
  else
    let gas ← readGas bigNumberFrom value.gas
    .ok ⟨value.inputs.getD [], state.stateMutability, state.payable, gas⟩

def FunctionFragment.fromObject (value : FragmentObject ParamType) :
    Except Error FunctionFragment := do
  let state ← verifyState value
  let name ← verifyIdentifier value.name
  let gas ← readGas bigNumberFrom value.gas
  .ok ⟨name, value.inputs.getD [], value.outputs.getD [],
    state.stateMutability, state.payable, state.constant, gas⟩

def checkForbidden (fragment : ErrorFragment) : Except Error ErrorFragment :=
  let sig := fragment.format .sighash
  if sig = "Error(string)".toList ∨ sig = "Panic(uint512)".toList then
    .error (Error.ofArgument (String.ofList
      ("cannot specify user defined ".toList ++ sig ++ " error".toList))
      (some "fragment"))
  else .ok fragment

def ErrorFragment.fromObject (value : FragmentObject ParamType) :
    Except Error ErrorFragment := do
  let name ← verifyIdentifier value.name
  checkForbidden ⟨name, value.inputs.getD []⟩

/-- The object with its parameters as parameter types. -/
def JsonFragment.typed (value : JsonFragment) : FragmentObject ParamType where
  type := value.type
  name := value.name
  anonymous := value.anonymous
  payable := value.payable
  constant := value.constant
  stateMutability := value.stateMutability
  inputs := value.inputs.map ParamType.fromObjects
  outputs := value.outputs.map ParamType.fromObjects
  gas := value.gas

/-- `Fragment.fromObject`; there is no fragment for fallback functions. -/
def Fragment.fromObject (value : JsonFragment) :
    Except Error (Option Fragment) :=
  if value.type = "function".toList then
    (FunctionFragment.fromObject bigNumberFrom (JsonFragment.typed value)).map
      fun fragment => some (.function fragment)
  else if value.type = "event".toList then
    (EventFragment.fromObject (JsonFragment.typed value)).map fun fragment =>
      some (.event fragment)
  else if value.type = "constructor".toList then
    (ConstructorFragment.fromObject bigNumberFrom
      (JsonFragment.typed value)).map fun fragment =>
        some (.constructor fragment)
  else if value.type = "error".toList then
    (ErrorFragment.fromObject (JsonFragment.typed value)).map fun fragment =>
      some (.error fragment)
  else if value.type = "fallback".toList ∨ value.type = "receive".toList then
    .ok none
  else .error (Error.ofArgument "invalid fragment object" (some "value"))

end Objects

/-! ## Fragments from text -/

section Texts

/-- A run of white space becomes one space. -/
def collapse : Text → Text
  | [] => []
  | [char] => [if isWhiteSpace char then ' ' else char]
  | char :: next :: rest =>
      if isWhiteSpace char then
        if isWhiteSpace next then collapse (next :: rest)
        else ' ' :: collapse (next :: rest)
      else char :: collapse (next :: rest)

/-- A space before an opening and after a closing parenthesis. -/
def spread (char : Char) : Text :=
  if char = '(' then " (".toList
  else if char = ')' then ") ".toList
  else [if isWhiteSpace char then ' ' else char]

/-- Even spacing. -/
def respace (value : Text) : Text := trim (collapse (value.flatMap spread))

/-- `split(separator)`; the number of characters of a separator still to be
passed comes first. -/
def splitFrom (separator : Text) : Nat → Text → List Text
  | _, [] => [[]]
  | skip + 1, _ :: rest => splitFrom separator skip rest
  | 0, char :: rest =>
      if separator.isPrefixOf (char :: rest) then
        [] :: splitFrom separator (separator.length - 1) rest
      else
        match splitFrom separator 0 rest with
        | piece :: pieces => (char :: piece) :: pieces
        | [] => [[char]]

def split (separator value : Text) : List Text := splitFrom separator 0 value

def isParenthesis (char : Char) : Bool := char == '(' || char == ')'

/-- `/^([^)(]*)\((.*)\)([^)(]*)$/` -/
def matchParen (value : Text) : Option (Text × Text × Text) :=
  match value.dropWhile fun char => !isParenthesis char with
  | '(' :: rest =>
      match rest.reverse.dropWhile fun char => !isParenthesis char with
      | ')' :: inner =>
          some (value.takeWhile fun char => !isParenthesis char,
            inner.reverse,
            (rest.reverse.takeWhile fun char => !isParenthesis char).reverse)
      | _ => none
  | _ => none

/-- `splitNesting` with the piece read so far and the depth. -/
def splitNestingFrom : (accum : Text) → (depth : Nat) → Text →
    Except Error (List Text)
  | accum, _, [] => .ok (if accum = [] then [] else [accum])
  | accum, depth, char :: rest =>
      if char = ',' ∧ depth = 0 then
        (splitNestingFrom [] 0 rest).map fun pieces => accum :: pieces
      else if char = '(' then
        splitNestingFrom (accum ++ [char]) (depth + 1) rest
      else if char = ')' then
        if depth = 0 then
          .error (Error.ofArgument "unbalanced parenthesis" (some "value"))
        else splitNestingFrom (accum ++ [char]) (depth - 1) rest
      else splitNestingFrom (accum ++ [char]) depth rest

def splitNesting (value : Text) : Except Error (List Text) :=
  splitNestingFrom [] 0 (trim value)

def parseParams (value : Text) (allowIndex : Bool) :
    Except Error (List ParamType) := do
  let pieces ← splitNesting value
  pieces.mapM fun param => ParamType.fromString param allowIndex

/-- One word after the parentheses of a function. -/
def parseModifier (state : StateOutputValue) (modifier : Text) :
    StateOutputValue :=
  let word := trim modifier
  if word = "constant".toList then { state with constant := true }
  else if word = "payable".toList then
    { state with payable := true, stateMutability := "payable".toList }
  else if word = "nonpayable".toList then
    { state with payable := false, stateMutability := "nonpayable".toList }
  else if word = "pure".toList then
    { state with constant := true, stateMutability := "pure".toList }
  else if word = "view".toList then
    { state with constant := true, stateMutability := "view".toList }
  else state

def parseModifiers (value : Text) : StateOutputValue :=
  (split [' '] value).foldl parseModifier
    ⟨false, false, "nonpayable".toList⟩

variable (bigNumberFrom : Gas → Except Error Int)

/-- The text before the gas annotation, and the gas. -/
def parseGas (value : Text) : Except Error (Text × Option Int) :=
  match split ['@'] value with
  | [value] => .ok (value, none)
  | [value, gas] =>
      if gas ≠ [] ∧ gas.all Char.isDigit then do
        let gas ← bigNumberFrom (.text gas)
        .ok (value, some gas)
      else
        .error (Error.ofArgument
          "invalid human-readable ABI signature gas" (some "value"))
  | _ =>
      .error (Error.ofArgument "invalid human-readable ABI signature"
        (some "value"))

def EventFragment.fromString (value : Text) : Except Error EventFragment :=
  match matchParen value with
  | none => .error (Error.ofArgument "invalid event string" (some "value"))
  | some (name, inputs, modifiers) => do
      let anonymous := (split [' '] modifiers).any fun modifier =>
        trim modifier == "anonymous".toList
      let inputs ← parseParams inputs true
      EventFragment.fromObject
        { type := "event".toList, name := some (trim name),
          anonymous := some anonymous, inputs := some inputs }

def ConstructorFragment.fromString (value : Text) :
    Except Error ConstructorFragment := do
  let (value, gas) ← parseGas bigNumberFrom value
  match matchParen value with
  | none =>
      .error (Error.ofArgument "invalid constructor string" (some "value"))
  | some (name, inputs, modifiers) =>
      if trim name ≠ "constructor".toList then
        .error (Error.ofArgument "invalid constructor string" (some "value"))
      else do
        let inputs ← parseParams (trim inputs) false
        let state := parseModifiers (trim modifiers)
        ConstructorFragment.fromObject bigNumberFrom
          { type := "constructor".toList,
            constant := some state.constant, payable := some state.payable,
            stateMutability := some state.stateMutability,
            inputs := some inputs, gas := gas.map .bigNumber }

/-- The outputs after `returns`, if there are any. -/
def parseOutputs : List Text → Except Error (List ParamType)
  | [] => .ok []
  | outputs :: _ =>
      match matchParen outputs with
      | none =>
          .error { code := .unspecified,
                   message := "Cannot read properties of null" }
      | some (before, params, after) =>
          if trim before ≠ [] ∨ trim after ≠ [] then
            .error (Error.ofArgument "unexpected tokens" (some "value"))
          else parseParams params false

def FunctionFragment.fromString (value : Text) :
    Except Error FunctionFragment := do
  let (value, gas) ← parseGas bigNumberFrom value
  match split " returns ".toList value with
  | [] => .error (Error.ofArgument "invalid function string" (some "value"))
  | signature :: comps =>
      if 1 < comps.length then
        .error (Error.ofArgument "invalid function string" (some "value"))
      else
        match matchParen signature with
        | none =>
            .error (Error.ofArgument "invalid function signature"
              (some "value"))
        | some (name, inputs, modifiers) => do
            let name := trim name
            if name ≠ [] then
              let _ ← verifyIdentifier (some name)
            let inputs ← parseParams inputs false
            let state := parseModifiers (trim modifiers)
            let outputs ← parseOutputs comps
            FunctionFragment.fromObject bigNumberFrom
              { type := "function".toList, name := some name,
                constant := some state.constant,
                payable := some state.payable,
                stateMutability := some state.stateMutability,
                inputs := some inputs, outputs := some outputs,
                gas := gas.map .bigNumber }

def ErrorFragment.fromString (value : Text) : Except Error ErrorFragment :=
  match matchParen value with
  | none => .error (Error.ofArgument "invalid error signature" (some "value"))
  | some (name, inputs, _) => do
      let name := trim name
      if name ≠ [] then
        let _ ← verifyIdentifier (some name)
      let inputs ← parseParams inputs false
      let fragment ← ErrorFragment.fromObject
        { type := "error".toList, name := some name, inputs := some inputs }
      checkForbidden fragment

def Fragment.fromString (value : Text) : Except Error Fragment :=
  let value := respace value
  let word := value.takeWhile (· ≠ ' ')
  if word = "event".toList then
    (EventFragment.fromString (trim (value.drop 5))).map .event
  else if word = "function".toList then
    (FunctionFragment.fromString bigNumberFrom (trim (value.drop 8))).map
      .function
  else if trim (value.takeWhile (· ≠ '(')) = "constructor".toList then
    (ConstructorFragment.fromString bigNumberFrom (trim value)).map
      .constructor
  else if word = "error".toList then
    (ErrorFragment.fromString (trim (value.drop 5))).map .error
  else .error (Error.ofArgument "unsupported fragment" (some "value"))

end Texts

end Web3Js.Fragments
