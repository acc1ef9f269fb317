import Web3Js.Fragments.Types

/-!
# Parameter types from text

The text is read in one pass over its characters, with the parameters that are
still open on a stack.  The word `indexed` is read as a flag where it is
allowed.
-/

namespace Web3Js.Fragments

open Abi (Error verifyType checkModifier unexpectedCharacter)

/-- A node of the parser with its state. -/
structure ParseNode where
  type : Text := []
  name : Text := []
  /-- Missing at the root, and everywhere when it is not allowed. -/
  indexed : Option Bool
  components : Option (List JsonFragmentType) := none
  allowType : Bool := true
  allowName : Bool := false
  allowParams : Bool := false
  allowArray : Bool := false
  readArray : Bool := false

namespace ParseNode

/-- `newNode` -/
def new (allowIndexed : Bool) : ParseNode :=
  { indexed := if allowIndexed then some false else none }

def root : ParseNode := { indexed := none }

/-- What is left of a node once its state is deleted. -/
def fragment (node : ParseNode) : JsonFragmentType :=
  ⟨some node.name, verifyType node.type, node.indexed, node.components⟩

/-- A parenthesis or a comma closes the node. -/
def close (allowIndexed : Bool) (node : ParseNode) (position : Nat) :
    Except Error ParseNode :=
  if node.name = "indexed".toList then
    if allowIndexed then
      .ok { node with indexed := some true, name := [] }
    else unexpectedCharacter position
  else do
    let modifier ← checkModifier node.type node.name
    .ok (if modifier then { node with name := [] } else node)

/-- The end of the text closes the root. -/
def finish (allowIndexed : Bool) (node : ParseNode) (position : Nat) :
    Except Error ParseNode :=
  if node.name = "indexed".toList then
    if allowIndexed ∧ node.indexed ≠ some true then
      .ok { node with indexed := some true, name := [] }
    else unexpectedCharacter position
  else do
    let modifier ← checkModifier node.type node.name
    .ok (if modifier then { node with name := [] } else node)

/-- The type is done, and parameters or a name may follow. -/
def endType (node : ParseNode) : ParseNode :=
  if node.allowType ∧ node.type ≠ [] then
    { node with
      type := verifyType node.type
      allowType := false
      allowName := true
      allowParams := true }
  else node

/-- The name is done, unless it is a flag or a modifier. -/
def endName (allowIndexed : Bool) (node : ParseNode) (position : Nat) :
    Except Error ParseNode :=
  if node.allowName ∧ node.name ≠ [] then
    if node.name = "indexed".toList then
      if allowIndexed ∧ node.indexed ≠ some true then
        .ok { node with indexed := some true, name := [] }
      else unexpectedCharacter position
    else do
      let modifier ← checkModifier node.type node.name
      .ok (if modifier then { node with name := [] }
        else { node with allowName := false })
  else .ok node

/-- A space ends the type, and the name if there is one. -/
def space (allowIndexed : Bool) (node : ParseNode) (position : Nat) :
    Except Error ParseNode :=
  node.endType.endName allowIndexed position

/-- Any other character is read as the state allows. -/
def read (node : ParseNode) (char : Char) (position : Nat) :
    Except Error ParseNode :=
  if node.allowType then
    .ok { node with
      type := node.type ++ [char]
      allowParams := true
      allowArray := true }
  else if node.allowName then
    .ok { node with name := node.name ++ [char], allowArray := false }
  else if node.readArray then .ok { node with type := node.type ++ [char] }
  else unexpectedCharacter position

def addComponent (node : ParseNode) (child : ParseNode) : ParseNode :=
  { node with
    components := some (node.components.getD [] ++ [child.fragment]) }

end ParseNode

/-- The open node and those around it. -/
structure Parser where
  node : ParseNode
  parents : List ParseNode

namespace Parser

/-- One character; white space counts as a space. -/
def step (allowIndexed : Bool) (parser : Parser) (char : Char)
    (position : Nat) : Except Error Parser :=
  let node := parser.node
  if char = '(' then
    if (node.allowType = true ∧ node.type = []) ∨ node.allowParams = true then
      let type :=
        if node.allowType ∧ node.type = [] then "tuple".toList else node.type
      .ok ⟨.new allowIndexed,
        { node with
          type := verifyType type
          allowType := false
          components := some [] } :: parser.parents⟩
    else unexpectedCharacter position
  else if char = ')' then do
    let child ← node.close allowIndexed position
    match parser.parents with
    | [] => unexpectedCharacter position
    | parent :: parents =>
        .ok ⟨{ parent.addComponent child with
            allowParams := false
            allowName := true
            allowArray := true }, parents⟩
  else if char = ',' then do
    let child ← node.close allowIndexed position
    match parser.parents with
    | [] =>
        .error { code := .unspecified,
                 message := "Cannot read properties of undefined" }
    | parent :: parents =>
        .ok ⟨.new allowIndexed, parent.addComponent child :: parents⟩
  else if isWhiteSpace char then do
    let node ← node.space allowIndexed position
    .ok { parser with node }
  else if char = '[' then
    if node.allowArray then
      .ok { parser with node := { node with
        type := node.type ++ [char]
        allowArray := false
        allowName := false
        readArray := true } }
    else unexpectedCharacter position
  else if char = ']' then
    if node.readArray then
      .ok { parser with node := { node with
        type := node.type ++ [char]
        readArray := false
        allowArray := true
        allowName := true } }
    else unexpectedCharacter position
  else do
    let node ← node.read char position
    .ok { parser with node }

def run (allowIndexed : Bool) (parser : Parser) :
    (text : Text) → (position : Nat) → Except Error Parser
  | [], _ => .ok parser
  | char :: text, position => do
      let next ← parser.step allowIndexed char position
      next.run allowIndexed text (position + 1)

end Parser

def parseParamType (param : Text) (allowIndexed : Bool) :
    Except Error JsonFragmentType := do
  let parser ← Parser.run allowIndexed ⟨.root, []⟩ param 0
  match parser.parents with
  | [] => do
      let node ← parser.node.finish allowIndexed (param.length - 7)
      .ok node.fragment
  | _ => .error (Error.ofArgument "unexpected eof" (some "param"))

namespace ParamType

def fromString (value : Text) (allowIndexed : Bool) :
    Except Error ParamType := do
  let node ← parseParamType value allowIndexed
  .ok (fromObject node)

end ParamType

end Web3Js.Fragments
