import Web3Js.Abi.Spec
import Web3Js.Numbers

/-!
# Parameter types from text and from JSON

A parameter type is given as an object of the JSON interface or as text.  The
text is read in one pass over its characters, with the parameters that are
still open on a stack.
-/

namespace Web3Js.Abi

inductive JsonFragmentType
  | mk (name type : String) (components : Option (List JsonFragmentType))

namespace JsonFragmentType

def name : JsonFragmentType → String
  | mk name _ _ => name

def type : JsonFragmentType → String
  | mk _ type _ => type

end JsonFragmentType

section Types

/-- `/($|[^1-9])/` at the front of a text. -/
def endsWidth (text : List Char) : Bool :=
  text.head?.all fun char => !(char.isDigit && char != '0')

/-- Integers without a width are written out. -/
def verifyType (type : List Char) : List Char :=
  match type with
  | 'u' :: 'i' :: 'n' :: 't' :: rest =>
      if endsWidth rest then "uint512".toList ++ rest else type
  | 'i' :: 'n' :: 't' :: rest =>
      if endsWidth rest then "int512".toList ++ rest else type
  | _ => type

/-- What stands before a last pair of brackets, and the digits in it:
`/\[([0-9]*)\]$/`. -/
def arraySuffix (type : List Char) : Option (List Char × List Char) :=
  match type.reverse with
  | ']' :: rest =>
      match rest.dropWhile Char.isDigit with
      | '[' :: front =>
          some (front.reverse, (rest.takeWhile Char.isDigit).reverse)
      | _ => none
  | _ => none

/-- The constructor of `ParamType`: an array while there are brackets, which
the fuel bounds. -/
def ParamType.construct (components : Option (List ParamType)) :
    (fuel : Nat) → (name : Option String) → (type : List Char) → ParamType
  | 0, name, type =>
      match components with
      | some components => .tuple name components
      | none => .elementary name (String.ofList type)
  | fuel + 1, name, type =>
      let type := verifyType type
      match arraySuffix type with
      | some (child, digits) =>
          .array name
            (if digits = [] then none else some (Reader.parseInt digits))
            (construct components fuel none child)
      | none =>
          match components with
          | some components => .tuple name components
          | none => .elementary name (String.ofList type)

mutual

def ParamType.fromObject : JsonFragmentType → ParamType
  | .mk name type none =>
      .construct none (type.length + 1) (givenName (some name)) type.toList
  | .mk name type (some components) =>
      .construct (some (ParamType.fromObjects components)) (type.length + 1)
        (givenName (some name)) type.toList

def ParamType.fromObjects : List JsonFragmentType → List ParamType
  | [] => []
  | value :: values =>
      ParamType.fromObject value :: ParamType.fromObjects values

end

end Types

section Parsing

/-- A node of the parser with its state. -/
structure ParseNode where
  type : List Char := []
  name : List Char := []
  components : Option (List JsonFragmentType) := none
  allowType : Bool := true
  allowName : Bool := false
  allowParams : Bool := false
  allowArray : Bool := false
  readArray : Bool := false

/-- A property of an object literal, where every plain object inherits some. -/
def hasModifier (modifiers : List String) (name : String) : Bool :=
  modifiers.contains name || objectPrototypeNames.contains name

def modifiersBytes : List String := ["calldata", "memory", "storage"]

def modifiersNest : List String := ["calldata", "memory"]

def checkModifier (type name : List Char) : Except Error Bool :=
  let type := String.ofList type
  let name := String.ofList name
  let allowed :=
    if type = "bytes" ∨ type = "string" then hasModifier modifiersBytes name
    else if type = "address" then name == "payable"
    else if type.toList.contains '[' ∨ type = "tuple" then
      hasModifier modifiersNest name
    else false
  if allowed then .ok true
  else if hasModifier modifiersBytes name ∨ name = "payable" then
    .error (Error.ofArgument "invalid modifier" (some "name"))
  else .ok false

def unexpectedCharacter {α : Type} (position : Nat) : Except Error α :=
  .error (Error.ofArgument
    ("unexpected character at position " ++ toString position) (some "param"))

/-- A node is done: nothing is indexed here, and a modifier is no name. -/
def ParseNode.close (node : ParseNode) (position : Nat) :
    Except Error JsonFragmentType :=
  if node.name = "indexed".toList then unexpectedCharacter position
  else do
    let modifier ← checkModifier node.type node.name
    .ok (.mk (if modifier then "" else String.ofList node.name)
      (String.ofList (verifyType node.type)) node.components)

/-- A space ends the type, and the name if there is one. -/
def ParseNode.space (node : ParseNode) (position : Nat) :
    Except Error ParseNode :=
  let typed :=
    if node.allowType ∧ node.type ≠ [] then
      { node with
        type := verifyType node.type
        allowType := false
        allowName := true
        allowParams := true }
    else node
  if typed.allowName ∧ typed.name ≠ [] then
    if typed.name = "indexed".toList then unexpectedCharacter position
    else do
      let modifier ← checkModifier typed.type typed.name
      .ok (if modifier then { typed with name := [] }
        else { typed with allowName := false })
  else .ok typed

/-- Any other character is read as the state allows. -/
def ParseNode.read (node : ParseNode) (char : Char) (position : Nat) :
    Except Error ParseNode :=
  if node.allowType then
    .ok { node with
      type := node.type ++ [char]
      allowParams := true
      allowArray := true }
  else if node.allowName then
    .ok { node with name := node.name ++ [char], allowArray := false }
  else if node.readArray then .ok { node with type := node.type ++ [char] }
  else unexpectedCharacter position

/-- The open node and those around it. -/
structure Parser where
  node : ParseNode := {}
  parents : List ParseNode := []

def ParseNode.addComponent (node : ParseNode) (child : JsonFragmentType) :
    ParseNode :=
  { node with components := some (node.components.getD [] ++ [child]) }

def Parser.step (parser : Parser) (char : Char) (position : Nat) :
    Except Error Parser :=
  let node := parser.node
  if char = '(' then
    if (node.allowType = true ∧ node.type = []) ∨ node.allowParams = true then
      let type :=
        if node.allowType ∧ node.type = [] then "tuple".toList else node.type
      .ok { node := {},
            parents := { node with
              type := verifyType type
              allowType := false
              components := some [] } :: parser.parents }
    else unexpectedCharacter position
  else if char = ')' then do
    let child ← node.close position
    match parser.parents with
    | [] => unexpectedCharacter position
    | parent :: parents =>
        .ok { node := { parent.addComponent child with
                allowParams := false
                allowName := true
                allowArray := true },
              parents }
  else if char = ',' then do
    let child ← node.close position
    match parser.parents with
    | [] =>
        .error { code := .unspecified,
                 message := "Cannot read properties of undefined" }
    | parent :: parents =>
        .ok { node := {}, parents := parent.addComponent child :: parents }
  else if isWhiteSpace char then do
    let node ← node.space position
    .ok { parser with node }
  else if char = '[' then
    if node.allowArray then
      .ok { parser with node := { node with
        type := node.type ++ [char]
        allowArray := false
        allowName := false
        readArray := true } }
    else unexpectedCharacter position
  else if char = ']' then
    if node.readArray then
      .ok { parser with node := { node with
        type := node.type ++ [char]
        readArray := false
        allowArray := true
        allowName := true } }
    else unexpectedCharacter position
  else do
    let node ← node.read char position
    .ok { parser with node }

def Parser.run (parser : Parser) :
    (text : List Char) → (position : Nat) → Except Error Parser
  | [], _ => .ok parser
  | char :: text, position => do
      let next ← parser.step char position
      next.run text (position + 1)

def parseParamType (param : String) : Except Error JsonFragmentType := do
  let parser ← Parser.run {} param.toList 0
  match parser.parents with
  | [] => parser.node.close (param.length - 7)
  | _ => .error (Error.ofArgument "unexpected eof" (some "param"))

def ParamType.fromString (value : String) : Except Error ParamType := do
  let node ← parseParamType value
  .ok (.fromObject node)

end Parsing

section Words

theorem isWhiteSpace_of_isAlphanum {char : Char}
    (word : char.isAlphanum = true) : isWhiteSpace char = false := by
  rw [Bool.eq_false_iff]
  intro white
  have letters : (decide (char.val ≥ 'A'.val ∧ char.val ≤ 'Z'.val) ||
      (char.val ≥ 'a'.val && char.val ≤ 'z'.val) || char.isDigit) = true := word
  simp only [Char.isDigit, isWhiteSpace, Bool.or_eq_true, Bool.and_eq_true,
    decide_eq_true_eq, List.mem_cons, List.not_mem_nil, or_false]
    at letters white
  simp only [UInt32.le_iff_toNat_le, ge_iff_le] at letters
  change (65 ≤ char.toNat ∧ char.toNat ≤ 90 ∨
    97 ≤ char.toNat ∧ char.toNat ≤ 122) ∨
      48 ≤ char.toNat ∧ char.toNat ≤ 57 at letters
  omega

/-- The parser after a text that goes on the type. -/
def Parser.typed (parser : Parser) (text : List Char) : Parser :=
  { parser with
    node := { parser.node with
      type := parser.node.type ++ text
      allowParams := true
      allowArray := true } }

/-- Letters and digits go on the type that is being read. -/
theorem Parser.step_word {parser : Parser} {char : Char}
    (typing : parser.node.allowType = true) (word : char.isAlphanum = true)
    (position : Nat) :
    parser.step char position = .ok (parser.typed [char]) := by
  have other : ∀ special : Char, special.isAlphanum = false →
      char ≠ special := by
    rintro special notWord rfl
    rw [word] at notWord
    cases notWord
  unfold Parser.step
  rw [if_neg (other '(' (by decide)), if_neg (other ')' (by decide)),
    if_neg (other ',' (by decide)), isWhiteSpace_of_isAlphanum word,
    if_neg Bool.false_ne_true, if_neg (other '[' (by decide)),
    if_neg (other ']' (by decide)), ParseNode.read, if_pos typing]
  rfl

theorem Parser.run_word {text : List Char}
    (word : text.all Char.isAlphanum = true) (nonempty : text ≠ [])
    {parser : Parser} (typing : parser.node.allowType = true)
    (position : Nat) :
    parser.run text position = .ok (parser.typed text) := by
  induction text generalizing parser position with
  | nil => exact absurd rfl nonempty
  | cons char text induction =>
      obtain ⟨first, rest⟩ := Bool.and_eq_true_iff.mp word
      rw [Parser.run, Parser.step_word typing first, Outcome.ok_bind]
      cases text with
      | nil => rfl
      | cons next text =>
          have still : (parser.typed [char]).node.allowType = true := typing
          rw [induction rest (List.cons_ne_nil _ _) still]
          simp only [Parser.typed, List.append_assoc, List.singleton_append]

theorem verifyType_cases (type : List Char) :
    verifyType type = type ∨
      ∃ rest, (type = "uint".toList ++ rest ∧
          verifyType type = "uint512".toList ++ rest) ∨
        (type = "int".toList ++ rest ∧
          verifyType type = "int512".toList ++ rest) := by
  unfold verifyType
  split
  · rename_i rest
    split
    · exact .inr ⟨rest, .inl ⟨rfl, rfl⟩⟩
    · exact .inl rfl
  · rename_i rest
    split
    · exact .inr ⟨rest, .inr ⟨rfl, rfl⟩⟩
    · exact .inl rfl
  · exact .inl rfl

theorem verifyType_verifyType (type : List Char) :
    verifyType (verifyType type) = verifyType type := by
  obtain same | ⟨rest, ⟨-, wide⟩ | ⟨-, wide⟩⟩ := verifyType_cases type
  · rw [same, same]
  · rw [wide]
    rfl
  · rw [wide]
    rfl

theorem isAlphanum_verifyType {type : List Char}
    (word : type.all Char.isAlphanum = true) :
    (verifyType type).all Char.isAlphanum = true := by
  obtain same | ⟨rest, ⟨rfl, wide⟩ | ⟨rfl, wide⟩⟩ := verifyType_cases type
  · rw [same, word]
  · rw [List.all_append, Bool.and_eq_true] at word
    rw [wide, List.all_append, word.2]
    rfl
  · rw [List.all_append, Bool.and_eq_true] at word
    rw [wide, List.all_append, word.2]
    rfl

theorem arraySuffix_word {type : List Char}
    (word : type.all Char.isAlphanum = true) : arraySuffix type = none := by
  unfold arraySuffix
  split
  · rename_i rest reversed
    have last : ']' ∈ type := by
      rw [← List.mem_reverse, reversed]
      exact List.mem_cons_self
    cases List.all_eq_true.mp word ']' last
  · rfl

theorem ParamType.construct_word {type : List Char}
    (word : type.all Char.isAlphanum = true) (name : Option String)
    (fuel : Nat) :
    ParamType.construct none (fuel + 1) name type =
      .elementary name (String.ofList (verifyType type)) := by
  rw [construct, arraySuffix_word (isAlphanum_verifyType word)]

theorem checkModifier_nil (type : List Char) :
    checkModifier type [] = .ok false := by
  have none : hasModifier modifiersBytes "" = false ∧
      hasModifier modifiersNest "" = false := by decide
  have empty : String.ofList [] = "" := rfl
  simp only [checkModifier, empty, none.1, none.2]
  simp

theorem ParseNode.close_unnamed {node : ParseNode} (unnamed : node.name = [])
    (position : Nat) :
    node.close position =
      .ok (.mk "" (String.ofList (verifyType node.type)) node.components) := by
  rw [close, unnamed, checkModifier_nil]
  rfl

/-- A word is read as the type that it is. -/
theorem ParamType.fromString_word {type : String}
    (word : type.toList.all Char.isAlphanum = true)
    (nonempty : type.toList ≠ []) :
    ParamType.fromString type =
      .ok (.elementary none (String.ofList (verifyType type.toList))) := by
  have parsed : parseParamType type =
      .ok (.mk "" (String.ofList (verifyType type.toList)) none) := by
    rw [parseParamType, Parser.run_word word nonempty rfl, Outcome.ok_bind]
    exact ParseNode.close_unnamed rfl _
  rw [fromString, parsed, Outcome.ok_bind, fromObject]
  rw [String.toList_ofList, construct_word (isAlphanum_verifyType word),
    verifyType_verifyType]
  rfl

end Words

end Web3Js.Abi
