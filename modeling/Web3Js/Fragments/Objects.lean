import Web3Js.Fragments.Spacing

/-!
# Fragments from objects

An object is accepted as a fragment when its name is an identifier, its flags
agree with its mutability and its gas is a number.
-/

namespace Web3Js.Fragments

open Abi (Error)

/-- A character that an identifier may have behind its first one. -/
def isNameChar (char : Char) : Bool :=
  char.isAlphanum || char == '$' || char == '_'

theorem isNameChar_of_isIdentifier {name : Text}
    (identifier : isIdentifier name = true) :
    name ≠ [] ∧ name.all isNameChar = true := by
  cases name with
  | nil => cases identifier
  | cons first rest =>
      rw [isIdentifier, Bool.and_eq_true] at identifier
      refine ⟨List.cons_ne_nil first rest, ?_⟩
      rw [List.all_cons, Bool.and_eq_true]
      refine ⟨?_, identifier.2⟩
      have begins := identifier.1
      rw [Bool.or_eq_true, Bool.or_eq_true] at begins
      rw [isNameChar, Char.isAlphanum]
      rcases begins with (alpha | dollar) | underscore
      · rw [alpha]
        rfl
      · rw [dollar, Bool.or_true, Bool.true_or]
      · rw [underscore, Bool.or_true]

theorem not_isWhiteSpace_of_isNameChar {char : Char}
    (named : isNameChar char = true) : isWhiteSpace char = false := by
  rw [isNameChar, Bool.or_eq_true, Bool.or_eq_true] at named
  rcases named with (word | dollar) | underscore
  · exact Abi.isWhiteSpace_of_isAlphanum word
  · obtain rfl := eq_of_beq dollar
    decide
  · obtain rfl := eq_of_beq underscore
    decide

/-- A character that is none of a name is none of its characters. -/
theorem not_mem_of_isIdentifier {name : Text}
    (identifier : isIdentifier name = true) {char : Char}
    (other : isNameChar char = false) : char ∉ name := by
  intro member
  have named := (isNameChar_of_isIdentifier identifier).2
  rw [List.all_eq_true] at named
  rw [named char member] at other
  cases other

theorem Trimmed.of_isIdentifier {name : Text}
    (identifier : isIdentifier name = true) : Trimmed name := by
  have named := (isNameChar_of_isIdentifier identifier).2
  rw [List.all_eq_true] at named
  constructor
  · intro char member
    exact not_isWhiteSpace_of_isNameChar
      (named char (List.mem_of_mem_head? member))
  · intro char member
    exact not_isWhiteSpace_of_isNameChar
      (named char (List.mem_of_mem_getLast? member))

theorem verifyIdentifier_eq_ok {value : Option Text} {name : Text} :
    verifyIdentifier value = .ok name ↔
      value = some name ∧ isIdentifier name = true := by
  cases value with
  | none =>
      constructor
      · intro failed
        cases failed
      · intro both
        cases both.1
  | some given =>
      rw [verifyIdentifier]
      split
      · rename_i identifier
        constructor
        · intro same
          obtain rfl : given = name := Except.ok.inj same
          exact ⟨rfl, identifier⟩
        · intro both
          exact congrArg Except.ok (Option.some.inj both.1)
      · rename_i other
        constructor
        · intro failed
          cases failed
        · rintro ⟨same, identifier⟩
          obtain rfl : given = name := Option.some.inj same
          exact absurd identifier other

theorem event_fromObject_eq_ok {value : FragmentObject ParamType}
    {fragment : EventFragment} :
    EventFragment.fromObject value = .ok fragment ↔
      value.name = some fragment.name ∧ isIdentifier fragment.name = true ∧
        fragment.inputs = value.inputs.getD [] ∧
          fragment.anonymous = value.anonymous := by
  rw [EventFragment.fromObject, Outcome.bind_eq_ok]
  simp only [verifyIdentifier_eq_ok]
  constructor
  · rintro ⟨name, ⟨named, identifier⟩, made⟩
    obtain rfl := Except.ok.inj made
    exact ⟨named, identifier, rfl, rfl⟩
  · rintro ⟨named, identifier, inputs, anonymous⟩
    refine ⟨fragment.name, ⟨named, identifier⟩, ?_⟩
    rw [← inputs, ← anonymous]

theorem error_fromObject_eq_ok {value : FragmentObject ParamType}
    {fragment : ErrorFragment} :
    ErrorFragment.fromObject value = .ok fragment ↔
      value.name = some fragment.name ∧ isIdentifier fragment.name = true ∧
        fragment.inputs = value.inputs.getD [] ∧
          checkForbidden fragment = .ok fragment := by
  rw [ErrorFragment.fromObject, Outcome.bind_eq_ok]
  simp only [verifyIdentifier_eq_ok]
  constructor
  · rintro ⟨name, ⟨named, identifier⟩, made⟩
    have same : ⟨name, value.inputs.getD []⟩ = fragment := by
      rw [checkForbidden] at made
      split at made
      · cases made
      · exact Except.ok.inj made
    subst same
    exact ⟨named, identifier, rfl, made⟩
  · rintro ⟨named, identifier, inputs, permitted⟩
    refine ⟨fragment.name, ⟨named, identifier⟩, ?_⟩
    rw [← inputs]
    exact permitted

section Gas

variable {bigNumberFrom : Gas → Except Error Int}

theorem function_fromObject_eq_ok {value : FragmentObject ParamType}
    {fragment : FunctionFragment} :
    FunctionFragment.fromObject bigNumberFrom value = .ok fragment ↔
      verifyState value = .ok ⟨fragment.constant, fragment.payable,
        fragment.stateMutability⟩ ∧
      value.name = some fragment.name ∧ isIdentifier fragment.name = true ∧
        readGas bigNumberFrom value.gas = .ok fragment.gas ∧
          fragment.inputs = value.inputs.getD [] ∧
            fragment.outputs = value.outputs.getD [] := by
  simp only [FunctionFragment.fromObject, Outcome.bind_eq_ok,
    verifyIdentifier_eq_ok]
  constructor
  · rintro ⟨state, verified, name, ⟨named, identifier⟩, gas, read, made⟩
    obtain rfl := Except.ok.inj made
    exact ⟨verified, named, identifier, read, rfl, rfl⟩
  · rintro ⟨verified, named, identifier, read, inputs, outputs⟩
    refine ⟨_, verified, _, ⟨named, identifier⟩, _, read, ?_⟩
    rw [← inputs, ← outputs]

theorem constructor_fromObject_eq_ok {value : FragmentObject ParamType}
    {fragment : ConstructorFragment} :
    ConstructorFragment.fromObject bigNumberFrom value = .ok fragment ↔
      verifyState value = .ok ⟨false, fragment.payable,
        fragment.stateMutability⟩ ∧
        readGas bigNumberFrom value.gas = .ok fragment.gas ∧
          fragment.inputs = value.inputs.getD [] := by
  rw [ConstructorFragment.fromObject, Outcome.bind_eq_ok]
  constructor
  · rintro ⟨state, verified, made⟩
    obtain ⟨constant, payable, stateMutability⟩ := state
    cases constant with
    | true => nomatch made
    | false =>
        obtain ⟨gas, read, built⟩ := Outcome.bind_eq_ok.mp made
        obtain rfl := Except.ok.inj built
        exact ⟨verified, read, rfl⟩
  · rintro ⟨verified, read, inputs⟩
    refine ⟨_, verified, Outcome.bind_eq_ok.mpr ⟨_, read, ?_⟩⟩
    rw [← inputs]

end Gas

end Web3Js.Fragments
