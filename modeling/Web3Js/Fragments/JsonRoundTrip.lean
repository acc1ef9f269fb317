import Web3Js.Fragments.Signature
import Web3Js.Fragments.StatefulRoundTrip

/-!
# Both round trips of a fragment

The JSON format keeps everything but the largest safe integer as gas.  With
the full format, this tells exactly which fragments are the same after each of
their formats is read.
-/

namespace Web3Js.Fragments

open Abi (Error)

section Objects

variable {bigNumberFrom : Gas → Except Error Int}

/-! ## Gas -/

/-- The gas of the JSON format is read again unless it is too large for a
number. -/
theorem readGas_jsonGas (documented : GasDocumented bigNumberFrom)
    {gas : Option Nat} (positive : ∀ amount ∈ gas, 0 < amount)
    (safe : ∀ amount ∈ gas, amount < 2 ^ 53) :
    ∃ number, jsonGas (gas.map Int.ofNat) = .ok number ∧
      ∀ result, readGas bigNumberFrom number = .ok result ↔
        gas ≠ some Abi.maxSafeInteger ∧ result = gas.map Int.ofNat := by
  cases gas with
  | none =>
      refine ⟨none, rfl, ?_⟩
      intro result
      constructor
      · intro read
        exact ⟨nofun, (Except.ok.inj read).symm⟩
      · rintro ⟨_, same⟩
        rw [same]
        rfl
  | some amount =>
      have bounded : (Int.ofNat amount).natAbs ≤ Abi.maxSafeInteger := by
        have below := safe amount rfl
        have largest : Abi.maxSafeInteger + 1 = 2 ^ 53 := by decide
        change amount ≤ Abi.maxSafeInteger
        omega
      have read : readGas bigNumberFrom (some (.number amount)) =
          (bigNumberFrom (.number amount)).map some := by
        cases amount with
        | zero => exact absurd (positive 0 rfl) (Nat.lt_irrefl 0)
        | succ amount =>
            change (bigNumberFrom (.number ((amount + 1 : Nat) : Int)) >>=
              fun value => .ok (some value)) = _
            generalize bigNumberFrom (.number ((amount + 1 : Nat) : Int)) =
              made
            cases made <;> rfl
      refine ⟨some (.number amount), ?_, ?_⟩
      · rw [Option.map_some, jsonGas, Abi.BigNumber.toNumber, if_pos bounded]
        rfl
      · intro result
        rw [read, Outcome.map_eq_ok]
        by_cases largest : amount = Abi.maxSafeInteger
        · obtain ⟨problem, failed⟩ :=
            documented.overflow amount (Nat.le_of_eq largest.symm)
          constructor
          · rintro ⟨value, made, _⟩
            rw [failed] at made
            cases made
          · rintro ⟨other, _⟩
            exact absurd (congrArg some largest) other
        · have made := documented.number amount
            (Nat.lt_of_le_of_ne bounded largest)
          constructor
          · rintro ⟨value, made', same⟩
            obtain rfl := Except.ok.inj (made.symm.trans made')
            exact ⟨fun equal => largest (Option.some.inj equal), same.symm⟩
          · rintro ⟨_, same⟩
            exact ⟨_, made, same.symm⟩

/-! ## The JSON format -/

theorem fromObject_function {value : JsonFragment}
    (isFunction : value.type = "function".toList) :
    Fragment.fromObject bigNumberFrom value =
      (FunctionFragment.fromObject bigNumberFrom value.typed).map
        fun fragment => some (.function fragment) := by
  rw [Fragment.fromObject, if_pos isFunction]

theorem fromObject_event {value : JsonFragment}
    (isEvent : value.type = "event".toList) :
    Fragment.fromObject bigNumberFrom value =
      (EventFragment.fromObject value.typed).map
        fun fragment => some (.event fragment) := by
  have other : value.type ≠ "function".toList := by
    rw [isEvent]
    decide
  rw [Fragment.fromObject, if_neg other, if_pos isEvent]

theorem fromObject_constructor {value : JsonFragment}
    (isConstructor : value.type = "constructor".toList) :
    Fragment.fromObject bigNumberFrom value =
      (ConstructorFragment.fromObject bigNumberFrom value.typed).map
        fun fragment => some (.constructor fragment) := by
  have other : value.type ≠ "function".toList ∧
      value.type ≠ "event".toList := by
    rw [isConstructor]
    decide
  rw [Fragment.fromObject, if_neg other.1, if_neg other.2,
    if_pos isConstructor]

theorem fromObject_error {value : JsonFragment}
    (isError : value.type = "error".toList) :
    Fragment.fromObject bigNumberFrom value =
      (ErrorFragment.fromObject value.typed).map
        fun fragment => some (.error fragment) := by
  have other : value.type ≠ "function".toList ∧
      value.type ≠ "event".toList ∧ value.type ≠ "constructor".toList := by
    rw [isError]
    decide
  rw [Fragment.fromObject, if_neg other.1, if_neg other.2.1,
    if_neg other.2.2, if_pos isError]

theorem event_jsonRoundTrip {fragment : EventFragment}
    (identifier : isIdentifier fragment.name = true)
    {parameters : List Parameter}
    (inputs : fragment.inputs = Parameter.paramTypes parameters) :
    Fragment.JsonRoundTrip bigNumberFrom (.event fragment) := by
  have made : EventFragment.fromObject (JsonFragment.typed
      { type := "event".toList, anonymous := fragment.anonymous,
        name := some fragment.name,
        inputs := some (ParamType.jsonAll fragment.inputs) }) =
      .ok fragment := by
    refine event_fromObject_eq_ok.mpr ⟨rfl, identifier, ?_, rfl⟩
    rw [inputs]
    exact (fromObjects_jsonAll parameters).symm
  refine ⟨_, .event fragment, rfl, ?_, rfl⟩
  rw [fromObject_event rfl, made]
  rfl

theorem error_jsonRoundTrip {fragment : ErrorFragment}
    (identifier : isIdentifier fragment.name = true)
    (permitted : checkForbidden fragment = .ok fragment)
    {parameters : List Parameter}
    (inputs : fragment.inputs = Parameter.paramTypes parameters) :
    Fragment.JsonRoundTrip bigNumberFrom (.error fragment) := by
  have made : ErrorFragment.fromObject (JsonFragment.typed
      { type := "error".toList, name := some fragment.name,
        inputs := some (ParamType.jsonAll fragment.inputs) }) =
      .ok fragment := by
    refine error_fromObject_eq_ok.mpr ⟨rfl, identifier, ?_, permitted⟩
    rw [inputs]
    exact (fromObjects_jsonAll parameters).symm
  refine ⟨_, .error fragment, rfl, ?_, rfl⟩
  rw [fromObject_error rfl, made]
  rfl

theorem constructor_jsonRoundTrip {fragment : ConstructorFragment}
    (state : stateOf fragment.stateMutability =
      ⟨false, fragment.payable, fragment.stateMutability⟩)
    (unannotated : fragment.gas = none) {parameters : List Parameter}
    (inputs : fragment.inputs = Parameter.paramTypes parameters) :
    Fragment.JsonRoundTrip bigNumberFrom (.constructor fragment) := by
  have made : ConstructorFragment.fromObject bigNumberFrom
      (JsonFragment.typed
        { type := "constructor".toList,
          stateMutability := jsonMutability fragment.stateMutability,
          payable := some fragment.payable,
          inputs := some (ParamType.jsonAll fragment.inputs) }) =
      .ok fragment := by
    refine constructor_fromObject_eq_ok.mpr ⟨?_, ?_, ?_⟩
    · rw [← state]
      exact verifyState_json rfl (.inr ⟨rfl, rfl⟩) (by rw [state]; rfl)
    · rw [unannotated]
      rfl
    · rw [inputs]
      exact (fromObjects_jsonAll parameters).symm
  have format : (Fragment.constructor fragment).json = .ok
      { type := "constructor".toList,
        stateMutability := jsonMutability fragment.stateMutability,
        payable := some fragment.payable,
        inputs := some (ParamType.jsonAll fragment.inputs) } := by
    rw [Fragment.json, unannotated]
    rfl
  refine ⟨_, .constructor fragment, format, ?_, rfl⟩
  rw [fromObject_constructor rfl, made]
  rfl

theorem function_jsonRoundTrip_iff (documented : GasDocumented bigNumberFrom)
    {fragment : FunctionFragment}
    (state : stateOf fragment.stateMutability =
      ⟨fragment.constant, fragment.payable, fragment.stateMutability⟩)
    (identifier : isIdentifier fragment.name = true) {gas : Option Nat}
    (annotated : fragment.gas = gas.map Int.ofNat)
    (positive : ∀ amount ∈ gas, 0 < amount)
    (safe : ∀ amount ∈ gas, amount < 2 ^ 53)
    {parameters results : List Parameter}
    (inputs : fragment.inputs = Parameter.paramTypes parameters)
    (outputs : fragment.outputs = Parameter.paramTypes results) :
    Fragment.JsonRoundTrip bigNumberFrom (.function fragment) ↔
      gas ≠ some Abi.maxSafeInteger := by
  obtain ⟨number, written, readAgain⟩ :=
    readGas_jsonGas documented positive safe
  have verified : verifyState (JsonFragment.typed
      { type := "function".toList, name := some fragment.name,
        constant := some fragment.constant,
        stateMutability := jsonMutability fragment.stateMutability,
        payable := some fragment.payable, gas := number,
        inputs := some (ParamType.jsonAll fragment.inputs),
        outputs := some (ParamType.jsonAll fragment.outputs) }) =
      .ok ⟨fragment.constant, fragment.payable,
        fragment.stateMutability⟩ := by
    rw [← state]
    exact verifyState_json rfl (.inl (by rw [state]; rfl))
      (by rw [state]; rfl)
  have same : ParamType.fromObjects (ParamType.jsonAll fragment.inputs) =
        fragment.inputs ∧
      ParamType.fromObjects (ParamType.jsonAll fragment.outputs) =
        fragment.outputs := by
    rw [inputs, outputs]
    exact ⟨fromObjects_jsonAll parameters, fromObjects_jsonAll results⟩
  have format : (Fragment.function fragment).json = .ok
      { type := "function".toList, name := some fragment.name,
        constant := some fragment.constant,
        stateMutability := jsonMutability fragment.stateMutability,
        payable := some fragment.payable, gas := number,
        inputs := some (ParamType.jsonAll fragment.inputs),
        outputs := some (ParamType.jsonAll fragment.outputs) } := by
    rw [Fragment.json, annotated, written]
    rfl
  constructor
  · rintro ⟨json, read, formatted, made, _⟩
    obtain rfl := Except.ok.inj (format.symm.trans formatted)
    rw [fromObject_function rfl] at made
    obtain ⟨function, built, -⟩ := Outcome.map_eq_ok.mp made
    obtain ⟨-, -, -, gasRead, -⟩ := function_fromObject_eq_ok.mp built
    exact ((readAgain function.gas).mp gasRead).1
  · intro other
    have made := function_fromObject_eq_ok.mpr ⟨verified, rfl, identifier,
      (readAgain fragment.gas).mpr ⟨other, annotated⟩, same.1.symm,
      same.2.symm⟩
    refine ⟨_, .function fragment, format, ?_, rfl⟩
    rw [fromObject_function rfl, made]
    rfl

/-! ## Both formats -/

/-- The mutability of a fragment that has one. -/
def Fragment.mutability : Fragment → Option Text
  | .constructor fragment => some fragment.stateMutability
  | .function fragment => some fragment.stateMutability
  | .event _ | .error _ => none

def Fragment.gas : Fragment → Option Int
  | .constructor fragment => fragment.gas
  | .function fragment => fragment.gas
  | .event _ | .error _ => none

/-- One of the four mutabilities, and gas that is a positive safe integer; a
constructor has none. -/
structure Fragment.Standard (fragment : Fragment) : Prop where
  mutability : ∀ stateMutability ∈ fragment.mutability,
    stateMutability ∈ mutabilities
  gas : ∀ amount ∈ fragment.gas, 0 < amount ∧ amount < 2 ^ 53
  constructor : ∀ made, fragment = .constructor made → made.gas = none

theorem typed_outputs (value : FragmentObject Parameter) :
    (JsonFragment.typed value.json).outputs.getD [] =
      Parameter.paramTypes (value.outputs.getD []) := by
  cases outputs : value.outputs with
  | none =>
      rw [JsonFragment.typed, FragmentObject.json, outputs]
      rfl
  | some parameters =>
      rw [JsonFragment.typed, FragmentObject.json, outputs]
      exact fromObjects_jsons parameters

/-- Gas that is positive is a natural number. -/
theorem exists_gas {gas : Option Int}
    (safe : ∀ amount ∈ gas, 0 < amount ∧ amount < 2 ^ 53) :
    ∃ natural : Option Nat, gas = natural.map Int.ofNat ∧
      (∀ amount ∈ natural, 0 < amount) ∧
        ∀ amount ∈ natural, amount < 2 ^ 53 := by
  cases gas with
  | none => exact ⟨none, rfl, nofun, nofun⟩
  | some amount =>
      obtain ⟨positive, below⟩ := safe amount rfl
      refine ⟨some amount.toNat, ?_, ?_, ?_⟩
      · rw [Option.map_some, Int.ofNat_eq_natCast,
          Int.toNat_of_nonneg (Int.le_of_lt positive)]
      · intro natural member
        obtain rfl := Option.some.inj member
        omega
      · intro natural member
        obtain rfl := Option.some.inj member
        omega

/-- A fragment is the same after both of its formats exactly when its
parameters are recoverable, only those of an event are indexed, and its gas is
not the largest safe integer. -/
theorem fragment_roundTrip_iff (documented : GasDocumented bigNumberFrom)
    {value : FragmentObject Parameter} {fragment : Fragment}
    (accepted : Fragment.fromObject bigNumberFrom value.json =
      .ok (some fragment))
    (standard : fragment.Standard)
    (plain : ∀ parameter ∈ value.inputs.getD [], parameter.Plain)
    (plainOutputs : value.type = "function".toList →
      ∀ parameter ∈ value.outputs.getD [], parameter.Plain) :
    (fragment.TextRoundTrip bigNumberFrom ∧
      fragment.JsonRoundTrip bigNumberFrom) ↔
      Restored (value.type = "event".toList) (value.inputs.getD []) ∧
        (value.type = "function".toList →
          Restored false (value.outputs.getD [])) ∧
        fragment.gas ≠ some (Abi.maxSafeInteger : Int) := by
  have typed : value.json.type = value.type := rfl
  have inputs := typed_inputs value
  rw [Fragment.fromObject, typed] at accepted
  split at accepted
  · rename_i isFunction
    obtain ⟨function, made, same⟩ := Outcome.map_eq_ok.mp accepted
    obtain rfl := Option.some.inj same
    obtain ⟨verified, -, identifier, -, given, results⟩ :=
      function_fromObject_eq_ok.mp made
    have state := (eq_stateOf_of_verifyState verified).symm
    obtain ⟨gas, annotated, positive, safe⟩ := exists_gas standard.gas
    have other : ¬value.type = "event".toList := by
      rw [isFunction]
      decide
    have largest : gas ≠ some Abi.maxSafeInteger ↔
        function.gas ≠ some (Abi.maxSafeInteger : Int) := by
      have same : function.gas = gas.map Int.ofNat := annotated
      rw [same, not_iff_not]
      cases gas with
      | none => exact ⟨by rintro ⟨⟩, by rintro ⟨⟩⟩
      | some amount => simp
    rw [inputs] at given
    rw [typed_outputs] at results
    have mutable := standard.mutability function.stateMutability rfl
    rw [function_textRoundTrip_iff documented mutable state identifier
        annotated given results plain (plainOutputs isFunction),
      function_jsonRoundTrip_iff documented state identifier annotated positive
        safe given results, largest, decide_eq_false other, and_assoc]
    simp only [isFunction, forall_const]
    rfl
  · rename_i notFunction
    have noOutputs : value.type = "function".toList →
        Restored false (value.outputs.getD []) :=
      fun isFunction => absurd isFunction notFunction
    split at accepted
    · rename_i isEvent
      obtain ⟨event, made, same⟩ := Outcome.map_eq_ok.mp accepted
      obtain rfl := Option.some.inj same
      obtain ⟨-, identifier, given, -⟩ := event_fromObject_eq_ok.mp made
      rw [inputs] at given
      rw [event_textRoundTrip_iff identifier given plain,
        decide_eq_true isEvent]
      constructor
      · rintro ⟨restored, _⟩
        exact ⟨restored, noOutputs, by rintro ⟨⟩⟩
      · rintro ⟨restored, _⟩
        exact ⟨restored, event_jsonRoundTrip identifier given⟩
    · rename_i notEvent
      rw [decide_eq_false notEvent]
      split at accepted
      · obtain ⟨constructor, made, same⟩ := Outcome.map_eq_ok.mp accepted
        obtain rfl := Option.some.inj same
        obtain ⟨verified, -, given⟩ := constructor_fromObject_eq_ok.mp made
        have state := (eq_stateOf_of_verifyState verified).symm
        have unannotated := standard.constructor constructor rfl
        have mutable := standard.mutability constructor.stateMutability rfl
        rw [inputs] at given
        rw [constructor_textRoundTrip_iff mutable state unannotated given plain]
        constructor
        · rintro ⟨restored, _⟩
          refine ⟨restored, noOutputs, ?_⟩
          rw [Fragment.gas, unannotated]
          rintro ⟨⟩
        · rintro ⟨restored, _⟩
          exact ⟨restored,
            constructor_jsonRoundTrip state unannotated given⟩
      · split at accepted
        · obtain ⟨error, made, same⟩ := Outcome.map_eq_ok.mp accepted
          obtain rfl := Option.some.inj same
          obtain ⟨-, identifier, given, permitted⟩ :=
            error_fromObject_eq_ok.mp made
          rw [inputs] at given
          rw [error_textRoundTrip_iff identifier permitted given plain]
          constructor
          · rintro ⟨restored, _⟩
            exact ⟨restored, noOutputs, by rintro ⟨⟩⟩
          · rintro ⟨restored, _⟩
            exact ⟨restored,
              error_jsonRoundTrip identifier permitted given⟩
        · split at accepted
          · cases accepted
          · cases accepted

end Objects

/-- Gas from numbers below the largest safe integer and from digits. -/
def decimalGas : Gas → Except Error Int
  | .number value =>
      if value.natAbs < Abi.maxSafeInteger then .ok value
      else .error { code := .numericFault, message := "overflow" }
  | .text content =>
      if content ≠ [] ∧ content.all Char.isDigit then
        .ok (Nat.ofDigitChars 10 content 0)
      else .error (Error.ofArgument "invalid BigNumber string" (some "value"))
  | .bigNumber value => .ok value

theorem gasDocumented_decimalGas : GasDocumented decimalGas where
  text number := by
    have digits : (Nat.toDigits 10 number).all Char.isDigit = true := by
      rw [List.all_eq_true]
      exact fun char => Nat.isDigit_of_mem_toDigits (by decide) (by decide)
    rw [decimalGas, if_pos ⟨Nat.toDigits_ne_nil, digits⟩,
      Nat.ofDigitChars_ten_toDigits]
  bigNumber _ := rfl
  number number below := if_pos below
  overflow number large :=
    ⟨{ code := .numericFault, message := "overflow" },
      if_neg (Nat.not_lt.mpr large)⟩

/-- `swap((uint8,address[2])[2] pairs) view @21000 returns (bool)` -/
def swapFunction : FragmentObject Parameter where
  type := "function".toList
  name := some "swap".toList
  stateMutability := some "view".toList
  inputs := pairsFunction.inputs
  outputs := some [.value none none .bool []]
  gas := some (.number 21000)

theorem fragment_roundTrip_swap :
    ∃ fragment,
      Fragment.fromObject decimalGas swapFunction.json =
          .ok (some fragment) ∧
        fragment.TextRoundTrip decimalGas ∧
          fragment.JsonRoundTrip decimalGas := by
  have accepted : Fragment.fromObject decimalGas swapFunction.json =
      .ok (some (.function ⟨"swap".toList,
        Parameter.paramTypes (swapFunction.inputs.getD []),
        Parameter.paramTypes (swapFunction.outputs.getD []), "view".toList,
        false, true, some 21000⟩)) := rfl
  have standard : (Fragment.function ⟨"swap".toList,
      Parameter.paramTypes (swapFunction.inputs.getD []),
      Parameter.paramTypes (swapFunction.outputs.getD []), "view".toList,
      false, true, some 21000⟩).Standard := by
    refine ⟨?_, ?_, nofun⟩
    · intro stateMutability member
      obtain rfl := Option.some.inj member
      decide
    · intro amount member
      obtain rfl := Option.some.inj member
      decide
  have plain : ∀ parameter ∈ swapFunction.inputs.getD [], parameter.Plain := by
    decide
  have plainOutputs : ∀ parameter ∈ swapFunction.outputs.getD [],
      parameter.Plain := by
    decide
  have restored : ∀ parameter ∈ swapFunction.inputs.getD [] ++
      swapFunction.outputs.getD [],
      parameter.Recoverable ∧ ∀ part ∈ parameter.parts,
        part.indexed ≠ some true := by
    decide
  have kept : ∀ parameters ⊆ swapFunction.inputs.getD [] ++
      swapFunction.outputs.getD [], Restored false parameters := by
    intro parameters given parameter member
    obtain ⟨recoverable, unflagged⟩ := restored parameter (given member)
    exact ⟨recoverable, fun part inside flagged =>
      absurd flagged (unflagged part inside)⟩
  have both := (fragment_roundTrip_iff gasDocumented_decimalGas accepted
    standard plain fun _ => plainOutputs).mpr
      ⟨kept _ (List.subset_append_left _ _),
        fun _ => kept _ (List.subset_append_right _ _), by decide⟩
  exact ⟨_, accepted, both⟩

/-- `f(bytes constructor)` -/
def inheritingFunction : FragmentObject Parameter where
  type := "function".toList
  name := some "f".toList
  stateMutability := some "nonpayable".toList
  inputs := some [inheritedName]

/-- The name of a parameter is lost where objects inherit it. -/
theorem not_fragment_roundTrip :
    ∃ fragment,
      Fragment.fromObject decimalGas inheritingFunction.json =
          .ok (some fragment) ∧
        fragment.Standard ∧
        (∀ parameter ∈ inheritingFunction.inputs.getD [], parameter.Plain) ∧
          ¬fragment.TextRoundTrip decimalGas := by
  refine ⟨.function ⟨"f".toList,
    Parameter.paramTypes (inheritingFunction.inputs.getD []), [],
    "nonpayable".toList, false, false, none⟩, rfl, ⟨?_, nofun, nofun⟩,
    by decide, ?_⟩
  · intro stateMutability member
    obtain rfl := Option.some.inj member
    decide
  · intro round
    have plain : ∀ parameter ∈ inheritingFunction.inputs.getD [],
        parameter.Plain := by
      decide
    have unannotated : (none : Option Int) = (none : Option Nat).map
        Int.ofNat := rfl
    have results : [] = Parameter.paramTypes [] := rfl
    obtain ⟨restored, -⟩ := (function_textRoundTrip_iff
      gasDocumented_decimalGas (by decide) (by decide) (by decide) unannotated
      rfl results plain (List.forall_mem_nil _)).mp round
    have recoverable := (restored inheritedName List.mem_cons_self).1
    exact absurd recoverable (by decide)

end Web3Js.Fragments
