import Web3Js.Contract.Methods

/-!
# Which function a method uses

The table of overloads lists, for each name, the functions of all interfaces
that were ever assigned, in order, while the methods are those of the last
one.  A call takes the first overload of the table that has as many inputs as
there are arguments and accepts them.  It is the function of the key only
where no other overload comes before it.
-/

namespace Web3Js.Contract

open Web3Js.Abi (Value)

section Registration

variable (library : AbiLibrary)

/-- The function that a fragment registers, with its signature. -/
def AbiFragment.registers : AbiFragment →
    Except String (Option AbiFunctionFragment)
  | .function abi => (abi.sign library).map some
  | .event name inputs => do
      let eventName ← jsonInterfaceMethodToString name inputs
      let _ ← Tx.sha3Raw library.cryptography eventName
      .ok none
  | .error .. | .other => .ok none

/-- The functions that an interface registers, up to the round that throws. -/
def registered : List AbiFragment → List AbiFunctionFragment
  | [] => []
  | fragment :: fragments =>
      match fragment.registers library with
      | .ok abi => abi.toList ++ registered fragments
      | .error _ => []

/-- The keys of a function. -/
def AbiFunctionFragment.Keyed (abi : AbiFunctionFragment) (key : String) :
    Prop :=
  abi.name = key ∨ abi.methodName = .ok key ∨ abi.signature = key

variable {library}

theorem overloads_setFunction (contract : Contract) (methodName name : String)
    (abi : AbiFunctionFragment) :
    (contract.setFunction methodName abi).overloads name =
      contract.overloads name ++ if abi.name = name then [abi] else [] := by
  rw [Contract.overloads, Contract.setFunction, OrderedMap.get?_set]
  by_cases same : abi.name = name
  · rw [if_pos same.symm, if_pos same, same]
    rfl
  · rw [if_neg (Ne.symm same), if_neg same, List.append_nil]
    rfl

theorem methods_setFunction (contract : Contract) (methodName key : String)
    (abi : AbiFunctionFragment) :
    (contract.setFunction methodName abi).methods.get? key =
      if key = abi.name ∨ key = methodName ∨ key = abi.signature then some abi
      else contract.methods.get? key := by
  rw [Contract.setFunction, OrderedMap.get?_set, OrderedMap.get?_set,
    OrderedMap.get?_set]
  by_cases isSignature : key = abi.signature
  · simp [isSignature]
  · by_cases isMethodName : key = methodName
    · simp [isMethodName]
    · simp [isSignature, isMethodName]

theorem sign_eq_ok {abi signed : AbiFunctionFragment}
    (made : abi.sign library = .ok signed) :
    ∃ methodName signature, abi.methodName = .ok methodName ∧
      signed = { abi with signature } := by
  obtain ⟨signature, selected, done⟩ := Outcome.bind_eq_ok.mp made
  obtain ⟨methodName, named, -⟩ := Outcome.bind_eq_ok.mp selected
  cases done
  exact ⟨methodName, signature, named, rfl⟩

/-- A round of the loop registers the function of its fragment. -/
theorem setFragment_eq (library : AbiLibrary) (contract : Contract)
    (fragment : AbiFragment) :
    match fragment.registers library with
    | .error _ =>
        ∃ other, contract.setFragment library fragment = .error other
    | .ok none => contract.setFragment library fragment = .ok contract
    | .ok (some signed) => ∃ methodName,
        signed.methodName = .ok methodName ∧
        contract.setFragment library fragment =
          .ok (contract.setFunction methodName signed) := by
  cases fragment with
  | error | other => rfl
  | event name inputs =>
      cases named : jsonInterfaceMethodToString name inputs with
      | error problem =>
          simp [AbiFragment.registers, Contract.setFragment, named]
      | ok eventName =>
          cases hashed : Tx.sha3Raw library.cryptography eventName with
          | error problem =>
              simp [AbiFragment.registers, Contract.setFragment, named,
                hashed]
          | ok hash =>
              simp [AbiFragment.registers, Contract.setFragment, named,
                hashed]
  | function abi =>
      cases made : abi.sign library with
      | error problem =>
          rw [AbiFragment.registers, made]
          change ∃ other,
            contract.setFragment library (.function abi) = .error other
          cases named : abi.methodName with
          | error other =>
              simp [Contract.setFragment, named]
          | ok methodName =>
              simp [Contract.setFragment, named, made]
      | ok signed =>
          rw [AbiFragment.registers, made]
          obtain ⟨methodName, signature, named, rfl⟩ := sign_eq_ok made
          refine ⟨methodName, named, ?_⟩
          simp [Contract.setFragment, named, made]

/-- What a run of the loop does to the table of overloads. -/
theorem overloads_setFragments (library : AbiLibrary) (contract : Contract)
    (fragments : List AbiFragment) (name : String) :
    (contract.setFragments library fragments).1.overloads name =
      contract.overloads name ++
        (registered library fragments).filter (·.name = name) := by
  induction fragments generalizing contract with
  | nil => simp [Contract.setFragments, registered]
  | cons fragment fragments induction =>
      have round := setFragment_eq library contract fragment
      rw [Contract.setFragments, registered]
      cases registers : fragment.registers library with
      | error problem =>
          rw [registers] at round
          obtain ⟨other, failed⟩ := round
          simp [failed]
      | ok abi =>
          rw [registers] at round
          cases abi with
          | none =>
              rw [show contract.setFragment library fragment = .ok contract
                from round]
              exact induction contract
          | some signed =>
              obtain ⟨methodName, -, set⟩ := round
              simp only [set, induction, overloads_setFunction]
              by_cases same : signed.name = name
              · simp [same]
              · simp [same]

/-- A method that the loop sets belongs to a function of the interface. -/
theorem methods_setFragments {contract : Contract}
    {fragments : List AbiFragment} {key : String}
    {own : AbiFunctionFragment}
    (found : (contract.setFragments library fragments).1.methods.get? key =
      some own) :
    contract.methods.get? key = some own ∨
      (own ∈ registered library fragments ∧ own.Keyed key) := by
  induction fragments generalizing contract with
  | nil => exact .inl found
  | cons fragment fragments induction =>
      have round := setFragment_eq library contract fragment
      rw [Contract.setFragments] at found
      rw [registered]
      cases registers : fragment.registers library with
      | error problem =>
          rw [registers] at round
          obtain ⟨other, failed⟩ := round
          rw [failed] at found
          exact .inl found
      | ok abi =>
          rw [registers] at round
          cases abi with
          | none =>
              rw [show contract.setFragment library fragment = .ok contract
                from round] at found
              exact induction found
          | some signed =>
              obtain ⟨methodName, named, set⟩ := round
              rw [set] at found
              rcases induction found with now | ⟨member, keyed⟩
              · rw [methods_setFunction] at now
                split at now
                · rename_i isKey
                  cases now
                  refine .inr ⟨List.mem_append_left _ (by simp), ?_⟩
                  rcases isKey with rfl | rfl | rfl
                  · exact .inl rfl
                  · exact .inr (.inl named)
                  · exact .inr (.inr rfl)
                · exact .inl now
              · exact .inr ⟨List.mem_append_right _ member, keyed⟩

/-- The methods of the last interface are its own; the table has the functions
of all of them. -/
theorem assignAll_spec (library : AbiLibrary) (interfaces : List (List AbiFragment))
    (last : List AbiFragment) (contract : Contract) :
    (∀ name,
      (contract.assignAll library (interfaces ++ [last])).overloads name =
        contract.overloads name ++
          ((interfaces ++ [last]).flatMap (registered library)).filter
            (·.name = name)) ∧
    ∀ key own,
      (contract.assignAll library (interfaces ++ [last])).methods.get? key =
        some own → own ∈ registered library last ∧ own.Keyed key := by
  have table : ∀ (all : List (List AbiFragment)) (contract : Contract) name,
      (contract.assignAll library all).overloads name =
        contract.overloads name ++
          (all.flatMap (registered library)).filter (·.name = name) := by
    intro all
    induction all with
    | nil => intro contract name; simp [Contract.assignAll]
    | cons abis all induction =>
        intro contract name
        have first := overloads_setFragments library
          { contract with methods := ∅ } abis name
        rw [Contract.assignAll, List.foldl_cons]
        refine (induction _ name).trans ?_
        rw [Contract.parseAndSetJsonInterface, first, List.flatMap_cons,
          List.filter_append, List.append_assoc]
        rfl
  refine ⟨table _ contract, ?_⟩
  intro key own found
  rw [Contract.assignAll, List.foldl_append] at found
  rcases methods_setFragments found with old | new
  · cases old
  · exact new

end Registration

section Calls

variable (library : AbiLibrary)

/-- The inputs of a function accept the arguments, in the shape `values`. -/
def AbiFunctionFragment.Accepts (abi : AbiFunctionFragment)
    (params values : List Value) : Prop :=
  abi.inputList.length = params.length ∧
    getAbiParams abi params = .ok values ∧
    library.validate abi.inputList values = .ok ()

/-- The selector of a function with the encoding of the arguments by its own
inputs. -/
def callText (abi : AbiFunctionFragment) (params : List Value) :
    Except String String :=
  if abi.inputList.length = params.length then do
    let abiParams ← getAbiParams abi params
    library.validate abi.inputList abiParams
    encodeMethodABI library abi abiParams
  else .error "the inputs do not accept the arguments"

/-- The first overload that has as many inputs as there are arguments and
accepts them. -/
def picked (abis : List AbiFunctionFragment) (params : List Value) :
    Option AbiFunctionFragment :=
  abis.find? fun abi => abi.inputList.length = params.length &&
    (tryOverload library abi params).isOk

/-- Some overload has as many inputs as there are arguments. -/
def TakesNumber (abis : List AbiFunctionFragment) (params : List Value) :
    Prop :=
  ∃ abi ∈ abis, abi.inputList.length = params.length

/-- Arguments in a number that no overload has are refused, even when they
are cut or filled up to the inputs of the first one. -/
def RefusesOthers (abis : List AbiFunctionFragment)
    (own : AbiFunctionFragment) (params : List Value) : Prop :=
  ∀ first values, abis.head? = some first →
    getAbiParams first params = .ok values →
    library.validate own.inputList values ≠ .ok ()

/-- The first overload that takes the arguments makes the call of the
function; arguments in another number are refused, or cannot be encoded. -/
def ServesFunction (abis : List AbiFunctionFragment)
    (own : AbiFunctionFragment) (params : List Value) : Prop :=
  (TakesNumber abis params → ∀ abi text, picked library abis params = some abi →
    callText library abi params = .ok text →
    callText library own params = .ok text) ∧
  (¬TakesNumber abis params → ∀ first values text, abis.head? = some first →
    getAbiParams first params = .ok values →
    library.validate own.inputList values = .ok () →
    encodeMethodABI library first values ≠ .ok text)

/-- The first overload that takes the arguments is one of `current`; arguments
in another number are refused. -/
def ServesName (abis current : List AbiFunctionFragment)
    (own : AbiFunctionFragment) (params : List Value) : Prop :=
  (TakesNumber abis params → ∀ abi, picked library abis params = some abi →
    abi ∈ current) ∧
  (¬TakesNumber abis params → RefusesOthers library abis own params)

variable {library} {own abi used : AbiFunctionFragment}
  {params values : List Value} {text : String}

theorem tryOverload_eq_ok
    (tried : tryOverload library abi params = .ok values) :
    getAbiParams abi params = .ok values ∧
      library.validate abi.inputList values = .ok () := by
  obtain ⟨shapes, shaped, checked⟩ := Outcome.bind_eq_ok.mp tried
  cases given : abi.inputs with
  | none =>
      rw [given] at checked
      cases checked
  | some inputs =>
      rw [given] at checked
      obtain ⟨⟨⟩, valid, done⟩ := Outcome.bind_eq_ok.mp checked
      cases done
      refine ⟨shaped, ?_⟩
      rw [AbiFunctionFragment.inputList, given]
      exact valid

theorem callText_eq_ok :
    callText library abi params = .ok text ↔
      ∃ values, abi.Accepts library params values ∧
        encodeMethodABI library abi values = .ok text := by
  by_cases arity : abi.inputList.length = params.length
  · rw [callText, if_pos arity]
    constructor
    · intro called
      obtain ⟨values, shaped, checked⟩ := Outcome.bind_eq_ok.mp called
      obtain ⟨⟨⟩, valid, done⟩ := Outcome.bind_eq_ok.mp checked
      exact ⟨values, ⟨arity, shaped, valid⟩, done⟩
    · rintro ⟨values, ⟨-, shaped, valid⟩, done⟩
      rw [shaped, Outcome.ok_bind, valid]
      exact done
  · rw [callText, if_neg arity]
    constructor
    · rintro ⟨⟩
    · rintro ⟨values, accepts, -⟩
      exact absurd accepts.1 arity

/-- The loop over the overloads finds the first one that accepts. -/
theorem firstOverload_eq_ok {abis : List AbiFunctionFragment}
    {result : AbiFunctionFragment × List Value} :
    firstOverload library params abis = .ok result ↔
      abis.find? (fun abi => (tryOverload library abi params).isOk) =
        some result.1 ∧
      tryOverload library result.1 params = .ok result.2 := by
  induction abis with
  | nil => simp [firstOverload]
  | cons abi abis induction =>
      rw [firstOverload]
      cases tried : tryOverload library abi params with
      | error problem =>
          have refused : (tryOverload library abi params).isOk = false := by
            rw [tried]
            rfl
          rw [List.find?_cons, refused]
          exact induction
      | ok abiParams =>
          have accepted : (tryOverload library abi params).isOk = true := by
            rw [tried]
            rfl
          rw [List.find?_cons, accepted]
          constructor
          · intro done
            cases done
            exact ⟨rfl, tried⟩
          · rintro ⟨found, again⟩
            obtain rfl : abi = result.1 := Option.some.inj found
            rw [tried] at again
            cases again
            rfl

theorem picked_eq (abis : List AbiFunctionFragment) :
    picked library abis params =
      (abis.filter fun overload =>
        overload.inputList.length = params.length).find?
          (fun abi => (tryOverload library abi params).isOk) := by
  rw [picked, List.find?_filter]
  congr 1
  funext abi
  simp only [Bool.decide_and, Bool.decide_eq_true]

/-- What is picked accepts the arguments. -/
theorem tryOverload_of_picked {abis : List AbiFunctionFragment}
    (found : picked library abis params = some used) :
    ∃ values, tryOverload library used params = .ok values ∧
      used.Accepts library params values := by
  have fits := List.find?_some found
  rw [Bool.and_eq_true, decide_eq_true_eq] at fits
  cases tried : tryOverload library used params with
  | error problem =>
      rw [tried] at fits
      exact absurd fits.2 Bool.false_ne_true
  | ok values =>
      obtain ⟨shaped, valid⟩ := tryOverload_eq_ok tried
      exact ⟨values, rfl, fits.1, shaped, valid⟩

/-- Without an overload of their number, the arguments meet the first one. -/
theorem callMethod_of_others {contract : Contract}
    {first : AbiFunctionFragment} {others : List AbiFunctionFragment}
    (overloads : contract.overloads own.name = first :: others)
    (absent : ¬TakesNumber (first :: others) params) :
    contract.callMethod library own params = .ok (used, values) ↔
      used = first ∧ getAbiParams first params = .ok values ∧
        library.validate own.inputList values = .ok () := by
  have empty : (first :: others).filter (fun overload =>
      overload.inputList.length = params.length) = [] := by
    apply List.filter_eq_nil_iff.mpr
    intro abi member arity
    exact absent ⟨abi, member, by simpa using arity⟩
  rw [Contract.callMethod, overloads]
  simp only [empty, or_true, if_true]
  constructor
  · intro called
    obtain ⟨shapes, shaped, rest⟩ := Outcome.bind_eq_ok.mp called
    obtain ⟨⟨⟩, valid, same⟩ := Outcome.bind_eq_ok.mp rest
    cases same
    exact ⟨rfl, shaped, valid⟩
  · rintro ⟨rfl, shaped, valid⟩
    rw [shaped, Outcome.ok_bind, valid]
    rfl

/-- The only overload takes the arguments of its number. -/
theorem callMethod_of_single {contract : Contract}
    (overloads : contract.overloads own.name = [own])
    (arity : own.inputList.length = params.length) :
    contract.callMethod library own params = .ok (used, values) ↔
      used = own ∧ own.Accepts library params values := by
  rw [Contract.callMethod, overloads]
  simp only [true_or, if_true]
  constructor
  · intro called
    obtain ⟨shapes, shaped, rest⟩ := Outcome.bind_eq_ok.mp called
    obtain ⟨⟨⟩, valid, same⟩ := Outcome.bind_eq_ok.mp rest
    cases same
    exact ⟨rfl, arity, shaped, valid⟩
  · rintro ⟨rfl, -, shaped, valid⟩
    rw [shaped, Outcome.ok_bind, valid]
    rfl

/-- Several overloads give the arguments to the first that takes them. -/
theorem callMethod_of_several {contract : Contract}
    {first second : AbiFunctionFragment}
    {others : List AbiFunctionFragment}
    (overloads : contract.overloads own.name = first :: second :: others)
    (present : TakesNumber (first :: second :: others) params) :
    contract.callMethod library own params = .ok (used, values) ↔
      picked library (first :: second :: others) params = some used ∧
      used.Accepts library params values := by
  obtain ⟨taker, member, arity⟩ := present
  have nonempty : (first :: second :: others).filter (fun overload =>
      overload.inputList.length = params.length) ≠ [] := by
    apply List.ne_nil_of_mem
    exact List.mem_filter.mpr ⟨member, by simpa using arity⟩
  rw [Contract.callMethod, overloads]
  simp only [nonempty, or_false, reduceCtorEq, if_false]
  rw [firstOverload_eq_ok, ← picked_eq]
  constructor
  · rintro ⟨found, tried⟩
    obtain ⟨shapes, again, accepts⟩ := tryOverload_of_picked found
    rw [tried] at again
    cases again
    exact ⟨found, accepts⟩
  · rintro ⟨found, -, shaped, -⟩
    obtain ⟨shapes, tried, -, again, -⟩ := tryOverload_of_picked found
    rw [shaped] at again
    cases again
    exact ⟨found, tried⟩

theorem encodeABI_eq_ok {contract : Contract} :
    contract.encodeABI library own params = .ok text ↔
      ∃ used values,
        contract.callMethod library own params = .ok (used, values) ∧
        encodeMethodABI library used values = .ok text := by
  constructor
  · intro encoded
    obtain ⟨⟨used, values⟩, called, done⟩ := Outcome.bind_eq_ok.mp encoded
    exact ⟨used, values, called, done⟩
  · rintro ⟨used, values, called, done⟩
    rw [Contract.encodeABI, called]
    exact done

/-- With an overload of their number, a call uses the only overload or the
first one that accepts the arguments. -/
theorem callMethod_of_number {contract : Contract}
    (member : own ∈ contract.overloads own.name)
    (present : TakesNumber (contract.overloads own.name) params) :
    contract.callMethod library own params = .ok (used, values) ↔
      used.Accepts library params values ∧
        ((contract.overloads own.name = [own] ∧ used = own) ∨
          (contract.overloads own.name ≠ [own] ∧
            picked library (contract.overloads own.name) params =
              some used)) := by
  match overloads : contract.overloads own.name with
  | [] =>
      rw [overloads] at member
      cases member
  | [single] =>
      rw [overloads] at member present
      obtain rfl : own = single := List.mem_singleton.mp member
      obtain ⟨abi, same, arity⟩ := present
      obtain rfl : abi = own := List.mem_singleton.mp same
      rw [callMethod_of_single overloads arity]
      constructor
      · rintro ⟨rfl, accepts⟩
        exact ⟨accepts, .inl ⟨rfl, rfl⟩⟩
      · rintro ⟨accepts, ⟨-, rfl⟩ | ⟨other, -⟩⟩
        · exact ⟨rfl, accepts⟩
        · exact absurd rfl other
  | first :: second :: others =>
      rw [overloads] at present
      rw [callMethod_of_several overloads present]
      constructor
      · rintro ⟨found, accepts⟩
        exact ⟨accepts, .inr ⟨by simp, found⟩⟩
      · rintro ⟨accepts, ⟨single, -⟩ | ⟨-, found⟩⟩
        · cases single
        · exact ⟨found, accepts⟩

/-- What a call with its own inputs gives is the function's own text, exactly
where the overloads serve the function. -/
theorem encodeABI_iff_servesFunction {contract : Contract}
    (member : own ∈ contract.overloads own.name) :
    (∀ text, contract.encodeABI library own params = .ok text →
      callText library own params = .ok text) ↔
    ServesFunction library (contract.overloads own.name) own params := by
  by_cases present : TakesNumber (contract.overloads own.name) params
  · constructor
    · intro holds
      refine ⟨fun _ abi text found called => ?_, (absurd present ·)⟩
      obtain ⟨values, accepts, encoded⟩ := callText_eq_ok.mp called
      by_cases single : contract.overloads own.name = [own]
      · rw [single] at found
        obtain rfl : abi = own :=
          List.mem_singleton.mp (List.mem_of_find?_eq_some found)
        exact called
      · apply holds
        apply encodeABI_eq_ok.mpr
        refine ⟨abi, values, ?_, encoded⟩
        apply (callMethod_of_number member present).mpr
        exact ⟨accepts, .inr ⟨single, found⟩⟩
    · rintro ⟨serves, -⟩ text encoded
      obtain ⟨used, values, called, done⟩ := encodeABI_eq_ok.mp encoded
      obtain ⟨accepts, ⟨-, rfl⟩ | ⟨-, found⟩⟩ :=
        (callMethod_of_number member present).mp called
      · exact callText_eq_ok.mpr ⟨values, accepts, done⟩
      · apply serves present used text found
        exact callText_eq_ok.mpr ⟨values, accepts, done⟩
  · obtain ⟨first, others, overloads⟩ :=
      List.exists_cons_of_ne_nil (List.ne_nil_of_mem member)
    have refused : ∀ text, callText library own params ≠ .ok text := by
      intro text called
      obtain ⟨values, accepts, -⟩ := callText_eq_ok.mp called
      exact present ⟨own, member, accepts.1⟩
    rw [overloads] at present
    constructor
    · intro holds
      rw [overloads]
      refine ⟨(absurd · present), ?_⟩
      intro _ abi values text isFirst shaped valid encoded
      cases isFirst
      refine refused text (holds text (encodeABI_eq_ok.mpr ?_))
      refine ⟨first, values, ?_, encoded⟩
      exact (callMethod_of_others overloads present).mpr ⟨rfl, shaped, valid⟩
    · rintro ⟨-, serves⟩ text encoded
      obtain ⟨used, values, called, done⟩ := encodeABI_eq_ok.mp encoded
      obtain ⟨rfl, shaped, valid⟩ :=
        (callMethod_of_others overloads present).mp called
      rw [overloads] at serves
      exact absurd done (serves present used values text rfl shaped valid)

/-- The function that a call uses is one of `current` and accepts the
arguments, exactly where the overloads serve the name. -/
theorem callMethod_iff_servesName {contract : Contract}
    {current : List AbiFunctionFragment}
    (member : own ∈ contract.overloads own.name) (ofCurrent : own ∈ current) :
    (∀ used values,
      contract.callMethod library own params = .ok (used, values) →
      used ∈ current ∧ used.Accepts library params values) ↔
    ServesName library (contract.overloads own.name) current own params := by
  by_cases present : TakesNumber (contract.overloads own.name) params
  · constructor
    · intro holds
      refine ⟨fun _ abi found => ?_, (absurd present ·)⟩
      by_cases single : contract.overloads own.name = [own]
      · rw [single] at found
        obtain rfl : abi = own :=
          List.mem_singleton.mp (List.mem_of_find?_eq_some found)
        exact ofCurrent
      · obtain ⟨values, -, accepts⟩ := tryOverload_of_picked found
        refine (holds abi values ?_).1
        apply (callMethod_of_number member present).mpr
        exact ⟨accepts, .inr ⟨single, found⟩⟩
    · rintro ⟨serves, -⟩ used values called
      obtain ⟨accepts, ⟨-, rfl⟩ | ⟨-, found⟩⟩ :=
        (callMethod_of_number member present).mp called
      · exact ⟨ofCurrent, accepts⟩
      · exact ⟨serves present used found, accepts⟩
  · obtain ⟨first, others, overloads⟩ :=
      List.exists_cons_of_ne_nil (List.ne_nil_of_mem member)
    have absent := present
    rw [overloads] at absent
    constructor
    · intro holds
      refine ⟨(absurd · present), ?_⟩
      intro _ abi values isFirst shaped valid
      rw [overloads] at isFirst
      cases isFirst
      have called :=
        (callMethod_of_others overloads absent).mpr ⟨rfl, shaped, valid⟩
      have arity := (holds first values called).2.1
      exact absent ⟨first, List.mem_cons_self, arity⟩
    · rintro ⟨-, serves⟩ used values called
      obtain ⟨rfl, shaped, valid⟩ :=
        (callMethod_of_others overloads absent).mp called
      refine absurd valid (serves present used values ?_ shaped)
      rw [overloads]
      rfl

/-- A call uses an overload of its function's name. -/
theorem callMethod_mem {contract : Contract}
    (member : own ∈ contract.overloads own.name)
    (called : contract.callMethod library own params = .ok (used, values)) :
    used ∈ contract.overloads own.name := by
  by_cases present : TakesNumber (contract.overloads own.name) params
  · obtain ⟨-, ⟨-, rfl⟩ | ⟨-, found⟩⟩ :=
      (callMethod_of_number member present).mp called
    · exact member
    · exact List.mem_of_find?_eq_some found
  · obtain ⟨first, others, overloads⟩ :=
      List.exists_cons_of_ne_nil (List.ne_nil_of_mem member)
    rw [overloads] at present ⊢
    obtain ⟨rfl, -, -⟩ := (callMethod_of_others overloads present).mp called
    exact List.mem_cons_self

end Calls

section Main

variable (library : AbiLibrary)

/-- All functions of a name that were ever registered, in order. -/
def everRegistered (interfaces : List (List AbiFragment)) (name : String) :
    List AbiFunctionFragment :=
  (interfaces.flatMap (registered library)).filter (·.name = name)

/-- A method belongs to a function of the last interface.  Under the full name
and under the selector it makes that function's call, and under the bare name
it uses a function of the last interface that accepts the arguments, exactly
where the functions ever registered under the name serve it. -/
theorem methods_dispatch (history : List (List AbiFragment))
    (last : List AbiFragment) (key : String) (own : AbiFunctionFragment)
    (params : List Value)
    (found : (({} : Contract).assignAll library
      (history ++ [last])).methods.get? key = some own) :
    own ∈ registered library last ∧ own.Keyed key ∧
    (own.methodName = .ok key ∨ own.signature = key →
      ((∀ text, (({} : Contract).assignAll library
          (history ++ [last])).encodeABI library own params = .ok text →
        callText library own params = .ok text) ↔
      ServesFunction library (everRegistered library (history ++ [last])
        own.name) own params)) ∧
    (own.name = key →
      ((∀ used values, (({} : Contract).assignAll library
          (history ++ [last])).callMethod library own params =
          .ok (used, values) →
        used ∈ registered library last ∧ used.name = key ∧
          used.Accepts library params values) ↔
      ServesName library (everRegistered library (history ++ [last])
        own.name) (registered library last) own params)) := by
  obtain ⟨table, keys⟩ := assignAll_spec library history last {}
  obtain ⟨ofLast, keyed⟩ := keys key own found
  have overloads := table own.name
  change _ = everRegistered library (history ++ [last]) own.name at overloads
  have member : own ∈ everRegistered library (history ++ [last]) own.name := by
    apply List.mem_filter.mpr
    refine ⟨List.mem_flatMap.mpr ⟨last, ?_, ofLast⟩, by simp⟩
    exact List.mem_append_right _ (List.mem_singleton_self last)
  rw [← overloads] at member ⊢
  refine ⟨ofLast, keyed, fun _ => encodeABI_iff_servesFunction member, ?_⟩
  intro isName
  rw [← callMethod_iff_servesName member ofLast]
  constructor
  · intro holds used values called
    obtain ⟨current, -, accepts⟩ := holds used values called
    exact ⟨current, accepts⟩
  · intro holds used values called
    obtain ⟨current, accepts⟩ := holds used values called
    have sameName := callMethod_mem member called
    rw [overloads] at sameName
    have ofName := (List.mem_filter.mp sameName).2
    rw [decide_eq_true_eq, isName] at ofName
    exact ⟨current, ofName, accepts⟩

end Main

section Unsigned

/-- The range of an unsigned input type. -/
def unsignedWidth : String → Option Nat
  | "uint8" => some 8
  | "uint256" => some 256
  | _ => none

def fitsUnsigned (input : AbiParameter) : Value → Bool
  | .bigint value =>
      match unsignedWidth input.type with
      | some width => 0 ≤ value && value < 2 ^ width
      | none => false
  | _ => false

def unsignedWord : Value → String
  | .bigint value =>
      let digits := Nat.toDigits 16 value.toNat
      String.ofList (List.replicate (64 - digits.length) '0' ++ digits)
  | _ => ""

/-- Validation and encoding of unsigned inputs, and the hashes of the two
signatures `f(uint256)` and `f(uint8)`. -/
def AbiLibrary.unsigned : AbiLibrary where
  cryptography :=
    { Cryptography.simple with
      keccak256 := fun bytes =>
        if bytes.length = 10 then [
        0xb3, 0xde, 0x64, 0x8b, 0x00, 0x1c, 0x08, 0xab, 0x85, 0x7a, 0xfe,
        0x5a, 0x96, 0x33, 0x88, 0x7e, 0x7a, 0x4e, 0x2a, 0x42, 0x9d, 0x1d,
        0x8d, 0x42, 0x31, 0x23, 0x8c, 0x1f, 0xfa, 0xeb, 0x25, 0x6f]
        else if bytes.length = 8 then [
        0x31, 0x20, 0xd4, 0x34, 0xfd, 0x03, 0xb1, 0xb6, 0xae, 0x2d, 0x8c,
        0xc4, 0x4c, 0xc1, 0xbe, 0x2f, 0xb6, 0x96, 0x14, 0x25, 0xaa, 0x62,
        0x05, 0x24, 0xa2, 0x69, 0xd0, 0xb9, 0x16, 0x8c, 0x85, 0xb0]
        else List.replicate 32 0 }
  validate inputs values :=
    if inputs.length = values.length ∧
        (inputs.zip values).all fun (input, value) => fitsUnsigned input value
      then .ok ()
    else .error "Web3 validator found errors"
  encodeParameters _ values :=
    .ok (values.foldl (fun text value => text ++ unsignedWord value) "0x")

def wide : AbiFunctionFragment :=
  { name := "f", inputs := some [.mk "value" "uint256" none] }

def narrow : AbiFunctionFragment :=
  { name := "f", inputs := some [.mk "value" "uint8" none] }

def wideSigned : AbiFunctionFragment :=
  { wide with signature := "0xb3de648b" }

def narrowSigned : AbiFunctionFragment :=
  { narrow with signature := "0x3120d434" }

/-- `f(uint8)` calls an overload before it, `f` a function of an earlier
interface, and a second argument of `f(uint8)` is dropped. -/
theorem methods_dispatch_violated :
    (∃ text,
      (({} : Contract).assignAll .unsigned
        [[.function wide, .function narrow]]).methods.get? "f(uint8)" =
          some narrowSigned ∧
      (({} : Contract).assignAll .unsigned
        [[.function wide, .function narrow]]).encodeABI .unsigned narrowSigned
          [.bigint 5] = .ok text ∧
      callText .unsigned narrowSigned [.bigint 5] ≠ .ok text) ∧
    (∃ values,
      (({} : Contract).assignAll .unsigned
        [[.function wide], [.function narrow]]).methods.get? "f" =
          some narrowSigned ∧
      (({} : Contract).assignAll .unsigned
        [[.function wide], [.function narrow]]).callMethod .unsigned
          narrowSigned [.bigint 300] = .ok (wideSigned, values) ∧
      wideSigned ∉ registered .unsigned [.function narrow]) ∧
    ∃ text,
      (({} : Contract).assignAll .unsigned
        [[.function narrow]]).methods.get? "f(uint8)" = some narrowSigned ∧
      (({} : Contract).assignAll .unsigned
        [[.function narrow]]).encodeABI .unsigned narrowSigned
          [.bigint 5, .bigint 7] = .ok text ∧
      callText .unsigned narrowSigned [.bigint 5, .bigint 7] ≠ .ok text := by
  refine ⟨⟨"0xb3de648b" ++ unsignedWord (.bigint 5), rfl, ?_, ?_⟩,
    ⟨[.bigint 300], rfl, rfl, ?_⟩,
    ⟨"0x3120d434" ++ unsignedWord (.bigint 5), rfl, ?_, ?_⟩⟩
  · decide +kernel
  · decide +kernel
  · intro member
    have same : wideSigned = narrowSigned := List.mem_singleton.mp member
    have signatures := congrArg AbiFunctionFragment.signature same
    exact absurd signatures (by decide)
  · decide +kernel
  · decide +kernel

/-- Alone in its interface, `f(uint8)` is served. -/
theorem methods_dispatch_narrow :
    (({} : Contract).assignAll .unsigned
      [[.function narrow]]).encodeABI .unsigned narrowSigned [.bigint 5] =
        .ok ("0x3120d434" ++ unsignedWord (.bigint 5)) ∧
    ∀ text, (({} : Contract).assignAll .unsigned
      [[.function narrow]]).encodeABI .unsigned narrowSigned [.bigint 5] =
        .ok text → callText .unsigned narrowSigned [.bigint 5] = .ok text := by
  refine ⟨by decide +kernel, ?_⟩
  obtain ⟨-, -, full, -⟩ := methods_dispatch .unsigned [] [.function narrow]
    "f(uint8)" narrowSigned [.bigint 5] rfl
  refine (full (.inl rfl)).mpr ⟨?_, ?_⟩
  · intro _ abi text found called
    have single : abi = narrowSigned :=
      List.mem_singleton.mp (List.mem_of_find?_eq_some found)
    rw [single] at called
    exact called
  · intro absent
    exact absurd ⟨narrowSigned, List.mem_singleton.mpr rfl, rfl⟩ absent

end Unsigned

end Web3Js.Contract
