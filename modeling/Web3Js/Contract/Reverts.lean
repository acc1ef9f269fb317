import Web3Js.Abi.Parameters
import Web3Js.Contract.Interface
import Web3Js.Hash

/-!
# Errors of contracts

The data of a reverted call is compared with the hashes of the declared errors,
by as many of its first ten characters as there are.  The name and the
signature of the first error that agrees are kept also when the rest of the data
cannot be decoded by the inputs of the error.
-/

namespace Web3Js.Contract

open Web3Js.Abi (AbiInput DecodedParams Externals JsonFragmentType
  decodeParameters)

structure AbiErrorFragment where
  name : Option String
  inputs : Option (List AbiParameter)

/-- The parts of the error that decoding reads and sets. -/
structure Eip838ExecutionError where
  data : Option String
  errorName : Option String := none
  errorSignature : Option String := none
  errorArgs : Option DecodedParams := none

def Eip838ExecutionError.setDecodedProperties (error : Eip838ExecutionError)
    (errorName : String) (errorSignature : Option String)
    (errorArgs : Option DecodedParams) : Eip838ExecutionError :=
  { error with errorName := some errorName, errorSignature, errorArgs }

mutual

/-- The parameter as the coder takes it. -/
def AbiParameter.fragment : AbiParameter → JsonFragmentType
  | .mk name type none => .mk name type none
  | .mk name type (some components) =>
      .mk name type (some (AbiParameter.fragments components))

def AbiParameter.fragments : List AbiParameter → List JsonFragmentType
  | [] => []
  | param :: params => param.fragment :: AbiParameter.fragments params

end

section Decoding

variable (externals : Externals)

/-- `encodeErrorSignature`: the whole hash. -/
def encodeErrorSignature (abi : AbiErrorFragment) : Except String String := do
  let name ← jsonInterfaceMethodToString abi.name abi.inputs
  Utils.sha3Raw externals.toCryptography (.text name)

/-- `errorsAbi.find`; what its predicate throws ends the search. -/
def findError (errorSha : List Char) : List AbiErrorFragment →
    Except String (Option AbiErrorFragment)
  | [] => .ok none
  | abi :: errorsAbi => do
      let signature ← encodeErrorSignature externals abi
      if errorSha.isPrefixOf signature.toList then .ok (some abi)
      else findError errorSha errorsAbi

/-- The signature and the arguments that are assigned before something is
thrown. -/
def decodeError (errorAbi : AbiErrorFragment) (inputs : List AbiParameter)
    (data : String) : Option String × Option DecodedParams :=
  match jsonInterfaceMethodToString errorAbi.name errorAbi.inputs with
  | .error _ => (none, none)
  | .ok errorSignature =>
      (some errorSignature, (decodeParameters externals
        ((AbiParameter.fragments inputs).map .parameter)
        (String.ofList (data.toList.drop 10))).toOption)

def decodeContractErrorData (errorsAbi : List AbiErrorFragment)
    (error : Eip838ExecutionError) : Eip838ExecutionError :=
  match error.data with
  | none => error
  | some data =>
      if data = "" then error
      else
        match findError externals (data.toList.take 10) errorsAbi with
        | .error _ => error
        | .ok none => error
        | .ok (some errorAbi) =>
            match errorAbi.inputs, errorAbi.name with
            | some inputs, some errorName =>
                if errorName = "" then error
                else
                  let (errorSignature, errorArgs) :=
                    decodeError externals errorAbi inputs data
                  error.setDecodedProperties errorName errorSignature errorArgs
            | _, _ => error

/-! ## Attribution -/

/-- The selector: the first four bytes of the hash. -/
def AbiErrorFragment.selector (abi : AbiErrorFragment) :
    Except String (List Char) := do
  let signature ← encodeErrorSignature externals abi
  .ok (signature.toList.take 10)

/-- The rest of the data is decoded by the inputs. -/
def Decodes (inputs : List AbiParameter) (rest : List Char)
    (errorArgs : DecodedParams) : Prop :=
  decodeParameters externals ((AbiParameter.fragments inputs).map .parameter)
    (String.ofList rest) = .ok errorArgs

/-- The selector of a named error starts the data, and its inputs decode the
rest to the arguments. -/
structure Reverts (errorAbi : AbiErrorFragment) (data errorName : String)
    (errorSignature : String) (errorArgs : DecodedParams) : Prop where
  named : errorAbi.name = some errorName
  written : jsonInterfaceMethodToString errorAbi.name errorAbi.inputs =
    .ok errorSignature
  decoded : ∃ selector rest, errorAbi.selector externals = .ok selector ∧
    data.toList = selector ++ rest ∧
    Decodes externals (errorAbi.inputs.getD []) rest errorArgs

/-- The data are those of a declared error. -/
def IsAttributable (errorsAbi : List AbiErrorFragment) (data : String) :
    Prop :=
  ∃ errorAbi ∈ errorsAbi, ∃ errorName errorSignature errorArgs,
    Reverts externals errorAbi data errorName errorSignature errorArgs

/-- The error has the name, the signature and the arguments of a declared
one. -/
def IsAttributed (errorsAbi : List AbiErrorFragment) (data : String)
    (error : Eip838ExecutionError) : Prop :=
  ∃ errorAbi ∈ errorsAbi, ∃ errorName errorSignature errorArgs,
    Reverts externals errorAbi data errorName errorSignature errorArgs ∧
      error = ⟨some data, errorName, errorSignature, errorArgs⟩

/-- Data of a declared error lead to its name, its signature and its
arguments, and other data lead to nothing. -/
structure Attributes (errorsAbi : List AbiErrorFragment) (data : String) :
    Prop where
  set : IsAttributable externals errorsAbi data →
    IsAttributed externals errorsAbi data
      (decodeContractErrorData externals errorsAbi { data := some data })
  unset : ¬IsAttributable externals errorsAbi data →
    decodeContractErrorData externals errorsAbi { data := some data } =
      { data := some data }

/-- The error is the first one whose hash starts with the characters. -/
def IsFirstMatch (errorSha : List Char) (errorsAbi : List AbiErrorFragment)
    (errorAbi : AbiErrorFragment) : Prop :=
  ∃ before after, errorsAbi = before ++ errorAbi :: after ∧
    (∀ other ∈ before, ∃ signature,
      encodeErrorSignature externals other = .ok signature ∧
        ¬errorSha <+: signature.toList) ∧
    ∃ signature, encodeErrorSignature externals errorAbi = .ok signature ∧
      errorSha <+: signature.toList

/-- The first match of data has a name and inputs. -/
structure IsTaken (errorsAbi : List AbiErrorFragment) (data : String)
    (errorAbi : AbiErrorFragment) (errorName : String)
    (inputs : List AbiParameter) : Prop where
  nonempty : data ≠ ""
  first : IsFirstMatch externals (data.toList.take 10) errorsAbi errorAbi
  named : errorAbi.name = some errorName
  name : errorName ≠ ""
  given : errorAbi.inputs = some inputs

/-- The first match is taken, with a full selector and a rest that its inputs
decode, or none is taken of data that are those of no declared error. -/
def IsConclusive (errorsAbi : List AbiErrorFragment) (data : String) : Prop :=
  (∃ errorAbi errorName inputs,
    IsTaken externals errorsAbi data errorAbi errorName inputs ∧
      10 ≤ data.length ∧
      ∃ errorArgs, Decodes externals inputs (data.toList.drop 10) errorArgs) ∨
  (∀ errorAbi errorName inputs,
    ¬IsTaken externals errorsAbi data errorAbi errorName inputs) ∧
    ¬IsAttributable externals errorsAbi data

variable {externals}

section Search

variable {errorSha : List Char} {abi errorAbi : AbiErrorFragment}
  {errorsAbi : List AbiErrorFragment} {signature : String}

/-- An error that cannot be hashed ends the search. -/
theorem not_isFirstMatch_cons {message : String}
    (failed : encodeErrorSignature externals abi = .error message) :
    ¬IsFirstMatch externals errorSha (abi :: errorsAbi) errorAbi := by
  rintro ⟨before, after, split, passed, signature, own, -⟩
  cases before with
  | nil =>
      cases split
      rw [failed] at own
      cases own
  | cons other before =>
      cases split
      obtain ⟨signature, other, -⟩ := passed _ List.mem_cons_self
      rw [failed] at other
      cases other

theorem isFirstMatch_cons_of_prefix
    (signed : encodeErrorSignature externals abi = .ok signature)
    (agrees : errorSha <+: signature.toList) :
    IsFirstMatch externals errorSha (abi :: errorsAbi) errorAbi ↔
      abi = errorAbi := by
  constructor
  · rintro ⟨before, after, split, passed, -⟩
    cases before with
    | nil =>
        cases split
        rfl
    | cons other before =>
        cases split
        obtain ⟨own, other, foreign⟩ := passed _ List.mem_cons_self
        rw [signed] at other
        cases other
        exact absurd agrees foreign
  · rintro rfl
    exact ⟨[], errorsAbi, rfl, List.forall_mem_nil _, signature, signed, agrees⟩

theorem isFirstMatch_cons_of_not_prefix
    (signed : encodeErrorSignature externals abi = .ok signature)
    (foreign : ¬errorSha <+: signature.toList) :
    IsFirstMatch externals errorSha (abi :: errorsAbi) errorAbi ↔
      IsFirstMatch externals errorSha errorsAbi errorAbi := by
  constructor
  · rintro ⟨before, after, split, passed, signature, own, same⟩
    cases before with
    | nil =>
        cases split
        rw [signed] at own
        cases own
        exact absurd same foreign
    | cons other before =>
        cases split
        exact ⟨before, after, rfl,
          (List.forall_mem_cons.mp passed).2, signature, own, same⟩
  · rintro ⟨before, after, rfl, passed, own⟩
    refine ⟨abi :: before, after, rfl, ?_, own⟩
    exact List.forall_mem_cons.mpr ⟨⟨signature, signed, foreign⟩, passed⟩

theorem findError_eq_some :
    findError externals errorSha errorsAbi = .ok (some errorAbi) ↔
      IsFirstMatch externals errorSha errorsAbi errorAbi := by
  induction errorsAbi with
  | nil =>
      constructor
      · rintro ⟨⟩
      · rintro ⟨before, after, split, -⟩
        simp at split
  | cons abi errorsAbi induction =>
      rw [findError]
      cases signed : encodeErrorSignature externals abi with
      | error message =>
          constructor
          · rintro ⟨⟩
          · exact fun first => absurd first (not_isFirstMatch_cons signed)
      | ok signature =>
          rw [Outcome.ok_bind]
          by_cases agrees : errorSha <+: signature.toList
          · rw [if_pos (List.isPrefixOf_iff_prefix.mpr agrees),
              isFirstMatch_cons_of_prefix signed agrees]
            simp
          · rw [if_neg fun same =>
              agrees (List.isPrefixOf_iff_prefix.mp same),
              isFirstMatch_cons_of_not_prefix signed agrees, induction]

end Search

theorem length_signature (width : externals.toCryptography.KeccakWidth)
    {abi : AbiErrorFragment} {signature : String}
    (signed : encodeErrorSignature externals abi = .ok signature) :
    signature.toList.length = 66 := by
  obtain ⟨name, -, hashed⟩ := Outcome.bind_eq_ok.mp signed
  rw [Utils.sha3Raw_eq] at hashed
  obtain ⟨bytes, -, rfl⟩ := Outcome.map_eq_ok.mp hashed
  rw [hexlify, String.toList_ofList]
  simp [Hex.length_encode, width bytes]

theorem jsonInterfaceMethodToString_of_signed {abi : AbiErrorFragment}
    {signature : String}
    (signed : encodeErrorSignature externals abi = .ok signature) :
    ∃ name, jsonInterfaceMethodToString abi.name abi.inputs = .ok name := by
  obtain ⟨name, written, -⟩ := Outcome.bind_eq_ok.mp signed
  exact ⟨name, written⟩

section Matching

variable {errorsAbi : List AbiErrorFragment} {data : String}
    {errorAbi : AbiErrorFragment} {errorName : String}
    {inputs : List AbiParameter}

theorem IsTaken.decodeContractErrorData
    (taken : IsTaken externals errorsAbi data errorAbi errorName inputs) :
    ∃ errorSignature,
      jsonInterfaceMethodToString errorAbi.name errorAbi.inputs =
        .ok errorSignature ∧
      decodeContractErrorData externals errorsAbi { data := some data } =
        ⟨some data, errorName, errorSignature, (decodeParameters externals
          ((AbiParameter.fragments inputs).map .parameter)
          (String.ofList (data.toList.drop 10))).toOption⟩ := by
  obtain ⟨nonempty, first, named, name, given⟩ := taken
  have found := findError_eq_some.mpr first
  obtain ⟨-, -, -, -, signature, signed, -⟩ := first
  obtain ⟨errorSignature, written⟩ :=
    jsonInterfaceMethodToString_of_signed signed
  refine ⟨errorSignature, written, ?_⟩
  simp only [Contract.decodeContractErrorData, if_neg nonempty, found, given,
    named, if_neg name, decodeError]
  rw [named, given] at written
  rw [written]
  rfl

theorem decodeContractErrorData_of_untaken
    (untaken : ∀ errorAbi errorName inputs,
      ¬IsTaken externals errorsAbi data errorAbi errorName inputs) :
    decodeContractErrorData externals errorsAbi { data := some data } =
      { data := some data } := by
  rw [decodeContractErrorData]
  by_cases isEmpty : data = ""
  · exact if_pos isEmpty
  · refine (if_neg isEmpty).trans ?_
    cases found : findError externals (data.toList.take 10) errorsAbi with
    | error message => rfl
    | ok match? =>
        cases match? with
        | none => rfl
        | some errorAbi =>
            have first := findError_eq_some.mp found
            cases given : errorAbi.inputs with
            | none => simp only [given]
            | some inputs =>
                cases named : errorAbi.name with
                | none => simp only [given, named]
                | some errorName =>
                    by_cases name : errorName = ""
                    · simp only [given, named, if_pos name]
                    · exact absurd ⟨isEmpty, first, named, name, given⟩
                        (untaken errorAbi errorName inputs)

/-- Data that has a full selector in front has ten characters or more. -/
theorem Reverts.length (width : externals.toCryptography.KeccakWidth)
    {errorSignature : String} {errorArgs : DecodedParams}
    (reverts : Reverts externals errorAbi data errorName errorSignature
      errorArgs) :
    10 ≤ data.length := by
  obtain ⟨selector, rest, selected, front, -⟩ := reverts.decoded
  obtain ⟨signature, signed, cut⟩ := Outcome.bind_eq_ok.mp selected
  have whole := length_signature width signed
  have full : selector.length = 10 := by
    rw [← Except.ok.inj cut, List.length_take, whole]
    rfl
  rw [← String.length_toList, front, List.length_append, full]
  exact Nat.le_add_right _ _

/-- The first match, with a full selector and a rest that is decoded, is the
error of the data. -/
theorem IsTaken.reverts
    (taken : IsTaken externals errorsAbi data errorAbi errorName inputs)
    (full : 10 ≤ data.length) {errorArgs : DecodedParams}
    (decoded : Decodes externals inputs (data.toList.drop 10) errorArgs)
    {errorSignature : String}
    (written : jsonInterfaceMethodToString errorAbi.name errorAbi.inputs =
      .ok errorSignature) :
    errorAbi ∈ errorsAbi ∧
      Reverts externals errorAbi data errorName errorSignature errorArgs := by
  obtain ⟨before, after, rfl, -, signature, signed, agrees⟩ := taken.first
  have selected : errorAbi.selector externals =
      .ok (data.toList.take 10) := by
    rw [AbiErrorFragment.selector, signed, Outcome.ok_bind,
      List.prefix_iff_eq_take.mp agrees, List.length_take,
      String.length_toList, Nat.min_eq_left full]
  refine ⟨List.mem_append_right _ List.mem_cons_self, taken.named, written,
    data.toList.take 10, data.toList.drop 10, selected,
    (List.take_append_drop 10 data.toList).symm, ?_⟩
  rw [taken.given]
  exact decoded

end Matching

/-- For all declared errors and all data, the name, the signature and the
arguments are set together for the data of a declared error, and nothing is set
for other data, exactly if the first match is conclusive. -/
theorem decodeContractErrorData_attributes_iff
    (width : externals.toCryptography.KeccakWidth)
    (errorsAbi : List AbiErrorFragment) (data : String) :
    Attributes externals errorsAbi data ↔
      IsConclusive externals errorsAbi data := by
  by_cases matched : ∃ errorAbi errorName inputs,
      IsTaken externals errorsAbi data errorAbi errorName inputs
  · obtain ⟨errorAbi, errorName, inputs, taken⟩ := matched
    obtain ⟨errorSignature, written, computed⟩ := taken.decodeContractErrorData
    constructor
    · rintro ⟨set, unset⟩
      have attributable : IsAttributable externals errorsAbi data := by
        by_contra other
        rw [computed] at unset
        cases congrArg Eip838ExecutionError.errorName (unset other)
      obtain ⟨_, -, _, _, errorArgs, reverts, same⟩ := set attributable
      rw [computed] at same
      have args := congrArg Eip838ExecutionError.errorArgs same
      cases decoded : decodeParameters externals
          ((AbiParameter.fragments inputs).map .parameter)
          (String.ofList (data.toList.drop 10)) with
      | error message =>
          rw [decoded] at args
          cases args
      | ok made =>
          exact .inl ⟨errorAbi, errorName, inputs, taken,
            reverts.length width, made, decoded⟩
    · rintro (⟨errorAbi', errorName', inputs', taken', full, errorArgs,
        decoded⟩ | ⟨untaken, -⟩)
      · obtain ⟨errorSignature', written', computed'⟩ :=
          taken'.decodeContractErrorData
        obtain ⟨member, reverts⟩ := taken'.reverts full decoded written'
        refine ⟨fun _ => ⟨errorAbi', member, errorName', errorSignature',
          errorArgs, reverts, ?_⟩, fun other => absurd
            ⟨errorAbi', member, errorName', errorSignature', errorArgs,
              reverts⟩ other⟩
        rw [computed', decoded]
        rfl
      · exact absurd taken (untaken errorAbi errorName inputs)
  · have untaken : ∀ errorAbi errorName inputs,
        ¬IsTaken externals errorsAbi data errorAbi errorName inputs :=
      fun errorAbi errorName inputs taken =>
        matched ⟨errorAbi, errorName, inputs, taken⟩
    have nothing := decodeContractErrorData_of_untaken untaken
    constructor
    · rintro ⟨set, -⟩
      refine .inr ⟨untaken, fun attributable => ?_⟩
      obtain ⟨_, -, _, _, _, -, same⟩ := set attributable
      rw [nothing] at same
      cases congrArg Eip838ExecutionError.errorName same
    · rintro (⟨errorAbi, errorName, inputs, taken, -⟩ | ⟨-, foreign⟩)
      · exact absurd taken (untaken errorAbi errorName inputs)
      · exact ⟨fun attributable => absurd attributable foreign,
          fun _ => nothing⟩

end Decoding

/-- An error with one input. -/
def failure (type : String) : AbiErrorFragment where
  name := "Failure"
  inputs := some [.mk "code" type none]

/-- The selector of an error and a word for its input. -/
theorem decodeContractErrorData_attributes_simple :
    Attributes Externals.simple [failure "bool"]
      ("0x00000000" ++ String.ofList (List.replicate 128 '0')) := by
  refine (decodeContractErrorData_attributes_iff
    (fun _ => List.length_replicate) _ _).mpr (.inl ?_)
  refine ⟨failure "bool", "Failure", [.mk "code" "bool" none], ?_,
    by decide +kernel, ?_⟩
  · refine ⟨by decide +kernel, ?_, rfl, by decide, rfl⟩
    refine ⟨[], [], rfl, List.forall_mem_nil _, ?_⟩
    exact ⟨hexlify (List.replicate 32 0), by decide +kernel, by decide +kernel⟩
  · have decoded : (decodeParameters Externals.simple
        ((AbiParameter.fragments [.mk "code" "bool" none]).map .parameter)
        (String.ofList (("0x00000000" ++ String.ofList
          (List.replicate 128 '0')).toList.drop 10))).toBool = true := by
      decide +kernel
    cases result : decodeParameters Externals.simple
        ((AbiParameter.fragments [.mk "code" "bool" none]).map .parameter)
        (String.ofList (("0x00000000" ++ String.ofList
          (List.replicate 128 '0')).toList.drop 10)) with
    | error message =>
        rw [result] at decoded
        cases decoded
    | ok errorArgs => exact ⟨errorArgs, result⟩

/-- Data without a selector: the name of the first error, and no arguments.
The selector of an error without the field of inputs: nothing. -/
theorem decodeContractErrorData_misattributes :
    (¬Attributes Externals.simple [failure "uint256"] "0x" ∧
      decodeContractErrorData Externals.simple [failure "uint256"]
        { data := some "0x" } =
          ⟨some "0x", some "Failure", some "Failure(uint256)", none⟩) ∧
    ¬Attributes Externals.simple [⟨some "Failure", none⟩] "0x00000000" := by
  have computed : decodeContractErrorData Externals.simple
      [failure "uint256"] { data := some "0x" } =
        ⟨some "0x", some "Failure", some "Failure(uint256)", none⟩ := rfl
  refine ⟨⟨?_, computed⟩, ?_⟩
  · rintro ⟨-, unset⟩
    rw [computed] at unset
    have other : ¬IsAttributable Externals.simple [failure "uint256"] "0x" := by
      rintro ⟨_, -, _, _, _, reverts⟩
      exact absurd (reverts.length fun _ => List.length_replicate) (by decide)
    cases congrArg Eip838ExecutionError.errorName (unset other)
  · rintro ⟨set, -⟩
    have reverts : Reverts Externals.simple ⟨some "Failure", none⟩ "0x00000000"
        "Failure" "Failure()" { elements := [], named := [] } :=
      ⟨rfl, rfl, "0x00000000".toList, [], rfl, rfl, rfl⟩
    obtain ⟨_, -, _, _, _, -, same⟩ :=
      set ⟨_, List.mem_singleton_self _, _, _, _, reverts⟩
    cases congrArg Eip838ExecutionError.errorName same

end Web3Js.Contract
