import Web3Js.Abi.OutlinedDecoding

/-!
# Deferred errors of decoded parameters

The error of a component is deferred to the read of its element.  Making an
object of a result reads its elements, so an error among them is thrown.  A
result without names is kept as it is, with the errors that are inside.  Where
the errors are is seen in the outline of the data.
-/

namespace Web3Js.Abi

/-! ## Reading everything -/

mutual

/-- No read inside the value throws. -/
def Decoded.isReadable : Decoded → Bool
  | .failure _ _ _ _ => false
  | .result elements _ => Decoded.areReadable elements
  | _ => true

def Decoded.areReadable : List Decoded → Bool
  | [] => true
  | element :: elements =>
      element.isReadable && Decoded.areReadable elements

end

mutual

def DecodedParam.isReadable : DecodedParam → Bool
  | .value decoded => decoded.isReadable
  | .object elements _ => DecodedParam.areReadable elements

def DecodedParam.areReadable : List DecodedParam → Bool
  | [] => true
  | element :: elements =>
      element.isReadable && DecodedParam.areReadable elements

end

/-- No read of what `decodeParameters` returns throws, by position or by name
and at any depth. -/
def DecodedParams.isReadable (params : DecodedParams) : Bool :=
  DecodedParam.areReadable params.elements

/-! ## Where errors are -/

mutual

/-- No element inside is an error. -/
def Outline.isReadable : Outline → Bool
  | .faulty => false
  | .frame elements _ => Outline.areReadable elements
  | _ => true

def Outline.areReadable : List Outline → Bool
  | [] => true
  | element :: elements =>
      element.isReadable && Outline.areReadable elements

end

/-- No number can be added to the value: it is a `bigint`, or an array whose
elements are joined and are errors. -/
def Outline.isUncountable : Outline → Bool
  | .bigint => true
  | .frame elements named =>
      !isParamRequiredToConvert named && !Outline.areReadable elements
  | .null | .scalar | .faulty => false

/-- The count of the keys goes on from an element that it cannot be added
to. -/
def countFails (elements : List Outline) (named : List (String × Nat)) : Bool :=
  ((named.lookup "__length__").bind (elements[·]?)).any Outline.isUncountable

mutual

/-- An object of the value cannot be made: one of the elements that are read
is an error. -/
def Outline.isRefused : Outline → Bool
  | .faulty => true
  | .frame elements named =>
      isParamRequiredToConvert named &&
        (Outline.anyRefused elements || countFails elements named)
  | _ => false

def Outline.anyRefused : List Outline → Bool
  | [] => false
  | element :: elements =>
      element.isRefused || Outline.anyRefused elements

end

mutual

/-- There is an error inside of a frame without names. -/
def Outline.hidesError : Outline → Bool
  | .frame elements named =>
      if isParamRequiredToConvert named then Outline.anyHidesError elements
      else !Outline.areReadable elements
  | _ => false

def Outline.anyHidesError : List Outline → Bool
  | [] => false
  | element :: elements =>
      element.hidesError || Outline.anyHidesError elements

end

/-- The data have an error that is hidden in an element, and none that the
making of the objects reads. -/
def hidesError (cryptography : Cryptography) (types : List ParamType)
    (data : Bytes) : Bool :=
  match (ParamType.parts cryptography types).map (frameAt · data) with
  | some (.ok (.frame elements named)) =>
      Outline.anyHidesError elements &&
        !(Outline.anyRefused elements || countFails elements named)
  | _ => false

mutual

theorem isReadable_outline : ∀ decoded : Decoded,
    decoded.outline.isReadable = decoded.isReadable
  | .result elements _ => areReadable_outlines elements
  | .null | .boolean _ | .number _ | .bigint _ | .bigNumber _ | .string _
  | .failure _ _ _ _ => rfl

theorem areReadable_outlines : ∀ elements : List Decoded,
    Outline.areReadable (Decoded.outlines elements) =
      Decoded.areReadable elements
  | [] => rfl
  | element :: elements => by
      rw [Decoded.outlines, Outline.areReadable, Decoded.areReadable,
        isReadable_outline element, areReadable_outlines elements]

end

/-! ## Making objects -/

mutual

/-- Joining meets an error exactly where some read throws. -/
theorem isSome_joinProblem : ∀ decoded : Decoded,
    decoded.joinProblem.isSome = !decoded.isReadable
  | .result elements _ => isSome_joinProblems elements
  | .null | .boolean _ | .number _ | .bigint _ | .bigNumber _ | .string _
  | .failure _ _ _ _ => rfl

theorem isSome_joinProblems : ∀ elements : List Decoded,
    (Decoded.joinProblems elements).isSome = !Decoded.areReadable elements
  | [] => rfl
  | element :: elements => by
      rw [Decoded.joinProblems, Decoded.areReadable, Option.isSome_or,
        isSome_joinProblem element, isSome_joinProblems elements, Bool.not_and]

end

theorem isSome_countProblem {element : Decoded} {param : DecodedParam}
    (formatted : formatElement element = .ok param) :
    param.countProblem.isSome = element.outline.isUncountable := by
  cases element with
  | result inner names =>
      rw [formatElement] at formatted
      rw [Decoded.outline, Outline.isUncountable]
      split at formatted
      · rename_i converted
        obtain ⟨made, -, counted⟩ := Outcome.bind_eq_ok.mp formatted
        obtain ⟨-, -, same⟩ := Outcome.bind_eq_ok.mp counted
        obtain rfl := Except.ok.inj same
        rw [converted]
        rfl
      · rename_i kept
        obtain rfl := Except.ok.inj formatted
        change (Decoded.result inner names).joinProblem.isSome = _
        rw [isSome_joinProblem, Decoded.isReadable, areReadable_outlines,
          Bool.eq_false_of_not_eq_true kept]
        rfl
  | failure problem baseType name type => cases formatted
  | null | boolean | number | bigint | bigNumber | string =>
      obtain rfl := Except.ok.inj formatted
      rfl

theorem getElem?_formatted {elements : List Decoded}
    {params : List DecodedParam}
    (formatted : formatElements elements = .ok params) (index : Nat) :
    (params[index]?.bind DecodedParam.countProblem).isSome =
      (Decoded.outlines elements)[index]?.any Outline.isUncountable := by
  induction elements generalizing params index with
  | nil =>
      obtain rfl : [] = params := Except.ok.inj formatted
      simp [Decoded.outlines]
  | cons element elements induction =>
      rw [formatElements] at formatted
      obtain ⟨param, first, rest⟩ := Outcome.bind_eq_ok.mp formatted
      obtain ⟨others, later, whole⟩ := Outcome.bind_eq_ok.mp rest
      obtain rfl := Except.ok.inj whole
      cases index with
      | succ index => exact induction later index
      | zero => simpa [Decoded.outlines] using isSome_countProblem first

/-- The keys of an object are counted where no element hinders it. -/
theorem countKeys_eq_ok {elements : List Decoded}
    {params : List DecodedParam} {named : List (String × Nat)}
    (formatted : formatElements elements = .ok params) :
    countKeys params named = .ok () ↔
      countFails (Decoded.outlines elements) named = false := by
  have same : (((named.lookup "__length__").bind (params[·]?)).bind
      DecodedParam.countProblem).isSome =
        countFails (Decoded.outlines elements) named := by
    rw [countFails]
    cases named.lookup "__length__" with
    | none => rfl
    | some position => exact getElem?_formatted formatted position
  rw [countKeys, ← same]
  cases ((named.lookup "__length__").bind (params[·]?)).bind
      DecodedParam.countProblem with
  | none => exact iff_of_true rfl rfl
  | some problem =>
      constructor
      · rintro ⟨⟩
      · rintro ⟨⟩

mutual

/-- An object is made unless the value is refused, and what it keeps unread is
what the value hides. -/
theorem formatElement_spec : ∀ decoded : Decoded,
    (decoded.outline.isRefused = true → ∃ problem,
      formatElement decoded = .error problem) ∧
    (decoded.outline.isRefused = false → ∃ param,
      formatElement decoded = .ok param ∧
        param.isReadable = !decoded.outline.hidesError)
  | .result elements named => by
      obtain ⟨refused, accepted⟩ := formatElements_spec elements
      rw [Decoded.outline, Outline.isRefused, Outline.hidesError, formatElement]
      cases converted : isParamRequiredToConvert named with
      | false =>
          refine ⟨nofun, fun _ => ⟨_, rfl, ?_⟩⟩
          rw [DecodedParam.isReadable, Decoded.isReadable, if_neg nofun,
            Bool.not_not, areReadable_outlines]
      | true =>
          rw [Bool.true_and, if_pos rfl, if_pos rfl]
          cases anyRefused : Outline.anyRefused (Decoded.outlines elements) with
          | true =>
              obtain ⟨problem, failed⟩ := refused anyRefused
              rw [failed]
              exact ⟨fun _ => ⟨problem, rfl⟩, nofun⟩
          | false =>
              obtain ⟨params, formatted, readable⟩ := accepted anyRefused
              rw [Bool.false_or, formatted, Outcome.ok_bind]
              cases counted : countKeys params named with
              | ok counter =>
                  have uncounted := (countKeys_eq_ok formatted).mp counted
                  rw [uncounted]
                  exact ⟨nofun, fun _ => ⟨_, rfl, readable⟩⟩
              | error problem =>
                  have counts : countFails (Decoded.outlines elements) named =
                      true := by
                    rw [← Bool.not_eq_false]
                    intro uncounted
                    rw [(countKeys_eq_ok formatted).mpr uncounted] at counted
                    cases counted
                  rw [counts]
                  exact ⟨fun _ => ⟨problem, rfl⟩, nofun⟩
  | .failure problem _ _ _ => ⟨fun _ => ⟨problem, rfl⟩, nofun⟩
  | .null => ⟨nofun, fun _ => ⟨_, rfl, rfl⟩⟩
  | .boolean _ => ⟨nofun, fun _ => ⟨_, rfl, rfl⟩⟩
  | .number _ => ⟨nofun, fun _ => ⟨_, rfl, rfl⟩⟩
  | .bigint _ => ⟨nofun, fun _ => ⟨_, rfl, rfl⟩⟩
  | .bigNumber _ => ⟨nofun, fun _ => ⟨_, rfl, rfl⟩⟩
  | .string _ => ⟨nofun, fun _ => ⟨_, rfl, rfl⟩⟩

theorem formatElements_spec : ∀ elements : List Decoded,
    (Outline.anyRefused (Decoded.outlines elements) = true → ∃ problem,
      formatElements elements = .error problem) ∧
    (Outline.anyRefused (Decoded.outlines elements) = false → ∃ params,
      formatElements elements = .ok params ∧
        DecodedParam.areReadable params =
          !Outline.anyHidesError (Decoded.outlines elements))
  | [] => ⟨nofun, fun _ => ⟨_, rfl, rfl⟩⟩
  | element :: elements => by
      obtain ⟨refused, accepted⟩ := formatElement_spec element
      obtain ⟨refusedRest, acceptedRest⟩ := formatElements_spec elements
      rw [Decoded.outlines, Outline.anyRefused, formatElements,
        Outline.anyHidesError]
      cases first : element.outline.isRefused with
      | true =>
          obtain ⟨problem, failed⟩ := refused first
          rw [failed]
          exact ⟨fun _ => ⟨problem, rfl⟩, nofun⟩
      | false =>
          obtain ⟨param, formatted, readable⟩ := accepted first
          rw [formatted, Outcome.ok_bind, Bool.false_or]
          cases rest : Outline.anyRefused (Decoded.outlines elements) with
          | true =>
              obtain ⟨problem, failed⟩ := refusedRest rest
              rw [failed]
              exact ⟨fun _ => ⟨problem, rfl⟩, nofun⟩
          | false =>
              obtain ⟨params, formattedRest, readableRest⟩ := acceptedRest rest
              rw [formattedRest]
              refine ⟨nofun, fun _ => ⟨_, rfl, ?_⟩⟩
              rw [DecodedParam.areReadable, readable, readableRest,
                Bool.not_or]

end

/-! ## Decoded parameters -/

/-- Everything that can be read of the parameters can be read without an error
exactly when no error is hidden in a nested result, or making the object
throws. -/
theorem formatArrayResToObject_readable_iff (elements : List Decoded)
    (named : List (String × Nat)) :
    (∀ params, formatArrayResToObject (.result elements named) = .ok params →
      params.isReadable = true) ↔
      (Outline.anyHidesError (Decoded.outlines elements) &&
        !(Outline.anyRefused (Decoded.outlines elements) ||
          countFails (Decoded.outlines elements) named)) = false := by
  obtain ⟨refused, accepted⟩ := formatElements_spec elements
  rw [formatArrayResToObject]
  cases anyRefused : Outline.anyRefused (Decoded.outlines elements) with
  | true =>
      obtain ⟨problem, failed⟩ := refused anyRefused
      rw [failed, Bool.true_or, Bool.not_true, Bool.and_false]
      exact ⟨fun _ => rfl, fun _ _ made => by cases made⟩
  | false =>
      obtain ⟨params, formatted, readable⟩ := accepted anyRefused
      rw [formatted, Outcome.ok_bind, Bool.false_or]
      cases counted : countKeys params named with
      | error problem =>
          have uncountable : countFails (Decoded.outlines elements) named =
              true := by
            rw [← Bool.not_eq_false]
            intro uncounted
            rw [(countKeys_eq_ok formatted).mpr uncounted] at counted
            cases counted
          rw [uncountable, Bool.not_true, Bool.and_false]
          exact ⟨fun _ => rfl, fun _ _ made => by cases made⟩
      | ok counter =>
          rw [(countKeys_eq_ok formatted).mp counted, Bool.not_false,
            Bool.and_true]
          constructor
          · intro all
            have whole := all _ rfl
            rwa [DecodedParams.isReadable, readable,
              Bool.not_eq_true'] at whole
          · intro unhidden params' made
            obtain rfl := Except.ok.inj made
            rw [DecodedParams.isReadable, readable, unhidden]
            rfl

variable (externals : Externals)

/-- The types and the bytes that the parameters are decoded with. -/
structure DecodedWith (abis : List AbiInput) (bytes : String)
    (types : List ParamType) (data : Bytes) : Prop where
  nonblank : ¬(abis ≠ [] ∧ (bytes = "" ∨ bytes = "0x" ∨ bytes = "0X"))
  types : ∃ modifiedTypes, mapTypes abis = .ok modifiedTypes ∧
    modifiedTypes.mapM ParamType.from = .ok types
  data : externals.arrayify
    (.string (String.ofList ('0' :: 'x' :: dropHexPrefix bytes.toList))) =
      .ok data

/-- What the coder returns for types and bytes. -/
def decodeBytes (types : List ParamType) (data : Bytes) (loose : Bool) :
    Except Error Decoded := do
  let coders ← getCoders externals types
  ((TupleCoder externals coders (some "_")).decode
    (ethersAbiCoder.getReader data loose)).1

theorem decodeParametersWith_eq_ok {abis : List AbiInput} {bytes : String}
    {loose : Bool} {params : DecodedParams} :
    decodeParametersWith externals abis bytes loose = .ok params ↔
      ∃ types data res, DecodedWith externals abis bytes types data ∧
        decodeBytes externals types data loose = .ok res ∧
        formatArrayResToObject res = .ok params := by
  have wrapped : ∀ result : Except String DecodedParams,
      Except.mapError (fun message => "Parameter decoding error: " ++ message)
        result = .ok params ↔ result = .ok params := by
    intro result
    cases result with
    | error message => exact ⟨by rintro ⟨⟩, by rintro ⟨⟩⟩
    | ok value => exact Iff.rfl
  have coded : ∀ {α : Type} {result : Except Error α} {value : α},
      codedMessage result = .ok value ↔ result = .ok value := by
    intro α result value
    cases result with
    | error problem => exact ⟨by rintro ⟨⟩, by rintro ⟨⟩⟩
    | ok value =>
        exact ⟨fun same => congrArg Except.ok (Except.ok.inj same),
          fun same => congrArg Except.ok (Except.ok.inj same)⟩
  rw [decodeParametersWith, wrapped]
  split
  · rename_i blank
    constructor
    · rintro ⟨⟩
    · rintro ⟨_, _, _, given, -⟩
      exact absurd blank given.nonblank
  · rename_i nonblank
    simp only [Outcome.bind_eq_ok, coded, AbiCoder.decode, decodeBytes]
    constructor
    · rintro ⟨modified, mapped, types, parsed, res, ⟨coders, codersOk, data,
        arrayified, decoded⟩, formatted⟩
      exact ⟨types, data, res, ⟨nonblank, ⟨modified, mapped, parsed⟩,
        arrayified⟩, ⟨coders, codersOk, decoded⟩, formatted⟩
    · rintro ⟨types, data, res, ⟨-, ⟨modified, mapped, parsed⟩, arrayified⟩,
        ⟨coders, codersOk, decoded⟩, formatted⟩
      exact ⟨modified, mapped, types, parsed, res, ⟨coders, codersOk, data,
        arrayified, decoded⟩, formatted⟩

/-- The coder returns a result of the frame of the data, and throws where there
is none. -/
theorem decodeBytes_outlined {types : List ParamType} {parts : List Part}
    (typed : ParamType.parts externals.toCryptography types = some parts)
    (data : Bytes) :
    outlined Decoded.outline (decodeBytes externals types data false) =
        frameAt parts data ∧
      ∀ res, decodeBytes externals types data false = .ok res →
        ∃ elements named, res = .result elements named := by
  obtain ⟨coders, codersOk⟩ := getCoders_of_parts types typed
  obtain ⟨parts', typed', follows⟩ := getCoders_follows types codersOk
  obtain rfl : parts = parts' := Option.some.inj (typed.symm.trans typed')
  have strict : (ethersAbiCoder.getReader data false).Strict :=
    ⟨rfl, rfl, Nat.zero_le _⟩
  have framed := unpack_coerce_follows follows "tuple" strict
  rw [decodeBytes, codersOk]
  exact ⟨framed.outline, fun res decoded => (framed.isResult res decoded).1⟩

/-- Offsets to the next word, and a length that no number can be. -/
def overlong : Bytes :=
  Spec.lengthWord wordSize ++ Spec.lengthWord wordSize ++
    List.replicate wordSize 255

example : hidesError .simple [.tuple none [.elementary none "bytes"]]
    overlong = true := by
  decide +kernel

end Web3Js.Abi
