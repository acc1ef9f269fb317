import Web3Js.Abi.Parameters

/-!
# One parameter, as text or as an object

The type of a parameter is given as text or as an object of the JSON
interface, and only the value of a textual type is formatted.  The data of a
static parameter are what its coder writes.
-/

namespace Web3Js.Abi

variable (externals : Externals)

theorem encodeParameters_text (type : String) (value : Value) :
    (encodeParameters externals [.text type] [value]).toOption =
      (AbiInput.format externals (.text type) value).toOption.bind
        fun formatted => (ParamType.fromString type).toOption.bind
          fun param =>
            (AbiCoder.encode externals [param] [formatted]).toOption := by
  have parsed : [AbiInput.text type].mapM ParamType.from =
      (ParamType.fromString type).map fun param => [param] := by
    rw [List.mapM_cons, ParamType.from]
    cases ParamType.fromString type <;> rfl
  have formats : formatParams externals [.text type] [value] =
      (AbiInput.format externals (.text type) value).map
        fun formatted => [formatted] := by
    change ([value].zipIdx.mapM fun _ => _) = _
    rw [List.zipIdx_cons, List.mapM_cons]
    change (AbiInput.format externals (.text type) value >>= _) = _
    cases AbiInput.format externals (.text type) value <;> rfl
  change (Except.mapError _ (formatParams externals [.text type] [value] >>=
    fun formatted => codedMessage ([AbiInput.text type].mapM ParamType.from)
      >>= _)).toOption = _
  rw [formats, parsed]
  cases AbiInput.format externals (.text type) value with
  | error problem => rfl
  | ok formatted =>
      cases ParamType.fromString type with
      | error problem => rfl
      | ok param =>
          change (Except.mapError _ (codedMessage
            (AbiCoder.encode externals [param] [formatted]))).toOption =
              (AbiCoder.encode externals [param] [formatted]).toOption
          cases AbiCoder.encode externals [param] [formatted] <;> rfl

theorem encodeParameters_parameter {param : JsonFragmentType}
    (known : param.type ≠ "function") (value : Value) :
    (encodeParameters externals [.parameter param] [value]).toOption =
      (AbiCoder.encode externals [.fromObject param]
        [value.copy]).toOption := by
  have mapped : mapTypes [.parameter param] = .ok [.parameter param] := by
    rw [mapTypes, List.mapM_cons]
    change ((if param.type = "function" then _ else _) >>= _) = _
    rw [if_neg known]
    rfl
  rw [encodeParameters, mapped]
  change (Except.mapError _ (codedMessage
    (AbiCoder.encode externals [.fromObject param] [value.copy]))).toOption = _
  cases AbiCoder.encode externals [.fromObject param] [value.copy] <;> rfl

/-- The data of one static parameter is what its coder writes. -/
theorem AbiCoder.encode_static {param : ParamType} {coder : Coder}
    (built : getCoder externals param = .ok coder)
    (static : coder.dynamic = false) (value : Value) :
    AbiCoder.encode externals [param] [value] =
      coder.encode {} value >>= fun written => written.1.text := by
  have coders : getCoders externals [param] = .ok [coder] := by
    rw [getCoders, built]
    rfl
  have packed : packComponent {} (coder, value) =
      coder.encode {} value >>= fun written =>
        .ok { staticWriter := written.1 } := by
    simp only [packComponent, static, Bool.false_eq_true, if_false]
    rfl
  rw [AbiCoder.encode, if_neg (by simp), coders]
  simp only [Outcome.ok_bind, TupleCoder, pack, arrayValues]
  rw [if_neg (by simp), List.zip_cons_cons, List.foldlM_cons, packed]
  cases coder.encode {} value with
  | error problem => rfl
  | ok written =>
      simp only [Outcome.ok_bind]
      simp [Writer.appendWriter, Writer.writeData, Writer.text, List.foldlM,
        pure, Except.pure, bind, Except.bind]

end Web3Js.Abi
