import Web3Js.Abi.Spec

/-!
# Coders and the types of their parameters

`getCoder_induction` packages the recursion of `getCoder`: a relation between
coders and types that every coder class respects holds between the coder of a
parameter and the type that the parameter names.
-/

namespace Web3Js.Abi

/-- A relation that every coder class but the null coder respects. -/
structure RespectedByClasses (externals : Externals)
    (motive : Coder → AbiType → Prop) : Prop where
  address : ∀ name, motive (AddressCoder externals name) .address
  bool : ∀ name, motive (BooleanCoder name) .bool
  string : ∀ name, motive (StringCoder externals name) .string
  bytes : ∀ name, motive (BytesCoder externals name) .bytes
  number : ∀ (size : ByteSize) signed name,
    motive (NumberCoder externals size.bytes signed name)
      (.number signed size)
  fixedBytes : ∀ (size : ByteSize) name,
    motive (FixedBytesCoder externals size.bytes name) (.fixedBytes size)
  array : ∀ coder element length name, motive coder element →
    motive (ArrayCoder externals coder length name) (.array element length)
  tuple : ∀ coders components name,
    List.Forall₂ motive coders components →
      motive (TupleCoder externals coders name)
        (.tuple (coders.map (·.localName)) components)

section Induction

variable {externals : Externals} {motive : Coder → AbiType → Prop}

private theorem getElementaryCoder_related
    (respected : RespectedByClasses externals motive)
    {name : Option String} {type : String} {coder : Coder}
    (nonempty : type ≠ "")
    (built : getElementaryCoder externals name type = .ok coder) :
    ∃ abi, elementaryType type = some abi ∧ coder.localName = name ∧
      motive coder abi := by
  unfold getElementaryCoder at built
  unfold elementaryType
  split_ifs at built ⊢ with address bool string bytes array tuple
  · cases built
    exact ⟨_, rfl, rfl, respected.address name⟩
  · cases built
    exact ⟨_, rfl, rfl, respected.bool name⟩
  · cases built
    exact ⟨_, rfl, rfl, respected.string name⟩
  · cases built
    exact ⟨_, rfl, rfl, respected.bytes name⟩
  · cases built
    exact ⟨_, rfl, rfl, respected.tuple [] [] name .nil⟩
  · cases number : Reader.matchNumber type with
    | some matched =>
        obtain ⟨signed, digits⟩ := matched
        have unsized : Reader.parseInt "512".toList = 512 := by decide
        simp only [number, apply_ite Reader.parseInt, unsized] at built ⊢
        generalize (if digits = [] then 512
          else Reader.parseInt digits) = size at built ⊢
        split at built
        · cases built
        · rename_i valid
          push Not at valid
          have bounds : 0 < size ∧ size ≤ 512 ∧ 8 ∣ size :=
            ⟨Nat.pos_of_ne_zero valid.1, valid.2.1,
              Nat.dvd_of_mod_eq_zero valid.2.2⟩
          rw [integerType, dif_pos bounds]
          cases built
          exact ⟨_, rfl, rfl, respected.number ⟨_, _, _⟩ signed name⟩
    | none =>
        simp only [number] at built ⊢
        cases sized : matchBytes type with
        | some digits =>
            simp only [sized, Option.bind_some] at built ⊢
            split at built
            · cases built
            · rename_i valid
              push Not at valid
              have bounds : 0 < Reader.parseInt digits ∧
                  Reader.parseInt digits ≤ wordSize :=
                ⟨Nat.pos_of_ne_zero valid.1, valid.2⟩
              rw [dif_pos bounds]
              cases built
              exact ⟨_, rfl, rfl, respected.fixedBytes ⟨_, _, _⟩ name⟩
        | none =>
            simp only [sized] at built
            cases built

mutual

/-- The coder of a parameter is related to the type of the parameter. -/
theorem getCoder_induction (respected : RespectedByClasses externals motive) :
    ∀ (param : ParamType) {coder : Coder}, param.Nonempty →
      getCoder externals param = .ok coder →
        ∃ type, param.abiType = some type ∧
          coder.localName = param.localName ∧ motive coder type
  | .elementary name type, coder, nonempty, built =>
      getElementaryCoder_related respected nonempty built
  | .tuple name components, coder, nonempty, built => by
      rw [getCoder] at built
      obtain ⟨coders, codersOk, done⟩ := Outcome.bind_eq_ok.mp built
      obtain ⟨types, typed, names, related⟩ :=
        getCoders_induction respected components nonempty codersOk
      cases done
      refine ⟨.tuple (coders.map (·.localName)) types, ?_, rfl,
        respected.tuple coders types name related⟩
      simp [ParamType.abiType, typed, names]
  | .array name length children, coder, nonempty, built => by
      rw [getCoder] at built
      obtain ⟨child, childOk, done⟩ := Outcome.bind_eq_ok.mp built
      obtain ⟨element, typed, -, related⟩ :=
        getCoder_induction respected children nonempty childOk
      cases done
      refine ⟨.array element length, ?_, rfl,
        respected.array child element length name related⟩
      simp [ParamType.abiType, typed]

theorem getCoders_induction
    (respected : RespectedByClasses externals motive) :
    ∀ (params : List ParamType) {coders : List Coder},
      ParamType.AllNonempty params →
      getCoders externals params = .ok coders →
        ∃ types, ParamType.abiTypes params = some types ∧
          coders.map (·.localName) = params.map (·.localName) ∧
          List.Forall₂ motive coders types
  | [], coders, _, built => by
      cases built
      exact ⟨[], rfl, rfl, .nil⟩
  | param :: params, coders, nonempty, built => by
      rw [getCoders] at built
      obtain ⟨coder, coderOk, rest⟩ := Outcome.bind_eq_ok.mp built
      obtain ⟨others, othersOk, done⟩ := Outcome.bind_eq_ok.mp rest
      obtain ⟨type, typed, name, related⟩ :=
        getCoder_induction respected param nonempty.1 coderOk
      obtain ⟨types, allTyped, names, allRelated⟩ :=
        getCoders_induction respected params nonempty.2 othersOk
      cases done
      refine ⟨type :: types, ?_, ?_, .cons related allRelated⟩
      · simp [ParamType.abiTypes, typed, allTyped]
      · simp [name, names]

end

end Induction

section Converse

variable (externals : Externals)

theorem getElementaryCoder_of_elementaryType {type : String} {abi : AbiType}
    (typed : elementaryType type = some abi) (name : Option String) :
    ∃ coder, getElementaryCoder externals name type = .ok coder := by
  have listed : type ≠ "array" ∧ type ≠ "" := by
    constructor
    · rintro rfl
      cases typed
    · rintro rfl
      cases typed
  unfold elementaryType at typed
  unfold getElementaryCoder
  rw [if_neg listed.1, if_neg listed.2]
  split_ifs at typed ⊢ with address bool string bytes tuple
  · exact ⟨_, rfl⟩
  · exact ⟨_, rfl⟩
  · exact ⟨_, rfl⟩
  · exact ⟨_, rfl⟩
  · exact ⟨_, rfl⟩
  · cases number : Reader.matchNumber type with
    | some matched =>
        obtain ⟨signed, digits⟩ := matched
        have unsized : Reader.parseInt "512".toList = 512 := by decide
        simp only [number, apply_ite Reader.parseInt, unsized] at typed ⊢
        generalize (if digits = [] then 512
          else Reader.parseInt digits) = size at typed ⊢
        rw [integerType] at typed
        split at typed
        · rename_i bounds
          have valid : ¬(size = 0 ∨ 512 < size ∨ size % 8 ≠ 0) := by
            have := Nat.mod_eq_zero_of_dvd bounds.2.2
            omega
          exact ⟨_, if_neg valid⟩
        · cases typed
    | none =>
        simp only [number] at typed ⊢
        obtain ⟨digits, sized, bounded⟩ := Option.bind_eq_some_iff.mp typed
        simp only [sized]
        split at bounded
        · rename_i bounds
          have valid :
              ¬(Reader.parseInt digits = 0 ∨ 64 < Reader.parseInt digits) := by
            have := bounds.2
            unfold wordSize at this
            omega
          exact ⟨_, if_neg valid⟩
        · cases bounded

mutual

/-- A parameter that names a type has a coder. -/
theorem getCoder_of_abiType : ∀ (param : ParamType) {type : AbiType},
    param.abiType = some type →
      param.Nonempty ∧ ∃ coder, getCoder externals param = .ok coder
  | .elementary name text, type, typed => by
      refine ⟨?_, getElementaryCoder_of_elementaryType externals typed name⟩
      rintro rfl
      cases typed
  | .tuple name components, type, typed => by
      obtain ⟨types, componentsTyped, -⟩ := Option.bind_eq_some_iff.mp typed
      obtain ⟨nonempty, coders, built⟩ :=
        getCoders_of_abiTypes components componentsTyped
      refine ⟨nonempty, TupleCoder externals coders name, ?_⟩
      rw [getCoder, built]
      rfl
  | .array name length children, type, typed => by
      obtain ⟨element, childTyped, -⟩ := Option.bind_eq_some_iff.mp typed
      obtain ⟨nonempty, coder, built⟩ :=
        getCoder_of_abiType children childTyped
      refine ⟨nonempty, ArrayCoder externals coder length name, ?_⟩
      rw [getCoder, built]
      rfl

theorem getCoders_of_abiTypes :
    ∀ (params : List ParamType) {types : List AbiType},
      ParamType.abiTypes params = some types →
        ParamType.AllNonempty params ∧
          ∃ coders, getCoders externals params = .ok coders
  | [], types, typed => ⟨trivial, [], rfl⟩
  | param :: params, types, typed => by
      obtain ⟨type, headTyped, rest⟩ := Option.bind_eq_some_iff.mp typed
      obtain ⟨others, tailTyped, -⟩ := Option.bind_eq_some_iff.mp rest
      obtain ⟨headNonempty, coder, headBuilt⟩ :=
        getCoder_of_abiType param headTyped
      obtain ⟨tailNonempty, coders, tailBuilt⟩ :=
        getCoders_of_abiTypes params tailTyped
      refine ⟨⟨headNonempty, tailNonempty⟩, coder :: coders, ?_⟩
      rw [getCoders, headBuilt, Outcome.ok_bind, tailBuilt]
      rfl

end

end Converse

end Web3Js.Abi
