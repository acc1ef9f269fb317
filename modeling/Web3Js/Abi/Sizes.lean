import Mathlib.Tactic.Ring
import Web3Js.Abi.Spec

/-!
# Sizes of the head and tail encoding

Typed values come from caller values by `normalise`, whose shape is taken
apart here.  By induction on the type, the encoding of such a value fills
whole words, and a static one takes exactly its place in the head.
-/

namespace Web3Js.Abi

@[simp] theorem Spec.length_lengthWord (length : Nat) :
    (Spec.lengthWord length).length = wordSize := by
  simp [Spec.lengthWord]

section Sizes

variable {externals : Externals}

theorem normaliseAll_replicate (element : AbiType)
    (values : List Value) :
    AbiType.normaliseAll externals
        (List.replicate values.length element) values =
      values.mapM fun value => element.normalise externals value := by
  induction values with
  | nil => rfl
  | cons value values induction =>
      rw [List.length_cons, List.replicate_succ, AbiType.normaliseAll,
        List.mapM_cons, induction]

theorem Spec.parts_replicate (cryptography : Cryptography)
    (element : AbiType) (values : List AbiValue) :
    Spec.parts cryptography (List.replicate values.length element) values =
      values.map fun value =>
        { outlined := element.isDynamic,
          contents := Spec.encode cryptography element value } := by
  induction values with
  | nil => rfl
  | cons value values induction =>
      rw [List.length_cons, List.replicate_succ, Spec.parts, induction,
        List.map_cons]

theorem length_normaliseAll {types : List AbiType} {values : List Value}
    {normals : List AbiValue}
    (normalised : AbiType.normaliseAll externals types values = some normals) :
    normals.length = values.length ∧ types.length = values.length := by
  induction types generalizing values normals with
  | nil =>
      cases values with
      | nil =>
          cases normalised
          exact ⟨rfl, rfl⟩
      | cons value values => simp [AbiType.normaliseAll] at normalised
  | cons type types induction =>
      cases values with
      | nil => simp [AbiType.normaliseAll] at normalised
      | cons value values =>
          simp only [AbiType.normaliseAll, Option.bind_eq_bind,
            Option.bind_eq_some_iff, Option.pure_def] at normalised
          obtain ⟨normal, -, normals', rest, done⟩ := normalised
          cases done
          obtain ⟨sameNormals, sameTypes⟩ := induction rest
          simp [sameNormals, sameTypes]

/-- The encoding is aligned, and a static one has the size of its head. -/
def Sized (externals : Externals) (type : AbiType) : Prop :=
  ∀ value normal, type.normalise externals value = some normal →
    wordSize ∣ (Spec.encode externals.toCryptography type normal).length ∧
      (type.isDynamic = false →
        (Spec.encode externals.toCryptography type normal).length =
          type.headSize)

theorem Spec.length_word (value : Int) :
    (Spec.word value).length = wordSize := by
  simp [Spec.word]

theorem Spec.dvd_length_padRight (bytes : Bytes) :
    wordSize ∣ (Spec.padRight bytes).length := by
  simp only [Spec.padRight, wordSize, List.length_append,
    List.length_replicate]
  omega

theorem Spec.length_padRight_of_size {size : ByteSize} {bytes : Bytes}
    (length : bytes.length = size.bytes) :
    (Spec.padRight bytes).length = wordSize := by
  have positive := size.positive
  have within := size.withinWord
  simp only [Spec.padRight, wordSize, List.length_append,
    List.length_replicate] at within ⊢
  omega

theorem AbiType.headSize_of_dynamic {type : AbiType}
    (dynamic : type.isDynamic = true) : type.headSize = wordSize := by
  cases type with
  | address | bool | number | fixedBytes =>
      simp [AbiType.isDynamic] at dynamic
  | string | bytes => rfl
  | array element length =>
      cases length with
      | none => rfl
      | some length =>
          rw [AbiType.isDynamic] at dynamic
          rw [AbiType.headSize, if_pos dynamic]
  | tuple names components =>
      rw [AbiType.isDynamic] at dynamic
      rw [AbiType.headSize, if_pos dynamic]

/-- The parts of sized components are aligned, their heads take the sizes of
the types, and static ones have no tails. -/
theorem Spec.parts_sized {types : List AbiType}
    (sized : ∀ type ∈ types, Sized externals type)
    {values : List Value} {normals : List AbiValue}
    (normalised :
      AbiType.normaliseAll externals types values = some normals) :
    (∀ part ∈ Spec.parts externals.toCryptography types normals,
        wordSize ∣ part.contents.length) ∧
      HeadTail.headLength wordSize
          (Spec.parts externals.toCryptography types normals) =
        AbiType.headSizes types ∧
      (AbiType.anyDynamic types = false →
        HeadTail.tails
          (Spec.parts externals.toCryptography types normals) = []) := by
  induction types generalizing values normals with
  | nil =>
      cases values with
      | nil =>
          cases normalised
          exact ⟨by simp [Spec.parts], rfl, fun _ => rfl⟩
      | cons value values => simp [AbiType.normaliseAll] at normalised
  | cons type types induction =>
      cases values with
      | nil => simp [AbiType.normaliseAll] at normalised
      | cons value values =>
          simp only [AbiType.normaliseAll, Option.bind_eq_bind,
            Option.bind_eq_some_iff, Option.pure_def] at normalised
          obtain ⟨normal, head, normals, rest, done⟩ := normalised
          cases done
          obtain ⟨aligned, static⟩ :=
            sized type List.mem_cons_self value normal head
          obtain ⟨allAligned, heads, tails⟩ := induction
            (fun other member =>
              sized other (List.mem_cons_of_mem type member)) rest
          refine ⟨?_, ?_, ?_⟩
          · intro part member
            rcases List.mem_cons.mp member with rfl | later
            · exact aligned
            · exact allAligned part later
          · rw [Spec.parts, HeadTail.headLength, heads, AbiType.headSizes]
            cases dynamic : type.isDynamic with
            | true => simp [AbiType.headSize_of_dynamic dynamic]
            | false => simp [static dynamic]
          · intro allStatic
            rw [AbiType.anyDynamic, Bool.or_eq_false_iff] at allStatic
            simp [Spec.parts, HeadTail.tails, allStatic.1, tails allStatic.2]

theorem Spec.dvd_length_sequence {parts : List (HeadTail.Part UInt8)}
    (aligned : ∀ part ∈ parts, wordSize ∣ part.contents.length) :
    wordSize ∣ (Spec.sequence parts).length :=
  HeadTail.dvd_length_layout Spec.length_lengthWord dvd_rfl parts aligned

theorem headSizes_replicate (element : AbiType) (count : Nat) :
    AbiType.headSizes (List.replicate count element) =
      count * element.headSize := by
  induction count with
  | zero => simp [AbiType.headSizes]
  | succ count induction =>
      rw [List.replicate_succ, AbiType.headSizes, induction]
      ring

theorem anyDynamic_replicate {element : AbiType}
    (static : element.isDynamic = false) (count : Nat) :
    AbiType.anyDynamic (List.replicate count element) = false := by
  induction count with
  | zero => rfl
  | succ count induction =>
      rw [List.replicate_succ, AbiType.anyDynamic, static, induction]
      rfl

/-- The elements of an array as the components of a tuple. -/
theorem AbiType.normalise_array {element : AbiType} {length : Option Nat}
    {value : Value} {normal : AbiValue}
    (normalised :
      (AbiType.array element length).normalise externals value =
        some normal) :
    ∃ values normals, value = .array values ∧ normal = .list normals ∧
      normals.length = values.length ∧
      (∀ count ∈ length, count = values.length) ∧
      AbiType.normaliseAll externals
        (List.replicate normals.length element) values = some normals := by
  cases value with
  | array values =>
      simp only [AbiType.normalise] at normalised
      split at normalised
      · rename_i fits
        obtain ⟨normals, elements, done⟩ :=
          Option.bind_eq_some_iff.mp normalised
        cases done
        rw [← normaliseAll_replicate] at elements
        have lengths := (length_normaliseAll elements).1
        refine ⟨values, normals, rfl, rfl, lengths, ?_, ?_⟩
        · intro count member
          rw [Option.mem_def.mp member] at fits
          simpa using fits
        · rwa [lengths]
      · cases normalised
  | undefined | null | boolean | number | notANumber | infinity | bigint
    | string | function | object | byteArray =>
      simp [AbiType.normalise] at normalised

theorem AbiType.normalise_tuple {names : List (Option String)}
    {components : List AbiType} {value : Value} {normal : AbiValue}
    (normalised :
      (AbiType.tuple names components).normalise externals value =
        some normal) :
    ∃ values normals, normal = .list normals ∧
      AbiType.normaliseAll externals components values = some normals := by
  simp only [AbiType.normalise, Option.bind_eq_bind,
    Option.bind_eq_some_iff, Option.pure_def] at normalised
  obtain ⟨values, -, normals, rest, done⟩ := normalised
  cases done
  exact ⟨values, normals, rfl, rest⟩

theorem AbiType.normalise_address {value : Value} {normal : AbiValue}
    (normalised : AbiType.address.normalise externals value = some normal) :
    ∃ bytes : Bytes, normal = .address bytes ∧ bytes.length = wordSize := by
  cases value with
  | string text =>
      simp only [AbiType.normalise, Option.bind_eq_bind,
        Option.bind_eq_some_iff, Option.pure_def] at normalised
      obtain ⟨hex, converted, bytes, read, done⟩ := normalised
      cases done
      refine ⟨bytes, rfl, ?_⟩
      cases outcome : Validator.addressToHex
          externals.toCryptography text with
      | error message => simp [outcome, Except.toOption] at converted
      | ok hex' =>
          simp only [outcome, Except.toOption, Option.some.injEq] at converted
          obtain ⟨bytes', length, spelled⟩ :=
            Validator.addressToHex_eq_ok outcome
          rw [← converted, spelled] at read
          simp only [hexlify, String.toList_ofList, List.drop_succ_cons,
            List.drop_zero, Hex.decode_encode_bytes, Option.some.injEq] at read
          rw [← read]
          exact length
  | undefined | null | boolean | number | notANumber | infinity | bigint
    | array | function | object | byteArray =>
      simp [AbiType.normalise] at normalised

/-- What `bytes` and `string` values encode to is aligned. -/
private theorem dvd_length_prefixed (bytes : Bytes) :
    wordSize ∣
      (Spec.lengthWord bytes.length ++ Spec.padRight bytes).length := by
  rw [List.length_append, Spec.length_lengthWord]
  exact Nat.dvd_add dvd_rfl (Spec.dvd_length_padRight bytes)

mutual

theorem AbiType.sized : ∀ type : AbiType, Sized externals type
  | .address => by
      intro value normal normalised
      obtain ⟨bytes, rfl, length⟩ := AbiType.normalise_address normalised
      simp [Spec.encode, length, AbiType.headSize]
  | .bool => by
      intro value normal normalised
      cases normalised
      simp [Spec.encode, Spec.length_word, AbiType.headSize]
  | .string => by
      intro value normal normalised
      cases value <;> cases normalised
      exact ⟨dvd_length_prefixed _, by simp [AbiType.isDynamic]⟩
  | .bytes => by
      intro value normal normalised
      obtain ⟨bytes, -, done⟩ := Option.bind_eq_some_iff.mp normalised
      cases done
      exact ⟨dvd_length_prefixed _, by simp [AbiType.isDynamic]⟩
  | .number signed size => by
      intro value normal normalised
      obtain ⟨number, -, done⟩ := Option.bind_eq_some_iff.mp normalised
      split at done
      · cases done
        simp [Spec.encode, Spec.length_word, AbiType.headSize]
      · cases done
  | .fixedBytes size => by
      intro value normal normalised
      obtain ⟨bytes, -, done⟩ := Option.bind_eq_some_iff.mp normalised
      split at done
      · rename_i exact
        cases done
        simp [Spec.encode, Spec.length_padRight_of_size exact,
          AbiType.headSize]
      · cases done
  | .array element length => by
      intro value normal normalised
      obtain ⟨values, normals, rfl, rfl, lengths, fits, elements⟩ :=
        AbiType.normalise_array normalised
      obtain ⟨aligned, heads, tails⟩ := Spec.parts_sized
        (fun type member => by
          rw [List.eq_of_mem_replicate member]
          exact AbiType.sized element) elements
      rw [Spec.parts_replicate] at aligned heads tails
      cases length with
      | none =>
          refine ⟨?_, by simp [AbiType.isDynamic]⟩
          rw [Spec.encode, List.length_append, Spec.length_lengthWord]
          exact Nat.dvd_add dvd_rfl (Spec.dvd_length_sequence aligned)
      | some length =>
          refine ⟨Spec.dvd_length_sequence aligned, ?_⟩
          intro static
          rw [AbiType.isDynamic] at static
          have noTails := tails (anyDynamic_replicate static _)
          rw [Spec.encode, Spec.sequence,
            HeadTail.length_layout Spec.length_lengthWord, heads, noTails,
            headSizes_replicate, AbiType.headSize, static,
            fits length rfl, lengths]
          simp
  | .tuple names components => by
      intro value normal normalised
      obtain ⟨values, normals, rfl, elements⟩ :=
        AbiType.normalise_tuple normalised
      obtain ⟨aligned, heads, tails⟩ :=
        Spec.parts_sized (AbiType.allSized components) elements
      refine ⟨Spec.dvd_length_sequence aligned, ?_⟩
      intro static
      rw [AbiType.isDynamic] at static
      rw [Spec.encode, Spec.sequence,
        HeadTail.length_layout Spec.length_lengthWord, heads, tails static,
        AbiType.headSize, static]
      simp

theorem AbiType.allSized :
    ∀ types : List AbiType, ∀ type ∈ types, Sized externals type
  | [], _, member => by simp at member
  | head :: types, type, member => by
      rcases List.mem_cons.mp member with equal | later
      · rw [equal]
        exact AbiType.sized head
      · exact AbiType.allSized types type later

end

end Sizes

end Web3Js.Abi
