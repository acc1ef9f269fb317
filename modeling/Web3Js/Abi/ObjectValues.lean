import Web3Js.Abi.Coders
import Web3Js.Lib.Outcome

/-!
# Tuples given as objects

An object is packed as the array of its values in the order of the components.
The table of the names that were seen is itself an object, so the names that
objects inherit count as seen from the start.
-/

namespace Web3Js.Abi

/-- Distinct keys lead to their values. -/
theorem lookup_of_distinct {properties : List (String × Value)}
    (distinct : (properties.map Prod.fst).Nodup) {name : String}
    {value : Value} (member : (name, value) ∈ properties) :
    properties.lookup name = some value := by
  induction properties with
  | nil => cases member
  | cons property properties induction =>
      obtain ⟨absent, others⟩ := List.nodup_cons.mp distinct
      rw [List.lookup_cons]
      rcases List.mem_cons.mp member with rfl | later
      · rw [beq_self_eq_true]
      · have other : name ≠ property.1 := by
          intro same
          rw [← same] at absent
          exact absent (List.mem_map_of_mem later)
        rw [beq_eq_false_iff_ne.mpr other]
        exact induction others later

/-- The coders have these names, none of them empty. -/
def NamedBy (coders : List Coder) (names : List String) : Prop :=
  coders.map (fun coder => givenName coder.localName) = names.map some

/-- The values are found where no name counts as seen. -/
theorem namedValues_of_fresh {properties : List (String × Value)}
    {coders : List Coder} {names : List String} {values : List Value}
    (named : NamedBy coders names) (distinct : names.Nodup)
    (found : List.Forall₂
      (fun name value => properties.lookup name = some value) names values)
    {unique : List String} (unseen : ∀ name ∈ names, name ∉ unique)
    (own : ∀ name ∈ names, name ∉ objectPrototypeNames) :
    namedValues properties coders unique = .ok values := by
  induction found generalizing coders unique with
  | nil =>
      obtain rfl : coders = [] := List.map_eq_nil_iff.mp named
      rfl
  | @cons name value names values first rest induction =>
      cases coders with
      | nil => nomatch named
      | cons coder coders =>
          obtain ⟨given, others⟩ := List.cons.inj named
          obtain ⟨absent, distinctRest⟩ := List.nodup_cons.mp distinct
          obtain ⟨newName, newNames⟩ := List.forall_mem_cons.mp unseen
          obtain ⟨ownName, ownNames⟩ := List.forall_mem_cons.mp own
          have later : namedValues properties coders (name :: unique) =
              .ok values := by
            apply induction others distinctRest _ ownNames
            intro other member seen
            rcases List.mem_cons.mp seen with rfl | seen
            · exact absent member
            · exact newNames other member seen
          have isGiven : givenName coder.localName = some name := given
          rw [namedValues, isGiven]
          dsimp only
          rw [if_neg (not_or.mpr ⟨newName, ownName⟩), later, Outcome.ok_bind,
            first]
          rfl

/-- A name that objects inherit is refused. -/
theorem namedValues_of_inherited (properties : List (String × Value))
    {coders : List Coder} {names : List String}
    (named : NamedBy coders names)
    (inherited : ∃ name ∈ names, name ∈ objectPrototypeNames)
    (unique : List String) :
    ∃ problem, namedValues properties coders unique = .error problem := by
  induction coders generalizing names unique with
  | nil =>
      obtain ⟨name, member, -⟩ := inherited
      obtain rfl : names = [] := List.map_eq_nil_iff.mp named.symm
      cases member
  | cons coder coders induction =>
      cases names with
      | nil => nomatch named
      | cons name names =>
          obtain ⟨given, others⟩ := List.cons.inj named
          have isGiven : givenName coder.localName = some name := given
          rw [namedValues, isGiven]
          dsimp only
          split
          · exact ⟨_, rfl⟩
          · rename_i fresh
            obtain ⟨other, member, inherits⟩ := inherited
            rcases List.mem_cons.mp member with rfl | later
            · exact absurd (.inr inherits) fresh
            · obtain ⟨problem, failed⟩ :=
                induction others ⟨other, later, inherits⟩ (name :: unique)
              rw [failed]
              exact ⟨problem, rfl⟩

section Pack

variable (externals : Externals) (writer : Writer)

theorem pack_of_inherited (properties : List (String × Value))
    {coders : List Coder} {names : List String}
    (named : NamedBy coders names)
    (inherited : ∃ name ∈ names, name ∈ objectPrototypeNames) :
    ∃ problem, pack externals writer coders (.object properties) =
      .error problem := by
  obtain ⟨problem, failed⟩ :=
    namedValues_of_inherited properties named inherited []
  refine ⟨problem, ?_⟩
  rw [pack, arrayValues, failed]
  rfl

theorem pack_of_own {coders : List Coder} {names : List String}
    {values : List Value} {properties : List (String × Value)}
    (named : NamedBy coders names) (distinct : names.Nodup)
    (lengths : names.length = values.length)
    (keys : properties.Perm (names.zip values))
    (own : ∀ name ∈ names, name ∉ objectPrototypeNames) :
    pack externals writer coders (.object properties) =
      pack externals writer coders (.array values) := by
  have zipped : (names.zip values).map Prod.fst = names :=
    List.map_fst_zip lengths.le
  have distinctKeys : (properties.map Prod.fst).Nodup := by
    rw [(keys.map Prod.fst).nodup_iff, zipped]
    exact distinct
  have found : List.Forall₂
      (fun name value => properties.lookup name = some value)
      names values := by
    rw [List.forall₂_iff_zip]
    refine ⟨lengths, ?_⟩
    intro name value member
    exact lookup_of_distinct distinctKeys (keys.mem_iff.mpr member)
  have given : arrayValues coders (.object properties) =
      arrayValues coders (.array values) :=
    namedValues_of_fresh named distinct found (fun _ _ => nofun) own
  rw [pack, pack, given]

end Pack

/-- The object with the values under their names, in any order, is encoded as
the array of the values exactly when objects inherit none of the names, or the
array cannot be encoded. -/
theorem encode_object_iff (externals : Externals) (localName : Option String)
    (writer : Writer) {coders : List Coder} {names : List String}
    {values : List Value} {properties : List (String × Value)}
    (named : NamedBy coders names) (distinct : names.Nodup)
    (lengths : names.length = values.length)
    (keys : properties.Perm (names.zip values)) :
    (∀ result,
      (TupleCoder externals coders localName).encode writer
          (.object properties) = .ok result ↔
        (TupleCoder externals coders localName).encode writer
          (.array values) = .ok result) ↔
      (∀ name ∈ names, name ∉ objectPrototypeNames) ∨
        ∀ result, (TupleCoder externals coders localName).encode writer
          (.array values) ≠ .ok result := by
  by_cases inherited : ∃ name ∈ names, name ∈ objectPrototypeNames
  · obtain ⟨problem, failed⟩ :=
      pack_of_inherited externals writer properties named inherited
    have refused : (TupleCoder externals coders localName).encode writer
        (.object properties) = .error problem := failed
    constructor
    · intro same
      refine .inr fun result encoded => ?_
      rw [← same result, refused] at encoded
      cases encoded
    · rintro (own | never) result
      · obtain ⟨name, member, inherits⟩ := inherited
        exact absurd inherits (own name member)
      · rw [refused]
        exact ⟨nofun, fun encoded => absurd encoded (never result)⟩
  · have own : ∀ name ∈ names, name ∉ objectPrototypeNames :=
      fun name member inherits => inherited ⟨name, member, inherits⟩
    have same := pack_of_own externals writer named distinct lengths keys own
    constructor
    · exact fun _ => .inl own
    · intro _ result
      change pack externals writer coders (.object properties) = .ok result ↔
        pack externals writer coders (.array values) = .ok result
      rw [same]

/-- `tuple(bool spent, bool valid)` -/
def spentAndValid : List Coder :=
  [BooleanCoder (some "spent"), BooleanCoder (some "valid")]

theorem encode_object_spent :
    ∃ result,
      (TupleCoder Externals.simple spentAndValid none).encode {}
          (.object [("valid", .boolean true), ("spent", .boolean false)]) =
            .ok result ∧
        (TupleCoder Externals.simple spentAndValid none).encode {}
          (.array [.boolean false, .boolean true]) = .ok result := by
  have named : NamedBy spentAndValid ["spent", "valid"] := by
    rw [NamedBy]
    decide
  have alike := (@encode_object_iff Externals.simple none {} spentAndValid
    ["spent", "valid"] [.boolean false, .boolean true]
    [("valid", .boolean true), ("spent", .boolean false)] named (by decide)
    rfl (.swap _ _ [])).mpr (.inl (by decide))
  exact ⟨_, (alike _).mpr rfl, rfl⟩

/-- A component named `constructor` counts as seen before it is. -/
theorem not_encode_object :
    ∃ result,
      (TupleCoder Externals.simple [BooleanCoder (some "constructor")]
          none).encode {} (.array [.boolean true]) = .ok result ∧
        (TupleCoder Externals.simple [BooleanCoder (some "constructor")]
          none).encode {} (.object [("constructor", .boolean true)]) =
            .error (Error.ofArgument
              "cannot encode object for signature with duplicate names"
              (some "values")) := by
  exact ⟨_, rfl, rfl⟩

end Web3Js.Abi
