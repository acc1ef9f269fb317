import Web3Js.Abi.Coders
import Web3Js.Lib.Outcome

/-!
# Named components

A result has a property for each name that one component alone has.  It leads
to the position of that component, unless objects or arrays inherit a member of
the name, or the name is one of `length` and `_length` and the other is one too.
-/

namespace Web3Js.Abi

/-- The names of the components that have one. -/
def componentNames (coders : List Coder) : List String :=
  coders.filterMap fun coder => givenName coder.localName

/-! ## Names without getters -/

/-- The position of an element, which may be one that a name has added. -/
def elementPosition (length : Nat) (named : List (String × Nat))
    (index : Nat) : Nat :=
  if index < length then index else (addedAt named index).getD index

/-- A step of `namedProperties`. -/
def nameStep (names : List String) (length : Nat)
    (named : List (String × Nat)) (component : Coder × Nat) :
    List (String × Nat) :=
  match givenName component.1.localName with
  | none => named
  | some name =>
      if names.count name ≠ 1 ∨
          hasProperty length named (propertyName name) then
        named
      else
        named ++
          [(propertyName name, elementPosition length named component.2)]

/-- The named properties of uniquely named coders.  A property holds the
element at its position, or throws that element's deferred error. -/
def namedProperties (coders : List Coder) (length : Nat) :
    List (String × Nat) :=
  coders.zipIdx.foldl (nameStep (componentNames coders) length) []

/-- The positions whose elements a step of the naming reads: that of a property
that is there already, and that of an index past the elements. -/
def stepReads (names : List String) (length : Nat)
    (named : List (String × Nat)) (component : Coder × Nat) : List Nat :=
  match givenName component.1.localName with
  | none => []
  | some name =>
      if names.count name ≠ 1 then []
      else
        (named.lookup (propertyName name)).toList ++
          if hasProperty length named (propertyName name) ∨
              component.2 < length then []
          else (addedAt named component.2).toList

/-- The positions whose elements the naming of the components reads, and last
those of the elements that names have added. -/
def propertyReads (names : List String) (length : Nat) :
    List (Coder × Nat) → List (String × Nat) → List Nat
  | [], named => (addedIndices length named).filterMap (addedAt named)
  | component :: components, named =>
      stepReads names length named component ++
        propertyReads names length components
          (nameStep names length named component)

/-- The positions whose elements the making of a result reads. -/
def resultReads (coders : List Coder) (length : Nat) : List Nat :=
  propertyReads (componentNames coders) length coders.zipIdx []

/-- A step throws the first error that it reads. -/
theorem nameComponent_eq (names : List String) (values : List Decoded)
    (named : List (String × Nat)) (component : Coder × Nat) :
    nameComponent names values named component =
      match (stepReads names values.length named component).findSome?
          (elementProblem values) with
      | some problem => .error problem
      | none => .ok (nameStep names values.length named component) := by
  rw [nameComponent, stepReads, nameStep]
  cases givenName component.1.localName with
  | none => rfl
  | some name =>
      dsimp only
      by_cases repeated : names.count name ≠ 1
      · rw [if_pos repeated, if_pos repeated, if_pos (.inl repeated)]
        rfl
      rw [if_neg repeated, if_neg repeated, List.findSome?_append,
        getterProblem]
      have looked : (named.lookup (propertyName name)).toList.findSome?
          (elementProblem values) =
            (named.lookup (propertyName name)).bind (elementProblem values) := by
        cases named.lookup (propertyName name) <;> simp
      rw [looked]
      cases (named.lookup (propertyName name)).bind
          (elementProblem values) with
      | some problem => rfl
      | none =>
          rw [Option.none_or]
          dsimp only
          by_cases present : hasProperty values.length named
              (propertyName name) = true
          · rw [if_pos present, if_pos (.inl present), if_pos (.inr present)]
            rfl
          rw [if_neg present, if_neg (not_or.mpr ⟨repeated, present⟩),
            readPosition, elementPosition]
          by_cases within : component.2 < values.length
          · rw [if_pos within, if_pos (.inr within), if_pos within]
            rfl
          rw [if_neg within, if_neg (not_or.mpr ⟨present, within⟩),
            if_neg within, addedProblem]
          cases addedAt named component.2 with
          | none => rfl
          | some position =>
              rw [Option.bind_some, Option.toList_some, List.findSome?_cons]
              cases elementProblem values position with
              | none => rfl
              | some problem => rfl

/-- A result is made of its elements and the properties of its names, unless
an element that is read is a deferred error. -/
theorem completeResult_eq (coders : List Coder) (values : List Decoded) :
    completeResult coders values =
      match (resultReads coders values.length).findSome?
          (elementProblem values) with
      | some problem => .error problem
      | none =>
          .ok (.result values (namedProperties coders values.length)) := by
  have run : ∀ (components : List (Coder × Nat)) named,
      (components.foldlM (nameComponent (componentNames coders) values)
          named >>= fun named => do
        readAdded values named
        pure (Decoded.result values named)) =
      match (propertyReads (componentNames coders) values.length components
          named).findSome? (elementProblem values) with
      | some problem => .error problem
      | none => .ok (.result values (components.foldl
          (nameStep (componentNames coders) values.length) named)) := by
    intro components
    induction components with
    | nil =>
        intro named
        have added : ((addedIndices values.length named).filterMap
            (addedAt named)).findSome? (elementProblem values) =
            (addedIndices values.length named).findSome?
              (addedProblem values named) := by
          rw [← List.head?_filterMap, List.filterMap_filterMap,
            List.head?_filterMap]
          rfl
        rw [List.foldlM_nil, Outcome.pure_eq_ok, Outcome.ok_bind, readAdded,
          propertyReads, added]
        cases (addedIndices values.length named).findSome?
            (addedProblem values named) with
        | none => rfl
        | some problem => rfl
    | cons component components induction =>
        intro named
        rw [List.foldlM_cons, nameComponent_eq, propertyReads,
          List.findSome?_append]
        cases (stepReads (componentNames coders) values.length named
            component).findSome? (elementProblem values) with
        | some problem => rfl
        | none => exact induction _
  exact run coders.zipIdx []

theorem Decoded.readable_of_plains {values : List Decoded}
    {plains : List Plain} (readable : Decoded.plains? values = some plains) :
    ∀ value ∈ values, ∀ problem baseType name type,
      value ≠ .failure problem baseType name type := by
  induction values generalizing plains with
  | nil => exact List.forall_mem_nil _
  | cons value values induction =>
      obtain ⟨plain, first, rest⟩ := Option.bind_eq_some_iff.mp readable
      obtain ⟨others, later, -⟩ := Option.bind_eq_some_iff.mp rest
      refine List.forall_mem_cons.mpr ⟨?_, induction later⟩
      intro problem baseType name type same
      rw [same] at first
      cases first

/-- A result is completed to its elements and properties where no element is a
deferred error. -/
theorem completeResult_of_readable (coders : List Coder)
    {values : List Decoded}
    (readable : ∀ value ∈ values, ∀ problem baseType name type,
      value ≠ .failure problem baseType name type) :
    completeResult coders values =
      .ok (.result values (namedProperties coders values.length)) := by
  have quiet : ∀ position, elementProblem values position = none := by
    intro position
    rw [elementProblem]
    split
    · rename_i given
      exact absurd rfl (readable _ (List.mem_of_getElem? given) _ _ _ _)
    · rfl
  rw [completeResult_eq,
    List.findSome?_eq_none_iff.mpr fun position _ => quiet position]

/-- A completed result has the properties of its names. -/
theorem completeResult_eq_ok {coders : List Coder} {values : List Decoded}
    {decoded : Decoded} (completed : completeResult coders values = .ok decoded) :
    decoded = .result values (namedProperties coders values.length) := by
  rw [completeResult_eq] at completed
  split at completed
  · cases completed
  · exact (Except.ok.inj completed).symm

/-! ## Access by name -/

/-- What the read of a property gives. -/
inductive Property where
  | value (decoded : Decoded)
  /-- The deferred error of an element. -/
  | thrown (problem : Error)
  /-- A member that objects or arrays inherit. -/
  | inherited
  | undefined

def readElement (elements : List Decoded) (index : Nat) : Property :=
  match elements[index]? with
  | some (.failure problem _ _ _) => .thrown problem
  | some decoded => .value decoded
  | none => .undefined

def isInherited (property : String) : Bool :=
  objectPrototypeNames.contains property ||
    arrayPrototypeNames.contains property

/-- The read of a property of a result: one of its own before one that it
inherits. -/
def readProperty (elements : List Decoded) (named : List (String × Nat))
    (property : String) : Property :=
  if property = "length" then
    .value (.number (arrayLength elements.length named))
  else
    match (arrayIndex property).filter (· < elements.length) with
    | some index => readElement elements index
    | none =>
        match named.lookup property with
        | some position => readElement elements position
        | none => if isInherited property then .inherited else .undefined

/-- The component has a name that no other one has. -/
def UniquelyNamed (coders : List Coder) (index : Nat) (name : String) :
    Prop :=
  ∃ coder, coders[index]? = some coder ∧
    givenName coder.localName = some name ∧
      (componentNames coders).count name = 1

/-- The properties lead to uniquely named components, and there is one for
each of those among the first ones. -/
structure NamedUpTo (coders : List Coder) (count : Nat)
    (named : List (String × Nat)) : Prop where
  sound : ∀ property position, (property, position) ∈ named →
    ∃ name, UniquelyNamed coders position name ∧ propertyName name = property
  complete : ∀ index < count, ∀ name, UniquelyNamed coders index name →
    isInherited (propertyName name) = false →
      ∃ first ≤ index, named.lookup (propertyName name) = some first
  bounded : ∀ property position, (property, position) ∈ named →
    position < count

theorem arrayIndex_propertyName {name : String}
    (identifier : arrayIndex name = none) :
    arrayIndex (propertyName name) = none := by
  rw [propertyName]
  split
  · decide
  · exact identifier

theorem mem_of_lookup {named : List (String × Nat)} {property : String}
    {position : Nat} (found : named.lookup property = some position) :
    (property, position) ∈ named := by
  obtain ⟨before, after, rfl, -⟩ := List.lookup_eq_some_iff.mp found
  exact List.mem_append_right before List.mem_cons_self

theorem exists_lookup {named : List (String × Nat)} {property : String}
    {position : Nat} (member : (property, position) ∈ named) :
    ∃ first, named.lookup property = some first :=
  Option.isSome_iff_exists.mp
    (List.lookup_isSome_iff.mpr ⟨_, member, beq_self_eq_true property⟩)

/-- Without names that are indices every element is at its own position. -/
theorem elementPosition_of_unindexed {named : List (String × Nat)}
    (unindexed : ∀ property ∈ named, arrayIndex property.1 = none)
    (length index : Nat) : elementPosition length named index = index := by
  have absent : addedAt named index = none := by
    rw [addedAt, Option.map_eq_none_iff, List.find?_eq_none]
    intro property member
    rw [unindexed property member]
    simp
  rw [elementPosition, absent]
  split
  · rfl
  · rfl

theorem NamedUpTo.unindexed {coders : List Coder} {count : Nat}
    {named : List (String × Nat)}
    (identifiers : ∀ name ∈ componentNames coders, arrayIndex name = none)
    (holds : NamedUpTo coders count named) :
    ∀ property ∈ named, arrayIndex property.1 = none := by
  intro ⟨property, position⟩ member
  obtain ⟨name, ⟨-, -, -, counted⟩, rfl⟩ := holds.sound property position member
  exact arrayIndex_propertyName (identifiers name
    (List.count_pos_iff.mp (by omega)))

/-- One component is named. -/
theorem NamedUpTo.step {coders before rest : List Coder} {coder : Coder}
    (whole : coders = before ++ coder :: rest)
    (identifiers : ∀ name ∈ componentNames coders, arrayIndex name = none)
    {named : List (String × Nat)}
    (holds : NamedUpTo coders before.length named) (length : Nat) :
    NamedUpTo coders (before.length + 1)
      (nameStep (componentNames coders) length named
        (coder, before.length)) := by
  have here : coders[before.length]? = some coder := by
    rw [whole]
    simp
  have kept : ∀ next : List (String × Nat), (∃ added, next = named ++ added) →
      ∀ index < before.length, ∀ name, UniquelyNamed coders index name →
        isInherited (propertyName name) = false →
          ∃ first ≤ index, next.lookup (propertyName name) = some first := by
    intro next ⟨added, extended⟩ index earlier name unique own
    obtain ⟨first, bounded, found⟩ :=
      holds.complete index earlier name unique own
    refine ⟨first, bounded, ?_⟩
    rw [extended, List.lookup_append, found, Option.some_or]
  have grown : ∀ property position, (property, position) ∈ named →
      position < before.length + 1 := fun property position member =>
    Nat.lt_succ_of_lt (holds.bounded property position member)
  rw [nameStep]
  cases given : givenName coder.localName with
  | none =>
      refine ⟨holds.sound, ?_, grown⟩
      intro index within name unique own
      rcases Nat.lt_succ_iff_lt_or_eq.mp within with earlier | rfl
      · exact kept named ⟨[], by simp⟩ index earlier name unique own
      · obtain ⟨found, atIndex, named, -⟩ := unique
        obtain rfl := Option.some.inj (here.symm.trans atIndex)
        rw [given] at named
        cases named
  | some name =>
      dsimp only
      have same : ∀ other, UniquelyNamed coders before.length other →
          other = name := by
        intro other ⟨found, atIndex, named, _⟩
        obtain rfl := Option.some.inj (here.symm.trans atIndex)
        exact Option.some.inj (named.symm.trans given)
      split
      · rename_i skipped
        refine ⟨holds.sound, ?_, grown⟩
        intro index within other unique own
        rcases Nat.lt_succ_iff_lt_or_eq.mp within with earlier | rfl
        · exact kept named ⟨[], by simp⟩ index earlier other unique own
        · obtain rfl := same other unique
          have counted : (componentNames coders).count other = 1 := by
            obtain ⟨-, -, -, counted⟩ := unique
            exact counted
          have member : other ∈ componentNames coders :=
            List.count_pos_iff.mp (by omega)
          have present := skipped.resolve_left (not_not.mpr counted)
          have unindexed :=
            arrayIndex_propertyName (identifiers other member)
          rw [isInherited, Bool.or_eq_false_iff] at own
          rw [hasProperty, unindexed, own.1, own.2, Option.any_none,
            Bool.false_or, Bool.false_or, Bool.false_or, List.any_eq_true]
            at present
          obtain ⟨⟨property, position⟩, inside, matched⟩ := present
          rw [Bool.and_eq_true] at matched
          obtain rfl := eq_of_beq matched.1
          obtain ⟨first, found⟩ := exists_lookup inside
          have before := holds.bounded _ _ (mem_of_lookup found)
          exact ⟨first, Nat.le_of_lt before, found⟩
      · rename_i added
        rw [elementPosition_of_unindexed (holds.unindexed identifiers)]
        obtain ⟨unique, absent⟩ := not_or.mp added
        have counted : (componentNames coders).count name = 1 :=
          not_not.mp unique
        refine ⟨?_, ?_, ?_⟩
        · intro property position member
          rcases List.mem_append.mp member with old | new
          · exact holds.sound property position old
          · obtain ⟨rfl, rfl⟩ := Prod.mk.inj (List.mem_singleton.mp new)
            exact ⟨name, ⟨coder, here, given, counted⟩, rfl⟩
        · intro index within other unique own
          rcases Nat.lt_succ_iff_lt_or_eq.mp within with earlier | rfl
          · exact kept _ ⟨_, rfl⟩ index earlier other unique own
          · obtain rfl := same other unique
            rw [List.lookup_append]
            cases found : named.lookup (propertyName other) with
            | some first =>
                have before := holds.bounded _ _ (mem_of_lookup found)
                exact ⟨first, Nat.le_of_lt before, rfl⟩
            | none => exact ⟨_, Nat.le_refl _, by simp⟩
        · intro property position member
          rcases List.mem_append.mp member with old | new
          · exact grown property position old
          · obtain ⟨-, rfl⟩ := Prod.mk.inj (List.mem_singleton.mp new)
            exact Nat.lt_succ_self _

theorem namedUpTo_namedProperties {coders : List Coder}
    (identifiers : ∀ name ∈ componentNames coders, arrayIndex name = none)
    (length : Nat) :
    NamedUpTo coders coders.length (namedProperties coders length) := by
  have run : ∀ (before rest : List Coder) (named : List (String × Nat)),
      coders = before ++ rest → NamedUpTo coders before.length named →
        NamedUpTo coders coders.length ((rest.zipIdx before.length).foldl
          (nameStep (componentNames coders) length) named) := by
    intro before rest
    induction rest generalizing before with
    | nil =>
        intro named whole holds
        rw [List.append_nil] at whole
        rw [← whole] at holds
        exact holds
    | cons coder rest induction =>
        intro named whole holds
        have next := induction (before ++ [coder]) _
          (by rw [whole, List.append_assoc]; rfl)
          (by
            rw [List.length_append]
            exact holds.step whole identifiers length)
        rw [List.length_append] at next
        exact next
  exact run [] coders [] rfl ⟨nofun, nofun, nofun⟩

/-- Every uniquely named component has its property, unless objects or arrays
inherit a member of that name or an earlier component has the property, and
there are no other properties. -/
theorem unpack_named {coders : List Coder} {reader moved : Reader}
    {decoded : Decoded}
    (identifiers : ∀ name ∈ componentNames coders, arrayIndex name = none)
    (unpacked : unpack coders reader = (.ok decoded, moved)) :
    ∃ elements named, decoded = .result elements named ∧
      (∀ index name, UniquelyNamed coders index name →
        isInherited (propertyName name) = false →
        (∀ earlier < index, ∀ other, UniquelyNamed coders earlier other →
          propertyName other ≠ propertyName name) →
        propertyName name ∈ named.map Prod.fst ∧
          readProperty elements named (propertyName name) =
            readElement elements index) ∧
      ∀ property ∈ named.map Prod.fst, ∃ index name,
        UniquelyNamed coders index name ∧ propertyName name = property := by
  rw [unpack] at unpacked
  split at unpacked
  · rename_i elements _ _
    obtain ⟨completed, -⟩ := Prod.mk.inj unpacked
    obtain rfl := completeResult_eq_ok completed
    have holds := namedUpTo_namedProperties identifiers elements.length
    refine ⟨elements, namedProperties coders elements.length, rfl, ?_, ?_⟩
    · intro index name unique own free
      have within : index < coders.length := by
        obtain ⟨coder, found, -⟩ := unique
        exact (List.getElem?_eq_some_iff.mp found).1
      obtain ⟨first, bounded, found⟩ :=
        holds.complete index within name unique own
      have member := mem_of_lookup found
      obtain ⟨other, otherUnique, same⟩ := holds.sound _ _ member
      have here : first = index := by
        rcases Nat.lt_or_eq_of_le bounded with earlier | here
        · exact absurd same (free first earlier other otherUnique)
        · exact here
      have inside : name ∈ componentNames coders := by
        obtain ⟨-, -, -, counted⟩ := unique
        exact List.count_pos_iff.mp (by omega)
      have uncounted : propertyName name ≠ "length" := by
        rw [propertyName]
        split
        · decide
        · assumption
      refine ⟨List.mem_map_of_mem member, ?_⟩
      rw [readProperty, if_neg uncounted,
        arrayIndex_propertyName (identifiers name inside), found, here]
      rfl
    · intro property member
      obtain ⟨⟨key, position⟩, inside, rfl⟩ := List.mem_map.mp member
      obtain ⟨name, unique, same⟩ := holds.sound key position inside
      exact ⟨position, name, unique, same⟩
  · cases (Prod.mk.inj unpacked).1

/-! ## Names that are indices -/

/-- No name that one component alone has is an index past the components. -/
def Unlengthened (names : List (Option String)) : Prop :=
  ∀ name ∈ names.filterMap givenName,
    (names.filterMap givenName).count name = 1 →
      ∀ index ∈ arrayIndex name, index < names.length

instance (names : List (Option String)) : Decidable (Unlengthened names) :=
  inferInstanceAs (Decidable (∀ name ∈ names.filterMap givenName,
    (names.filterMap givenName).count name = 1 →
      ∀ index ∈ arrayIndex name, index < names.length))

theorem Unlengthened.of_unindexed {names : List (Option String)}
    (unindexed : ∀ name ∈ names.filterMap givenName, arrayIndex name = none) :
    Unlengthened names := by
  intro name member _ index isIndex
  rw [unindexed name member] at isIndex
  cases isIndex

theorem filterMap_localNames (coders : List Coder) :
    (coders.map (·.localName)).filterMap givenName = componentNames coders :=
  List.filterMap_map

/-- Such names set no property at an index. -/
theorem namedProperties_unindexed {coders : List Coder}
    (unlengthened : Unlengthened (coders.map (·.localName))) :
    ∀ property ∈ namedProperties coders coders.length,
      arrayIndex property.1 = none := by
  rw [Unlengthened, filterMap_localNames, List.length_map] at unlengthened
  rw [namedProperties]
  refine List.foldlRecOn
    (motive := fun named : List (String × Nat) =>
      ∀ property ∈ named, arrayIndex property.1 = none) _ _ nofun ?_
  intro named unindexed component member
  rw [nameStep]
  cases given : givenName component.1.localName with
  | none => exact unindexed
  | some name =>
      dsimp only
      split
      · exact unindexed
      · rename_i added
        obtain ⟨unique, absent⟩ := not_or.mp added
        intro property isProperty
        rcases List.mem_append.mp isProperty with old | new
        · exact unindexed property old
        · rw [List.mem_singleton.mp new]
          cases isIndex : arrayIndex name with
          | none => exact arrayIndex_propertyName isIndex
          | some index =>
              have own : propertyName name = name := by
                apply if_neg
                rintro rfl
                have unindexed : arrayIndex "length" = none := by decide
                rw [unindexed] at isIndex
                cases isIndex
              have inside : name ∈ componentNames coders :=
                List.mem_filterMap.mpr ⟨component.1,
                  List.fst_mem_of_mem_zipIdx member, given⟩
              have within := unlengthened name inside (not_not.mp unique)
                index isIndex
              apply absurd _ absent
              rw [own, hasProperty, isIndex, Option.any_some,
                decide_eq_true within]
              rfl

/-- Two false flags. -/
def falseFlags : Reader where
  data := List.replicate (2 * wordSize) 0
  coerceFunc := none
  allowLoose := false

/-- `tuple(bool ready, bool length)` -/
def readyAndLength : List Coder :=
  [BooleanCoder (some "ready"), BooleanCoder (some "length")]

/-- The properties of a result that is returned. -/
def resultNames : Except Error Decoded → Option (List (String × Nat))
  | .ok (.result _ named) => some named
  | _ => none

theorem unpack_of_resultNames {coders : List Coder} {reader : Reader}
    {named : List (String × Nat)}
    (given : resultNames (unpack coders reader).1 = some named) :
    ∃ elements moved,
      unpack coders reader = (.ok (.result elements named), moved) := by
  cases ran : unpack coders reader with
  | mk outcome moved =>
      rw [ran] at given
      unfold resultNames at given
      split at given
      · rename_i elements _ done
        obtain rfl := Option.some.inj given
        exact ⟨elements, moved, congrArg (·, moved) done⟩
      · cases given

theorem unpack_named_ready :
    ∃ elements named moved,
      unpack readyAndLength falseFlags =
          (.ok (.result elements named), moved) ∧
        "_length" ∈ named.map Prod.fst ∧
          readProperty elements named "_length" = readElement elements 1 := by
  have names : resultNames (unpack readyAndLength falseFlags).1 =
      some [("ready", 0), ("_length", 1)] := by
    decide +kernel
  obtain ⟨values, moved, unpacked⟩ := unpack_of_resultNames names
  obtain ⟨elements, named, same, accessed, -⟩ := unpack_named (by decide)
    unpacked
  have unique : UniquelyNamed readyAndLength 1 "length" :=
    ⟨_, rfl, by decide, by decide⟩
  have free : ∀ earlier < 1, ∀ other,
      UniquelyNamed readyAndLength earlier other →
        propertyName other ≠ propertyName "length" := by
    intro earlier first other ⟨coder, found, given, _⟩
    obtain rfl : earlier = 0 := by omega
    obtain rfl : BooleanCoder (some "ready") = coder := Option.some.inj found
    obtain rfl : "ready" = other := Option.some.inj given
    decide
  obtain ⟨member, read⟩ := accessed 1 "length" unique (by decide) free
  obtain ⟨rfl, rfl⟩ := Decoded.result.inj same
  exact ⟨_, _, _, unpacked, member, read⟩

/-- Arrays inherit a member `keys`, which a component of this name does not
replace. -/
theorem not_unpack_named :
    ∃ elements named moved,
      unpack [BooleanCoder (some "keys")] falseFlags =
          (.ok (.result elements named), moved) ∧
        UniquelyNamed [BooleanCoder (some "keys")] 0 "keys" ∧
          readProperty elements named (propertyName "keys") ≠
            readElement elements 0 := by
  have names : resultNames
      (unpack [BooleanCoder (some "keys")] falseFlags).1 = some [] := by
    decide +kernel
  obtain ⟨elements, moved, unpacked⟩ := unpack_of_resultNames names
  refine ⟨elements, [], moved, unpacked, ⟨_, rfl, by decide, by decide⟩, ?_⟩
  have inherits : readProperty elements [] (propertyName "keys") =
      .inherited := rfl
  rw [inherits, readElement]
  split
  · rintro ⟨⟩
  · rintro ⟨⟩
  · rintro ⟨⟩

end Web3Js.Abi
