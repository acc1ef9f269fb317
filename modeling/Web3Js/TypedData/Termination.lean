import Web3Js.TypedData.Message
import Web3Js.Lib.Acyclic

/-!
# Where the dependencies of a type end

The list of the types that were found is not handed on to the nested calls, so
a type that leads back to itself is followed forever.  A call ends just where
no such type is reached; the fields after one that is refused are never looked
at.
-/

namespace Web3Js.TypedData

open Abi (Error Value)
open Fragments (Text)
open Fueled (Below Steady Halts)
open Relation (ReflTransGen TransGen)

section Steadiness

variable (types : TypesTable)

theorem below_getDependencies (fuel : Nat) (type : Text)
    (dependencies : List Text) :
    Below (getDependencies types fuel type dependencies)
      (getDependencies types (fuel + 1) type dependencies) := by
  induction fuel generalizing type dependencies with
  | zero => exact .inl rfl
  | succ fuel inductionHypothesis =>
      rw [getDependencies, getDependencies]
      split
      · exact .refl _
      split
      · exact .refl _
      split
      · exact .refl _
      · exact .refl _
      · refine Below.bind (Below.foldlM ?_ _ _) fun _ => .refl _
        intro previous field
        exact (inductionHypothesis field.type previous).bind fun _ => .refl _

theorem steady_getDependencies (type : Text) (dependencies : List Text) :
    Steady (getDependencies types · type dependencies) :=
  fun fuel => below_getDependencies types fuel type dependencies

end Steadiness

/-! ## The types that a type leads to -/

section Graph

variable (types : TypesTable)

/-- A name that is no word, or of a property that every object has. -/
def Unreadable (name : Text) : Prop :=
  name = [] ∨ types.entry name = .inherited

/-- The struct has a field of this type, up to what follows its name. -/
def Refers (name other : Text) : Prop :=
  name ≠ [] ∧ ∃ fields, types.entry name = .fields fields ∧
    ∃ field ∈ fields, typeName field.type = other

/-- A name that cannot be read is among the types that it depends on. -/
def Refused (name : Text) : Prop :=
  ∃ other, ReflTransGen (Refers types) name other ∧ Unreadable types other

/-- The struct has a field of this type, and no field before it is refused. -/
def Leads (name other : Text) : Prop :=
  name ≠ [] ∧ ∃ before field after,
    types.entry name = .fields (before ++ field :: after) ∧
      typeName field.type = other ∧
      ∀ earlier ∈ before, ¬ Refused types (typeName earlier.type)

/-- Every way on from the name ends, and none is refused. -/
def Settled (name : Text) : Prop :=
  Acc (flip (Leads types)) name ∧ ¬ Refused types name

variable {types}

theorem refused_of_refers {name other : Text}
    (refers : Refers types name other) (refused : Refused types other) :
    Refused types name := by
  obtain ⟨last, reached, unreadable⟩ := refused
  exact ⟨last, .head refers reached, unreadable⟩

theorem not_leads_of_entry {name : Text}
    (noFields : ∀ fields, types.entry name ≠ .fields fields) (other : Text) :
    ¬ Leads types name other :=
  fun ⟨_, _, _, _, entry, _⟩ => noFields _ entry

theorem acc_of_not_leads {name : Text}
    (alone : ∀ other, ¬ Leads types name other) :
    Acc (flip (Leads types)) name :=
  ⟨_, fun other leads => absurd leads (alone other)⟩

theorem settled_of_missing {name : Text} (nonempty : name ≠ [])
    (missing : types.entry name = .missing) : Settled types name := by
  have noFields : ∀ fields, types.entry name ≠ .fields fields := by
    intro fields entry
    rw [missing] at entry
    cases entry
  refine ⟨acc_of_not_leads (not_leads_of_entry noFields), ?_⟩
  rintro ⟨other, reached, unreadable⟩
  rcases reached.cases_head with rfl | ⟨next, ⟨_, fields, entry, _⟩, _⟩
  · rcases unreadable with empty | inherited
    · exact nonempty empty
    · rw [missing] at inherited
      cases inherited
  · exact noFields fields entry

theorem settled_of_fields {name : Text} (nonempty : name ≠ [])
    {fields : List Field} (entry : types.entry name = .fields fields)
    (settled : ∀ field ∈ fields, Settled types (typeName field.type)) :
    Settled types name := by
  constructor
  · constructor
    rintro other ⟨_, before, field, after, entry', rfl, _⟩
    rw [entry] at entry'
    cases entry'
    exact (settled field (by simp)).1
  · rintro ⟨last, reached, unreadable⟩
    rcases reached.cases_head with
      rfl | ⟨next, ⟨_, fields', entry', field, member, rfl⟩, rest⟩
    · rcases unreadable with empty | inherited
      · exact nonempty empty
      · rw [entry] at inherited
        cases inherited
    · rw [entry] at entry'
      cases entry'
      exact (settled field member).2 ⟨last, rest, unreadable⟩

/-- Behind the first field that is refused, no field is looked at. -/
theorem acc_of_refused {name : Text} {before after : List Field}
    {field : Field}
    (entry : types.entry name = .fields (before ++ field :: after))
    (settled : ∀ earlier ∈ before, Settled types (typeName earlier.type))
    (stops : Acc (flip (Leads types)) (typeName field.type))
    (refused : Refused types (typeName field.type)) :
    Acc (flip (Leads types)) name := by
  constructor
  rintro other ⟨_, before', field', after', entry', rfl, unrefused⟩
  rw [entry] at entry'
  injection entry' with same
  rcases List.append_eq_append_iff.mp same with
    ⟨more, rfl, rest⟩ | ⟨more, rfl, rest⟩
  · cases more with
    | nil =>
        cases rest
        exact stops
    | cons first more =>
        cases rest
        exact absurd refused (unrefused field (by simp))
  · cases more with
    | nil =>
        cases rest
        exact stops
    | cons first more =>
        cases rest
        exact (settled field' (by simp)).1

/-- One field of a struct: what the call on its type adds. -/
def findField (types : TypesTable) (fuel : Nat) (previous : List Text)
    (field : Field) : Computation (List Text) := do
  let found ← getDependencies types fuel field.type previous
  pure (previous ++
    found.filter fun dependency => !previous.contains dependency)

/-- What a call does, by the entry of the type's name. -/
theorem getDependencies_cases (types : TypesTable) (type : Text)
    (dependencies : List Text) :
    (Unreadable types (typeName type) ∧ ∃ problem, ∀ fuel,
      getDependencies types (fuel + 1) type dependencies =
        some (.error problem)) ∨
    (typeName type ≠ [] ∧ (typeName type ∈ dependencies ∨
        types.entry (typeName type) = .missing) ∧ ∀ fuel,
      getDependencies types (fuel + 1) type dependencies =
        some (.ok dependencies)) ∨
    (typeName type ≠ [] ∧ typeName type ∉ dependencies ∧
      ∃ fields, types.entry (typeName type) = .fields fields ∧ ∀ fuel,
        getDependencies types (fuel + 1) type dependencies =
          (fields.foldlM (findField types fuel) [] >>= fun reached =>
            pure (typeName type :: reached))) := by
  by_cases empty : typeName type = []
  · refine .inl ⟨.inl empty,
      typeError "Cannot read properties of null (reading '0')",
      fun fuel => ?_⟩
    rw [getDependencies, if_pos empty]
    rfl
  by_cases known : typeName type ∈ dependencies
  · refine .inr (.inl ⟨empty, .inl known, fun fuel => ?_⟩)
    rw [getDependencies, if_neg empty,
      if_pos (List.contains_iff_mem.mpr known)]
    rfl
  have unlisted : ¬ dependencies.contains (typeName type) = true :=
    fun member => known (List.contains_iff_mem.mp member)
  cases entry : types.entry (typeName type) with
  | missing =>
      refine .inr (.inl ⟨empty, .inr rfl, fun fuel => ?_⟩)
      rw [getDependencies, if_neg empty, if_neg unlisted, entry]
      rfl
  | inherited =>
      refine .inl ⟨.inr entry, typeError "reduce is not a function",
        fun fuel => ?_⟩
      rw [getDependencies, if_neg empty, if_neg unlisted, entry]
      rfl
  | fields fields =>
      refine .inr (.inr ⟨empty, known, fields, rfl, fun fuel => ?_⟩)
      rw [getDependencies, if_neg empty, if_neg unlisted, entry]
      rfl

theorem findField_eq_ok {fuel : Nat} {previous next : List Text}
    {field : Field}
    (found : findField types fuel previous field = some (.ok next)) :
    ∃ names, getDependencies types fuel field.type previous =
        some (.ok names) ∧
      next = previous ++
        names.filter fun dependency => !previous.contains dependency := by
  unfold findField at found
  match called : getDependencies types fuel field.type previous with
  | none =>
      rw [called] at found
      cases found
  | some (.error problem) =>
      rw [called] at found
      cases found
  | some (.ok names) =>
      rw [called] at found
      cases found
      exact ⟨names, rfl, rfl⟩

theorem findField_eq_error {fuel : Nat} {previous : List Text}
    {field : Field} {problem : Error}
    (failed : findField types fuel previous field = some (.error problem)) :
    getDependencies types fuel field.type previous =
      some (.error problem) := by
  unfold findField at failed
  match called : getDependencies types fuel field.type previous with
  | none =>
      rw [called] at failed
      cases failed
  | some (.error other) =>
      rw [called] at failed
      cases failed
      rfl
  | some (.ok names) =>
      rw [called] at failed
      cases failed

theorem acc_of_unreadable {name : Text} (unreadable : Unreadable types name) :
    Acc (flip (Leads types)) name := by
  refine acc_of_not_leads fun other leads => ?_
  rcases unreadable with empty | inherited
  · exact leads.1 empty
  · refine not_leads_of_entry (fun fields entry => ?_) other leads
    rw [inherited] at entry
    cases entry

/-- Of the fields before, every type is settled, and so is all that is
found. -/
def FoundSettled (types : TypesTable) (before : List Field)
    (previous : List Text) : Prop :=
  (∀ field ∈ before, Settled types (typeName field.type)) ∧
    ∀ name ∈ previous, Settled types name

theorem FoundSettled.snoc {fuel : Nat} {before : List Field}
    {field : Field} {previous next : List Text}
    (earlier : FoundSettled types before previous)
    (found : findField types fuel previous field = some (.ok next))
    (called : ∀ names, getDependencies types fuel field.type previous =
        some (.ok names) →
      Settled types (typeName field.type) ∧
        ∀ name ∈ names, Settled types name) :
    FoundSettled types (before ++ [field]) next := by
  obtain ⟨names, returned, rfl⟩ := findField_eq_ok found
  obtain ⟨settled, namesSettled⟩ := called names returned
  refine ⟨fun other member => ?_, fun name member => ?_⟩
  · rcases List.mem_append.mp member with member | member
    · exact earlier.1 other member
    · rw [List.mem_singleton.mp member]
      exact settled
  · rcases List.mem_append.mp member with member | member
    · exact earlier.2 name member
    · exact namesSettled name (List.mem_filter.mp member).1

/-- A call that returns has only settled types in its list, and one that is
refused reaches a name that cannot be read. -/
theorem settled_of_getDependencies (fuel : Nat) (type : Text)
    (dependencies : List Text)
    (known : ∀ name ∈ dependencies, Settled types name) :
    (∀ found, getDependencies types fuel type dependencies =
        some (.ok found) →
      Settled types (typeName type) ∧ ∀ name ∈ found, Settled types name) ∧
    (∀ problem, getDependencies types fuel type dependencies =
        some (.error problem) →
      Acc (flip (Leads types)) (typeName type) ∧
        Refused types (typeName type)) := by
  induction fuel generalizing type dependencies with
  | zero => exact ⟨nofun, nofun⟩
  | succ fuel inductionHypothesis =>
      rcases getDependencies_cases types type dependencies with
        ⟨unreadable, problem, refused⟩ | ⟨nonempty, listed, same⟩ |
        ⟨nonempty, notListed, fields, entry, unfolded⟩
      · rw [refused fuel]
        exact ⟨nofun, fun _ _ => ⟨acc_of_unreadable unreadable,
          typeName type, .refl, unreadable⟩⟩
      · rw [same fuel]
        refine ⟨?_, nofun⟩
        rintro found ⟨⟩
        refine ⟨?_, known⟩
        rcases listed with member | missing
        · exact known _ member
        · exact settled_of_missing nonempty missing
      · have start : FoundSettled types [] [] := ⟨nofun, nofun⟩
        have kept : ∀ before field after previous next,
            [] ++ fields = before ++ field :: after →
            FoundSettled types before previous →
            findField types fuel previous field = some (.ok next) →
            FoundSettled types (before ++ [field]) next := by
          intro before field after previous next _ earlier found
          exact earlier.snoc found fun names called =>
            (inductionHypothesis field.type previous earlier.2).1 names called
        rw [unfolded fuel]
        match folded : fields.foldlM (findField types fuel) [] with
        | none => exact ⟨nofun, nofun⟩
        | some (.ok reached) =>
            refine ⟨?_, nofun⟩
            rintro found ⟨⟩
            obtain ⟨each, listed⟩ :=
              Fueled.foldlM_invariant folded start kept
            have settled := settled_of_fields nonempty entry each
            refine ⟨settled, fun name member => ?_⟩
            rcases List.mem_cons.mp member with rfl | member
            · exact settled
            · exact listed name member
        | some (.error problem) =>
            refine ⟨nofun, ?_⟩
            rintro _ ⟨⟩
            obtain ⟨before, field, after, previous, split, ⟨earlier, listed⟩,
              failed⟩ := Fueled.foldlM_error folded start kept
            obtain ⟨stops, refused⟩ :=
              (inductionHypothesis field.type previous listed).2 problem
                (findField_eq_error failed)
            rw [List.nil_append] at split
            rw [split] at entry
            exact ⟨acc_of_refused entry earlier stops refused,
              refused_of_refers ⟨nonempty, _, entry, field, by simp, rfl⟩
                refused⟩

theorem steady_findField (previous : List Text) (field : Field) :
    Steady (findField types · previous field) :=
  fun fuel => (below_getDependencies types fuel field.type previous).bind
    fun _ => .refl _

/-- A call halts when every way on from its type ends. -/
theorem halts_of_acc {name : Text} (ends : Acc (flip (Leads types)) name) :
    ∀ type, typeName type = name → ∀ dependencies,
      (∀ known ∈ dependencies, Settled types known) →
      Halts (getDependencies types · type dependencies) := by
  induction ends with
  | intro name _ inductionHypothesis =>
      rintro type rfl dependencies known
      rcases getDependencies_cases types type dependencies with
        ⟨_, problem, refused⟩ | ⟨_, _, same⟩ |
        ⟨nonempty, _, fields, entry, unfolded⟩
      · exact ⟨1, _, refused 0⟩
      · exact ⟨1, _, same 0⟩
      refine Halts.of_succ unfolded ?_
      refine Halts.bind
        (fun fuel => Below.foldlM (fun previous field =>
          steady_findField previous field fuel) _ _)
        (fun _ _ => .refl _) ?_ (fun _ _ _ => ⟨0, _, rfl⟩)
      have start : FoundSettled types [] [] := ⟨nofun, nofun⟩
      refine Halts.foldlM steady_findField start ?_ ?_
      · intro before field after previous split earlier
        rw [List.nil_append] at split
        rw [split] at entry
        refine Halts.bind (steady_getDependencies types _ _)
          (fun _ _ => .refl _) ?_ (fun _ _ _ => ⟨0, _, rfl⟩)
        refine inductionHypothesis (typeName field.type)
          ⟨nonempty, before, field, after, entry, rfl, ?_⟩ _ rfl _ earlier.2
        exact fun other member => (earlier.1 other member).2
      · intro before field after previous fuel next _ earlier found
        exact earlier.snoc found fun names called =>
          (settled_of_getDependencies fuel field.type previous earlier.2).1
            names called

/-- A call that does not run on forever ends on every way on. -/
theorem acc_of_halts {type : Text}
    (halts : Halts (getDependencies types · type [])) :
    Acc (flip (Leads types)) (typeName type) := by
  obtain ⟨fuel, result, done⟩ := halts
  have settled := @settled_of_getDependencies types fuel type [] nofun
  cases result with
  | ok found => exact (settled.1 found done).1.1
  | error problem => exact (settled.2 problem done).1

end Graph

/-! ## Messages -/

section Messages

variable (runtime : Runtime) (types : TypesTable)

theorem steady_lift {α : Type} (outcome : Except Error α) :
    Steady fun _ => lift outcome :=
  fun _ => .refl _

theorem halts_lift {α : Type} (outcome : Except Error α) :
    Halts fun _ => lift outcome :=
  ⟨0, outcome, rfl⟩

theorem halts_lift_bind {α β : Type} (outcome : Except Error α)
    {next : α → Computation β} (halts : ∀ value, Halts fun _ => next value) :
    Halts fun _ => lift outcome >>= next := by
  cases outcome with
  | error problem => exact ⟨0, .error problem, rfl⟩
  | ok value => exact halts value

theorem steady_encodeType (type : Text) : Steady (encodeType types · type) :=
  (steady_getDependencies types type []).bind fun _ => steady_lift _

theorem steady_getTypeHash (type : Text) :
    Steady (getTypeHash runtime types · type) :=
  (steady_encodeType types type).bind fun _ => steady_lift _

variable {types} in
theorem halts_encodeType {type : Text}
    (halts : Halts (getDependencies types · type [])) :
    Halts (encodeType types · type) :=
  halts.bind (steady_getDependencies types type []) (fun _ => steady_lift _)
    fun _ _ _ => halts_lift _

variable {types} in
theorem halts_getTypeHash {type : Text}
    (halts : Halts (getDependencies types · type [])) :
    Halts (getTypeHash runtime types · type) :=
  (halts_encodeType halts).bind (steady_encodeType types type)
    (fun _ => steady_lift _) fun _ _ _ => halts_lift _

/-- The encoding of one field of a struct. -/
def encodeField (fuel : Nat) (data : Value) (encoded : List (Text × Value))
    (field : Field) : Computation (List (Text × Value)) := do
  let value ← lift (property runtime data field.name)
  if isNullish value then
    throw (typeError "Cannot encode data: missing data")
  else do
    let item ← encodeValue runtime types fuel field.type value
    pure (encoded ++ [item])

theorem encodeData_fields {type : Text} {fields : List Field}
    (entry : types.entry type = .fields fields) (fuel : Nat) (data : Value) :
    encodeData runtime types (fuel + 1) type data =
      (do
        let typeHash ← getTypeHash runtime types fuel type
        let encoded ← fields.foldlM (encodeField runtime types fuel data)
          [("bytes32".toList, .string typeHash)]
        lift (encodeAs runtime
          (encoded.map Prod.fst) (encoded.map Prod.snd))) := by
  rw [encodeData, entry]
  rfl

theorem below_encode (fuel : Nat) :
    (∀ type data, Below (encodeValue runtime types fuel type data)
      (encodeValue runtime types (fuel + 1) type data)) ∧
    (∀ type data, Below (encodeData runtime types fuel type data)
      (encodeData runtime types (fuel + 1) type data)) := by
  induction fuel with
  | zero => exact ⟨fun _ _ => .inl rfl, fun _ _ => .inl rfl⟩
  | succ fuel inductionHypothesis =>
      obtain ⟨values, structs⟩ := inductionHypothesis
      constructor
      · intro type data
        rw [encodeValue, encodeValue]
        cases arrayType type with
        | some suffix =>
            cases data with
            | array items =>
                simp only
                split
                · exact (Below.mapM (values suffix.1) items).bind
                    fun _ => .refl _
                · exact .refl _
            | _ => exact .refl _
        | none =>
            cases types.entry type with
            | missing => exact .refl _
            | inherited => exact (structs type data).bind fun _ => .refl _
            | fields fields => exact (structs type data).bind fun _ => .refl _
      · intro type data
        cases entry : types.entry type with
        | missing =>
            rw [encodeData, encodeData, entry]
            exact .refl _
        | inherited =>
            rw [encodeData, encodeData, entry]
            exact .refl _
        | fields fields =>
            rw [encodeData_fields runtime types entry,
              encodeData_fields runtime types entry]
            refine (steady_getTypeHash runtime types type fuel).bind
              fun typeHash => Below.bind (Below.foldlM ?_ _ _) fun _ => .refl _
            intro encoded field
            refine Below.bind (.refl _) fun value => ?_
            split
            · exact .refl _
            · exact (values field.type value).bind fun _ => .refl _

theorem steady_encodeValue (type : Text) (data : Value) :
    Steady (encodeValue runtime types · type data) :=
  fun fuel => (below_encode runtime types fuel).1 type data

theorem steady_encodeData (type : Text) (data : Value) :
    Steady (encodeData runtime types · type data) :=
  fun fuel => (below_encode runtime types fuel).2 type data

/-- The field of a struct value that its type names. -/
def Member (type : Text) (data : Value) (field : Field) (value : Value) :
    Prop :=
  ∃ fields, types.entry type = .fields fields ∧ field ∈ fields ∧
    property runtime data field.name = .ok value

/-- The parts of a value of a type. -/
inductive Part : Text × Value → Text × Value → Prop where
  | item {type element digits : Text} {items : List Value} {item : Value}
      (array : arrayType type = some (element, digits))
      (member : item ∈ items) :
      Part (type, .array items) (element, item)
  | member {type : Text} {data : Value} {field : Field} {value : Value}
      (struct : arrayType type = none)
      (member : Member runtime types type data field value) :
      Part (type, data) (field.type, value)

/-- The parts of the parts of a struct come to an end. -/
def FiniteData (type : Text) (data : Value) : Prop :=
  ∀ field value, Member runtime types type data field value →
    Acc (flip (Part runtime types)) (field.type, value)

variable {types}

theorem halts_encodeData {type : Text} {data : Value}
    (dependencies : Halts (getDependencies types · type []))
    (parts : ∀ field value, Member runtime types type data field value →
      Halts (encodeValue runtime types · field.type value)) :
    Halts (encodeData runtime types · type data) := by
  cases entry : types.entry type with
  | missing =>
      refine ⟨0 + 1, .error (typeError "Cannot read properties of undefined"),
        ?_⟩
      change encodeData runtime types (0 + 1) type data = _
      rw [encodeData, entry]
      rfl
  | inherited =>
      refine ⟨0 + 1, .error (typeError "reduce is not a function"), ?_⟩
      change encodeData runtime types (0 + 1) type data = _
      rw [encodeData, entry]
      rfl
  | fields fields =>
      refine Halts.of_succ
        (fun fuel => encodeData_fields runtime types entry fuel data) ?_
      have steady : ∀ encoded field,
          Steady (encodeField runtime types · data encoded field) := by
        intro encoded field
        refine (steady_lift _).bind fun value => ?_
        intro fuel
        split
        · exact .refl _
        · exact (steady_encodeValue runtime types _ _ fuel).bind
            fun _ => .refl _
      refine (halts_getTypeHash runtime dependencies).bind
        (steady_getTypeHash runtime types type)
        (fun typeHash => (Steady.foldlM steady fields _).bind
          fun _ => steady_lift _) ?_
      intro _ typeHash _
      refine Halts.bind (Steady.foldlM steady fields _)
        (fun _ => steady_lift _) ?_ fun _ _ _ => halts_lift _
      refine Halts.foldlM_of_forall steady (fun field member encoded => ?_) _
      cases read : property runtime data field.name with
      | error problem =>
          refine ⟨0, .error problem, ?_⟩
          change encodeField runtime types 0 data encoded field = _
          rw [encodeField, read]
          rfl
      | ok value =>
          refine Halts.bind (steady_lift _) ?_ (halts_lift _) ?_
          · intro value fuel
            split
            · exact .refl _
            · exact (steady_encodeValue runtime types _ _ fuel).bind
                fun _ => .refl _
          rintro _ other same
          rw [read] at same
          cases same
          split
          · exact ⟨0, _, rfl⟩
          · exact (parts field value ⟨fields, entry, member, read⟩).bind
              (steady_encodeValue runtime types _ _) (fun _ _ => .refl _)
              fun _ _ _ => ⟨0, _, rfl⟩

/-- A value is encoded in the end when its parts come to an end. -/
theorem halts_encodeValue
    (dependencies : ∀ type, Halts (getDependencies types · type []))
    {part : Text × Value} (finite : Acc (flip (Part runtime types)) part) :
    Halts (encodeValue runtime types · part.1 part.2) := by
  induction finite with
  | intro part _ inductionHypothesis =>
      obtain ⟨type, data⟩ := part
      refine Halts.of_succ (fun fuel => by rw [encodeValue]) ?_
      cases array : arrayType type with
      | some suffix =>
          obtain ⟨element, digits⟩ := suffix
          cases data with
          | array items =>
              simp only
              split
              · refine Halts.bind
                  (Steady.mapM (steady_encodeValue runtime types element)
                    items)
                  (fun _ _ => .refl _)
                  (Halts.mapM (steady_encodeValue runtime types element)
                    fun item member =>
                      inductionHypothesis (element, item) (.item array member))
                  fun _ encoded _ => ?_
                exact halts_lift_bind _ fun text => halts_lift_bind _
                  fun hash => ⟨0, _, rfl⟩
              · exact ⟨0, _, rfl⟩
          | _ => exact ⟨0, _, rfl⟩
      | none =>
          have struct : Halts (encodeData runtime types · type data) :=
            halts_encodeData runtime (dependencies type) fun field value member =>
              inductionHypothesis (field.type, value) (.member array member)
          have hashed := struct.bind (steady_encodeData runtime types type data)
            (fun text fuel => .refl (lift (keccak256 runtime (.string text)) >>=
              fun hash => pure ("bytes32".toList, Value.string hash)))
            fun _ text _ => halts_lift_bind _ fun hash => ⟨0, _, rfl⟩
          cases types.entry type with
          | missing =>
              simp only
              split
              · exact halts_lift_bind _ fun bytes => halts_lift_bind _
                  fun hash => ⟨0, _, rfl⟩
              split
              · exact halts_lift_bind _ fun hash => ⟨0, _, rfl⟩
              · exact ⟨0, _, rfl⟩
          | inherited => exact hashed
          | fields fields => exact hashed

theorem halts_getStructHash
    (dependencies : ∀ type, Halts (getDependencies types · type []))
    {type : Text} {data : Value} (finite : FiniteData runtime types type data) :
    Halts (getStructHash runtime types · type data) :=
  (halts_encodeData runtime (dependencies type) fun field value member =>
    halts_encodeValue runtime dependencies (finite field value member)).bind
    (steady_encodeData runtime types type data) (fun _ => steady_lift _)
    fun _ _ _ => halts_lift _

/-- The domain and the message of a document are finite. -/
def Document.Finite (typedData : Document) : Prop :=
  FiniteData runtime typedData.types domainType typedData.domain ∧
    FiniteData runtime typedData.types typedData.primaryType typedData.message

theorem halts_getMessage {typedData : Document} (hash : Bool)
    (dependencies : ∀ type, Halts (getDependencies typedData.types · type []))
    (finite : typedData.Finite runtime) :
    Halts (getMessage runtime · typedData hash) := by
  have steady : ∀ type data,
      Steady (getStructHash runtime typedData.types · type data) :=
    fun type data => (steady_encodeData runtime _ type data).bind
      fun _ => steady_lift _
  have last : ∀ domain struct, Steady fun _ : Nat =>
      (if hash then
        lift (keccak256 runtime (.string
          ("0x1901" ++ withoutPrefix domain ++ withoutPrefix struct)))
      else pure ("0x1901" ++ withoutPrefix domain ++ withoutPrefix struct)) :=
    fun _ _ _ => .refl _
  refine (halts_getStructHash runtime dependencies finite.1).bind
    (steady _ _) (fun domain => (steady _ _).bind (last domain)) ?_
  intro _ domain _
  refine (halts_getStructHash runtime dependencies finite.2).bind
    (steady _ _) (last domain) ?_
  intro _ struct _
  cases hash with
  | true => exact halts_lift _
  | false => exact ⟨0, _, rfl⟩

end Messages

/-! ## Tables -/

section Tables

variable {types : TypesTable}

theorem mem_of_lookup {name : Text} {fields : List Field}
    (found : types.lookup name = some fields) : (name, fields) ∈ types := by
  obtain ⟨before, after, rfl, _⟩ := List.lookup_eq_some_iff.mp found
  exact List.mem_append_right before (.head after)

theorem lookup_of_entry {name : Text} {fields : List Field}
    (entry : types.entry name = .fields fields) :
    types.lookup name = some fields := by
  unfold TypesTable.entry at entry
  split at entry
  next found =>
    cases entry
    exact found
  · split at entry <;> cases entry

theorem mem_of_leads {name other : Text} (leads : Leads types name other) :
    name ∈ types.map Prod.fst := by
  obtain ⟨_, before, field, after, entry, _⟩ := leads
  exact List.mem_map_of_mem (mem_of_lookup (lookup_of_entry entry))

theorem acc_typeName (ends : ∀ type, Acc (flip (Leads types)) (typeName type))
    (name : Text) : Acc (flip (Leads types)) name := by
  refine ⟨_, ?_⟩
  rintro other ⟨_, before, field, after, entry, rfl, _⟩
  exact ends field.type

/-- The dependencies of every type are found, so its text and its hash are,
and the message of every finite document of the table. -/
def Terminating (types : TypesTable) : Prop :=
  (∀ type, Halts (getDependencies types · type [])) ∧
    (∀ type, Halts (encodeType types · type)) ∧
    ∀ runtime : Runtime,
      (∀ type, Halts (getTypeHash runtime types · type)) ∧
      ∀ (typedData : Document) (hash : Bool), typedData.types = types →
        typedData.Finite runtime → Halts (getMessage runtime · typedData hash)

/-- A table is worked through in the end just where no type leads back to
itself. -/
theorem terminating_iff (types : TypesTable) :
    Terminating types ↔ ∀ name, ¬ TransGen (Leads types) name name := by
  constructor
  · intro terminating
    refine Acyclic.acyclic_of_acc (acc_typeName fun type => ?_)
    exact acc_of_halts (terminating.1 type)
  · intro acyclic
    have ends := Acyclic.acc_of_acyclic (types.map Prod.fst)
      (fun _ _ => mem_of_leads) acyclic
    have dependencies : ∀ type, Halts (getDependencies types · type []) :=
      fun type => halts_of_acc (ends (typeName type)) type rfl [] nofun
    refine ⟨dependencies, fun type => halts_encodeType (dependencies type),
      fun runtime => ⟨fun type =>
        halts_getTypeHash runtime (dependencies type), ?_⟩⟩
    rintro typedData hash rfl finite
    exact halts_getMessage runtime hash dependencies finite

/-- A node with a list of nodes. -/
def nodeTypes : TypesTable :=
  [("Node".toList, [⟨"children".toList, "Node[]".toList⟩])]

theorem getDependencies_node (fuel : Nat) :
    getDependencies nodeTypes fuel "Node[]".toList [] = none := by
  induction fuel with
  | zero => rfl
  | succ fuel inductionHypothesis =>
      have name : typeName "Node[]".toList = "Node".toList := by decide
      have entry : nodeTypes.entry "Node".toList =
          .fields [⟨"children".toList, "Node[]".toList⟩] := rfl
      rw [getDependencies, name, if_neg (by decide), if_neg (by decide), entry]
      simp only [List.foldlM_cons]
      rw [inductionHypothesis]
      rfl

theorem not_terminating : ¬ ∀ types, Terminating types := by
  intro always
  obtain ⟨fuel, result, done⟩ := (always nodeTypes).1 "Node[]".toList
  have looped := (getDependencies_node fuel).symm.trans done
  cases looped

end Tables

end Web3Js.TypedData
