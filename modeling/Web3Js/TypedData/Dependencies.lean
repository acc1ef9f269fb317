import Web3Js.Fragments.Parameters
import Web3Js.TypedData.Termination

/-!
# What a struct type depends on

In a table without recursive structs the dependencies of a type are the
structs that its fields lead to, each of them once, as long as their names are
words: the name of a type is cut off behind its leading word characters.
-/

namespace Web3Js.TypedData

open Abi (Error)
open Fragments (Text Length brackets)
open Fueled (Halts)
open Relation (ReflTransGen TransGen)
open Validator (Elementary)

section Tables

variable (types : TypesTable)

def IsStruct (name : Text) : Prop :=
  (types.lookup name).isSome

instance (name : Text) : Decidable (IsStruct types name) :=
  inferInstanceAs (Decidable (_ = true))

/-- An elementary type or a struct, in arrays of any depth. -/
def FieldType (type : Text) : Prop :=
  ∃ base lengths, type = base ++ brackets lengths ∧
    ((∃ elementary : Elementary, base = elementary.chars) ∨
      IsStruct types base)

def WellTyped : Prop :=
  ∀ name fields, types.lookup name = some fields →
    ∀ field ∈ fields, FieldType types field.type

/-- The struct has a field of the other one, or of arrays of it. -/
def Uses (name other : Text) : Prop :=
  ∃ fields, types.lookup name = some fields ∧
    (∃ field ∈ fields, ∃ lengths, field.type = other ++ brackets lengths) ∧
    IsStruct types other

def NotRecursive : Prop :=
  ∀ name, ¬ TransGen (Uses types) name name

end Tables

/-- The name consists of word characters. -/
def IsWord (name : Text) : Prop :=
  name ≠ [] ∧ name.all isWordChar = true

instance (name : Text) : Decidable (IsWord name) :=
  inferInstanceAs (Decidable (_ ∧ _))

theorem stops_brackets (lengths : List Length) :
    Words.Stops isWordChar (brackets lengths) := by
  cases lengths with
  | nil => exact Words.stops_nil _
  | cons length lengths => exact Words.stops_cons rfl _

/-- The name of an array of words is the word. -/
theorem typeName_brackets {name : Text} (word : name.all isWordChar = true)
    (lengths : List Length) : typeName (name ++ brackets lengths) = name :=
  Words.takeWhile_word word (stops_brackets lengths)

theorem isWord_typeName {type : Text} (nonempty : typeName type ≠ []) :
    IsWord (typeName type) :=
  ⟨nonempty, List.all_takeWhile⟩

theorem isWordChar_of_isAlphanum {char : Char}
    (alphanumeric : char.isAlphanum = true) : isWordChar char = true := by
  rw [isWordChar, alphanumeric, Bool.true_or]

theorem isWord_chars (elementary : Elementary) : IsWord elementary.chars := by
  constructor
  · have letters : elementary.baseType.text.toList ≠ [] := by
      cases elementary.baseType <;> decide
    exact fun empty => letters (List.append_eq_nil_iff.mp empty).1
  · rw [List.all_eq_true]
    intro char member
    apply isWordChar_of_isAlphanum
    by_contra other
    rw [Bool.not_eq_true] at other
    exact elementary.not_mem_chars other member

/-- No inherited property begins as an elementary type does. -/
theorem not_inherited_baseType (baseType : Validator.BaseType) (rest : Text) :
    Abi.objectPrototypeNames.contains
      (String.ofList (baseType.text.toList ++ rest)) = false := by
  rw [← Bool.not_eq_true, List.contains_iff_mem]
  intro member
  have start : (String.ofList (baseType.text.toList ++ rest)).toList.take 3 ∈
      Abi.objectPrototypeNames.map fun name => name.toList.take 3 :=
    List.mem_map_of_mem member
  have none : ∀ baseType : Validator.BaseType, baseType.text.toList.take 3 ∉
      Abi.objectPrototypeNames.map fun name => name.toList.take 3 := by
    intro baseType
    cases baseType <;> decide
  have long : 3 ≤ baseType.text.toList.length := by
    cases baseType <;> decide
  rw [String.toList_ofList, List.take_append_of_le_length long] at start
  exact none baseType start

theorem entry_of_isStruct {types : TypesTable} {name : Text}
    {fields : List Field} (found : types.lookup name = some fields) :
    types.entry name = .fields fields := by
  rw [TypesTable.entry, found]

/-- An elementary type is no entry of the table, unless it names a struct. -/
theorem entry_elementary {types : TypesTable} (elementary : Elementary)
    (noStruct : ¬ IsStruct types elementary.chars) :
    types.entry elementary.chars = .missing := by
  rw [IsStruct, Bool.not_eq_true, Option.isSome_eq_false_iff,
    Option.isNone_iff_eq_none] at noStruct
  rw [TypesTable.entry, noStruct]
  simp only
  rw [Elementary.chars, not_inherited_baseType]
  rfl

section Listing

variable {types : TypesTable} {name : Text}

theorem IsStruct.of_uses {other : Text} (uses : Uses types name other) :
    IsStruct types other :=
  uses.choose_spec.2.2

theorem IsStruct.of_transGen {other : Text}
    (reached : TransGen (Uses types) name other) : IsStruct types other := by
  cases reached with
  | single uses => exact .of_uses uses
  | tail _ uses => exact .of_uses uses

/-- Every struct that the type leads to has a word for its name. -/
def ReachesWords (types : TypesTable) (name : Text) : Prop :=
  ∀ other, ReflTransGen (Uses types) name other → IsWord other

theorem ReachesWords.of_uses (words : ReachesWords types name) {other : Text}
    (uses : Uses types name other) : ReachesWords types other :=
  fun last reached => words last (.head uses reached)

/-- The type of a field is an elementary one or a struct that is used. -/
theorem field_cases (wellTyped : WellTyped types)
    (words : ReachesWords types name) {fields : List Field}
    (found : types.lookup name = some fields) {field : Field}
    (member : field ∈ fields) :
    (typeName field.type ≠ [] ∧
      types.entry (typeName field.type) = .missing) ∨
    (Uses types name (typeName field.type)) := by
  obtain ⟨base, lengths, type, shape⟩ := wellTyped name fields found field member
  by_cases struct : IsStruct types base
  · have uses : Uses types name base :=
      ⟨fields, found, ⟨field, member, lengths, type⟩, struct⟩
    rw [type, typeName_brackets (words base (.single uses)).2]
    exact .inr uses
  · rcases shape with ⟨elementary, rfl⟩ | isStruct
    · rw [type, typeName_brackets (isWord_chars elementary).2]
      exact .inl ⟨(isWord_chars elementary).1,
        entry_elementary elementary struct⟩
    · exact absurd isStruct struct

/-- What the fields lead to, each name once. -/
structure Listed (types : TypesTable) (fields : List Field)
    (names : List Text) : Prop where
  nodup : names.Nodup
  mem_iff : ∀ other, other ∈ names ↔ ∃ field ∈ fields,
    IsStruct types (typeName field.type) ∧
      ReflTransGen (Uses types) (typeName field.type) other

theorem listed_nil : Listed types [] [] :=
  ⟨.nil, fun _ => iff_of_false nofun nofun⟩

/-- A field of an elementary type adds nothing. -/
theorem Listed.skip {fields : List Field} {names : List Text} {field : Field}
    (listed : Listed types fields names)
    (noStruct : ¬ IsStruct types (typeName field.type)) :
    Listed types (fields ++ [field]) names := by
  refine ⟨listed.nodup, fun other => ?_⟩
  rw [listed.mem_iff]
  simp only [List.mem_append, List.mem_singleton, or_and_right, exists_or,
    exists_eq_left, noStruct, false_and, or_false]

/-- Neither does one of a type that is listed already. -/
theorem Listed.again {fields : List Field} {names : List Text} {field : Field}
    (listed : Listed types fields names)
    (known : typeName field.type ∈ names) :
    Listed types (fields ++ [field]) names := by
  refine ⟨listed.nodup, fun other => ?_⟩
  rw [listed.mem_iff]
  simp only [List.mem_append, List.mem_singleton, or_and_right, exists_or,
    exists_eq_left]
  refine (or_iff_left_of_imp ?_).symm
  rintro ⟨_, reached⟩
  obtain ⟨earlier, member, struct, reaches⟩ := (listed.mem_iff _).mp known
  exact ⟨earlier, member, struct, reaches.trans reached⟩

/-- Another type adds itself and what it leads to. -/
theorem Listed.add {fields : List Field} {names found : List Text}
    {field : Field} (listed : Listed types fields names)
    (struct : IsStruct types (typeName field.type)) (nodup : found.Nodup)
    (reaches : ∀ other, other ∈ found ↔
      ReflTransGen (Uses types) (typeName field.type) other) :
    Listed types (fields ++ [field])
      (names ++ found.filter fun other => !names.contains other) := by
  constructor
  · refine listed.nodup.append (nodup.filter _) ?_
    intro other left right
    have unlisted := (List.mem_filter.mp right).2
    rw [List.contains_iff_mem.mpr left] at unlisted
    cases unlisted
  · intro other
    simp only [List.mem_append, List.mem_singleton, or_and_right, exists_or,
      exists_eq_left, List.mem_filter, reaches, struct, true_and,
      ← listed.mem_iff other, Bool.not_eq_true',
      ← Bool.not_eq_true, List.contains_iff_mem]
    tauto

/-- What the fields of a struct lead to is what the struct leads to. -/
theorem Listed.transGen (wellTyped : WellTyped types)
    (words : ReachesWords types name) {fields : List Field}
    (found : types.lookup name = some fields) {names : List Text}
    (listed : Listed types fields names) (other : Text) :
    other ∈ names ↔ TransGen (Uses types) name other := by
  rw [listed.mem_iff]
  constructor
  · rintro ⟨field, member, struct, reached⟩
    rcases field_cases wellTyped words found member with
      ⟨_, missing⟩ | uses
    · obtain ⟨fields', found'⟩ := Option.isSome_iff_exists.mp struct
      rw [entry_of_isStruct found'] at missing
      cases missing
    · exact .head' uses reached
  · intro reached
    obtain ⟨next, uses, rest⟩ := TransGen.head'_iff.mp reached
    obtain ⟨fields', found', ⟨field, member, lengths, type⟩, struct⟩ := uses
    rw [found] at found'
    cases found'
    have word := words next (.single
      ⟨fields, found, ⟨field, member, lengths, type⟩, struct⟩)
    have named : typeName field.type = next := by
      rw [type, typeName_brackets word.2]
    exact ⟨field, member, named ▸ struct, named ▸ rest⟩

/-- A call on a type that is listed or is no struct adds nothing. -/
theorem getDependencies_same {type : Text}
    (nonempty : typeName type ≠ []) {dependencies : List Text}
    (listed : typeName type ∈ dependencies ∨
      types.entry (typeName type) = .missing)
    {fuel : Nat} {result : Except Error (List Text)}
    (done : getDependencies types fuel type dependencies = some result) :
    result = .ok dependencies := by
  cases fuel with
  | zero => cases done
  | succ fuel =>
      rw [getDependencies, if_neg nonempty] at done
      by_cases known : typeName type ∈ dependencies
      · rw [if_pos (List.contains_iff_mem.mpr known)] at done
        cases done
        rfl
      · rw [if_neg (fun member => known (List.contains_iff_mem.mp member)),
          listed.resolve_left known] at done
        cases done
        rfl

theorem append_filter_self (names : List Text) :
    names ++ names.filter (fun name => !names.contains name) = names := by
  rw [List.append_right_eq_self, List.filter_eq_nil_iff]
  intro name member
  rw [List.contains_iff_mem.mpr member]
  exact Bool.false_ne_true

/-- A call on a struct that is not listed yet lists it and what it leads
to. -/
theorem getDependencies_listed (wellTyped : WellTyped types)
    (notRecursive : NotRecursive types) (fuel : Nat) {type : Text} (struct : IsStruct types (typeName type))
    (words : ReachesWords types (typeName type)) {dependencies : List Text}
    (unlisted : typeName type ∉ dependencies) {result : Except Error (List Text)}
    (done : getDependencies types fuel type dependencies = some result) :
    ∃ others, result = .ok (typeName type :: others) ∧ others.Nodup ∧
      ∀ other, other ∈ others ↔
        TransGen (Uses types) (typeName type) other := by
  induction fuel generalizing type dependencies result with
  | zero => cases done
  | succ fuel inductionHypothesis =>
      obtain ⟨fields, found⟩ := Option.isSome_iff_exists.mp struct
      have entry := entry_of_isStruct found
      rcases getDependencies_cases types type dependencies with
        ⟨unreadable, _⟩ | ⟨_, known | missing, _⟩ |
        ⟨nonempty, _, fields', entry', unfolded⟩
      · rcases unreadable with empty | inherited
        · exact absurd empty (words _ .refl).1
        · rw [entry] at inherited
          cases inherited
      · exact absurd known unlisted
      · rw [entry] at missing
        cases missing
      rw [entry] at entry'
      cases entry'
      have steps : ∀ before field after previous outcome,
          [] ++ fields = before ++ field :: after →
          Listed types before previous →
          findField types fuel previous field = some outcome →
          ∃ next, outcome = .ok next ∧
            Listed types (before ++ [field]) next := by
        intro before field after previous outcome split listed stepped
        have member : field ∈ fields := by
          rw [List.nil_append] at split
          rw [split]
          simp
        unfold findField at stepped
        match called : getDependencies types fuel field.type previous with
        | none =>
            rw [called] at stepped
            cases stepped
        | some answer =>
            rw [called] at stepped
            rcases field_cases wellTyped words found member with
              ⟨nonempty, missing⟩ | uses
            · obtain rfl := getDependencies_same nonempty (.inr missing) called
              cases stepped
              rw [append_filter_self]
              refine ⟨_, rfl, listed.skip fun struct => ?_⟩
              obtain ⟨others, found'⟩ := Option.isSome_iff_exists.mp struct
              rw [entry_of_isStruct found'] at missing
              cases missing
            · by_cases known : typeName field.type ∈ previous
              · obtain rfl := getDependencies_same
                  (words _ (.single uses)).1 (.inl known) called
                cases stepped
                rw [append_filter_self]
                exact ⟨_, rfl, listed.again known⟩
              obtain ⟨others, rfl, nodup, reaches⟩ := inductionHypothesis
                (.of_uses uses) (words.of_uses uses) known called
              cases stepped
              refine ⟨_, rfl, listed.add (.of_uses uses) ?_ fun other => ?_⟩
              · refine List.nodup_cons.mpr ⟨fun member => ?_, nodup⟩
                exact notRecursive _ ((reaches _).mp member)
              · rw [List.mem_cons, reaches,
                  Relation.reflTransGen_iff_eq_or_transGen]
      rw [unfolded fuel] at done
      match folded : fields.foldlM (findField types fuel) [] with
      | none =>
          rw [folded] at done
          cases done
      | some outcome =>
          obtain ⟨names, rfl, listed⟩ :=
            Fueled.foldlM_outcome folded (@listed_nil types) steps
          rw [folded] at done
          cases done
          exact ⟨names, rfl, listed.nodup,
            listed.transGen wellTyped words found⟩

/-- Where no struct is recursive, every way on from a struct ends. -/
theorem acc_leads (wellTyped : WellTyped types)
    (ends : Acc (flip (Uses types)) name) (words : ReachesWords types name) :
    Acc (flip (Leads types)) name := by
  induction ends with
  | intro name _ inductionHypothesis =>
      refine ⟨_, ?_⟩
      rintro other ⟨_, before, field, after, entry, rfl, _⟩
      have member : field ∈ before ++ field :: after := by simp
      rcases field_cases wellTyped words (lookup_of_entry entry) member with
        ⟨_, missing⟩ | uses
      · refine acc_of_not_leads (not_leads_of_entry fun fields entry => ?_)
        rw [missing] at entry
        cases entry
      · exact inductionHypothesis _ uses (words.of_uses uses)

theorem NotRecursive.acc (notRecursive : NotRecursive types) (name : Text) :
    Acc (flip (Uses types)) name :=
  Acyclic.acc_of_acyclic (types.map Prod.fst)
    (fun _ _ ⟨_, found, _⟩ => List.mem_map_of_mem (mem_of_lookup found))
    notRecursive name

/-- Only words are listed. -/
theorem isWord_of_getDependencies (fuel : Nat) {type : Text}
    {dependencies found : List Text}
    (known : ∀ name ∈ dependencies, IsWord name)
    (done : getDependencies types fuel type dependencies = some (.ok found)) :
    ∀ name ∈ found, IsWord name := by
  induction fuel generalizing type dependencies found with
  | zero => cases done
  | succ fuel inductionHypothesis =>
      rcases getDependencies_cases types type dependencies with
        ⟨_, problem, refused⟩ | ⟨_, _, same⟩ |
        ⟨nonempty, _, fields, _, unfolded⟩
      · rw [refused fuel] at done
        cases done
      · rw [same fuel] at done
        cases done
        exact known
      have start : (fun (_ : List Field) previous =>
          ∀ name ∈ previous, IsWord name) [] [] := nofun
      have kept : ∀ before field after previous next,
          [] ++ fields = before ++ field :: after →
          (∀ name ∈ previous, IsWord name) →
          findField types fuel previous field = some (.ok next) →
          ∀ name ∈ next, IsWord name := by
        intro before field after previous next _ earlier stepped name member
        obtain ⟨names, called, rfl⟩ := findField_eq_ok stepped
        rcases List.mem_append.mp member with member | member
        · exact earlier name member
        · exact inductionHypothesis earlier called name
            (List.mem_filter.mp member).1
      rw [unfolded fuel] at done
      match folded : fields.foldlM (findField types fuel) [] with
      | none =>
          rw [folded] at done
          cases done
      | some (.error problem) =>
          rw [folded] at done
          cases done
      | some (.ok reached) =>
          rw [folded] at done
          cases done
          have words := Fueled.foldlM_invariant folded start kept
          intro name member
          rcases List.mem_cons.mp member with rfl | member
          · exact isWord_typeName nonempty
          · exact words name member

end Listing

section Texts

variable {types : TypesTable}

/-- The text of a struct of the table. -/
def definitionOf (types : TypesTable) (name : Text) : Text :=
  definition name ((types.lookup name).getD [])

theorem sorted_perm (names : List Text) : (sorted names).Perm names :=
  List.mergeSort_perm _ _

theorem precedes_cons {char other : Char} {left right : Text} :
    precedes (char :: left) (other :: right) = true ↔
      char.toNat < other.toNat ∨ char = other ∧ precedes left right = true := by
  rw [precedes, Bool.or_eq_true, Bool.and_eq_true, decide_eq_true_iff,
    beq_iff_eq]

theorem precedes_trans : ∀ {first second third : Text},
    precedes first second = true → precedes second third = true →
      precedes first third = true
  | [], _, _, _, _ => by rw [precedes]
  | _ :: _, [], _, before, _ => nomatch before
  | _ :: _, _ :: _, [], _, after => nomatch after
  | _ :: _, _ :: _, _ :: _, before, after => by
      rw [precedes_cons] at before after ⊢
      rcases before with below | ⟨rfl, before⟩
      · rcases after with above | ⟨rfl, _⟩
        · exact .inl (below.trans above)
        · exact .inl below
      · rcases after with above | ⟨rfl, after⟩
        · exact .inl above
        · exact .inr ⟨rfl, precedes_trans before after⟩

theorem precedes_total : ∀ left right : Text,
    precedes left right = true ∨ precedes right left = true
  | [], _ => .inl (by rw [precedes])
  | _ :: _, [] => .inr rfl
  | char :: left, other :: right => by
      rw [precedes_cons, precedes_cons]
      rcases Nat.lt_trichotomy char.toNat other.toNat with below | same | above
      · exact .inl (.inl below)
      · have same : char = other := Char.toNat_inj.mp same
        rcases precedes_total left right with before | after
        · exact .inl (.inr ⟨same, before⟩)
        · exact .inr (.inr ⟨same.symm, after⟩)
      · exact .inr (.inl above)

theorem pairwise_sorted (names : List Text) :
    (sorted names).Pairwise fun left right => precedes left right = true := by
  apply List.pairwise_mergeSort
  · exact fun _ _ _ before after => precedes_trans before after
  · intro left right
    rw [Bool.or_eq_true]
    exact precedes_total left right

theorem encodeDependency_struct {name : Text} (struct : IsStruct types name) :
    encodeDependency types name = .ok (definitionOf types name) := by
  obtain ⟨fields, found⟩ := Option.isSome_iff_exists.mp struct
  rw [encodeDependency, entry_of_isStruct found, definitionOf, found]
  rfl

theorem mapM_encodeDependency {names : List Text}
    (structs : ∀ name ∈ names, IsStruct types name) :
    names.mapM (encodeDependency types) =
      .ok (names.map (definitionOf types)) := by
  induction names with
  | nil => rfl
  | cons name names inductionHypothesis =>
      rw [List.mapM_cons, encodeDependency_struct (structs name (.head _)),
        inductionHypothesis fun other member => structs other (.tail _ member)]
      rfl

theorem encodeTypes_structs {name : Text} {others : List Text}
    (structs : ∀ other ∈ name :: others, IsStruct types other) :
    encodeTypes types (name :: others) =
      .ok ((name :: sorted others).flatMap (definitionOf types)) := by
  have all : ∀ other ∈ name :: sorted others, IsStruct types other := by
    intro other member
    rw [List.mem_cons, (sorted_perm others).mem_iff, ← List.mem_cons] at member
    exact structs other member
  change (List.mapM _ (name :: sorted others) >>= _) = _
  rw [mapM_encodeDependency all, List.flatMap_def]
  rfl

/-- The type, then each other struct that it leads to, once; and the text of
the type, then those of the others in lexicographic order. -/
def Spelled (types : TypesTable) (type : Text) : Prop :=
  ∃ others,
    (∃ fuel, getDependencies types fuel type [] = some (.ok (type :: others))) ∧
    others.Nodup ∧
    (∀ other, other ∈ others ↔
      other ≠ type ∧ ReflTransGen (Uses types) type other) ∧
    ∃ ordered, ordered.Perm others ∧
      ordered.Pairwise (fun left right => precedes left right = true) ∧
      ∃ fuel, encodeType types fuel type =
        some (.ok ((type :: ordered).flatMap (definitionOf types)))

theorem isWord_of_spelled {type : Text} (spelled : Spelled types type) :
    ReachesWords types type := by
  obtain ⟨others, ⟨fuel, done⟩, _, reaches, _⟩ := spelled
  have words := isWord_of_getDependencies fuel (List.forall_mem_nil _) done
  intro other reached
  by_cases same : other = type
  · rw [same]
    exact words type (.head _)
  · exact words other (.tail _ ((reaches other).mpr ⟨same, reached⟩))

theorem spelled_of_words {type : Text} (wellTyped : WellTyped types)
    (notRecursive : NotRecursive types) (struct : IsStruct types type)
    (words : ReachesWords types type) : Spelled types type := by
  have named : typeName type = type := by
    have cut := typeName_brackets (words type .refl).2 []
    rwa [brackets, List.flatMap_nil, List.append_nil] at cut
  have ends := acc_leads wellTyped (notRecursive.acc type) words
  obtain ⟨fuel, result, done⟩ := halts_of_acc ends type named [] (by rintro _ ⟨⟩)
  obtain ⟨others, rfl, nodup, reaches⟩ := getDependencies_listed wellTyped
    notRecursive fuel (named.symm ▸ struct) (named.symm ▸ words)
    List.not_mem_nil done
  change getDependencies types fuel type [] = _ at done
  rw [named] at done reaches
  refine ⟨others, ⟨fuel, done⟩, nodup, fun other => ?_, sorted others,
    sorted_perm others, pairwise_sorted others, fuel, ?_⟩
  · rw [reaches, Relation.reflTransGen_iff_eq_or_transGen]
    constructor
    · intro reached
      refine ⟨?_, .inr reached⟩
      rintro rfl
      exact notRecursive _ reached
    · rintro ⟨different, same | reached⟩
      · exact absurd same different
      · exact reached
  · have structs : ∀ other ∈ type :: others, IsStruct types other := by
      intro other member
      rcases List.mem_cons.mp member with rfl | member
      · exact struct
      · exact .of_transGen ((reaches other).mp member)
    change (getDependencies types fuel type [] >>= _) = _
    rw [done]
    exact congrArg some (encodeTypes_structs structs)

/-- Without recursive structs, the dependencies and the text of a type are
right just where every struct that the type leads to has a word for its
name. -/
theorem spelled_iff (wellTyped : WellTyped types)
    (notRecursive : NotRecursive types) {type : Text}
    (struct : IsStruct types type) :
    Spelled types type ↔
      ∀ other, ReflTransGen (Uses types) type other → IsWord other :=
  ⟨isWord_of_spelled, spelled_of_words wellTyped notRecursive struct⟩

end Texts

section Examples

/-- Messages between persons. -/
def mailTypes : TypesTable :=
  [("Mail".toList, [⟨"from".toList, "Person".toList⟩,
      ⟨"to".toList, "Person[]".toList⟩,
      ⟨"contents".toList, "string".toList⟩]),
    ("Person".toList, [⟨"name".toList, "string".toList⟩])]

theorem wellTyped_mailTypes : WellTyped mailTypes := by
  have person : FieldType mailTypes "Person".toList :=
    ⟨"Person".toList, [], by decide, .inr (by decide)⟩
  have persons : FieldType mailTypes "Person[]".toList :=
    ⟨"Person".toList, [⟨[], rfl⟩], by decide, .inr (by decide)⟩
  have string : FieldType mailTypes "string".toList :=
    ⟨Elementary.string.chars, [], by decide, .inl ⟨.string, rfl⟩⟩
  intro name fields found
  rcases List.mem_cons.mp (mem_of_lookup found) with same | member
  · cases same
    simp only [List.forall_mem_cons]
    exact ⟨person, persons, string, List.forall_mem_nil _⟩
  · cases List.mem_singleton.mp member
    simp only [List.forall_mem_cons]
    exact ⟨string, List.forall_mem_nil _⟩

/-- Only messages use another struct, and none uses messages. -/
theorem uses_mailTypes {name other : Text} (uses : Uses mailTypes name other) :
    name = "Mail".toList ∧ other = "Person".toList := by
  obtain ⟨fields, found, ⟨field, member, lengths, type⟩, struct⟩ := uses
  obtain ⟨fields', found'⟩ := Option.isSome_iff_exists.mp struct
  -- The first letters tell which type a field has.
  have heads := congrArg List.head? type
  rcases List.mem_cons.mp (mem_of_lookup found') with same | member'
  · cases same
    change _ = some 'M' at heads
    have none : ∀ entry ∈ mailTypes, ∀ field ∈ entry.2,
        field.type.head? ≠ some 'M' := by decide
    exact absurd heads (none _ (mem_of_lookup found) field member)
  · cases List.mem_singleton.mp member'
    change _ = some 'P' at heads
    refine ⟨?_, rfl⟩
    have only : ∀ entry ∈ mailTypes, ∀ field ∈ entry.2,
        field.type.head? = some 'P' → entry.1 = "Mail".toList := by decide
    exact only _ (mem_of_lookup found) field member heads

theorem notRecursive_mailTypes : NotRecursive mailTypes := by
  intro name cycle
  obtain ⟨_, first, _⟩ := TransGen.head'_iff.mp cycle
  obtain ⟨_, _, last⟩ := TransGen.tail'_iff.mp cycle
  have differ := (uses_mailTypes first).1.symm.trans (uses_mailTypes last).2
  exact absurd differ (by decide)

theorem words_mailTypes : ReachesWords mailTypes "Mail".toList := by
  intro other reached
  rcases reached.cases_tail with same | ⟨_, _, last⟩
  · rw [same]
    decide
  · rw [(uses_mailTypes last).2]
    decide

theorem isStruct_mail : IsStruct mailTypes "Mail".toList := by
  decide

theorem spelled_mail : Spelled mailTypes "Mail".toList :=
  (spelled_iff wellTyped_mailTypes notRecursive_mailTypes isStruct_mail).mpr
    words_mailTypes

/-- A struct whose name is no word. -/
def signTypes : TypesTable :=
  [("A$".toList, [⟨"x".toList, "uint256".toList⟩])]

theorem not_spelled : ¬ ∀ types : TypesTable, WellTyped types →
    NotRecursive types → ∀ type, IsStruct types type → Spelled types type := by
  intro always
  have wellTyped : WellTyped signTypes := by
    intro name fields found
    cases List.mem_singleton.mp (mem_of_lookup found)
    rw [List.forall_mem_singleton]
    exact ⟨Elementary.chars (.uint (some ⟨32, by decide, by decide⟩)), [],
      by decide, .inl ⟨_, rfl⟩⟩
  have notRecursive : NotRecursive signTypes := by
    intro name cycle
    obtain ⟨_, uses, _⟩ := TransGen.head'_iff.mp cycle
    obtain ⟨fields, found, ⟨field, member, lengths, type⟩, struct⟩ := uses
    obtain ⟨fields', found'⟩ := Option.isSome_iff_exists.mp struct
    cases List.mem_singleton.mp (mem_of_lookup found)
    cases List.mem_singleton.mp member
    cases List.mem_singleton.mp (mem_of_lookup found')
    have heads := congrArg List.head? type
    change some 'u' = some 'A' at heads
    exact absurd heads (by decide)
  have struct : IsStruct signTypes "A$".toList := by decide
  have word := isWord_of_spelled
    (always signTypes wellTyped notRecursive _ struct) _ .refl
  exact absurd word (by decide)

end Examples

end Web3Js.TypedData
