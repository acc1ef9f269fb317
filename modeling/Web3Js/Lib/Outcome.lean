import Mathlib.Data.List.Forall2

/-!
# Outcomes of fallible steps

A step that may throw has an `Except` outcome.  The rules here take a
successful composite apart into its successful steps: sequencing, mapping a
step over a list and folding a step over a list.
-/

namespace Web3Js

namespace Outcome

universe u v w

variable {ε : Type u} {α β γ : Type v}

theorem bind_eq_ok {step : Except ε α} {next : α → Except ε β} {result : β} :
    (step >>= next) = .ok result ↔
      ∃ value, step = .ok value ∧ next value = .ok result := by
  cases step with
  | error problem => simp [bind, Except.bind]
  | ok value => simp [bind, Except.bind]

@[simp] theorem ok_bind (value : α) (next : α → Except ε β) :
    ((.ok value : Except ε α) >>= next) = next value := rfl

@[simp] theorem error_bind (problem : ε) (next : α → Except ε β) :
    ((.error problem : Except ε α) >>= next) = .error problem := rfl

@[simp] theorem pure_eq_ok (value : α) :
    (pure value : Except ε α) = .ok value := rfl

theorem toOption_bind (step : Except ε α) (next : α → Except ε β) :
    (step >>= next).toOption = step.toOption.bind fun value =>
      (next value).toOption := by
  cases step <;> rfl

theorem toOption_eq_some {step : Except ε α} {value : α} :
    step.toOption = some value ↔ step = .ok value := by
  cases step with
  | error problem => exact iff_of_false nofun nofun
  | ok result =>
      exact ⟨fun same => congrArg Except.ok (Option.some.inj same),
        fun same => congrArg some (Except.ok.inj same)⟩

theorem map_eq_ok {step : Except ε α} {next : α → β} {result : β} :
    step.map next = .ok result ↔
      ∃ value, step = .ok value ∧ next value = result := by
  cases step with
  | error problem =>
      constructor
      · intro failed
        cases failed
      · rintro ⟨_, made, _⟩
        cases made
  | ok value =>
      constructor
      · intro same
        exact ⟨value, rfl, Except.ok.inj same⟩
      · rintro ⟨other, made, same⟩
        obtain rfl := Except.ok.inj made
        exact congrArg Except.ok same

/-- A list whose elements all pass a step, with what the step makes of them. -/
theorem mapM_eq_ok {step : α → Except ε β} {values : List α}
    {results : List β} :
    values.mapM step = .ok results ↔
      List.Forall₂ (fun value result => step value = .ok result)
        values results := by
  induction values generalizing results with
  | nil =>
      cases results <;> simp [eq_comm]
  | cons value values induction =>
      rw [List.mapM_cons]
      constructor
      · intro mapped
        obtain ⟨head, headOk, rest⟩ := bind_eq_ok.mp mapped
        obtain ⟨tail, tailOk, done⟩ := bind_eq_ok.mp rest
        cases done
        exact .cons headOk (induction.mp tailOk)
      · intro related
        cases related with
        | cons headOk tailOk =>
            rw [headOk, ok_bind, induction.mpr tailOk]
            rfl

theorem exists_of_mapM {step : α → Except ε β} {values : List α}
    {results : List β} (mapped : values.mapM step = .ok results) :
    (∀ value ∈ values, ∃ result, step value = .ok result) ∧
      ∀ result ∈ results, ∃ value ∈ values, step value = .ok result := by
  have related := mapM_eq_ok.mp mapped
  clear mapped
  induction related with
  | nil => simp
  | cons first _ induction =>
      obtain ⟨forward, backward⟩ := induction
      constructor
      · intro value member
        rcases List.mem_cons.mp member with rfl | later
        · exact ⟨_, first⟩
        · exact forward value later
      · intro result member
        rcases List.mem_cons.mp member with rfl | later
        · exact ⟨_, List.mem_cons_self, first⟩
        · obtain ⟨value, valueMember, done⟩ := backward result later
          exact ⟨value, List.mem_cons_of_mem _ valueMember, done⟩

theorem mem_mapM_iff {step : α → Except ε β} {values : List α}
    {results : List β} (mapped : values.mapM step = .ok results)
    {result : β} :
    result ∈ results ↔ ∃ value ∈ values, step value = .ok result := by
  have related := mapM_eq_ok.mp mapped
  clear mapped
  induction related with
  | nil => simp
  | cons first _ induction =>
      rw [List.mem_cons, List.exists_mem_cons_iff, first, Except.ok.injEq]
      exact or_congr eq_comm induction

theorem mapM_of_forall {step : α → Except ε β} {values : List α}
    (each : ∀ value ∈ values, ∃ result, step value = .ok result) :
    ∃ results, values.mapM step = .ok results := by
  induction values with
  | nil => exact ⟨[], rfl⟩
  | cons value values induction =>
      obtain ⟨result, first⟩ := each value List.mem_cons_self
      obtain ⟨results, others⟩ := induction fun other member =>
        each other (List.mem_cons_of_mem _ member)
      exact ⟨result :: results, mapM_eq_ok.mpr
        (.cons first (mapM_eq_ok.mp others))⟩

theorem forM_eq_ok {step : α → Except ε PUnit} {values : List α} :
    forM values step = .ok ⟨⟩ ↔ ∀ value ∈ values, step value = .ok ⟨⟩ := by
  induction values with
  | nil => simp
  | cons value values induction =>
      rw [List.forM_cons, bind_eq_ok, List.forall_mem_cons, ← induction]
      constructor
      · rintro ⟨⟨⟩, first, others⟩
        exact ⟨first, others⟩
      · rintro ⟨first, others⟩
        exact ⟨⟨⟩, first, others⟩

/-- Where no test fails, one of a list holds exactly if some test does. -/
theorem anyM_eq_ok {test : α → Except ε Bool} {values : List α}
    (each : ∀ value ∈ values, ∃ answer, test value = .ok answer) :
    ∃ answer, values.anyM test = .ok answer ∧
      (answer = true ↔ ∃ value ∈ values, test value = .ok true) := by
  induction values with
  | nil => exact ⟨false, rfl, by simp⟩
  | cons value values induction =>
      obtain ⟨first, isFirst⟩ := each value List.mem_cons_self
      obtain ⟨others, areOthers, exists_iff⟩ := induction fun other member =>
        each other (List.mem_cons_of_mem _ member)
      rw [List.anyM, isFirst, ok_bind, List.exists_mem_cons_iff, isFirst]
      cases first with
      | true => exact ⟨true, rfl, iff_of_true rfl (.inl rfl)⟩
      | false => exact ⟨others, areOthers, by simp [exists_iff]⟩

/-- Where no test fails, all of a list hold exactly if every test does. -/
theorem allM_eq_ok {test : α → Except ε Bool} {values : List α}
    (each : ∀ value ∈ values, ∃ answer, test value = .ok answer) :
    ∃ answer, values.allM test = .ok answer ∧
      (answer = true ↔ ∀ value ∈ values, test value = .ok true) := by
  induction values with
  | nil => exact ⟨true, rfl, by simp⟩
  | cons value values induction =>
      obtain ⟨first, isFirst⟩ := each value List.mem_cons_self
      obtain ⟨others, areOthers, all_iff⟩ := induction fun other member =>
        each other (List.mem_cons_of_mem _ member)
      rw [List.allM, isFirst, ok_bind, List.forall_mem_cons, isFirst]
      cases first with
      | true => exact ⟨others, areOthers, by simp [all_iff]⟩
      | false => exact ⟨false, rfl, by simp⟩

end Outcome

end Web3Js
