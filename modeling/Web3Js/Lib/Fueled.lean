import Mathlib.Data.List.Basic

/-!
# Computations on fuel

A recursion that need not end is run on fuel: it has no outcome while the fuel
does not suffice, and then either a value or an error.  More fuel keeps the
outcome, through sequences and folds of such runs, and a run halts when its
parts do.
-/

namespace Web3Js.Fueled

universe u

variable {ε : Type u} {α β : Type u}

/-- The right run has the outcome of the left one, if that has one. -/
def Below (left right : ExceptT ε Option α) : Prop :=
  left = none ∨ left = right

namespace Below

theorem refl (run : ExceptT ε Option α) : Below run run :=
  .inr rfl

theorem trans {first second third : ExceptT ε Option α}
    (left : Below first second) (right : Below second third) :
    Below first third := by
  rcases left with none | same
  · exact .inl none
  · rw [same]
    exact right

theorem outcome {left right : ExceptT ε Option α} (below : Below left right)
    {result : Except ε α} (done : left = some result) :
    right = some result := by
  rcases below with none | same
  · rw [none] at done
    cases done
  · rw [← same, done]

theorem bind {left right : ExceptT ε Option α}
    {next next' : α → ExceptT ε Option β} (first : Below left right)
    (second : ∀ value, Below (next value) (next' value)) :
    Below (left >>= next) (right >>= next') := by
  rcases first with none | same
  · exact .inl (by rw [none]; rfl)
  subst same
  match left with
  | none => exact .inl rfl
  | some (.error problem) => exact .inr rfl
  | some (.ok value) => exact second value

theorem foldlM {step step' : β → α → ExceptT ε Option β}
    (steps : ∀ state value, Below (step state value) (step' state value))
    (values : List α) (state : β) :
    Below (values.foldlM step state) (values.foldlM step' state) := by
  induction values generalizing state with
  | nil => exact refl _
  | cons value values inductionHypothesis =>
      exact bind (steps state value) inductionHypothesis

theorem mapM {step step' : α → ExceptT ε Option β}
    (steps : ∀ value, Below (step value) (step' value)) (values : List α) :
    Below (values.mapM step) (values.mapM step') := by
  induction values with
  | nil => exact refl _
  | cons value values inductionHypothesis =>
      rw [List.mapM_cons, List.mapM_cons]
      exact bind (steps value) fun result =>
        bind inductionHypothesis fun results => refl _

end Below

/-- More fuel keeps the outcome. -/
def Steady (run : Nat → ExceptT ε Option α) : Prop :=
  ∀ fuel, Below (run fuel) (run (fuel + 1))

/-- Some fuel suffices. -/
def Halts (run : Nat → ExceptT ε Option α) : Prop :=
  ∃ fuel result, run fuel = some result

theorem Steady.le {run : Nat → ExceptT ε Option α} (steady : Steady run)
    {fuel more : Nat} (enough : fuel ≤ more) :
    Below (run fuel) (run more) := by
  induction enough with
  | refl => exact .refl _
  | step _ inductionHypothesis => exact inductionHypothesis.trans (steady _)

theorem Steady.bind {run : Nat → ExceptT ε Option α}
    {next : Nat → α → ExceptT ε Option β} (steady : Steady run)
    (steadyNext : ∀ value, Steady (next · value)) :
    Steady fun fuel => run fuel >>= next fuel :=
  fun fuel => (steady fuel).bind fun value => steadyNext value fuel

theorem Steady.foldlM {step : Nat → β → α → ExceptT ε Option β}
    (steady : ∀ state value, Steady (step · state value))
    (values : List α) (state : β) :
    Steady fun fuel => values.foldlM (step fuel) state :=
  fun fuel => Below.foldlM (fun state value => steady state value fuel) _ _

theorem Steady.mapM {step : Nat → α → ExceptT ε Option β}
    (steady : ∀ value, Steady (step · value)) (values : List α) :
    Steady fun fuel => values.mapM (step fuel) :=
  fun fuel => Below.mapM (fun value => steady value fuel) _

/-- A recursion that takes one more unit of fuel than its body. -/
theorem Halts.of_succ {run body : Nat → ExceptT ε Option α}
    (unfolds : ∀ fuel, run (fuel + 1) = body fuel) (halts : Halts body) :
    Halts run := by
  obtain ⟨fuel, result, done⟩ := halts
  exact ⟨fuel + 1, result, (unfolds fuel).trans done⟩

theorem Halts.bind {run : Nat → ExceptT ε Option α}
    {next : Nat → α → ExceptT ε Option β} (steady : Steady run)
    (steadyNext : ∀ value, Steady (next · value)) (halts : Halts run)
    (haltsNext : ∀ fuel value, run fuel = some (.ok value) →
      Halts (next · value)) :
    Halts fun fuel => run fuel >>= next fuel := by
  obtain ⟨fuel, result, done⟩ := halts
  cases result with
  | error problem =>
      refine ⟨fuel, .error problem, ?_⟩
      change run fuel >>= next fuel = _
      rw [done]
      rfl
  | ok value =>
      obtain ⟨more, outcome, finished⟩ := haltsNext fuel value done
      have first := (steady.le (Nat.le_max_left fuel more)).outcome done
      have second :=
        ((steadyNext value).le (Nat.le_max_right fuel more)).outcome finished
      refine ⟨max fuel more, outcome, ?_⟩
      change run (max fuel more) >>= next (max fuel more) = _
      rw [first]
      exact second

theorem Halts.mapM {step : Nat → α → ExceptT ε Option β}
    (steady : ∀ value, Steady (step · value)) {values : List α}
    (halts : ∀ value ∈ values, Halts (step · value)) :
    Halts fun fuel => values.mapM (step fuel) := by
  induction values with
  | nil => exact ⟨0, .ok [], rfl⟩
  | cons value values inductionHypothesis =>
      simp only [List.mapM_cons]
      refine Halts.bind (steady value)
        (fun result => (Steady.mapM steady values).bind
          fun results fuel => .refl _) (halts value (.head _)) ?_
      intro _ result _
      exact Halts.bind (Steady.mapM steady values) (fun _ _ => .refl _)
        (inductionHypothesis fun other member => halts other (.tail _ member))
        fun _ _ _ => ⟨0, _, rfl⟩

/-- A fold halts when each of its steps does, from the states that an
invariant of the fold allows. -/
theorem Halts.foldlM {step : Nat → β → α → ExceptT ε Option β}
    (steady : ∀ state value, Steady (step · state value))
    {invariant : List α → β → Prop} {values done : List α} {state : β}
    (start : invariant done state)
    (halts : ∀ before value after state,
      done ++ values = before ++ value :: after → invariant before state →
      Halts (step · state value))
    (kept : ∀ before value after state fuel next,
      done ++ values = before ++ value :: after → invariant before state →
      step fuel state value = some (.ok next) →
      invariant (before ++ [value]) next) :
    Halts fun fuel => values.foldlM (step fuel) state := by
  induction values generalizing done state with
  | nil => exact ⟨0, .ok state, rfl⟩
  | cons value values inductionHypothesis =>
      refine Halts.bind (steady state value)
        (fun next => Steady.foldlM steady values next)
        (halts done value values state rfl start) ?_
      intro fuel next stepped
      refine inductionHypothesis
        (kept done value values state fuel next rfl start stepped) ?_ ?_
      · intro before other after state split
        exact halts before other after state (by simpa using split)
      · intro before other after state fuel next split
        exact kept before other after state fuel next (by simpa using split)

/-- The same where each step halts from every state. -/
theorem Halts.foldlM_of_forall {step : Nat → β → α → ExceptT ε Option β}
    (steady : ∀ state value, Steady (step · state value)) {values : List α}
    (halts : ∀ value ∈ values, ∀ state, Halts (step · state value))
    (state : β) : Halts fun fuel => values.foldlM (step fuel) state := by
  induction values generalizing state with
  | nil => exact ⟨0, .ok state, rfl⟩
  | cons value values inductionHypothesis =>
      exact Halts.bind (steady state value)
        (fun next => Steady.foldlM steady values next)
        (halts value (.head _) state) fun _ next _ =>
          inductionHypothesis (fun other member => halts other (.tail _ member))
            next

/-- What a fold that succeeds keeps. -/
theorem foldlM_invariant {step : β → α → ExceptT ε Option β}
    {invariant : List α → β → Prop} {values done : List α} {state last : β}
    (folded : values.foldlM step state = some (.ok last))
    (start : invariant done state)
    (kept : ∀ before value after state next,
      done ++ values = before ++ value :: after → invariant before state →
      step state value = some (.ok next) →
      invariant (before ++ [value]) next) :
    invariant (done ++ values) last := by
  induction values generalizing done state with
  | nil =>
      cases folded
      rw [List.append_nil]
      exact start
  | cons value values inductionHypothesis =>
      rw [List.foldlM_cons] at folded
      match stepped : step state value with
      | none =>
          rw [stepped] at folded
          cases folded
      | some (.error problem) =>
          rw [stepped] at folded
          cases folded
      | some (.ok next) =>
          rw [stepped] at folded
          have rest := inductionHypothesis folded
            (kept done value values state next rfl start stepped)
            (fun before other after state next split =>
              kept before other after state next (by simpa using split))
          simpa using rest

/-- A fold that fails does so at one of its steps. -/
theorem foldlM_error {step : β → α → ExceptT ε Option β}
    {invariant : List α → β → Prop} {values done : List α} {state : β}
    {problem : ε}
    (folded : values.foldlM step state = some (.error problem))
    (start : invariant done state)
    (kept : ∀ before value after state next,
      done ++ values = before ++ value :: after → invariant before state →
      step state value = some (.ok next) →
      invariant (before ++ [value]) next) :
    ∃ before value after state, done ++ values = before ++ value :: after ∧
      invariant before state ∧ step state value = some (.error problem) := by
  induction values generalizing done state with
  | nil => cases folded
  | cons value values inductionHypothesis =>
      rw [List.foldlM_cons] at folded
      match stepped : step state value with
      | none =>
          rw [stepped] at folded
          cases folded
      | some (.error other) =>
          rw [stepped] at folded
          cases folded
          exact ⟨done, value, values, state, rfl, start, stepped⟩
      | some (.ok next) =>
          rw [stepped] at folded
          have found := inductionHypothesis folded
            (kept done value values state next rfl start stepped)
            (fun before other after state next split =>
              kept before other after state next (by simpa using split))
          simpa using found

/-- A fold whose steps succeed from the states of an invariant succeeds. -/
theorem foldlM_outcome {step : β → α → ExceptT ε Option β}
    {invariant : List α → β → Prop} {values done : List α} {state : β}
    {result : Except ε β} (folded : values.foldlM step state = some result)
    (start : invariant done state)
    (steps : ∀ before value after state outcome,
      done ++ values = before ++ value :: after → invariant before state →
      step state value = some outcome →
      ∃ next, outcome = .ok next ∧ invariant (before ++ [value]) next) :
    ∃ last, result = .ok last ∧ invariant (done ++ values) last := by
  have kept : ∀ before value after state next,
      done ++ values = before ++ value :: after → invariant before state →
      step state value = some (.ok next) →
      invariant (before ++ [value]) next := by
    intro before value after state next split holds stepped
    obtain ⟨_, same, kept⟩ :=
      steps before value after state _ split holds stepped
    cases same
    exact kept
  cases result with
  | ok last => exact ⟨last, rfl, foldlM_invariant folded start kept⟩
  | error problem =>
      obtain ⟨before, value, after, state, split, holds, failed⟩ :=
        foldlM_error folded start kept
      obtain ⟨_, same, _⟩ :=
        steps before value after state _ split holds failed
      cases same

end Web3Js.Fueled
