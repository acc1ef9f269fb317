/-!
# Programs that throw

A program over a state returns a value or throws a problem, and its state
stays as it was left in either case.  A triple says what holds of the state
before the program and after each of the two endings.
-/

namespace Web3Js

universe u

abbrev Program (ε σ : Type u) (α : Type u) := ExceptT ε (StateM σ) α

namespace Program

variable {ε σ α β : Type u}

/-- The ending and the state after it. -/
def exec (program : Program ε σ α) (state : σ) : Except ε α × σ :=
  program.run.run state

/-- An outcome from outside, which leaves the state alone. -/
def await (outcome : Except ε α) : Program ε σ α := ExceptT.mk (pure outcome)

@[simp] theorem exec_await (outcome : Except ε α) (state : σ) :
    exec (await outcome : Program ε σ α) state = (outcome, state) := rfl

theorem exec_bind (program : Program ε σ α) (next : α → Program ε σ β)
    (state : σ) :
    exec (program >>= next) state =
      match exec program state with
      | (.ok value, after) => exec (next value) after
      | (.error problem, after) => (.error problem, after) := by
  change (ExceptT.bindCont next (exec program state).1).run
    (exec program state).2 = _
  cases exec program state with
  | mk ending after =>
      cases ending with
      | ok value => rfl
      | error problem => rfl

theorem exec_tryCatch (program : Program ε σ α)
    (handler : ε → Program ε σ α) (state : σ) :
    exec (tryCatch program handler) state =
      match exec program state with
      | (.ok value, after) => (.ok value, after)
      | (.error problem, after) => exec (handler problem) after := by
  change (((program.run >>= fun ending =>
    match ending with
    | .ok value => pure (.ok value)
    | .error problem => (handler problem).run) : StateM σ (Except ε α)).run
      state) = _
  change (match (exec program state).1 with
    | .ok value => (pure (.ok value) : StateM σ (Except ε α))
    | .error problem => (handler problem).run).run
      (exec program state).2 = _
  cases exec program state with
  | mk ending after =>
      cases ending with
      | ok value => rfl
      | error problem => rfl

/-- What holds of the state before the program holds in the other two senses
after it has returned and after it has thrown. -/
def Triple (before : σ → Prop) (program : Program ε σ α)
    (returned : α → σ → Prop) (thrown : σ → Prop) : Prop :=
  ∀ state, before state →
    match exec program state with
    | (.ok value, after) => returned value after
    | (.error _, after) => thrown after

namespace Triple

variable {before : σ → Prop} {program : Program ε σ α}
  {returned : α → σ → Prop} {thrown : σ → Prop}

theorem throw (problem : ε) :
    Triple before (MonadExcept.throw problem : Program ε σ α) returned
      before := by
  intro state holds
  exact holds

theorem await (outcome : Except ε α) :
    Triple before (Program.await outcome : Program ε σ α) (fun _ => before)
      before := by
  intro state holds
  rw [exec_await]
  cases outcome with
  | ok value => exact holds
  | error problem => exact holds

theorem get :
    Triple before (MonadState.get : Program ε σ σ)
      (fun value state => value = state ∧ before state) thrown := by
  intro state holds
  exact ⟨rfl, holds⟩

theorem update {after : σ → Prop} {change : σ → σ}
    (changed : ∀ state, before state → after (change state)) :
    Triple before (modify change : Program ε σ PUnit)
      (fun _ => after) thrown := by
  intro state holds
  exact changed state holds

theorem bind {next : α → Program ε σ β} {finished : β → σ → Prop}
    (first : Triple before program returned thrown)
    (second : ∀ value, Triple (returned value) (next value) finished thrown) :
    Triple before (program >>= next) finished thrown := by
  intro state holds
  have ending := first state holds
  rw [exec_bind]
  cases ran : exec program state with
  | mk result after =>
      rw [ran] at ending
      cases result with
      | ok value => exact second value after ending
      | error problem => exact ending

theorem tryCatch {handler : ε → Program ε σ α} {failed : σ → Prop}
    (first : Triple before program returned failed)
    (second : ∀ problem, Triple failed (handler problem) returned thrown) :
    Triple before (MonadExcept.tryCatch program handler) returned thrown := by
  intro state holds
  have ending := first state holds
  rw [exec_tryCatch]
  cases ran : exec program state with
  | mk result after =>
      rw [ran] at ending
      cases result with
      | ok value => exact ending
      | error problem => exact second problem after ending

theorem weaken {stronger : σ → Prop} {returned' : α → σ → Prop}
    {thrown' : σ → Prop}
    (triple : Triple before program returned thrown)
    (atStart : ∀ state, stronger state → before state)
    (onReturn : ∀ value state, returned value state → returned' value state)
    (onThrow : ∀ state, thrown state → thrown' state) :
    Triple stronger program returned' thrown' := by
  intro state holds
  have ending := triple state (atStart state holds)
  cases ran : exec program state with
  | mk result after =>
      rw [ran] at ending
      cases result with
      | ok value => exact onReturn value after ending
      | error problem => exact onThrow after ending

end Triple

end Program

end Web3Js
