import Web3Js.Send.Tolerance

/-!
# What a wait leaves behind

Once a wait is over, nothing that it created should be active or start later:
no interval, no timer, and no subscription that is not being removed.  The
conditions under which this holds are exact for every task, and so for waiting
for a receipt and for sending a transaction.
-/

namespace Web3Js.Send.Waiting

section Stopping

/-- No interval and no timer is left, and a subscription is being removed. -/
structure BlockTimeout.Stopped (block : BlockTimeout) : Prop where
  intervals : ∀ poller ∈ block.pollers, poller.interval = false
  headerTimer : block.headerTimer = false
  subscription : block.subscription = true → block.removals ≠ 0

variable {μ ℓ ρ : Type}

structure Call.Stopped (task : Task μ ℓ ρ) (call : Call μ ρ) : Prop where
  main : task.active call.main = false
  timer : call.timer = false
  blocks : ∀ block, call.setup = .racing block → block.Stopped

/-- A call that is over has left nothing behind. -/
def Contained (task : Task μ ℓ ρ) (call : Call μ ρ) : Prop :=
  call.outcome ≠ none → call.Stopped task

/-- When a label settles the promise of a task, and when nothing of the task
is left then. -/
structure Discipline (task : Task μ ℓ ρ) where
  ends : μ → ℓ → Prop
  quits : μ → ℓ → Prop
  settled_iff : ∀ main label, task.settled main = none →
    (task.settled (task.step main label) ≠ none ↔ ends main label)
  inactive_iff : ∀ main label, ends main label →
    (task.active (task.step main label) = false ↔ quits main label)
  inactive_step : ∀ main label, task.active main = false →
    task.active (task.step main label) = false

/-- The cleaner will leave nothing: the timer for the first header is gone,
and the subscription is what the cleaner removes or is being removed. -/
structure BlockTimeout.Ready (block : BlockTimeout) : Prop where
  headerTimer : block.headerTimer = false
  subscription : block.subscription = true →
    block.cleaner = .removeSubscription ∨ block.removals ≠ 0

/-- The label brings a block number that reaches the timeout. -/
def BlockTimeout.Reaches (config : Config) (block : BlockTimeout) :
    BlockLabel → Prop
  | .header header =>
      block.subscription = true ∧
        ∃ number ∈ headerNumber header, block.Reached config number
  | .answer index (.ok number) =>
      (∃ poller ∈ block.pollers[index]?, poller.requests ≠ 0) ∧
        block.Reached config number
  | _ => False

/-- The label starts polling again, or the removal of the subscription
fails. -/
def BlockTimeout.Restarts (block : BlockTimeout) : BlockLabel → Prop
  | .subscriptionError => block.subscription = true
  | .removed false => block.subscription = true ∧ block.removals = 1
  | _ => False

/-- The race is decided when it starts. -/
def Call.Decided (task : Task μ ℓ ρ) (call : Call μ ρ) : Prop :=
  task.settled (task.start call.main) ≠ none ∨ call.timedOut = true

/-- The steps that leave nothing behind: whatever ends the wait comes when the
task has no interval or timer left and the cleaner finds all that is there,
and once the wait is over no error of the subscription and no failed removal
follow. -/
def Orderly {task : Task μ ℓ ρ} (discipline : Discipline task)
    (config : Config) (call : Call μ ρ) : Label ℓ → Prop
  | .main label =>
      call.outcome = none → ∀ block, call.setup = .racing block →
        discipline.ends call.main label →
          discipline.quits call.main label ∧ block.Ready
  | .blockNumber (.error _) =>
      call.outcome = none → call.setup = .requestingBlockNumber →
        task.active call.main = false ∧ call.timer = false
  | .blockNumber (.ok _) =>
      call.outcome = none → call.setup = .requestingBlockNumber →
        config.useSubscription = false → call.Decided task →
          task.active (task.start call.main) = false
  | .subscribed =>
      call.outcome = none → ∀ number, call.setup = .subscribing number →
        ¬ call.Decided task
  | .subscribeFailed =>
      call.outcome = none → ∀ number, call.setup = .subscribing number →
        call.Decided task → task.active (task.start call.main) = false
  | .timeout =>
      call.outcome = none → call.timer = true →
        ∀ block, call.setup = .racing block →
          task.active call.main = false ∧ block.Ready
  | .block label =>
      ∀ block, call.setup = .racing block →
        (call.outcome = none → block.Reaches config label →
          task.active call.main = false ∧ block.Ready) ∧
        (call.outcome ≠ none → ¬ block.Restarts label)

end Stopping

section Blocks

variable {block : BlockTimeout}

/-- The cleaner knows the interval that runs. -/
def BlockTimeout.Tidy (block : BlockTimeout) : Prop :=
  ∀ index poller, block.pollers[index]? = some poller →
    poller.interval = true → block.cleaner = .clearInterval index

namespace BlockTimeout

theorem intervals_clean (tidy : block.Tidy) :
    ∀ poller ∈ block.clean.pollers, poller.interval = false := by
  intro poller member
  rw [Bool.eq_false_iff]
  intro running
  obtain ⟨index, found⟩ := List.mem_iff_getElem?.mp member
  cases cleaner : block.cleaner with
  | removeSubscription =>
      have same : block.clean.pollers = block.pollers := by
        unfold clean
        rw [cleaner]
        dsimp only
        split <;> rfl
      rw [same] at found
      have knows := tidy index poller found running
      rw [cleaner] at knows
      cases knows
  | clearInterval cleared =>
      have same : block.clean.pollers =
          block.pollers.modify cleared stop := by
        unfold clean
        rw [cleaner]
      rw [same, List.getElem?_modify] at found
      split at found
      · cases before : block.pollers[index]? with
        | none =>
            rw [before] at found
            cases found
        | some other =>
            rw [before] at found
            cases found
            cases running
      · rename_i different
        apply different
        have knows := tidy index poller (by simpa using found) running
        rw [cleaner] at knows
        exact Cleaner.clearInterval.inj knows

theorem headerTimer_clean (block : BlockTimeout) :
    block.clean.headerTimer = block.headerTimer := by
  unfold clean
  split
  · split <;> rfl
  · rfl

theorem subscription_clean (block : BlockTimeout) :
    block.clean.subscription = block.subscription := by
  unfold clean
  split
  · split <;> rfl
  · rfl

/-- The cleaner stops everything exactly where it is ready. -/
theorem stopped_clean (tidy : block.Tidy) :
    block.clean.Stopped ↔ block.Ready := by
  have removals : block.subscription = true →
      (block.clean.removals ≠ 0 ↔
        block.cleaner = .removeSubscription ∨ block.removals ≠ 0) := by
    intro subscribed
    unfold clean
    split
    · rename_i cleaner
      rw [if_pos subscribed, cleaner]
      exact ⟨fun _ => .inl rfl, fun _ => Nat.succ_ne_zero _⟩
    · rename_i index cleaner
      rw [cleaner]
      exact ⟨.inr, fun either => either.resolve_left nofun⟩
  constructor
  · intro stopped
    refine ⟨?_, fun subscribed => ?_⟩
    · rw [← headerTimer_clean]
      exact stopped.headerTimer
    · apply (removals subscribed).mp
      apply stopped.subscription
      rw [subscription_clean, subscribed]
  · intro ready
    refine ⟨intervals_clean tidy, ?_, fun subscribed => ?_⟩
    · rw [headerTimer_clean]
      exact ready.headerTimer
    · rw [subscription_clean] at subscribed
      exact (removals subscribed).mpr (ready.subscription subscribed)

theorem Tidy.set (tidy : block.Tidy) {index : Nat} {poller changed : BlockPoller}
    (found : block.pollers[index]? = some poller)
    (running : changed.interval = true → poller.interval = true) :
    ∀ place other, (block.pollers.set index changed)[place]? = some other →
      other.interval = true → block.cleaner = .clearInterval place := by
  intro place other isOther runs
  rw [List.getElem?_set] at isOther
  split at isOther
  · rename_i same
    subst same
    split at isOther
    · cases isOther
      exact tidy index poller found (running runs)
    · cases isOther
  · exact tidy place other isOther runs

theorem Tidy.revertToPolling (tidy : block.Tidy) :
    block.revertToPolling.Tidy := by
  intro index poller found running
  change (block.clean.pollers ++ [BlockPoller.mk true 0])[index]? = _ at found
  rw [List.getElem?_append] at found
  split at found
  · rw [intervals_clean tidy poller (List.mem_of_getElem? found)] at running
    cases running
  · rename_i beyond
    have last : index - block.clean.pollers.length = 0 := by
      cases place : index - block.clean.pollers.length with
      | zero => rfl
      | succ place =>
          rw [place] at found
          cases found
    have same : index = block.clean.pollers.length := by omega
    rw [same]
    rfl

theorem Tidy.step (tidy : block.Tidy) (config : Config) (label : BlockLabel) :
    (block.step config label).Tidy := by
  cases label with
  | header header =>
      simp only [BlockTimeout.step, onHeader]
      split
      · split
        · exact tidy
        · split <;> exact tidy
      · exact tidy
  | subscriptionError =>
      simp only [BlockTimeout.step]
      split
      · exact tidy.revertToPolling
      · exact tidy
  | removed succeeded =>
      simp only [BlockTimeout.step]
      split <;> exact tidy
  | headerTimeout =>
      simp only [BlockTimeout.step]
      split
      · split
        · exact Tidy.revertToPolling tidy
        · exact tidy
      · exact tidy
  | tick index =>
      simp only [BlockTimeout.step]
      split
      · exact tidy
      · rename_i poller found
        split
        · exact tidy.set found id
        · exact tidy
  | answer index lastBlockNumber =>
      simp only [BlockTimeout.step]
      split
      · exact tidy
      · rename_i poller found
        split
        · exact tidy
        · unfold onAnswer
          dsimp only
          split
          · exact tidy.set found id
          · split
            · exact tidy.set found (by rintro ⟨⟩)
            · exact tidy.set found id

theorem not_stopped_revertToPolling (block : BlockTimeout) :
    ¬ block.revertToPolling.Stopped := by
  intro stopped
  have quiet := stopped.intervals (BlockPoller.mk true 0)
    (List.mem_append_right _ (List.mem_singleton_self _))
  cases quiet

theorem mem_set_interval {pollers : List BlockPoller} {index : Nat}
    {changed : BlockPoller}
    (quiet : ∀ poller ∈ pollers, poller.interval = false)
    (stays : changed.interval = false) :
    ∀ poller ∈ pollers.set index changed, poller.interval = false := by
  intro poller member
  rcases List.mem_or_eq_of_mem_set member with before | same
  · exact quiet poller before
  · rw [same]
    exact stays

/-- Once everything is stopped, it stays so exactly if nothing restarts. -/
theorem Stopped.step_iff (stopped : block.Stopped) (config : Config)
    (label : BlockLabel) :
    (block.step config label).Stopped ↔ ¬ block.Restarts label := by
  cases label with
  | header header =>
      refine ⟨fun _ => id, fun _ => ?_⟩
      obtain ⟨intervals, headerTimer, subscription⟩ := stopped
      simp only [BlockTimeout.step, onHeader]
      split
      · split
        · exact ⟨intervals, headerTimer, subscription⟩
        · split <;> exact ⟨intervals, headerTimer, subscription⟩
      · exact ⟨intervals, headerTimer, subscription⟩
  | subscriptionError =>
      simp only [BlockTimeout.step, Restarts]
      split
      · rename_i subscribed
        exact ⟨fun still => absurd still (not_stopped_revertToPolling block),
          fun unsubscribed => absurd subscribed unsubscribed⟩
      · rename_i unsubscribed
        exact ⟨fun _ => unsubscribed, fun _ => stopped⟩
  | removed succeeded =>
      simp only [BlockTimeout.step]
      split
      · rename_i none
        refine ⟨fun _ restarts => ?_, fun _ => stopped⟩
        cases succeeded with
        | true => exact restarts
        | false =>
            rw [restarts.2] at none
            cases none
      · rename_i some
        cases succeeded with
        | true =>
            refine ⟨fun _ => id, fun _ => ⟨stopped.intervals,
              stopped.headerTimer, fun subscribed => ?_⟩⟩
            rw [Bool.not_true, Bool.and_false] at subscribed
            cases subscribed
        | false =>
            constructor
            · rintro still ⟨subscribed, last⟩
              apply still.subscription
              · exact Bool.and_eq_true_iff.mpr ⟨subscribed, rfl⟩
              · change block.removals - 1 = 0
                omega
            · intro calm
              refine ⟨stopped.intervals, stopped.headerTimer,
                fun subscribed => ?_⟩
              have there := (Bool.and_eq_true_iff.mp subscribed).1
              have many : block.removals ≠ 1 := fun last => calm ⟨there, last⟩
              change block.removals - 1 ≠ 0
              omega
  | headerTimeout =>
      refine ⟨fun _ => id, fun _ => ?_⟩
      simp only [BlockTimeout.step, stopped.headerTimer]
      exact stopped
  | tick index =>
      refine ⟨fun _ => id, fun _ => ?_⟩
      simp only [BlockTimeout.step]
      split
      · exact stopped
      · rename_i poller found
        rw [stopped.intervals poller (List.mem_of_getElem? found)]
        exact stopped
  | answer index lastBlockNumber =>
      have quiet : (block.step config (.answer index lastBlockNumber)).Stopped := by
        simp only [BlockTimeout.step]
        split
        · exact stopped
        · rename_i poller found
          have stays := stopped.intervals poller (List.mem_of_getElem? found)
          split
          · exact stopped
          · unfold onAnswer
            dsimp only
            split
            · exact ⟨mem_set_interval stopped.intervals stays,
                stopped.headerTimer, stopped.subscription⟩
            · split
              · exact ⟨mem_set_interval stopped.intervals rfl,
                  stopped.headerTimer, stopped.subscription⟩
              · exact ⟨mem_set_interval stopped.intervals stays,
                  stopped.headerTimer, stopped.subscription⟩
      exact ⟨fun _ => id, fun _ => quiet⟩

/-- The timeout is reached by the labels that bring such a number. -/
theorem rejected_step_iff (config : Config) (fresh : block.rejected = false)
    (label : BlockLabel) :
    (block.step config label).rejected = true ↔
      block.Reaches config label := by
  have never : ∀ other : BlockTimeout, other.rejected = block.rejected →
      ¬ other.rejected = true := by
    intro other same rejected
    rw [same, fresh] at rejected
    cases rejected
  cases label with
  | header header =>
      simp only [BlockTimeout.step, onHeader, Reaches]
      split
      · rename_i subscribed
        split
        · rename_i missing
          refine ⟨fun rejected => absurd rejected (never _ rfl), ?_⟩
          rintro ⟨-, number, there, -⟩
          rw [missing] at there
          cases there
        · rename_i number there
          split
          · rename_i reached
            exact ⟨fun _ => ⟨subscribed, number, there, reached⟩, fun _ => rfl⟩
          · rename_i early
            refine ⟨fun rejected => absurd rejected (never _ rfl), ?_⟩
            rintro ⟨-, other, same, reached⟩
            rw [there] at same
            cases same
            exact absurd reached early
      · rename_i unsubscribed
        exact ⟨fun rejected => absurd rejected (never _ rfl),
          fun reaches => absurd reaches.1 unsubscribed⟩
  | subscriptionError =>
      simp only [BlockTimeout.step, Reaches, iff_false]
      split
      · exact never _ block.rejected_revertToPolling
      · exact never _ rfl
  | removed succeeded =>
      simp only [BlockTimeout.step, Reaches, iff_false]
      split <;> exact never _ rfl
  | headerTimeout =>
      simp only [BlockTimeout.step, Reaches, iff_false]
      split
      · split
        · exact never _ (rejected_revertToPolling _)
        · exact never _ rfl
      · exact never _ rfl
  | tick index =>
      simp only [BlockTimeout.step, Reaches, iff_false]
      split
      · exact never _ rfl
      · split <;> exact never _ rfl
  | answer index lastBlockNumber =>
      cases lastBlockNumber with
      | error failure =>
          simp only [BlockTimeout.step, Reaches, iff_false]
          split
          · exact never _ rfl
          · split <;> exact never _ rfl
      | ok number =>
          simp only [BlockTimeout.step, Reaches]
          cases found : block.pollers[index]? with
          | none =>
              refine ⟨fun rejected => absurd rejected (never _ rfl), ?_⟩
              rintro ⟨⟨poller, there, -⟩, -⟩
              cases there
          | some poller =>
              dsimp only
              split
              · rename_i none
                refine ⟨fun rejected => absurd rejected (never _ rfl), ?_⟩
                rintro ⟨⟨other, same, some⟩, -⟩
                cases same
                exact absurd none some
              · rename_i some
                unfold onAnswer
                dsimp only
                split
                · rename_i reached
                  exact ⟨fun _ => ⟨⟨poller, rfl, some⟩, reached⟩,
                    fun _ => rfl⟩
                · rename_i early
                  exact ⟨fun rejected => absurd rejected (never _ rfl),
                    fun reaches => absurd reaches.2 early⟩

/-- Reaching the timeout does not change what the cleaner finds. -/
theorem ready_step_of_reaches {config : Config} {label : BlockLabel}
    (reaches : block.Reaches config label) :
    (block.step config label).Ready ↔ block.Ready := by
  have same : ∀ other : BlockTimeout, other.headerTimer = block.headerTimer →
      other.subscription = block.subscription →
      other.cleaner = block.cleaner → other.removals = block.removals →
      (other.Ready ↔ block.Ready) := by
    intro other timer subscription cleaner removals
    constructor
    · rintro ⟨stopped, removing⟩
      rw [timer] at stopped
      rw [subscription, cleaner, removals] at removing
      exact ⟨stopped, removing⟩
    · rintro ⟨stopped, removing⟩
      rw [← timer] at stopped
      rw [← subscription, ← cleaner, ← removals] at removing
      exact ⟨stopped, removing⟩
  cases label with
  | header header =>
      simp only [BlockTimeout.step, onHeader]
      split
      · split
        · exact same _ rfl rfl rfl rfl
        · split <;> exact same _ rfl rfl rfl rfl
      · exact same _ rfl rfl rfl rfl
  | answer index lastBlockNumber =>
      simp only [BlockTimeout.step]
      split
      · exact same _ rfl rfl rfl rfl
      · split
        · exact same _ rfl rfl rfl rfl
        · unfold onAnswer
          dsimp only
          split
          · exact same _ rfl rfl rfl rfl
          · split <;> exact same _ rfl rfl rfl rfl
  | _ => exact reaches.elim

end BlockTimeout

end Blocks

section Calls

variable {μ ℓ ρ : Type} {task : Task μ ℓ ρ} {call : Call μ ρ}

/-- What orderly steps keep. -/
structure Kept (task : Task μ ℓ ρ) (call : Call μ ρ) : Prop where
  contained : Contained task call
  ended : call.outcome ≠ none → ∀ number, call.setup ≠ .subscribing number
  pending : call.outcome = none → ∀ block, call.setup = .racing block →
    block.Tidy ∧ task.settled call.main = none ∧ call.timedOut = false ∧
      block.rejected = false

theorem winner_eq_none (block : BlockTimeout) :
    call.winner task block = none ↔
      task.settled call.main = none ∧ call.timedOut = false ∧
        block.rejected = false := by
  unfold Call.winner
  cases task.settled call.main with
  | some result => cases result <;> simp
  | none => cases call.timedOut <;> cases block.rejected <;> simp

/-- A race that can be settled leaves nothing exactly if the task has no
interval or timer left and the cleaner is ready. -/
theorem kept_race (task : Task μ ℓ ρ) (call : Call μ ρ)
    (pending : call.outcome = none)
    (tidy : ∀ block, call.setup = .racing block → block.Tidy) :
    (Kept task (call.race task) ↔ Contained task (call.race task)) ∧
      (Contained task (call.race task) ↔
        ∀ block, call.setup = .racing block →
          call.winner task block ≠ none →
            task.active call.main = false ∧ block.Ready) := by
  by_cases isRacing : ∃ block, call.setup = .racing block
  · obtain ⟨block, racing⟩ := isRacing
    cases wins : call.winner task block with
    | none =>
        rw [Call.race_of_none task racing wins]
        have vacuous : Contained task call := fun finished => absurd pending finished
        refine ⟨⟨Kept.contained, fun contained => ?_⟩, ?_⟩
        · exact ⟨contained, fun finished => absurd pending finished,
            fun _ other same => ⟨tidy other same, by
              rw [racing] at same
              cases same
              exact (winner_eq_none block).mp wins⟩⟩
        · refine ⟨fun _ other same decided => ?_, fun _ => vacuous⟩
          rw [racing] at same
          cases same
          exact absurd wins decided
    | some outcome =>
        rw [Call.race_of_winner task pending racing wins]
        refine ⟨⟨Kept.contained, fun contained => ?_⟩, ?_, ?_⟩
        · exact ⟨contained, fun _ => nofun, nofun⟩
        · intro contained other same _
          rw [racing] at same
          cases same
          have stopped := contained (Option.some_ne_none outcome)
          exact ⟨stopped.main, (BlockTimeout.stopped_clean
            (tidy block racing)).mp (stopped.blocks _ rfl)⟩
        · intro leaves _
          obtain ⟨inactive, ready⟩ := leaves block racing
            (by rw [wins]; exact Option.some_ne_none outcome)
          refine ⟨inactive, rfl, fun other same => ?_⟩
          cases same
          exact (BlockTimeout.stopped_clean (tidy block racing)).mpr ready
  · have setup : ¬ call.Racing := isRacing
    rw [Call.race_of_setup task setup]
    refine ⟨⟨Kept.contained, fun contained => ?_⟩, ?_⟩
    · exact ⟨contained, fun finished => absurd pending finished,
        fun _ block racing => absurd ⟨block, racing⟩ isRacing⟩
    · exact ⟨fun _ block racing => absurd ⟨block, racing⟩ isRacing,
        fun _ finished => absurd pending finished⟩

variable {config : Config} {discipline : Discipline task}

/-- The steps of a call that is over. -/
theorem Kept.step_of_over (kept : Kept task call) (finished : call.outcome ≠ none)
    (label : Label ℓ) :
    (Kept task (call.step task config label) ↔
        Contained task (call.step task config label)) ∧
      (Contained task (call.step task config label) ↔
        Orderly discipline config call label) := by
  have stopped := kept.contained finished
  have still := Call.outcome_advance task config finished label
  have overStill : (call.advance task config label).outcome ≠ none := by
    rw [still]
    exact finished
  have raced : call.step task config label = call.advance task config label :=
    Call.race_of_over task overStill
  rw [raced]
  have keeps : (∀ number, (call.advance task config label).setup ≠
      .subscribing number) →
      (Kept task (call.advance task config label) ↔
        Contained task (call.advance task config label)) := fun setup =>
    ⟨Kept.contained, fun contained => ⟨contained, fun _ => setup,
      fun pending => absurd pending overStill⟩⟩
  have same : call.advance task config label = call →
      Orderly discipline config call label →
      (Kept task (call.advance task config label) ↔
        Contained task (call.advance task config label)) ∧
      (Contained task (call.advance task config label) ↔
        Orderly discipline config call label) := by
    intro unchanged orderly
    rw [unchanged] at keeps ⊢
    exact ⟨keeps (kept.ended finished), fun _ => orderly, fun _ => kept.contained⟩
  cases label with
  | main label =>
      refine ⟨keeps (kept.ended finished), fun _ pending => absurd pending finished,
        fun _ _ => ?_⟩
      exact ⟨discipline.inactive_step _ label stopped.main, stopped.timer,
        stopped.blocks⟩
  | blockNumber answer =>
      apply same
      · simp only [Call.advance]
        split
        · rename_i pending
          exact absurd pending finished
        · rename_i pending
          exact absurd pending finished
        · rfl
      · cases answer <;> exact fun pending => absurd pending finished
  | subscribed =>
      apply same
      · simp only [Call.advance]
        split
        · rename_i number subscribing
          exact absurd subscribing (kept.ended finished number)
        · rfl
      · exact fun pending => absurd pending finished
  | subscribeFailed =>
      apply same
      · simp only [Call.advance]
        split
        · rename_i number subscribing
          exact absurd subscribing (kept.ended finished number)
        · rfl
      · exact fun pending => absurd pending finished
  | timeout =>
      apply same
      · simp only [Call.advance, stopped.timer]
        rfl
      · exact fun pending => absurd pending finished
  | block label =>
      cases setup : call.setup with
      | racing block =>
          have advanced : call.advance task config (.block label) =
              { call with setup := .racing (block.step config label) } := by
            simp only [Call.advance, setup]
          have steps := (stopped.blocks block setup).step_iff config label
          refine ⟨keeps ?_, ?_, ?_⟩
          · intro number
            rw [advanced]
            rintro ⟨⟩
          · intro contained other racing
            rw [setup] at racing
            cases racing
            refine ⟨fun pending => absurd pending finished, fun _ => steps.mp ?_⟩
            rw [advanced] at contained
            exact (contained finished).blocks _ rfl
          · intro orderly _
            rw [advanced]
            refine ⟨stopped.main, stopped.timer, fun other racing => ?_⟩
            cases racing
            exact steps.mpr ((orderly block setup).2 finished)
      | requestingBlockNumber =>
          apply same
          · simp only [Call.advance, setup]
          · intro block racing
            rw [setup] at racing
            cases racing
      | subscribing number =>
          apply same
          · simp only [Call.advance, setup]
          · intro block racing
            rw [setup] at racing
            cases racing

/-- The starting block number cannot be had, and the call is over without a
cleaner. -/
theorem Kept.step_of_failed (pending : call.outcome = none)
    (requesting : call.setup = .requestingBlockNumber) (failure : Failure) :
    (Kept task (call.step task config (.blockNumber (.error failure))) ↔
        Contained task (call.step task config
          (.blockNumber (.error failure)))) ∧
      (Contained task (call.step task config
          (.blockNumber (.error failure))) ↔
        Orderly discipline config call (.blockNumber (.error failure))) := by
  have advanced : call.advance task config (.blockNumber (.error failure)) =
      { call with outcome := some (.failed failure) } := by
    simp only [Call.advance, requesting, pending]
  have raced : call.step task config (.blockNumber (.error failure)) =
      { call with outcome := some (.failed failure) } := by
    rw [Call.step, advanced, Call.race_of_over]
    exact Option.some_ne_none _
  rw [raced]
  refine ⟨⟨Kept.contained, fun contained => ⟨contained, ?_, by rintro ⟨⟩⟩⟩, ?_, ?_⟩
  · intro _ number subscribing
    rw [requesting] at subscribing
    cases subscribing
  · intro contained _ _
    have stopped := contained (Option.some_ne_none _)
    exact ⟨stopped.main, stopped.timer⟩
  · intro orderly _
    obtain ⟨inactive, timer⟩ := orderly pending requesting
    refine ⟨inactive, timer, fun block racing => ?_⟩
    rw [requesting] at racing
    cases racing

/-- The race starts with a block count that is tidy. -/
theorem Kept.step_of_enter {block : BlockTimeout} {label : Label ℓ}
    (pending : call.outcome = none) (tidy : block.Tidy)
    (fresh : block.rejected = false)
    (advanced : call.advance task config label = call.enter task block)
    (orderly : Orderly discipline config call label ↔
      (call.Decided task →
        task.active (task.start call.main) = false ∧ block.Ready)) :
    (Kept task (call.step task config label) ↔
        Contained task (call.step task config label)) ∧
      (Contained task (call.step task config label) ↔
        Orderly discipline config call label) := by
  rw [Call.step, advanced, orderly]
  obtain ⟨keeps, leaves⟩ := kept_race task (call.enter task block) pending
    fun other racing => by
      cases racing
      exact tidy
  refine ⟨keeps, leaves.trans ?_⟩
  have decided : (call.enter task block).winner task block ≠ none ↔
      call.Decided task := by
    rw [Ne, winner_eq_none, fresh]
    unfold Call.Decided
    change ¬ (task.settled (task.start call.main) = none ∧
      call.timedOut = false ∧ _) ↔ _
    rw [and_iff_left rfl, not_and_or, Bool.not_eq_false]
  constructor
  · intro each isDecided
    exact each block rfl (decided.mpr isDecided)
  · intro ready other racing wins
    cases racing
    exact ready (decided.mp wins)

/-- A step that changes nothing while the call is pending. -/
theorem Kept.step_of_same (kept : Kept task call)
    (pending : call.outcome = none) {label : Label ℓ}
    (advanced : call.advance task config label = call)
    (orderly : Orderly discipline config call label) :
    (Kept task (call.step task config label) ↔
        Contained task (call.step task config label)) ∧
      (Contained task (call.step task config label) ↔
        Orderly discipline config call label) := by
  rw [Call.step, advanced]
  obtain ⟨keeps, leaves⟩ := kept_race task call pending
    fun block racing => (kept.pending pending block racing).1
  refine ⟨keeps, fun _ => orderly, fun _ => leaves.mpr ?_⟩
  intro block racing wins
  exact absurd ((winner_eq_none block).mpr
    (kept.pending pending block racing).2) wins

theorem tidy_resolveByPolling (number : Int) :
    (resolveByPolling number).Tidy := by
  intro index poller found _
  cases index with
  | zero => rfl
  | succ index => nomatch found

theorem tidy_resolveBySubscription (number : Int) :
    (resolveBySubscription number).Tidy :=
  nofun

/-- While a call is pending, what a step keeps is that the call leaves nothing
behind, and this holds exactly for orderly steps. -/
theorem Kept.step_spec (discipline : Discipline task)
    (kept : Kept task call) (label : Label ℓ) :
    (Kept task (call.step task config label) ↔
        Contained task (call.step task config label)) ∧
      (Contained task (call.step task config label) ↔
        Orderly discipline config call label) := by
  by_cases finished : call.outcome ≠ none
  · exact kept.step_of_over finished label
  have pending : call.outcome = none := not_not.mp finished
  cases label with
  | main label =>
      obtain ⟨keeps, leaves⟩ := kept_race task
        (call.advance task config (.main label)) pending
        fun block racing => (kept.pending pending block racing).1
      refine ⟨keeps, leaves.trans ⟨fun each _ block racing ends => ?_,
        fun orderly block racing wins => ?_⟩⟩
      · obtain ⟨-, unsettled, -⟩ := kept.pending pending block racing
        have settles := (discipline.settled_iff _ label unsettled).mpr ends
        obtain ⟨inactive, ready⟩ := each block racing
          fun none => settles ((winner_eq_none block).mp none).1
        exact ⟨(discipline.inactive_iff _ label ends).mp inactive, ready⟩
      · obtain ⟨-, unsettled, timer, fresh⟩ := kept.pending pending block racing
        have settles : task.settled (task.step call.main label) ≠ none :=
          fun none => wins ((winner_eq_none block).mpr ⟨none, timer, fresh⟩)
        have ends := (discipline.settled_iff _ label unsettled).mp settles
        obtain ⟨quits, ready⟩ := orderly pending block racing ends
        exact ⟨(discipline.inactive_iff _ label ends).mpr quits, ready⟩
  | blockNumber answer =>
      by_cases requesting : call.setup = .requestingBlockNumber
      · cases answer with
        | error failure => exact Kept.step_of_failed pending requesting failure
        | ok number =>
            cases strategy : config.useSubscription with
            | true =>
                have advanced : call.advance task config
                    (.blockNumber (.ok number)) =
                      { call with setup := .subscribing number } := by
                  simp only [Call.advance, requesting, pending, strategy]
                  rfl
                rw [Call.step, advanced]
                obtain ⟨keeps, leaves⟩ := kept_race task
                  { call with setup := .subscribing number } pending (by rintro _ ⟨⟩)
                refine ⟨keeps, fun _ _ _ polling => ?_,
                  fun _ => leaves.mpr (by rintro _ ⟨⟩)⟩
                rw [strategy] at polling
                cases polling
            | false =>
                apply Kept.step_of_enter pending (tidy_resolveByPolling number)
                  rfl
                · simp only [Call.advance, requesting, pending, strategy]
                  rfl
                · constructor
                  · intro orderly decided
                    exact ⟨orderly pending requesting strategy decided, rfl,
                      (by rintro ⟨⟩)⟩
                  · intro ready _ _ _ decided
                    exact (ready decided).1
      · apply kept.step_of_same pending
        · simp only [Call.advance]
          split
          · rename_i first _
            exact absurd first requesting
          · rename_i first _
            exact absurd first requesting
          · rfl
        · cases answer <;> exact fun _ first => absurd first requesting
  | subscribed =>
      by_cases subscribing : ∃ number, call.setup = .subscribing number
      · obtain ⟨number, subscribing⟩ := subscribing
        apply Kept.step_of_enter pending (tidy_resolveBySubscription number)
          rfl
        · simp only [Call.advance, subscribing]
        · constructor
          · intro orderly decided
            exact absurd decided (orderly pending number subscribing)
          · intro ready _ _ _ decided
            cases (ready decided).2.headerTimer
      · apply kept.step_of_same pending
        · simp only [Call.advance]
          split
          · rename_i number first
            exact absurd ⟨number, first⟩ subscribing
          · rfl
        · exact fun _ number first => absurd ⟨number, first⟩ subscribing
  | subscribeFailed =>
      by_cases subscribing : ∃ number, call.setup = .subscribing number
      · obtain ⟨number, subscribing⟩ := subscribing
        apply Kept.step_of_enter pending (tidy_resolveByPolling number) rfl
        · simp only [Call.advance, subscribing]
        · constructor
          · intro orderly decided
            exact ⟨orderly pending number subscribing decided, rfl, by rintro ⟨⟩⟩
          · intro ready _ _ _ decided
            exact (ready decided).1
      · apply kept.step_of_same pending
        · simp only [Call.advance]
          split
          · rename_i number first
            exact absurd ⟨number, first⟩ subscribing
          · rfl
        · exact fun _ number first => absurd ⟨number, first⟩ subscribing
  | timeout =>
      cases timer : call.timer with
      | false =>
          apply kept.step_of_same pending
          · simp only [Call.advance, timer]
            rfl
          · intro _ running
            rw [timer] at running
            cases running
      | true =>
          have advanced : call.advance task config .timeout =
              { call with timer := false, timedOut := true } := by
            simp only [Call.advance, timer]
            rfl
          rw [Call.step, advanced]
          obtain ⟨keeps, leaves⟩ := kept_race task
            { call with timer := false, timedOut := true } pending
            fun block racing => (kept.pending pending block racing).1
          refine ⟨keeps, leaves.trans ⟨fun each _ _ block racing => ?_,
            fun orderly block racing _ => ?_⟩⟩
          · exact each block racing fun none =>
              by cases ((winner_eq_none block).mp none).2.1
          · exact orderly pending timer block racing
  | block label =>
      cases setup : call.setup with
      | racing block =>
          obtain ⟨tidy, unsettled, timer, fresh⟩ :=
            kept.pending pending block setup
          have advanced : call.advance task config (.block label) =
              { call with setup := .racing (block.step config label) } := by
            simp only [Call.advance, setup]
          rw [Call.step, advanced]
          obtain ⟨keeps, leaves⟩ := kept_race task
            { call with setup := .racing (block.step config label) } pending
            fun other racing => by
              cases racing
              exact tidy.step config label
          have reaches := block.rejected_step_iff config fresh label
          refine ⟨keeps, leaves.trans ⟨fun each other racing =>
            ⟨fun _ reached => ?_, fun finished => absurd pending finished⟩,
            fun orderly other racing wins => ?_⟩⟩
          · rw [setup] at racing
            cases racing
            obtain ⟨inactive, ready⟩ := each _ rfl fun none => by
              have unreached := ((winner_eq_none _).mp none).2.2
              rw [reaches.mpr reached] at unreached
              cases unreached
            exact ⟨inactive,
              (BlockTimeout.ready_step_of_reaches reached).mp ready⟩
          · cases racing
            have reached : block.Reaches config label := by
              apply reaches.mp
              rw [← Bool.not_eq_false]
              intro unreached
              exact wins ((winner_eq_none _).mpr ⟨unsettled, timer, unreached⟩)
            obtain ⟨inactive, ready⟩ := (orderly block setup).1 pending reached
            exact ⟨inactive,
              (BlockTimeout.ready_step_of_reaches reached).mpr ready⟩
      | requestingBlockNumber =>
          apply kept.step_of_same pending
          · simp only [Call.advance, setup]
          · intro block racing
            rw [setup] at racing
            cases racing
      | subscribing number =>
          apply kept.step_of_same pending
          · simp only [Call.advance, setup]
          · intro block racing
            rw [setup] at racing
            cases racing

theorem kept_initial (task : Task μ ℓ ρ) : Kept task (Call.initial task) where
  contained finished := absurd rfl finished
  ended finished := absurd rfl finished
  pending _ _ := nofun

/-- For every task, a call leaves nothing behind along a run exactly if its
steps are orderly. -/
theorem contained_iff_orderly (discipline : Discipline task) (config : Config)
    (labels : List (Label ℓ)) :
    (∀ before, before <+: labels →
        Contained task (run (Call.step task config) (Call.initial task)
          before)) ↔
      Run.Meets (Call.step task config) (Orderly discipline config)
        (Call.initial task) labels := by
  apply Run.along_iff_meets
  · intro call label (kept : Kept task call) orderly
    obtain ⟨keeps, leaves⟩ := kept.step_spec discipline label
    exact keeps.mpr (leaves.mpr orderly)
  · intro call label kept contained
    exact (kept.step_spec discipline label).2.mp contained
  · intro call kept
    exact kept.contained
  · exact kept_initial task

end Calls

section Disciplines

variable {ρ : Type}

namespace Polling

/-- A poll that is answered in time with a failure or with a receipt settles
the promise. -/
def Ends (polling : Polling ρ) : PollLabel ρ → Prop
  | .answer index (.error _) => polling.polls[index]? = some .waiting
  | .answer index (.ok (some _)) => polling.polls[index]? = some .waiting
  | _ => False

/-- A receipt leaves nothing where no other poll has a timer; a failure leaves
the timer of its own poll. -/
def Quits (polling : Polling ρ) : PollLabel ρ → Prop
  | .answer index (.ok (some _)) =>
      ∀ place poll, place ≠ index → polling.polls[place]? = some poll →
        timed poll = false
  | _ => False

theorem inactive_iff {polling : Polling ρ} :
    (receiptPolling ρ).active polling = false ↔
      polling.interval = false ∧
        ∀ (place : Nat) (poll : Poll),
          polling.polls[place]? = some poll → timed poll = false := by
  change (_ || _) = false ↔ _
  rw [Bool.or_eq_false_iff, List.any_eq_false]
  constructor
  · rintro ⟨stopped, untimed⟩
    refine ⟨stopped, fun place poll found => ?_⟩
    exact Bool.eq_false_iff.mpr (untimed poll (List.mem_of_getElem? found))
  · rintro ⟨stopped, untimed⟩
    refine ⟨stopped, fun poll member => ?_⟩
    obtain ⟨place, found⟩ := List.mem_iff_getElem?.mp member
    exact Bool.eq_false_iff.mp (untimed place poll found)

theorem settled_iff_ends {polling : Polling ρ} {label : PollLabel ρ}
    (unsettled : polling.settled = none) :
    (polling.step label).settled ≠ none ↔ polling.Ends label := by
  constructor
  · intro settles
    obtain same | ⟨index, waiting, ⟨failure, rfl, -⟩ | ⟨receipt, rfl, -⟩⟩ :=
      Polling.settled_step polling label
    · rw [same] at settles
      exact absurd unsettled settles
    · exact waiting
    · exact waiting
  · intro ends
    unfold Ends at ends
    split at ends
    · rename_i index failure
      rw [settled_error ends]
      exact Option.some_ne_none _
    · rename_i index receipt
      rw [settled_receipt ends]
      exact Option.some_ne_none _
    · exact ends.elim

theorem inactive_iff_quits {polling : Polling ρ} {label : PollLabel ρ}
    (ends : polling.Ends label) :
    (receiptPolling ρ).active (polling.step label) = false ↔
      polling.Quits label := by
  unfold Ends at ends
  split at ends
  · rename_i index failure
    obtain ⟨inRange, -⟩ := List.getElem?_eq_some_iff.mp ends
    have stepped : (polling.step (.answer index (.error failure))).polls =
        polling.polls.set index .failed := by
      simp only [step, ends]
      rfl
    refine ⟨fun inactive => ?_, fun quits => quits.elim⟩
    have untimed := (inactive_iff.mp inactive).2 index .failed
    rw [stepped, List.getElem?_set_self inRange] at untimed
    cases untimed rfl
  · rename_i index receipt
    obtain ⟨inRange, -⟩ := List.getElem?_eq_some_iff.mp ends
    have stepped :
        (polling.step (.answer index (.ok (some receipt)))).polls =
          polling.polls.set index .finished := by
      simp only [step, ends]
      rfl
    have stopped :
        (polling.step (.answer index (.ok (some receipt)))).interval =
          false := by
      simp only [step, ends]
      rfl
    rw [inactive_iff, stepped, and_iff_right stopped]
    constructor
    · intro untimed place poll other found
      apply untimed place poll
      rwa [List.getElem?_set_ne (Ne.symm other)]
    · intro quits place poll found
      by_cases same : index = place
      · rw [← same, List.getElem?_set_self inRange] at found
        cases found
        rfl
      · rw [List.getElem?_set_ne same] at found
        exact quits place poll (Ne.symm same) found
  · exact ends.elim

theorem inactive_step {polling : Polling ρ} (label : PollLabel ρ)
    (inactive : (receiptPolling ρ).active polling = false) :
    (receiptPolling ρ).active (polling.step label) = false := by
  obtain ⟨stopped, untimed⟩ := inactive_iff.mp inactive
  have finished : ∀ index, (receiptPolling ρ).active
      (polling.setPoll index .finished) = false := by
    intro index
    rw [inactive_iff]
    refine ⟨stopped, fun place poll found => ?_⟩
    change (polling.polls.set index .finished)[place]? = some poll at found
    rw [List.getElem?_set] at found
    split at found
    · split at found
      · cases found
        rfl
      · cases found
    · exact untimed place poll found
  cases label with
  | tick =>
      simp only [step, stopped]
      exact inactive
  | answer index receipt =>
      simp only [step]
      split
      · rename_i waiting
        cases untimed index _ waiting
      · exact finished index
      · exact inactive
  | limit index =>
      simp only [step]
      split
      · rename_i waiting
        cases untimed index _ waiting
      · exact finished index
      · exact inactive

end Polling

def receiptDiscipline (ρ : Type) : Discipline (receiptPolling ρ) where
  ends := Polling.Ends
  quits := Polling.Quits
  settled_iff _ _ := Polling.settled_iff_ends
  inactive_iff _ _ := Polling.inactive_iff_quits
  inactive_step _ label := Polling.inactive_step label

/-- A transaction that is being sent has no timer of its own. -/
def sendingDiscipline : Discipline sending where
  ends state _ := state = .requested
  quits _ _ := True
  settled_iff state result unsettled := by
    cases state with
    | idle => exact ⟨absurd rfl, nofun⟩
    | requested => exact ⟨fun _ => rfl, fun _ => Option.some_ne_none _⟩
    | settled other => nomatch unsettled
  inactive_iff _ _ _ := ⟨fun _ => trivial, fun _ => rfl⟩
  inactive_step _ _ _ := rfl

/-- Waiting for a receipt and sending a transaction leave no timer, interval
or subscription behind along a run, whatever its order of headers, errors,
timers and answers, exactly if its steps are orderly. -/
theorem no_work_outlives_iff (ρ : Type) (config : Config) :
    (∀ labels : List (Label (PollLabel ρ)),
      (∀ before, before <+: labels →
          Contained (receiptPolling ρ)
            (run (Call.step (receiptPolling ρ) config)
              (Call.initial (receiptPolling ρ)) before)) ↔
        Run.Meets (Call.step (receiptPolling ρ) config)
          (Orderly (receiptDiscipline ρ) config)
          (Call.initial (receiptPolling ρ)) labels) ∧
    (∀ labels : List (Label (Except Failure String)),
      (∀ before, before <+: labels →
          Contained sending
            (run (Call.step sending config) (Call.initial sending)
              before)) ↔
        Run.Meets (Call.step sending config)
          (Orderly sendingDiscipline config) (Call.initial sending)
          labels) := by
  constructor
  · intro labels
    exact contained_iff_orderly (receiptDiscipline ρ) config labels
  · intro labels
    exact contained_iff_orderly sendingDiscipline config labels

/-- A wait for a receipt that times out leaves its interval running, and a
transaction sent before the first header leaves the timer for that header. -/
theorem not_no_work_outlives :
    (¬ ∀ (config : Config) (labels : List (Label (PollLabel Receipt))),
      Contained (receiptPolling Receipt)
        (run (Call.step (receiptPolling Receipt) config)
          (Call.initial (receiptPolling Receipt)) labels)) ∧
    ¬ ∀ (config : Config) (labels : List (Label (Except Failure String))),
      Contained sending
        (run (Call.step sending config) (Call.initial sending) labels) := by
  constructor
  · intro contained
    have stopped := contained ⟨50, false⟩ [.blockNumber (.ok 7), .timeout]
      (Option.some_ne_none _)
    cases stopped.main
  · intro contained
    have stopped := contained ⟨50, true⟩
      [.blockNumber (.ok 7), .subscribed, .main (.ok "0x05")]
      (Option.some_ne_none _)
    cases (stopped.blocks _ rfl).headerTimer

end Disciplines

end Web3Js.Send.Waiting
