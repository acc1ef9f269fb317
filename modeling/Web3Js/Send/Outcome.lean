import Web3Js.Send.Transaction

/-!
# The terminal outcome of a sent transaction

The two helpers let one settlement through, but the error event leaves the
guard behind: a listener that throws in it keeps the promise from being
rejected, and a polling step that fails emits it after the promise has been
settled.  A run without these two has one settlement and at most one error
event before it; a run with one of them has not.
-/

namespace Web3Js.Send

/-- The promise settles exactly once, and the error event is emitted at most
once and not after the settlement. -/
structure TerminalOutcome (history : List Entry) : Prop where
  settledOnce : history.countP Entry.isSettlement = 1
  errorAtMostOnce : history.count (.emitted .error) ≤ 1
  noErrorAfter : history.Pairwise fun earlier later =>
    earlier.isSettlement = true → later ≠ .emitted .error

/-- No listener of the error event throws, and no polling step fails. -/
def Benign (history : List Entry) : Prop :=
  ∀ entry ∈ history, entry ≠ .listenerThrew .error ∧ entry ≠ .pollFailed

/-- An entry that neither settles the promise nor has to do with errors. -/
structure Entry.Quiet (entry : Entry) : Prop where
  settles : entry.isSettlement = false
  emits : entry ≠ .emitted .error
  throws : entry ≠ .listenerThrew .error
  polls : entry ≠ .pollFailed

section Histories

variable {history later : List Entry}

theorem quiet_emitted {event : EventName} (other : event ≠ .error) :
    (Entry.emitted event).Quiet := by
  constructor
  · rfl
  · simpa using other
  · simp
  · simp

theorem quiet_listenerThrew {event : EventName} (other : event ≠ .error) :
    (Entry.listenerThrew event).Quiet := by
  constructor
  · rfl
  · simp
  · simpa using other
  · simp

theorem countP_quiet (quiet : ∀ entry ∈ later, entry.Quiet) :
    later.countP Entry.isSettlement = 0 := by
  apply List.countP_eq_zero.mpr
  intro entry member
  rw [(quiet entry member).settles]
  exact Bool.false_ne_true

theorem count_quiet (quiet : ∀ entry ∈ later, entry.Quiet) :
    later.count (.emitted .error) = 0 := by
  apply List.count_eq_zero.mpr
  intro member
  exact (quiet _ member).emits rfl

theorem TerminalOutcome.append_quiet (outcome : TerminalOutcome history)
    (quiet : ∀ entry ∈ later, entry.Quiet) :
    TerminalOutcome (history ++ later) := by
  constructor
  · rw [List.countP_append, countP_quiet quiet]
    exact outcome.settledOnce
  · rw [List.count_append, count_quiet quiet]
    exact outcome.errorAtMostOnce
  · apply List.pairwise_append.mpr
    refine ⟨outcome.noErrorAfter, ?_, ?_⟩
    · apply List.pairwise_of_forall_mem_list
      intro earlier _ entry member _
      exact (quiet entry member).emits
    · intro earlier _ entry member _
      exact (quiet entry member).emits

theorem Benign.append_quiet (benign : Benign history)
    (quiet : ∀ entry ∈ later, entry.Quiet) : Benign (history ++ later) := by
  intro entry member
  rcases List.mem_append.mp member with inHistory | inLater
  · exact benign entry inHistory
  · exact ⟨(quiet entry inLater).throws, (quiet entry inLater).polls⟩

/-- What went wrong and can not be repaired: the promise stays unsettled, or
an error event has come after its settlement. -/
structure Spoilt (history : List Entry) : Prop where
  harmful : ¬Benign history
  broken : history.countP Entry.isSettlement = 0 ∨
    ¬history.Pairwise fun earlier later =>
      earlier.isSettlement = true → later ≠ .emitted .error

theorem Spoilt.append (spoilt : Spoilt history)
    (unsettling : later.countP Entry.isSettlement = 0) :
    Spoilt (history ++ later) := by
  constructor
  · intro benign
    apply spoilt.harmful
    intro entry member
    exact benign entry (List.mem_append_left later member)
  · rcases spoilt.broken with unsettled | late
    · left
      rw [List.countP_append, unsettled, unsettling]
    · right
      intro pairwise
      exact late (List.pairwise_append.mp pairwise).1

theorem Spoilt.not_terminalOutcome (spoilt : Spoilt history) :
    ¬TerminalOutcome history := by
  intro outcome
  rcases spoilt.broken with unsettled | late
  · rw [outcome.settledOnce] at unsettled
    cases unsettled
  · exact late outcome.noErrorAfter

/-- A polling step that fails after the settlement spoils the outcome. -/
theorem TerminalOutcome.spoilt_of_pollFailed
    (outcome : TerminalOutcome history) :
    Spoilt (history ++ [.pollFailed, .emitted .error]) := by
  constructor
  · intro benign
    exact (benign .pollFailed (by simp)).2 rfl
  · right
    intro pairwise
    have settlement : 0 < history.countP Entry.isSettlement := by
      rw [outcome.settledOnce]
      exact Nat.one_pos
    obtain ⟨entry, member, settles⟩ := List.countP_pos_iff.mp settlement
    exact (List.pairwise_append.mp pairwise).2.2 entry member
      (.emitted .error) (by simp) settles rfl

end Histories

section States

/-- Nothing has been settled or reported. -/
def Open (state : State) : Prop :=
  state.settled = false ∧ ∀ entry ∈ state.history, entry.Quiet

/-- The guard has been passed, with a good end or with a bad one that has the
cause. -/
def Done (cause : Prop) (state : State) : Prop :=
  state.settled = true ∧
    ((TerminalOutcome state.history ∧ Benign state.history) ∨
      (Spoilt state.history ∧ cause))

def Sound (cause : Prop) (state : State) : Prop :=
  Open state ∨ Done cause state

/-- A property that quiet entries keep. -/
def Stable (property : State → Prop) : Prop :=
  ∀ state entry, entry.Quiet → property state → property (state.record entry)

variable {cause : Prop} {state : State}

theorem Done.append {next : State} {later : List Entry}
    (done : Done cause state) (quiet : ∀ entry ∈ later, entry.Quiet)
    (settled : next.settled = state.settled)
    (history : next.history = state.history ++ later) : Done cause next := by
  refine ⟨settled.trans done.1, ?_⟩
  rw [history]
  rcases done.2 with ⟨outcome, benign⟩ | ⟨spoilt, caused⟩
  · exact .inl ⟨outcome.append_quiet quiet, benign.append_quiet quiet⟩
  · exact .inr ⟨spoilt.append (countP_quiet quiet), caused⟩

theorem Done.failPoll {next : State} {later : List Entry}
    (done : Done cause state) (quiet : ∀ entry ∈ later, entry.Quiet)
    (settled : next.settled = state.settled)
    (history : next.history =
      state.history ++ later ++ [.pollFailed, .emitted .error]) :
    Done True next := by
  refine ⟨settled.trans done.1, .inr ⟨?_, trivial⟩⟩
  rw [history]
  rcases done.2 with ⟨outcome, -⟩ | ⟨spoilt, -⟩
  · exact (outcome.append_quiet quiet).spoilt_of_pollFailed
  · exact (spoilt.append (countP_quiet quiet)).append rfl

theorem Done.imp {weaker : Prop} (done : Done cause state)
    (implied : cause → weaker) : Done weaker state :=
  ⟨done.1, done.2.imp_right fun bad => ⟨bad.1, implied bad.2⟩⟩

theorem Open.stable : Stable Open := by
  intro state entry quiet isOpen
  refine ⟨isOpen.1, ?_⟩
  intro other member
  rcases List.mem_append.mp member with earlier | new
  · exact isOpen.2 other earlier
  · rw [List.mem_singleton.mp new]
    exact quiet

theorem Done.stable : Stable (Done cause) := by
  intro state entry quiet done
  have alone : ∀ other ∈ [entry], other.Quiet := by
    intro other member
    rw [List.mem_singleton.mp member]
    exact quiet
  exact done.append alone rfl rfl

/-- The guard has been passed just now. -/
def Fresh (state : State) : Prop :=
  ∃ prior, Open prior ∧ state = { prior with settled := true }

/-- The guard has been passed, and at most an error event has been emitted
since. -/
def Passed (state : State) : Prop :=
  ∃ prior errors, Open prior ∧ (errors = [] ∨ errors = [.emitted .error]) ∧
    state = { prior with
      settled := true
      history := prior.history ++ errors }

theorem Fresh.passed (fresh : Fresh state) : Passed state := by
  obtain ⟨prior, isOpen, rfl⟩ := fresh
  refine ⟨prior, [], isOpen, .inl rfl, ?_⟩
  rw [List.append_nil]

/-- A settlement behind the guard is a good end. -/
theorem Passed.done_of_settlement {settlement : Entry}
    (passed : Passed state) (settles : settlement.isSettlement = true) :
    Done cause (state.record settlement) := by
  obtain ⟨prior, errors, isOpen, errorsCases, rfl⟩ := passed
  have notError : settlement ≠ .emitted .error := by
    rintro rfl
    cases settles
  have harmless : settlement ≠ .listenerThrew .error ∧
      settlement ≠ .pollFailed := by
    constructor
    · rintro rfl
      cases settles
    · rintro rfl
      cases settles
  refine ⟨rfl, .inl ⟨⟨?_, ?_, ?_⟩, ?_⟩⟩ <;> dsimp only [State.record]
  · rw [List.countP_append, List.countP_append, countP_quiet isOpen.2]
    rcases errorsCases with rfl | rfl
    · rw [List.countP_nil, List.countP_singleton, if_pos settles]
    · rw [List.countP_singleton, List.countP_singleton, if_pos settles]
      rfl
  · rw [List.count_append, List.count_append, count_quiet isOpen.2]
    rcases errorsCases with rfl | rfl
    · simp [notError]
    · simp [notError]
  · apply List.pairwise_append.mpr
    have unsettled : ∀ entry ∈ prior.history ++ errors,
        entry.isSettlement = false := by
      intro entry member
      rcases List.mem_append.mp member with earlier | new
      · exact (isOpen.2 entry earlier).settles
      · rcases errorsCases with rfl | rfl
        · cases new
        · rw [List.mem_singleton.mp new]
          rfl
    refine ⟨?_, List.pairwise_singleton _ _, ?_⟩
    · apply List.pairwise_of_forall_mem_list
      intro earlier member _ _ isSettlement
      rw [unsettled earlier member] at isSettlement
      cases isSettlement
    · intro earlier member entry _ isSettlement
      rw [unsettled earlier member] at isSettlement
      cases isSettlement
  · intro entry member
    rcases List.mem_append.mp member with earlier | new
    · rcases List.mem_append.mp earlier with quiet | error
      · exact ⟨(isOpen.2 entry quiet).throws, (isOpen.2 entry quiet).polls⟩
      · rcases errorsCases with rfl | rfl
        · cases error
        · rw [List.mem_singleton.mp error]
          simp
    · rw [List.mem_singleton.mp new]
      exact harmless

/-- A listener of the error event that throws behind the guard leaves the
promise unsettled. -/
theorem Open.done_of_listenerThrew (isOpen : Open state) (caused : cause) :
    Done cause { state with
      settled := true
      history := state.history ++ [.emitted .error] ++
        [.listenerThrew .error] } := by
  refine ⟨rfl, .inr ⟨⟨?_, .inl ?_⟩, caused⟩⟩
  · intro benign
    exact (benign (.listenerThrew .error) (by simp)).1 rfl
  · rw [List.countP_append, List.countP_append, countP_quiet isOpen.2]
    rfl

end States

section Programs

open Program (Triple)

variable {options : Options} {steps : Steps} {listeners : Listeners}

theorem emit_keeps {property : State → Prop} (stable : Stable property)
    {event : EventName} (other : event ≠ .error) :
    Triple property (emit listeners event) (fun _ => property) property := by
  rw [emit]
  apply Triple.bind
  · apply Triple.update
    exact fun state => stable state _ (quiet_emitted other)
  · intro _
    cases listeners.throws event with
    | none => exact fun _ holds => holds
    | some failure =>
        apply Triple.bind
        · apply Triple.update
          exact fun state => stable state _ (quiet_listenerThrew other)
        · intro _
          exact Triple.throw failure

theorem emitAttached_keeps {property : State → Prop}
    (stable : Stable property) {event : EventName} (other : event ≠ .error) :
    Triple property (emitAttached listeners event) (fun _ => property)
      property := by
  rw [emitAttached]
  split
  · exact emit_keeps stable other
  · exact fun _ holds => holds

/-- The guard lets an open state through and stops every other one. -/
theorem guard_settles {settlement : Run Unit} {thrown : State → Prop}
    (settles : Triple Open
      (do modify ({ · with settled := true }); settlement)
      (fun _ => Done listeners.ErrorThrows) thrown) :
    Triple (Sound listeners.ErrorThrows)
      (do
        let state ← get
        if state.settled then pure ()
        else do
          modify ({ · with settled := true })
          settlement) (fun _ => Done listeners.ErrorThrows) thrown := by
  apply Triple.bind Triple.get
  intro seen
  split
  · rename_i settled
    rintro state ⟨rfl, isOpen | done⟩
    · rw [isOpen.1] at settled
      cases settled
    · exact done
  · rename_i unsettled
    apply settles.weaken _ (fun _ _ done => done) (fun _ after => after)
    rintro state ⟨rfl, isOpen | done⟩
    · exact isOpen
    · exact absurd done.1 unsettled

theorem modify_passes {thrown : State → Prop} :
    Triple Open (modify ({ · with settled := true }) : Run Unit)
      (fun _ => Fresh) thrown :=
  Triple.update fun state isOpen => ⟨state, isOpen, rfl⟩

theorem record_settles {settlement : Entry} {thrown : State → Prop}
    (settles : settlement.isSettlement = true) :
    Triple Passed (record settlement) (fun _ => Done listeners.ErrorThrows) thrown :=
  Triple.update fun _ passed => passed.done_of_settlement settles

theorem record_settles_fresh {settlement : Entry} {thrown : State → Prop}
    (settles : settlement.isSettlement = true) :
    Triple Fresh (record settlement) (fun _ => Done listeners.ErrorThrows) thrown :=
  Triple.update fun _ fresh => fresh.passed.done_of_settlement settles

theorem succeedOnce_settles :
    Triple (Sound listeners.ErrorThrows) succeedOnce (fun _ => Done listeners.ErrorThrows) (Sound listeners.ErrorThrows) := by
  apply guard_settles
  apply Triple.bind modify_passes
  intro _
  exact record_settles_fresh rfl

/-- Behind the guard the error event is emitted once, and a listener that
throws in it ends the helper. -/
theorem emitAttached_error :
    Triple Fresh (emitAttached listeners .error) (fun _ => Passed) (Done listeners.ErrorThrows) := by
  rintro state ⟨prior, isOpen, rfl⟩
  by_cases attached : listeners.attached .error = true
  · rw [emitAttached, if_pos attached, emit]
    cases thrown : listeners.throws .error with
    | none => exact ⟨prior, _, isOpen, .inr rfl, rfl⟩
    | some failure =>
        apply isOpen.done_of_listenerThrew
        exact ⟨attached, by simp [thrown]⟩
  · rw [emitAttached, if_neg attached]
    exact Fresh.passed ⟨prior, isOpen, rfl⟩

/-- Whatever happens to the listeners, the guard has been passed after
`failOnce`. -/
theorem failOnce_settles (reported : Bool) :
    Triple (Sound listeners.ErrorThrows) (failOnce listeners reported) (fun _ => Done listeners.ErrorThrows) (Done listeners.ErrorThrows) := by
  apply guard_settles
  apply Triple.bind modify_passes
  intro _
  cases reported with
  | false => exact record_settles_fresh rfl
  | true =>
      apply Triple.bind emitAttached_error
      intro _
      exact record_settles rfl

theorem priceGas_keeps {property : State → Prop} :
    Triple property (priceGas options steps) (fun _ => property) property := by
  rw [priceGas]
  split
  · exact Triple.await _
  · exact fun _ holds => holds

theorem checkRevert_keeps {property : State → Prop} :
    Triple property (checkRevert options steps) (fun _ => property)
      property := by
  rw [checkRevert]
  split
  · apply Triple.bind
    · exact Triple.await _
    · intro reason
      cases reason with
      | none => exact fun _ holds => holds
      | some reason =>
          apply Triple.bind
          · exact Triple.await _
          · intro _
            exact fun _ holds => holds
  · exact fun _ holds => holds

theorem send_keeps {property : State → Prop} :
    Triple property (send steps) (fun _ => property) property := by
  rw [send]
  apply Triple.bind
  · exact Triple.await _
  · intro wallet
    cases wallet with
    | false => exact Triple.await _
    | true =>
        apply Triple.bind
        · exact Triple.await _
        · intro _
          exact Triple.await _

theorem settle_settles (receipt : Receipt) :
    Triple Open (settle options steps listeners receipt) (fun _ => Done listeners.ErrorThrows)
      (Sound listeners.ErrorThrows) := by
  have fails : Triple (Sound listeners.ErrorThrows) (failOnce listeners true) (fun _ => Done listeners.ErrorThrows) (Sound listeners.ErrorThrows) :=
    (failOnce_settles true).weaken (fun _ sound => sound)
      (fun _ _ done => done) (fun _ done => .inr done)
  have settles : Triple (Sound listeners.ErrorThrows) (settle options steps listeners receipt)
      (fun _ => Done listeners.ErrorThrows) (Sound listeners.ErrorThrows) := by
    unfold settle
    split
    · apply Triple.bind (Triple.await _)
      intro _
      exact succeedOnce_settles
    split
    · apply Triple.bind (Triple.await _)
      intro _
      exact fails
    · exact succeedOnce_settles
  exact settles.weaken (fun _ isOpen => .inl isOpen) (fun _ _ done => done)
    (fun _ sound => sound)

theorem watchTransactionForConfirmations_keeps (receipt : Receipt) :
    Triple (Done listeners.ErrorThrows) (watchTransactionForConfirmations steps listeners receipt)
      (fun _ => Done listeners.ErrorThrows) (Done listeners.ErrorThrows) := by
  rw [watchTransactionForConfirmations]
  split
  · exact Triple.throw _
  split
  · exact Triple.throw _
  apply Triple.bind
  · exact emit_keeps Done.stable (by decide)
  · intro _
    apply Triple.bind
    · exact Triple.await _
    · intro subscribes
      cases subscribes with
      | true => exact Triple.update fun _ done => done
      | false => exact Triple.update fun _ done => done

theorem watchConfirmations_keeps (receipt : Receipt) :
    Triple (Done listeners.ErrorThrows) (watchConfirmations steps listeners receipt) (fun _ => Done listeners.ErrorThrows)
      (Done listeners.ErrorThrows) := by
  rw [watchConfirmations]
  split
  · exact watchTransactionForConfirmations_keeps receipt
  · exact fun _ holds => holds

theorem sendAndWait_settles :
    Triple Open (sendAndWait options steps listeners) (fun _ => Done listeners.ErrorThrows)
      (Sound listeners.ErrorThrows) := by
  have emits : ∀ event, event ≠ .error →
      Triple Open (emitAttached listeners event) (fun _ => Open) (Sound listeners.ErrorThrows) :=
    fun event other => (emitAttached_keeps Open.stable other).weaken
      (fun _ isOpen => isOpen) (fun _ _ isOpen => isOpen)
      (fun _ isOpen => .inl isOpen)
  have sends : Triple Open (send steps) (fun _ => Open) (Sound listeners.ErrorThrows) :=
    send_keeps.weaken (fun _ isOpen => isOpen) (fun _ _ isOpen => isOpen)
      (fun _ isOpen => .inl isOpen)
  have waits : Triple Open (Program.await steps.waitForTransactionReceipt)
      (fun _ => Open) (Sound listeners.ErrorThrows) :=
    (Triple.await _).weaken (fun _ isOpen => isOpen)
      (fun _ _ isOpen => isOpen) (fun _ isOpen => .inl isOpen)
  rw [sendAndWait]
  apply Triple.bind (emits .sending (by decide))
  intro _
  apply Triple.bind sends
  intro _
  apply Triple.bind (emits .sent (by decide))
  intro _
  apply Triple.bind (emits .transactionHash (by decide))
  intro _
  apply Triple.bind waits
  intro receipt
  apply Triple.bind (emits .receipt (by decide))
  intro _
  apply Triple.bind (settle_settles receipt)
  intro _
  exact (watchConfirmations_keeps receipt).weaken (fun _ done => done)
    (fun _ _ done => done) (fun _ done => .inr done)

theorem attempt_settles :
    Triple Open (attempt options steps listeners) (fun _ => Done listeners.ErrorThrows) (Sound listeners.ErrorThrows) := by
  have opens : ∀ {α : Type} {step : Run α},
      Triple Open step (fun _ => Open) Open →
        Triple Open step (fun _ => Open) (Sound listeners.ErrorThrows) :=
    fun triple => triple.weaken (fun _ isOpen => isOpen)
      (fun _ _ isOpen => isOpen) (fun _ isOpen => .inl isOpen)
  rw [attempt]
  apply Triple.bind (opens (Triple.await _))
  intro _
  apply Triple.bind (opens priceGas_keeps)
  intro _
  apply Triple.bind (opens checkRevert_keeps)
  intro reverted
  cases reverted with
  | true =>
      exact (failOnce_settles true).weaken (fun _ isOpen => .inl isOpen)
        (fun _ _ done => done) (fun _ done => .inr done)
  | false => exact sendAndWait_settles

theorem handle_settles (failure : Failure) :
    Triple (Sound listeners.ErrorThrows) (handle steps listeners failure) (fun _ => Done listeners.ErrorThrows) (Sound listeners.ErrorThrows) := by
  rw [handle, normalize]
  apply Triple.bind
  · split
    · exact Triple.await _
    · exact fun _ holds => holds
  · intro normalized
    exact (failOnce_settles _).weaken (fun _ sound => sound)
      (fun _ _ done => done) (fun _ done => .inr done)

/-- Every path through `sendTransaction` passes the guard. -/
theorem sendTransaction_settles :
    Triple Open (sendTransaction options steps listeners) (fun _ => Done listeners.ErrorThrows)
      (Done listeners.ErrorThrows) := by
  apply Triple.tryCatch
  · exact Triple.tryCatch attempt_settles handle_settles
  · intro _
    exact failOnce_settles false

theorem sent_done :
    Done listeners.ErrorThrows (sent options steps listeners) := by
  have start : Open {} := ⟨rfl, fun _ member => nomatch member⟩
  have settles : Triple Open (sendTransaction options steps listeners)
      (fun _ => Done listeners.ErrorThrows) (Done listeners.ErrorThrows) :=
    sendTransaction_settles
  have ending := settles {} start
  rw [sent]
  cases ran : Program.exec (sendTransaction options steps listeners) {} with
  | mk result after =>
      rw [ran] at ending
      cases result with
      | ok value => exact ending
      | error problem => exact ending

end Programs

section Watching

variable {transactionConfirmationBlocks : Nat} {state next : State}

/-- What a step of the watchers adds to the history; a polling step that fails
adds an error event at the end. -/
structure Extends (fails : Bool) (state next : State) : Prop where
  settled : next.settled = state.settled
  history : ∃ later, (∀ entry ∈ later, entry.Quiet) ∧
    next.history = state.history ++ later ++
      (if fails then [.pollFailed, .emitted .error] else [])

theorem extends_nothing (watch : Option Watch) :
    Extends false state { state with watch } := by
  refine ⟨rfl, [], ?_, ?_⟩
  · intro entry member
    cases member
  · simp

theorem extends_confirmation (watch : Option Watch) :
    Extends false state
      { state.record (.emitted .confirmation) with watch } := by
  refine ⟨rfl, [.emitted .confirmation], ?_, ?_⟩
  · intro entry member
    rw [List.mem_singleton.mp member]
    exact quiet_emitted (by decide)
  · simp [State.record]

theorem quiet_thrownConfirmation :
    ∀ entry ∈ [Entry.emitted .confirmation, .listenerThrew .confirmation],
      entry.Quiet := by
  intro entry member
  rcases List.mem_cons.mp member with rfl | other
  · exact quiet_emitted (by decide)
  · rw [List.mem_singleton.mp other]
    exact quiet_listenerThrew (by decide)

theorem extends_of_answer {index : Nat}
    {hash : Except Failure (Option String)} {listener : Option Failure}
    (stepped : watchStep transactionConfirmationBlocks state
      (.answer index hash listener) = some next) :
    Extends (Action.answer index hash listener).fails state next := by
  simp only [watchStep, Option.bind_eq_bind, Option.bind_eq_some_iff]
    at stepped
  obtain ⟨watch, -, poller, -, stepped⟩ := stepped
  split at stepped
  · cases stepped
  split at stepped
  · cases stepped
    refine ⟨rfl, [], ?_, ?_⟩
    · intro entry member
      cases member
    · simp [State.failPoll, State.record, Action.fails]
  rename_i hash
  split at stepped
  · rename_i missing
    cases stepped
    have passes : (Action.answer index (.ok hash) listener).fails = false := by
      rcases missing with rfl | rfl
      · rfl
      · cases listener <;> rfl
    rw [passes]
    exact extends_nothing _
  rename_i present
  rw [not_or] at present
  obtain ⟨block, rfl⟩ := Option.ne_none_iff_exists'.mp present.1
  split at stepped
  · cases stepped
    exact extends_confirmation _
  · cases stepped
    have nonempty : block ≠ "" := fun empty => present.2 (congrArg some empty)
    refine ⟨rfl, _, quiet_thrownConfirmation, ?_⟩
    simp [State.failPoll, State.record, Action.fails, nonempty]

theorem extends_of_header {header : Header} {listener : Option Failure}
    (stepped : watchStep transactionConfirmationBlocks state
      (.header header listener) = some next) : Extends false state next := by
  simp only [watchStep, Option.bind_eq_bind, Option.bind_eq_some_iff]
    at stepped
  obtain ⟨watch, -, heads, -, stepped⟩ := stepped
  split at stepped
  · split at stepped
    · cases stepped
      exact extends_nothing _
    split at stepped
    · split at stepped
      · cases stepped
        exact extends_confirmation _
      · cases stepped
        refine ⟨rfl, _, quiet_thrownConfirmation, ?_⟩
        simp [State.record]
    · cases stepped
      exact extends_nothing _
  · cases stepped

/-- What the watchers can do to the history. -/
theorem extends_of_watchStep {action : Action}
    (stepped : watchStep transactionConfirmationBlocks state action =
      some next) : Extends action.fails state next := by
  cases action with
  | answer => exact extends_of_answer stepped
  | header => exact extends_of_header stepped
  | tick | subscribed | subscribeFailed | subscriptionError =>
      simp only [watchStep, Option.bind_eq_bind, Option.bind_eq_some_iff]
        at stepped
      obtain ⟨watch, -, found, -, stepped⟩ := stepped
      split at stepped
      · cases stepped
        exact extends_nothing _
      · cases stepped
  | headerTimeout =>
      simp only [watchStep, Option.bind_eq_bind, Option.bind_eq_some_iff]
        at stepped
      obtain ⟨watch, -, heads, -, stepped⟩ := stepped
      split at stepped
      · split at stepped
        · cases stepped
          exact extends_nothing _
        · cases stepped
          exact extends_nothing _
      · cases stepped

theorem Done.step {cause : Prop} {action : Action} (done : Done cause state)
    (stepped : watchStep transactionConfirmationBlocks state action =
      some next) : Done (cause ∨ action.fails = true) next := by
  obtain ⟨settled, later, quiet, history⟩ := extends_of_watchStep stepped
  cases fails : action.fails with
  | false =>
      rw [fails, if_neg Bool.false_ne_true, List.append_nil] at history
      exact (done.append quiet settled history).imp .inl
  | true =>
      rw [fails, if_pos rfl] at history
      exact (done.failPoll quiet settled history).imp fun _ => .inr rfl

/-- A run of the watchers ends badly only where a polling step fails. -/
theorem Done.watchRun {cause : Prop} {actions : List Action} {finish : State}
    (done : Done cause state)
    (watched : watchRun transactionConfirmationBlocks state actions =
      some finish) :
    Done (cause ∨ ∃ action ∈ actions, action.fails = true) finish := by
  induction actions generalizing state cause with
  | nil =>
      cases watched
      exact done.imp .inl
  | cons action actions induction =>
      rw [Send.watchRun, List.foldlM_cons] at watched
      obtain ⟨middle, stepped, rest⟩ := Option.bind_eq_some_iff.mp watched
      apply (induction (done.step stepped) rest).imp
      rintro ((caused | fails) | ⟨later, member, fails⟩)
      · exact .inl caused
      · exact .inr ⟨action, List.mem_cons_self, fails⟩
      · exact .inr ⟨later, List.mem_cons_of_mem _ member, fails⟩

end Watching

section Results

variable {options : Options} {steps : Steps} {listeners : Listeners}
  {transactionConfirmationBlocks : Nat} {actions : List Action}
  {finish : State}

/-- A transaction that is mined and reported without a fault. -/
def minedSteps : Steps where
  formatInputTransaction := .ok ()
  feesMissing := true
  getTransactionGasPricing := .ok ()
  getRevertReason := .ok none
  revertError := .ok .revertInstruction
  walletAccount := .ok true
  signTransaction := .ok ()
  trySendTransaction := .ok "0x01"
  waitForTransactionReceipt := .ok {
    blockHash := some "0x02"
    blockNumber := .bigint 7
    status := some (.bigint 1) }
  receiptError := .ok .revertedWithoutReason
  supportsSubscriptions := .ok false
  handleRevert := false
  handlerError := .ok .revertedWithoutReason

/-- Listeners of every event that return. -/
def watchingListeners : Listeners where
  attached _ := true
  throws _ := none

end Results

end Web3Js.Send
