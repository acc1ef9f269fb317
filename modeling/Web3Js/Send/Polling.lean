import Web3Js.Send.Confirmations

/-!
# Confirmations by polling

Without subscriptions the block after the counted confirmations is requested on
every tick of an interval.  The confirmations are counted by the answers, so
that the requests of overlapping ticks ask for the same block, and the tick that
ends the interval still makes a request.
-/

namespace Web3Js.Send.Confirmations

/-- What can happen to one interval of `watchTransactionByPolling`. -/
inductive PollingLabel
  | tick
  | answer (request : Nat) (block : Except Failure (Option String))
      (listenerThrows : Bool)

def PollingLabel.label : PollingLabel → Label
  | .tick => .tick 0
  | .answer request block listenerThrows =>
      .answer 0 request block listenerThrows

def pollingStep (config : Config) (state : State) (label : PollingLabel) :
    State :=
  step config state label.label

/-- The interval has been set. -/
def State.polling : State := State.startPolling {}

/-- The events are numbered from two on without gaps, each reports the block as
far above the receipt as its number says, and none has a number that is not
needed. -/
structure ExactReports (config : Config) (reports : List Report) : Prop where
  numbered : reports.map (·.confirmations) =
    (List.range reports.length).map fun index : Nat => (index : Int) + 2
  heads : ∀ report ∈ reports, ∃ blockNumber,
    config.blockNumber = some blockNumber ∧
      report.head = blockNumber + report.confirmations - 1
  needed : ∀ report ∈ reports,
    report.confirmations ≤ config.transactionConfirmationBlocks

/-- An answer with a block comes while the confirmations are what they were at
the request, and not yet as many as needed. -/
def Timely (config : Config) (state : State) : PollingLabel → Prop
  | .tick => True
  | .answer request block _ =>
      ∀ poller asked hash, state.pollers[0]? = some poller →
        poller.requests[request]? = some asked → block = .ok (some hash) →
          hash ≠ "" →
            asked = poller.confirmations ∧
              poller.confirmations < config.transactionConfirmationBlocks

/-- One interval, with as many reports as confirmations that it counted. -/
structure Polled (config : Config) (poller : Polling) (state : State) :
    Prop where
  single : state.pollers = [poller]
  counted : poller.confirmations = state.reports.length + 1
  known : config.blockNumber = none → poller.requests = []

namespace Polled

variable {config : Config} {poller : Polling} {state : State}

theorem tick (polled : Polled config poller state) :
    ∃ next, Polled config next (pollingStep config state .tick) ∧
      (pollingStep config state .tick).reports = state.reports := by
  have found : state.pollers[0]? = some poller := by
    rw [polled.single]
    rfl
  by_cases running : poller.interval = true
  · have stepped : pollingStep config state .tick =
        state.setPoller 0 (poller.tick config) := by
      simp only [pollingStep, PollingLabel.label, step, found, if_pos running]
    rw [stepped]
    refine ⟨poller.tick config, ⟨?_, ?_, ?_⟩, rfl⟩
    · rw [State.setPoller, polled.single]
      rfl
    · rw [poller.confirmations_tick config]
      exact polled.counted
    · intro unknown
      rw [Polling.tick, unknown]
      exact polled.known unknown
  · have stepped : pollingStep config state .tick = state := by
      simp only [pollingStep, PollingLabel.label, step, found, if_neg running]
    rw [stepped]
    exact ⟨poller, polled, rfl⟩

/-- An answer reports a block if there is one, and nothing otherwise. -/
theorem answer (polled : Polled config poller state) (request : Nat)
    (block : Except Failure (Option String)) (listenerThrows : Bool) :
    let stepped := pollingStep config state
      (.answer request block listenerThrows)
    ∃ next, Polled config next stepped ∧
      (stepped.reports = state.reports ∧
        (∀ asked hash, poller.requests[request]? = some asked →
          block = .ok (some hash) → hash = "") ∨
      ∃ asked hash blockNumber,
        poller.requests[request]? = some asked ∧ block = .ok (some hash) ∧
          hash ≠ "" ∧ config.blockNumber = some blockNumber ∧
          stepped.reports = state.reports ++
            [⟨poller.confirmations + 1, hash, blockNumber + asked⟩]) := by
  have found : state.pollers[0]? = some poller := by
    rw [polled.single]
    rfl
  intro stepped
  cases known : config.blockNumber with
  | none =>
      have same : stepped = state := by
        simp only [stepped, pollingStep, PollingLabel.label, step, found, known]
      rw [same]
      refine ⟨poller, polled, .inl ⟨rfl, ?_⟩⟩
      intro asked hash made
      rw [polled.known known] at made
      cases made
  | some blockNumber =>
      cases made : poller.requests[request]? with
      | none =>
          have same : stepped = state := by
            simp only [stepped, pollingStep, PollingLabel.label, step, found,
              known, made]
          rw [same]
          exact ⟨poller, polled, .inl ⟨rfl, fun _ _ made => by cases made⟩⟩
      | some asked =>
          have answered : stepped = state.onAnswer blockNumber 0 asked
              { poller with requests := poller.requests.eraseIdx request }
              block listenerThrows := by
            simp only [stepped, pollingStep, PollingLabel.label, step, found,
              known, made]
          rw [answered]
          have single : ∀ {reports : List Report} (next : Polling),
              State.setPoller { state with reports } 0 next =
                { state with pollers := [next], reports } := by
            intro reports next
            rw [State.setPoller, polled.single]
            rfl
          have never : config.blockNumber = none →
              poller.requests.eraseIdx request = [] := by
            intro unknown
            rw [known] at unknown
            cases unknown
          cases block with
          | error problem =>
              refine ⟨_, ⟨congrArg State.pollers (single _), polled.counted,
                never⟩, .inl ⟨rfl, fun _ _ _ made => by cases made⟩⟩
          | ok hash =>
              cases filtered : hash.filter (· != "") with
              | none =>
                  simp only [State.onAnswer, filtered]
                  refine ⟨_, ⟨congrArg State.pollers (single _),
                    polled.counted, never⟩, .inl ⟨rfl, ?_⟩⟩
                  intro _ content _ given
                  cases given
                  by_contra nonempty
                  simp [nonempty] at filtered
              | some content =>
                  obtain ⟨given, nonempty⟩ :=
                    Option.filter_eq_some_iff.mp filtered
                  simp only [State.onAnswer, filtered]
                  refine ⟨_, ⟨congrArg State.pollers (single _), ?_, never⟩,
                    .inr ⟨asked, content, blockNumber, rfl, by rw [given],
                      by simpa using nonempty, rfl, rfl⟩⟩
                  change poller.confirmations + 1 =
                    (state.reports ++ [_]).length + 1
                  rw [polled.counted, List.length_append]
                  rfl

end Polled

/-- One more report is exact if the block was asked for with the confirmations
before it, which were too few. -/
theorem exactReports_append {config : Config} {reports : List Report}
    (exact : ExactReports config reports) {confirmations asked : Nat}
    {hash : String} {blockNumber : Int}
    (known : config.blockNumber = some blockNumber)
    (counted : confirmations = reports.length + 1) :
    ExactReports config
        (reports ++ [⟨confirmations + 1, hash, blockNumber + asked⟩]) ↔
      asked = confirmations ∧
        confirmations < config.transactionConfirmationBlocks := by
  constructor
  · intro longer
    obtain ⟨base, isBase, head⟩ := longer.heads _
      (List.mem_append_right _ List.mem_cons_self)
    have needed := longer.needed _
      (List.mem_append_right _ List.mem_cons_self)
    rw [known] at isBase
    obtain rfl := Option.some.inj isBase
    simp only at head needed
    omega
  · rintro ⟨rfl, few⟩
    constructor
    · rw [List.map_append, exact.numbered, List.length_append,
        List.length_singleton, List.range_succ, List.map_append, counted]
      simp
      omega
    · intro report member
      rcases List.mem_append.mp member with before | last
      · exact exact.heads report before
      · rw [List.mem_singleton.mp last]
        exact ⟨blockNumber, known, by simp only; omega⟩
    · intro report member
      rcases List.mem_append.mp member with before | last
      · exact exact.needed report before
      · rw [List.mem_singleton.mp last]
        simp only
        omega

/-- The state of a run whose reports are exact so far. -/
def Exact (config : Config) (state : State) : Prop :=
  ∃ poller, Polled config poller state ∧ ExactReports config state.reports

theorem Exact.step_iff {config : Config} {state : State}
    (exact : Exact config state) (label : PollingLabel) :
    ExactReports config (pollingStep config state label).reports ↔
      Timely config state label := by
  obtain ⟨poller, polled, reports⟩ := exact
  have found : state.pollers[0]? = some poller := by
    rw [polled.single]
    rfl
  cases label with
  | tick =>
      obtain ⟨-, -, same⟩ := polled.tick
      rw [same]
      exact iff_of_true reports trivial
  | answer request block listenerThrows =>
      obtain ⟨-, -, ⟨same, missing⟩ | ⟨asked, hash, blockNumber, made, given,
        nonempty, known, same⟩⟩ := polled.answer request block listenerThrows
      · rw [same]
        refine iff_of_true reports ?_
        intro other asked hash isOther made given nonempty
        rw [found] at isOther
        cases isOther
        exact absurd (missing asked hash made given) nonempty
      · rw [same, exactReports_append reports known polled.counted]
        constructor
        · intro timely other again content isOther asks isHash _
          rw [found] at isOther
          cases isOther
          rw [made] at asks
          cases asks
          exact timely
        · exact fun timely => timely poller asked hash found made given nonempty

theorem Exact.step {config : Config} {state : State}
    (exact : Exact config state) {label : PollingLabel}
    (timely : Timely config state label) :
    Exact config (pollingStep config state label) := by
  have reports := (exact.step_iff label).mpr timely
  obtain ⟨poller, polled, -⟩ := exact
  cases label with
  | tick =>
      obtain ⟨next, stepped, -⟩ := polled.tick
      exact ⟨next, stepped, reports⟩
  | answer request block listenerThrows =>
      obtain ⟨next, stepped, -⟩ := polled.answer request block listenerThrows
      exact ⟨next, stepped, reports⟩

end Web3Js.Send.Confirmations
