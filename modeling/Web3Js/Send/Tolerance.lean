import Web3Js.Send.Waiting

/-!
# Waiting for a receipt through failures

The wait for a receipt should stay pending while polls fail or find nothing,
and end with the first receipt that a poll returns.  It does so exactly when
no poll fails in time, no receipt comes after its poll's time limit, and the
number of the starting block is known.
-/

namespace Web3Js.Send.Waiting

variable {ρ : Type}

section Observing

/-- A timeout has fired. -/
def Call.expired {μ : Type} (call : Call μ ρ) : Bool :=
  call.timedOut ||
    match call.setup with
    | .racing block => block.rejected
    | _ => false

def Call.Racing {μ : Type} (call : Call μ ρ) : Prop :=
  ∃ block, call.setup = .racing block

/-- The call, with the first receipt that a poll has returned while the call
was pending and no timeout had fired. -/
structure Observed (ρ : Type) where
  call : Call (Polling ρ) ρ := Call.initial (receiptPolling ρ)
  returned : Option ρ := none

/-- The request of a poll is under way. -/
def Polling.awaits (polling : Polling ρ) (index : Nat) : Bool :=
  polling.polls[index]? == some .waiting || polling.polls[index]? == some .late

/-- The receipt that a label brings. -/
def Call.receiptOf (call : Call (Polling ρ) ρ) :
    Label (PollLabel ρ) → Option ρ
  | .main (.answer index (.ok (some receipt))) =>
      if call.outcome.isNone && !call.expired && call.main.awaits index then
        some receipt
      else none
  | _ => none

def Observed.advance (config : Config) (observed : Observed ρ)
    (label : Label (PollLabel ρ)) : Observed ρ where
  call := observed.call.advance (receiptPolling ρ) config label
  returned := observed.returned.or (observed.call.receiptOf label)

def Observed.race (observed : Observed ρ) : Observed ρ :=
  { observed with call := observed.call.race (receiptPolling ρ) }

def Observed.step (config : Config) (observed : Observed ρ)
    (label : Label (PollLabel ρ)) : Observed ρ :=
  (observed.advance config label).race

/-- The call rejects with timeouts only, it is resolved with the first receipt
as soon as the race is on, and it is pending until then. -/
structure Tolerant (observed : Observed ρ) : Prop where
  rejects : ∀ failure, observed.call.outcome ≠ some (.failed failure)
  resolved : ∀ receipt, observed.returned = some receipt →
    observed.call.outcome = some (.resolved receipt) ∨
      (observed.call.outcome = none ∧ ¬ observed.call.Racing)
  pending : observed.call.expired = false → observed.returned = none →
    observed.call.outcome = none

/-- The promise of the polling has not failed, and it has the receipt that
was returned first. -/
structure Agreed (observed : Observed ρ) : Prop where
  unfailed : ∀ failure, observed.call.main.settled ≠ some (.error failure)
  first : ∀ receipt, observed.returned = some receipt →
    observed.call.main.settled = some (.ok receipt)

/-- The label ends the setup, and the race starts. -/
def Call.Begins (config : Config) (call : Call (Polling ρ) ρ) :
    Label (PollLabel ρ) → Prop
  | .blockNumber (.ok _) =>
      call.setup = .requestingBlockNumber ∧ config.useSubscription = false
  | .subscribed | .subscribeFailed => ∃ number, call.setup = .subscribing number
  | _ => False

/-- While the call is pending: the starting block number is answered, the race
starts with a polling that has not gone wrong, and in the race no poll fails
before its time limit or brings a receipt after it. -/
def Timely (config : Config) (observed : Observed ρ) :
    Label (PollLabel ρ) → Prop
  | .main (.answer index (.error _)) =>
      observed.call.outcome = none → observed.call.Racing →
        observed.call.main.polls[index]? ≠ some .waiting
  | .main (.answer index (.ok (some _))) =>
      observed.call.outcome = none → observed.call.Racing →
        observed.call.main.polls[index]? ≠ some .late
  | .blockNumber (.error _) =>
      observed.call.outcome = none →
        observed.call.setup ≠ .requestingBlockNumber
  | label =>
      observed.call.outcome = none → observed.call.Begins config label →
        Agreed observed

end Observing

section Steps

/-- What a poll settles: a failure or a receipt that comes in time. -/
theorem Polling.settled_step (polling : Polling ρ) (label : PollLabel ρ) :
    (polling.step label).settled = polling.settled ∨
      ∃ index, polling.polls[index]? = some .waiting ∧
        ((∃ failure, label = .answer index (.error failure) ∧
            (polling.step label).settled =
              some (polling.settled.getD (.error failure))) ∨
          ∃ receipt, label = .answer index (.ok (some receipt)) ∧
            (polling.step label).settled =
              some (polling.settled.getD (.ok receipt))) := by
  cases label with
  | tick =>
      left
      simp only [step]
      split <;> rfl
  | limit index =>
      left
      simp only [step]
      split <;> rfl
  | answer index receipt =>
      cases found : polling.polls[index]? with
      | none => exact .inl (by rw [step, found])
      | some poll =>
          cases poll with
          | failed => exact .inl (by rw [step, found])
          | finished => exact .inl (by rw [step, found])
          | late =>
              refine .inl ?_
              rw [step, found]
              rfl
          | waiting =>
              have stepped : polling.step (.answer index receipt) =
                  polling.onAnswer index receipt := by
                rw [step, found]
              rw [stepped]
              cases receipt with
              | error failure =>
                  exact .inr ⟨index, found, .inl ⟨failure, rfl, rfl⟩⟩
              | ok receipt =>
                  cases receipt with
                  | none => exact .inl rfl
                  | some receipt =>
                      exact .inr ⟨index, found, .inr ⟨receipt, rfl, rfl⟩⟩

theorem BlockTimeout.rejected_clean (block : BlockTimeout) :
    block.clean.rejected = block.rejected := by
  unfold clean
  split
  · split <;> rfl
  · rfl

theorem BlockTimeout.rejected_revertToPolling (block : BlockTimeout) :
    block.revertToPolling.rejected = block.rejected :=
  block.rejected_clean

/-- A timeout that has been reached stays so. -/
theorem BlockTimeout.rejected_step (config : Config) {block : BlockTimeout}
    (rejected : block.rejected = true) (label : BlockLabel) :
    (block.step config label).rejected = true := by
  cases label with
  | header header =>
      simp only [step, onHeader]
      split
      · split
        · exact rejected
        · split
          · rfl
          · exact rejected
      · exact rejected
  | subscriptionError =>
      simp only [step]
      split
      · rw [rejected_revertToPolling, rejected]
      · exact rejected
  | removed succeeded =>
      simp only [step]
      split <;> exact rejected
  | headerTimeout =>
      simp only [step]
      split
      · split
        · rw [rejected_revertToPolling]
          exact rejected
        · exact rejected
      · exact rejected
  | tick index =>
      simp only [step]
      split
      · exact rejected
      · split <;> exact rejected
  | answer index lastBlockNumber =>
      simp only [step]
      split
      · exact rejected
      · split
        · exact rejected
        · unfold onAnswer
          dsimp only
          split
          · exact rejected
          · split
            · rfl
            · exact rejected

theorem Call.expired_advance {μ ℓ : Type} (task : Task μ ℓ ρ)
    (config : Config) {call : Call μ ρ} (expired : call.expired = true)
    (label : Label ℓ) : (call.advance task config label).expired = true := by
  have timed : ∀ other : Call μ ρ, other.timedOut = true →
      other.expired = true := by
    intro other timedOut
    rw [Call.expired, timedOut]
    rfl
  have early : ∀ block, (∀ before, call.setup ≠ .racing before) →
      (call.enter task block).expired = true := by
    intro block notRacing
    apply timed
    unfold Call.expired at expired
    rcases Bool.or_eq_true_iff.mp expired with timedOut | rejected
    · exact timedOut
    · split at rejected
      · rename_i before racing
        exact absurd racing (notRacing before)
      · cases rejected
  cases label with
  | main label => exact expired
  | blockNumber answer =>
      simp only [Call.advance]
      split
      · exact expired
      · rename_i requesting pending
        split
        · unfold Call.expired at expired ⊢
          rw [requesting] at expired
          exact expired
        · apply early
          intro before racing
          rw [requesting] at racing
          cases racing
      · exact expired
  | subscribed =>
      simp only [Call.advance]
      split
      · rename_i number subscribing
        apply early
        intro before racing
        rw [subscribing] at racing
        cases racing
      · exact expired
  | subscribeFailed =>
      simp only [Call.advance]
      split
      · rename_i number subscribing
        apply early
        intro before racing
        rw [subscribing] at racing
        cases racing
      · exact expired
  | timeout =>
      simp only [Call.advance]
      split
      · exact timed _ rfl
      · exact expired
  | block label =>
      simp only [Call.advance]
      split
      · rename_i block racing
        unfold Call.expired at expired ⊢
        rw [racing] at expired
        rcases Bool.or_eq_true_iff.mp expired with timedOut | rejected
        · dsimp only
          rw [timedOut]
          rfl
        · dsimp only
          rw [block.rejected_step config rejected label]
          exact Bool.or_true _
      · exact expired

/-- A call that is over stays as it ended. -/
theorem Call.outcome_advance {μ ℓ : Type} (task : Task μ ℓ ρ)
    (config : Config) {call : Call μ ρ} (finished : call.outcome ≠ none)
    (label : Label ℓ) :
    (call.advance task config label).outcome = call.outcome := by
  cases label with
  | main label => rfl
  | blockNumber answer =>
      simp only [Call.advance]
      split
      · rename_i pending
        exact absurd pending finished
      · rename_i pending
        exact absurd pending finished
      · rfl
  | subscribed =>
      simp only [Call.advance]
      split <;> rfl
  | subscribeFailed =>
      simp only [Call.advance]
      split <;> rfl
  | timeout =>
      simp only [Call.advance]
      split <;> rfl
  | block label =>
      simp only [Call.advance]
      split <;> rfl

theorem Call.race_of_over {μ ℓ : Type} (task : Task μ ℓ ρ) {call : Call μ ρ}
    (finished : call.outcome ≠ none) : call.race task = call := by
  unfold Call.race
  split
  · rename_i pending _
    exact absurd pending finished
  · rfl

theorem Call.race_of_setup {μ ℓ : Type} (task : Task μ ℓ ρ) {call : Call μ ρ}
    (setup : ¬ call.Racing) : call.race task = call := by
  unfold Call.race
  split
  · rename_i block _ racing
    exact absurd ⟨block, racing⟩ setup
  · rfl

theorem Call.race_of_none {μ ℓ : Type} (task : Task μ ℓ ρ) {call : Call μ ρ}
    {block : BlockTimeout} (racing : call.setup = .racing block)
    (undecided : call.winner task block = none) : call.race task = call := by
  unfold Call.race
  split
  · rename_i other _ same
    rw [racing] at same
    cases same
    rw [undecided]
  · rfl

theorem Call.race_of_winner {μ ℓ : Type} (task : Task μ ℓ ρ) {call : Call μ ρ}
    {block : BlockTimeout} (pending : call.outcome = none)
    (racing : call.setup = .racing block) {outcome : Outcome ρ}
    (wins : call.winner task block = some outcome) :
    call.race task =
      { call with
        outcome := some outcome
        timer := false
        setup := .racing block.clean } := by
  unfold Call.race
  split
  · rename_i other _ same
    rw [racing] at same
    cases same
    rw [wins]
  · rename_i other
    exact absurd racing (other block pending)

end Steps

section Soundness

/-- What the steps keep while the polls are timely. -/
structure Sound (observed : Observed ρ) : Prop where
  tolerant : Tolerant observed
  undecided : observed.call.Racing → observed.call.outcome = none →
    observed.call.main.settled = none ∧ observed.call.expired = false
  recorded : ∀ receipt, observed.call.main.settled = some (.ok receipt) →
    observed.returned ≠ none ∨ observed.call.expired = true

theorem expired_racing {μ : Type} {call : Call μ ρ} {block : BlockTimeout}
    (racing : call.setup = .racing block) :
    call.expired = (call.timedOut || block.rejected) := by
  rw [Call.expired, racing]

section Winner

variable {μ ℓ : Type} (task : Task μ ℓ ρ) {call : Call μ ρ}

theorem Call.winner_of_ok {value : ρ} (block : BlockTimeout)
    (settled : task.settled call.main = some (.ok value)) :
    call.winner task block = some (.resolved value) := by
  rw [Call.winner, settled]

theorem Call.winner_of_error {failure : Failure} (block : BlockTimeout)
    (settled : task.settled call.main = some (.error failure)) :
    call.winner task block = some (.failed failure) := by
  rw [Call.winner, settled]

theorem Call.winner_of_none {block : BlockTimeout}
    (settled : task.settled call.main = none)
    (racing : call.setup = .racing block) :
    (call.expired = false ∧ call.winner task block = none) ∨
      (call.expired = true ∧
        (call.winner task block = some .timedOut ∨
          call.winner task block = some .blockTimedOut)) := by
  rw [expired_racing racing, Call.winner, settled]
  cases call.timedOut with
  | true => exact .inr ⟨rfl, .inl rfl⟩
  | false =>
      cases block.rejected with
      | true => exact .inr ⟨rfl, .inr rfl⟩
      | false => exact .inl ⟨rfl, rfl⟩

end Winner

/-- The race ends with a timeout, or with the receipt that came first. -/
theorem sound_of_outcome {observed : Observed ρ} {outcome : Outcome ρ}
    (ended : observed.call.outcome = some outcome)
    (unfailed : ∀ failure, outcome ≠ .failed failure)
    (resolved : ∀ receipt, observed.returned = some receipt →
      outcome = .resolved receipt)
    (expired : observed.returned = none → observed.call.expired = true) :
    Sound observed where
  tolerant := {
    rejects failure failed := by
      rw [ended] at failed
      exact unfailed failure (Option.some.inj failed)
    resolved receipt returned := by
      rw [ended, resolved receipt returned]
      exact .inl rfl
    pending alive unreturned := by
      rw [expired unreturned] at alive
      cases alive }
  undecided _ pending := by
    rw [ended] at pending
    cases pending
  recorded _ _ := by
    by_cases unreturned : observed.returned = none
    · exact .inr (expired unreturned)
    · exact .inl unreturned

/-- The race keeps a polling that has not gone wrong sound. -/
theorem Sound.race {observed : Observed ρ}
    (pending : observed.call.outcome = none)
    (agreed : observed.call.Racing → Agreed observed)
    (recorded : ∀ receipt, observed.call.main.settled = some (.ok receipt) →
      observed.returned ≠ none ∨ observed.call.expired = true) :
    Sound observed.race := by
  have still : (observed.call.Racing →
      observed.call.main.settled = none ∧ observed.call.expired = false) →
      (∀ receipt, observed.returned = some receipt →
        ¬ observed.call.Racing) → Sound observed := by
    intro undecided early
    exact {
      tolerant := {
        rejects failure failed := by
          rw [pending] at failed
          cases failed
        resolved receipt returned := .inr ⟨pending, early receipt returned⟩
        pending _ _ := pending }
      undecided racing _ := undecided racing
      recorded := recorded }
  by_cases isRacing : observed.call.Racing
  · obtain ⟨block, racing⟩ := isRacing
    have fine := agreed ⟨block, racing⟩
    -- Cleaning leaves the timeouts as they are.
    have expiry : ∀ outcome : Outcome ρ, Call.expired
        { observed.call with
          outcome := some outcome
          timer := false
          setup := .racing block.clean } = observed.call.expired := by
      intro outcome
      rw [expired_racing racing, expired_racing rfl, block.rejected_clean]
    cases settled : observed.call.main.settled with
    | some result =>
        cases result with
        | error failure => exact absurd settled (fine.unfailed failure)
        | ok receipt =>
            have raced := Call.race_of_winner (receiptPolling ρ) pending
              racing (Call.winner_of_ok _ block settled)
            rw [Observed.race, raced]
            apply sound_of_outcome rfl
            · exact nofun
            · intro other returned
              have same := fine.first other returned
              rw [settled] at same
              cases same
              rfl
            · intro unreturned
              rw [expiry]
              exact (recorded receipt settled).resolve_left
                (absurd unreturned)
    | none =>
        have unreturned : observed.returned = none := by
          cases returned : observed.returned with
          | none => rfl
          | some receipt =>
              rw [fine.first receipt returned] at settled
              cases settled
        obtain ⟨alive, wins⟩ | ⟨expired, wins⟩ :=
          Call.winner_of_none (receiptPolling ρ) settled racing
        · rw [Observed.race, Call.race_of_none _ racing wins]
          exact still (fun _ => ⟨settled, alive⟩) fun receipt returned => by
            rw [unreturned] at returned
            cases returned
        · have ends : ∀ outcome,
              observed.call.winner (receiptPolling ρ) block = some outcome →
              (∀ failure, outcome ≠ .failed failure) →
              Sound observed.race := by
            intro outcome isWinner unfailed
            rw [Observed.race,
              Call.race_of_winner (receiptPolling ρ) pending racing isWinner]
            apply sound_of_outcome rfl unfailed
            · intro receipt returned
              rw [unreturned] at returned
              cases returned
            · intro _
              rw [expiry, expired]
          rcases wins with timed | blocked
          · exact ends _ timed nofun
          · exact ends _ blocked nofun
  · rw [Observed.race, Call.race_of_setup _ isRacing]
    exact still (fun racing => absurd racing isRacing) fun _ _ => isRacing

theorem Polling.settled_receipt {polling : Polling ρ} {index : Nat}
    (waiting : polling.polls[index]? = some .waiting) (receipt : ρ) :
    (polling.step (.answer index (.ok (some receipt)))).settled =
      some (polling.settled.getD (.ok receipt)) := by
  simp only [Polling.step, waiting]
  rfl

theorem Polling.settled_error {polling : Polling ρ} {index : Nat}
    (waiting : polling.polls[index]? = some .waiting) (failure : Failure) :
    (polling.step (.answer index (.error failure))).settled =
      some (polling.settled.getD (.error failure)) := by
  simp only [Polling.step, waiting]
  rfl

theorem Polling.awaits_iff {polling : Polling ρ} {index : Nat} :
    polling.awaits index = true ↔
      polling.polls[index]? = some .waiting ∨
        polling.polls[index]? = some .late := by
  unfold Polling.awaits
  rw [Bool.or_eq_true_iff, beq_iff_eq, beq_iff_eq]

theorem Call.receiptOf_eq_some {call : Call (Polling ρ) ρ}
    {label : Label (PollLabel ρ)} {receipt : ρ}
    (brings : call.receiptOf label = some receipt) :
    ∃ index, label = .main (.answer index (.ok (some receipt))) ∧
      call.outcome = none ∧ call.expired = false ∧
      call.main.awaits index = true := by
  unfold Call.receiptOf at brings
  split at brings
  · rename_i index shown
    split at brings
    · rename_i holds
      cases brings
      simp only [Bool.and_eq_true, Bool.not_eq_true',
        Option.isNone_iff_eq_none] at holds
      exact ⟨index, rfl, holds.1.1, holds.1.2, holds.2⟩
    · cases brings
  · cases brings

theorem Call.receiptOf_answer {call : Call (Polling ρ) ρ} {index : Nat}
    (receipt : ρ) (pending : call.outcome = none)
    (alive : call.expired = false)
    (awaits : call.main.awaits index = true) :
    call.receiptOf (.main (.answer index (.ok (some receipt)))) =
      some receipt := by
  unfold Call.receiptOf
  dsimp only
  rw [if_pos]
  rw [pending, alive, awaits]
  rfl

/-- Only a label of the polling changes it. -/
theorem Call.main_advance (config : Config) (call : Call (Polling ρ) ρ)
    {label : Label (PollLabel ρ)} (other : ∀ poll, label ≠ .main poll) :
    (call.advance (receiptPolling ρ) config label).main = call.main := by
  cases label with
  | main poll => exact absurd rfl (other poll)
  | blockNumber answer =>
      simp only [Call.advance]
      split
      · rfl
      · split <;> rfl
      · rfl
  | subscribed =>
      simp only [Call.advance]
      split <;> rfl
  | subscribeFailed =>
      simp only [Call.advance]
      split <;> rfl
  | timeout =>
      simp only [Call.advance]
      split <;> rfl
  | block label =>
      simp only [Call.advance]
      split <;> rfl

theorem Call.racing_advance (config : Config) {call : Call (Polling ρ) ρ}
    {label : Label (PollLabel ρ)}
    (racing : (call.advance (receiptPolling ρ) config label).Racing) :
    call.Racing ∨ call.Begins config label := by
  obtain ⟨block, racing⟩ := racing
  cases label with
  | main poll => exact .inl ⟨block, racing⟩
  | blockNumber answer =>
      simp only [Call.advance] at racing
      split at racing
      · exact .inl ⟨block, racing⟩
      · rename_i requesting pending
        split at racing
        · cases racing
        · rename_i polling
          exact .inr ⟨requesting, Bool.eq_false_iff.mpr polling⟩
      · exact .inl ⟨block, racing⟩
  | subscribed =>
      simp only [Call.advance] at racing
      split at racing
      · rename_i number subscribing
        exact .inr ⟨number, subscribing⟩
      · exact .inl ⟨block, racing⟩
  | subscribeFailed =>
      simp only [Call.advance] at racing
      split at racing
      · rename_i number subscribing
        exact .inr ⟨number, subscribing⟩
      · exact .inl ⟨block, racing⟩
  | timeout =>
      simp only [Call.advance] at racing
      split at racing <;> exact .inl ⟨block, racing⟩
  | block label =>
      simp only [Call.advance] at racing
      split at racing
      · rename_i before wasRacing
        exact .inl ⟨before, wasRacing⟩
      · exact .inl ⟨block, racing⟩

theorem Call.advance_of_begins {config : Config} {call : Call (Polling ρ) ρ}
    {label : Label (PollLabel ρ)} (pending : call.outcome = none)
    (begins : call.Begins config label) :
    ∃ block, call.advance (receiptPolling ρ) config label =
      call.enter (receiptPolling ρ) block := by
  unfold Call.Begins at begins
  split at begins
  · rename_i number
    obtain ⟨requesting, polling⟩ := begins
    refine ⟨resolveByPolling number, ?_⟩
    simp only [Call.advance, requesting, pending, polling]
    rfl
  · obtain ⟨number, subscribing⟩ := begins
    refine ⟨resolveBySubscription number, ?_⟩
    simp only [Call.advance, subscribing]
  · obtain ⟨number, subscribing⟩ := begins
    refine ⟨resolveByPolling number, ?_⟩
    simp only [Call.advance, subscribing]
  · exact begins.elim

variable {config : Config} {observed : Observed ρ}

theorem Sound.unreturned (sound : Sound observed)
    (pending : observed.call.outcome = none)
    (racing : observed.call.Racing) : observed.returned = none := by
  cases returned : observed.returned with
  | none => rfl
  | some receipt =>
      rcases sound.tolerant.resolved receipt returned with ended | ⟨-, setup⟩
      · rw [pending] at ended
        cases ended
      · exact absurd racing setup

theorem Sound.recorded_advance (sound : Sound observed)
    (label : Label (PollLabel ρ)) {receipt : ρ}
    (settled : (observed.advance config label).call.main.settled =
      some (.ok receipt)) :
    (observed.advance config label).returned ≠ none ∨
      (observed.advance config label).call.expired = true := by
  have before : observed.returned ≠ none ∨ observed.call.expired = true →
      (observed.advance config label).returned ≠ none ∨
        (observed.advance config label).call.expired = true := by
    rintro (returned | expired)
    · left
      obtain ⟨first, isFirst⟩ := Option.ne_none_iff_exists'.mp returned
      rw [Observed.advance, isFirst]
      exact Option.some_ne_none first
    · right
      exact Call.expired_advance _ config expired label
  by_cases isMain : ∃ poll, label = .main poll
  · obtain ⟨poll, rfl⟩ := isMain
    change (observed.call.main.step poll).settled = _ at settled
    obtain same | ⟨index, waiting, ⟨failure, -, fails⟩ | ⟨shown, rfl, brings⟩⟩ :=
      Polling.settled_step observed.call.main poll
    · rw [same] at settled
      exact before (sound.recorded receipt settled)
    · rw [fails] at settled
      cases was : observed.call.main.settled with
      | none =>
          rw [was] at settled
          cases settled
      | some result =>
          rw [was] at settled
          apply before
          apply sound.recorded receipt
          rw [was]
          exact settled
    · by_cases pending : observed.call.outcome = none
      · cases alive : observed.call.expired with
        | true => exact before (.inr alive)
        | false =>
            left
            have brought := Call.receiptOf_answer shown pending alive
              (Polling.awaits_iff.mpr (.inl waiting))
            change observed.returned.or _ ≠ none
            rw [brought]
            cases observed.returned <;> exact Option.some_ne_none _
      · apply before
        by_cases unreturned : observed.returned = none
        · right
          rw [← Bool.not_eq_false]
          intro alive
          exact pending (sound.tolerant.pending alive unreturned)
        · exact .inl unreturned
  · rw [Observed.advance, Call.main_advance config observed.call
      fun poll same => isMain ⟨poll, same⟩] at settled
    exact before (sound.recorded receipt settled)

theorem returned_advance {label : Label (PollLabel ρ)}
    (silent : observed.call.receiptOf label = none) :
    (observed.advance config label).returned = observed.returned := by
  rw [Observed.advance, silent]
  exact Option.or_none

/-- In the race, a timely label keeps the polling from going wrong. -/
theorem Sound.agreed_advance (sound : Sound observed)
    {label : Label (PollLabel ρ)} (timely : Timely config observed label)
    (pending : observed.call.outcome = none)
    (racing : (observed.advance config label).call.Racing) :
    Agreed (observed.advance config label) := by
  by_cases isMain : ∃ poll, label = .main poll
  · obtain ⟨poll, rfl⟩ := isMain
    have wasRacing : observed.call.Racing := racing
    obtain ⟨unsettled, -⟩ := sound.undecided wasRacing pending
    have unreturned := sound.unreturned pending wasRacing
    refine ⟨fun failure failed => ?_, fun receipt returned => ?_⟩
    · change (observed.call.main.step poll).settled = _ at failed
      obtain same | ⟨index, waiting, ⟨shown, rfl, -⟩ | ⟨receipt, -, brings⟩⟩ :=
        Polling.settled_step observed.call.main poll
      · rw [same, unsettled] at failed
        cases failed
      · exact timely pending wasRacing waiting
      · rw [brings, unsettled] at failed
        cases failed
    · have brought : observed.call.receiptOf (.main poll) = some receipt := by
        rw [Observed.advance, unreturned] at returned
        exact returned
      obtain ⟨index, same, -, -, awaits⟩ := Call.receiptOf_eq_some brought
      cases same
      rcases Polling.awaits_iff.mp awaits with waiting | late
      · change (observed.call.main.step _).settled = _
        rw [Polling.settled_receipt waiting, unsettled]
        rfl
      · exact absurd late (timely pending wasRacing)
  · have other : ∀ poll, label ≠ .main poll :=
      fun poll same => isMain ⟨poll, same⟩
    have silent : observed.call.receiptOf label = none := by
      cases brought : observed.call.receiptOf label with
      | none => rfl
      | some receipt =>
          obtain ⟨index, same, -⟩ := Call.receiptOf_eq_some brought
          exact absurd same (other _)
    have before : Agreed observed := by
      rcases Call.racing_advance config racing with wasRacing | begins
      · obtain ⟨unsettled, -⟩ := sound.undecided wasRacing pending
        have unreturned := sound.unreturned pending wasRacing
        refine ⟨fun failure failed => ?_, fun receipt returned => ?_⟩
        · rw [unsettled] at failed
          cases failed
        · rw [unreturned] at returned
          cases returned
      · unfold Timely at timely
        split at timely
        · exact begins.elim
        · exact begins.elim
        · exact begins.elim
        · exact timely pending begins
    have same := Call.main_advance config observed.call other
    refine ⟨fun failure failed => ?_, fun receipt returned => ?_⟩
    · apply before.unfailed failure
      rw [← same]
      exact failed
    · rw [returned_advance silent] at returned
      rw [← before.first receipt returned]
      exact congrArg Polling.settled same

theorem pending_advance {label : Label (PollLabel ρ)}
    (timely : Timely config observed label)
    (pending : observed.call.outcome = none) :
    (observed.advance config label).call.outcome = none := by
  change (observed.call.advance _ config label).outcome = none
  cases label with
  | main poll => exact pending
  | blockNumber answer =>
      simp only [Call.advance]
      split
      · rename_i requesting _
        exact absurd requesting (timely pending)
      · split <;> exact pending
      · exact pending
  | subscribed =>
      simp only [Call.advance]
      split <;> exact pending
  | subscribeFailed =>
      simp only [Call.advance]
      split <;> exact pending
  | timeout =>
      simp only [Call.advance]
      split <;> exact pending
  | block label =>
      simp only [Call.advance]
      split <;> exact pending

/-- A timely step keeps the call sound. -/
theorem Sound.step (sound : Sound observed) {label : Label (PollLabel ρ)}
    (timely : Timely config observed label) :
    Sound (observed.step config label) := by
  by_cases pending : observed.call.outcome = none
  · apply Sound.race (pending_advance timely pending)
    · exact sound.agreed_advance timely pending
    · intro receipt settled
      exact sound.recorded_advance label settled
  · have same := Call.outcome_advance (receiptPolling ρ) config pending label
    have finished : (observed.advance config label).call.outcome ≠ none := by
      change (observed.call.advance _ config label).outcome ≠ none
      rw [same]
      exact pending
    have silent : observed.call.receiptOf label = none := by
      cases brought : observed.call.receiptOf label with
      | none => rfl
      | some receipt =>
          obtain ⟨-, -, unsettled, -⟩ := Call.receiptOf_eq_some brought
          exact absurd unsettled pending
    have returned : (observed.advance config label).returned =
        observed.returned := returned_advance silent
    rw [Observed.step, Observed.race, Call.race_of_over _ finished]
    exact {
      tolerant := {
        rejects failure failed := by
          apply sound.tolerant.rejects failure
          rw [← same]
          exact failed
        resolved receipt isReturned := by
          change (observed.advance config label).returned = _ at isReturned
          rw [returned] at isReturned
          rcases sound.tolerant.resolved receipt isReturned with ended | ⟨unended, -⟩
          · left
            change (observed.call.advance _ config label).outcome = _
            rw [same, ended]
          · exact absurd unended pending
        pending alive unreturned := by
          exfalso
          apply pending
          apply sound.tolerant.pending
          · rw [← Bool.not_eq_true]
            intro expired
            change (observed.call.advance _ config label).expired = _ at alive
            rw [Call.expired_advance _ config expired label] at alive
            cases alive
          · rw [← returned]
            exact unreturned }
      undecided _ unended := absurd unended finished
      recorded receipt settled := sound.recorded_advance label settled }

/-- A polling that has gone wrong when the race is on shows in the call. -/
theorem agreed_of_tolerant (observed : Observed ρ)
    (pending : observed.call.outcome = none)
    (racing : observed.call.Racing) (tolerant : Tolerant observed.race) :
    Agreed observed := by
  obtain ⟨block, racing⟩ := racing
  have raced : ∀ outcome,
      observed.call.winner (receiptPolling ρ) block = some outcome →
        observed.race.call.outcome = some outcome := by
    intro outcome wins
    rw [Observed.race, Call.race_of_winner _ pending racing wins]
  have unfailed : ∀ failure,
      observed.call.main.settled ≠ some (.error failure) := by
    intro failure failed
    apply tolerant.rejects failure
    exact raced _ (Call.winner_of_error _ block failed)
  refine ⟨unfailed, fun receipt returned => ?_⟩
  cases settled : observed.call.main.settled with
  | some result =>
      cases result with
      | error failure => exact absurd settled (unfailed failure)
      | ok other =>
          have ended := raced _
            (Call.winner_of_ok (receiptPolling ρ) block settled)
          rcases tolerant.resolved receipt returned with same | ⟨unended, -⟩
          · rw [ended] at same
            cases same
            rfl
          · rw [ended] at unended
            cases unended
  | none =>
      exfalso
      obtain ⟨-, wins⟩ | ⟨-, wins⟩ :=
        Call.winner_of_none (receiptPolling ρ) settled racing
      · have same : observed.race = observed := by
          rw [Observed.race, Call.race_of_none _ racing wins]
        rw [same] at tolerant
        rcases tolerant.resolved receipt returned with ended | ⟨-, setup⟩
        · rw [pending] at ended
          cases ended
        · exact setup ⟨block, racing⟩
      · have ended : observed.race.call.outcome = some .timedOut ∨
            observed.race.call.outcome = some .blockTimedOut :=
          wins.imp (raced _) (raced _)
        rcases tolerant.resolved receipt returned with same | ⟨unended, -⟩
        · rw [same] at ended
          rcases ended with timed | blocked
          · cases timed
          · cases blocked
        · rw [unended] at ended
          rcases ended with timed | blocked
          · cases timed
          · cases blocked

/-- Only timely steps keep the call tolerant. -/
theorem Sound.timely (sound : Sound observed) {label : Label (PollLabel ρ)}
    (tolerant : Tolerant (observed.step config label)) :
    Timely config observed label := by
  have begun : observed.call.outcome = none →
      observed.call.Begins config label → Agreed observed := by
    intro pending begins
    obtain ⟨block, entered⟩ := Call.advance_of_begins pending begins
    have silent : observed.call.receiptOf label = none := by
      cases brought : observed.call.receiptOf label with
      | none => rfl
      | some receipt =>
          obtain ⟨index, rfl, -⟩ := Call.receiptOf_eq_some brought
          exact begins.elim
    have same : observed.advance config label =
        { observed with
          call := observed.call.enter (receiptPolling ρ) block } := by
      rw [Observed.advance, entered, silent, Option.or_none]
    rw [Observed.step, same] at tolerant
    obtain ⟨unfailed, first⟩ := agreed_of_tolerant
      { observed with call := observed.call.enter (receiptPolling ρ) block }
      pending ⟨block, rfl⟩ tolerant
    exact ⟨unfailed, first⟩
  unfold Timely
  split
  · rename_i index failure
    intro pending racing waiting
    obtain ⟨unsettled, -⟩ := sound.undecided racing pending
    have agreed := agreed_of_tolerant
      (observed.advance config (.main (.answer index (.error failure))))
      pending racing tolerant
    apply agreed.unfailed failure
    change (observed.call.main.step _).settled = _
    rw [Polling.settled_error waiting, unsettled]
    rfl
  · rename_i index receipt
    intro pending racing late
    obtain ⟨unsettled, alive⟩ := sound.undecided racing pending
    have agreed := agreed_of_tolerant
      (observed.advance config (.main (.answer index (.ok (some receipt)))))
      pending racing tolerant
    have brought := Call.receiptOf_answer receipt pending alive
      (Polling.awaits_iff.mpr (.inr late))
    have settled := agreed.first receipt (by
      rw [Observed.advance, sound.unreturned pending racing, brought]
      rfl)
    change (observed.call.main.step _).settled = _ at settled
    simp only [Polling.step, late] at settled
    change observed.call.main.settled = _ at settled
    rw [unsettled] at settled
    cases settled
  · rename_i failure
    intro pending requesting
    apply tolerant.rejects failure
    have advanced : (observed.advance config
        (.blockNumber (.error failure))).call =
          { observed.call with outcome := some (.failed failure) } := by
      simp only [Observed.advance, Call.advance, requesting, pending]
    rw [Observed.step, Observed.race, advanced, Call.race_of_over]
    exact Option.some_ne_none _
  · exact begun

theorem sound_initial : Sound ({} : Observed ρ) where
  tolerant := {
    rejects := nofun
    resolved := nofun
    pending _ _ := rfl }
  undecided := by
    rintro ⟨block, racing⟩
    cases racing
  recorded := nofun

/-- Whatever the polls bring and whenever they bring it, the wait for a
receipt goes on through failures and empty answers and ends with the first
receipt or with a timeout, exactly in the runs whose steps are timely. -/
theorem waitForTransactionReceipt_tolerant_iff (ρ : Type) (config : Config)
    (labels : List (Label (PollLabel ρ))) :
    (∀ before, before <+: labels →
        Tolerant (run (Observed.step config) ({} : Observed ρ) before)) ↔
      Run.Meets (Observed.step config) (Timely config) ({} : Observed ρ)
        labels := by
  apply Run.along_iff_meets
  · intro observed label (sound : Sound observed) timely
    exact sound.step timely
  · intro observed label sound tolerant
    exact sound.timely tolerant
  · intro observed sound
    exact sound.tolerant
  · exact sound_initial

/-- A poll fails in time, and the wait rejects with its failure. -/
theorem not_waitForTransactionReceipt_tolerant :
    ¬ ∀ (config : Config) (labels : List (Label (PollLabel Receipt))),
      Tolerant (run (Observed.step config) ({} : Observed Receipt) labels) := by
  intro tolerant
  have fails := (tolerant ⟨50, false⟩
    [.blockNumber (.ok 7),
      .main (.answer 0 (.error (.other "connection lost")))]).rejects
  exact fails (.other "connection lost") rfl

end Soundness

end Web3Js.Send.Waiting
