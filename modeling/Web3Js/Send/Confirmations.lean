import Web3Js.Lib.Invariant
import Web3Js.Send.Events

/-!
# The stream of confirmations

A mined transaction is watched through a subscription to new heads.  Polling
takes over when the subscription cannot be made, when it reports an error, or
when no header has come in time.  The watcher keeps what each event reports,
so that one head reported twice can be told from two heads.
-/

namespace Web3Js.Send.Confirmations

structure Config where
  transactionConfirmationBlocks : Nat
  receipt : Receipt

/-- `BigInt(transactionReceipt.blockNumber)`, where it does not throw. -/
def Config.blockNumber (config : Config) : Option Int :=
  Prepare.bigIntOf config.receipt.blockNumber

/-- A confirmation event, with the number of the block that it is due to. -/
structure Report where
  confirmations : Int
  latestBlockHash : String
  head : Int
  deriving DecidableEq

/-- An interval of `watchTransactionByPolling`.  A request under way is kept
as the count of confirmations it was made with. -/
structure Polling where
  confirmations : Nat := 1
  interval : Bool := true
  requests : List Nat := []

/-- The watcher: the callback of `setImmediate` that is still to run, the
variables of the heads, whether the manager still has the subscription, and
the removals that a handler awaits. -/
structure State where
  immediate : Bool := true
  heads : HeadsWatcher := {}
  inManager : Bool := false
  removals : Nat := 0
  errorRemovals : Nat := 0
  pollers : List Polling := []
  reports : List Report := []

inductive Label
  | immediate
  | subscribed
  | subscribeFailed
  | header (header : Header) (listenerThrows : Bool)
  | error
  /-- The removal that the data handler awaits comes to its end. -/
  | removed (succeeded : Bool)
  /-- The removal that the error handler awaits comes to its end. -/
  | removedOnError (succeeded : Bool)
  | headerTimeout
  | tick (poller : Nat)
  | answer (poller request : Nat) (block : Except Failure (Option String))
      (listenerThrows : Bool)

section Steps

/-- `watchTransactionByPolling` -/
def State.startPolling (state : State) : State :=
  { state with pollers := state.pollers ++ [{}] }

def State.watched (state : State) : State :=
  { state with heads := { state.heads with needToWatchLater := false } }

def headerReport (config : Config) (number : Numbers) (parentHash : String) :
    Option Report :=
  match Prepare.bigIntOf number, config.blockNumber with
  | some number, some blockNumber =>
      some ⟨number - blockNumber + 1, parentHash, number⟩
  | _, _ => none

/-- The header is remembered before the numbers are converted. -/
def State.catchBlock (state : State) (parentHash : String) : State :=
  { state with
    heads := { state.heads with lastCaughtBlockHash := some parentHash } }

def State.emit (state : State) (report : Report) : State :=
  { state with reports := state.reports ++ [report] }

/-- The data handler. -/
def State.onHeader (config : Config) (state : State) (header : Header)
    (listenerThrows : Bool) : State :=
  match acceptHeader state.heads header with
  | none => state.watched
  | some (number, parentHash) =>
      let caught := state.watched.catchBlock parentHash
      match headerReport config number parentHash with
      | none => caught
      | some report =>
          let emitted := caught.emit report
          if listenerThrows = false ∧
              config.transactionConfirmationBlocks ≤ report.confirmations then
            { emitted with removals := emitted.removals + 1 }
          else emitted

/-- The interval fires.  The last needed confirmation ends it, but not this
request; a block number that does not convert ends it as well. -/
def Polling.tick (config : Config) (poller : Polling) : Polling :=
  match config.blockNumber with
  | none => { poller with interval := false }
  | some _ =>
      { poller with
        interval := poller.interval &&
          !decide (config.transactionConfirmationBlocks ≤ poller.confirmations)
        requests := poller.requests ++ [poller.confirmations] }

def State.setPoller (state : State) (index : Nat) (poller : Polling) : State :=
  { state with pollers := state.pollers.set index poller }

/-- A poll that was made with `asked` confirmations is answered. -/
def State.onAnswer (blockNumber : Int) (state : State) (index asked : Nat)
    (poller : Polling) (block : Except Failure (Option String))
    (listenerThrows : Bool) : State :=
  match block with
  | .error _ => state.setPoller index { poller with interval := false }
  | .ok hash =>
      match hash.filter (· != "") with
      | none => state.setPoller index poller
      | some hash =>
          let confirmations := poller.confirmations + 1
          (state.emit ⟨confirmations, hash, blockNumber + asked⟩).setPoller index
            { poller with
              confirmations
              interval := poller.interval && !listenerThrows }

/-- The subscription is being requested. -/
def State.Requested (state : State) : Prop :=
  state.immediate = false ∧ state.heads.subscribing = .requested

instance (state : State) : Decidable state.Requested :=
  inferInstanceAs (Decidable (_ ∧ _))

def State.subscribe (state : State) (answer : Subscribing) : State :=
  { state with heads := { state.heads with subscribing := answer } }

/-- What cannot happen leaves the watcher as it is. -/
def step (config : Config) (state : State) : Label → State
  | .immediate => { state with immediate := false }
  | .subscribed =>
      if state.Requested then
        { state.subscribe .subscribed with inManager := true }
      else state
  | .subscribeFailed =>
      if state.Requested then
        (state.subscribe .failed).watched.startPolling
      else state
  | .header header listenerThrows =>
      if state.inManager then state.onHeader config header listenerThrows
      else state
  | .error =>
      -- Once the subscription is gone, its removal throws at once.
      if state.inManager then
        { state with errorRemovals := state.errorRemovals + 1 }
      else state
  | .removed succeeded =>
      if state.removals = 0 then state
      else
        { state with
          removals := state.removals - 1
          inManager := state.inManager && !succeeded }
  | .removedOnError succeeded =>
      if state.errorRemovals = 0 then state
      else
        let ended : State :=
          { state with
            errorRemovals := state.errorRemovals - 1
            inManager := state.inManager && !succeeded }
        if succeeded then ended.watched.startPolling else ended
  | .headerTimeout =>
      if state.heads.timer then
        let fired : State :=
          { state with heads := { state.heads with timer := false } }
        if state.heads.needToWatchLater then fired.startPolling else fired
      else state
  | .tick index =>
      match state.pollers[index]? with
      | none => state
      | some poller =>
          if poller.interval then state.setPoller index (poller.tick config)
          else state
  | .answer index request block listenerThrows =>
      match state.pollers[index]?, config.blockNumber with
      | some poller, some blockNumber =>
          match poller.requests[request]? with
          | none => state
          | some asked =>
              state.onAnswer blockNumber index asked
                { poller with requests := poller.requests.eraseIdx request }
                block listenerThrows
      | _, _ => state

end Steps

section Sources

/-- The poller can still report: its interval runs, or a request is under
way. -/
def Polling.active (poller : Polling) : Bool :=
  poller.interval || !poller.requests.isEmpty

/-- The sources that can emit a confirmation. -/
def State.sources (state : State) : Nat :=
  (if state.inManager then 1 else 0) + state.pollers.countP Polling.active

/-- One stream of confirmations: a single source, no head reported twice, and
numbers that never decrease. -/
structure SingleStream (state : State) : Prop where
  source : state.sources ≤ 1
  heads : (state.reports.map (·.head)).Nodup
  numbers : (state.reports.map (·.confirmations)).Pairwise (· ≤ ·)

/-- The block of a header, where its number is one. -/
def blockOf (header : Header) : Option (Int × Option String) := do
  let number ← header.number
  return (← Prepare.bigIntOf number, header.parentHash)

def headersOf (labels : List Label) : List Header :=
  labels.filterMap fun
    | .header header _ => some header
    | _ => none

/-- The headers come from a chain whose heads only grow: their numbers are
numbers, a later head is not below an earlier one, and two headers with one
number have the same parent. -/
structure Growing (headers : List Header) : Prop where
  numbered : ∀ header ∈ headers, header.number ≠ none →
    blockOf header ≠ none
  ordered : (headers.filterMap blockOf).Pairwise fun earlier later =>
    earlier.1 ≤ later.1 ∧ (earlier.1 = later.1 → earlier.2 = later.2)

/-- Nothing else emits, and no block after the receipt's has been reported. -/
def State.MayPoll (state : State) : Prop :=
  state.sources = 0 ∧ ∀ report ∈ state.reports, report.confirmations ≤ 1

/-- Polling starts only where nothing else emits or has reported a later
block, the subscription is established before polling reports, and a poll is
answered with a block only while that block is still the next one. -/
def Careful (state : State) : Label → Prop
  | .subscribed =>
      state.Requested → state.sources = 0 ∧ state.reports = []
  | .subscribeFailed => state.Requested → state.MayPoll
  | .removedOnError true =>
      state.errorRemovals ≠ 0 → { state with inManager := false }.MayPoll
  | .headerTimeout =>
      state.heads.timer = true → state.heads.needToWatchLater = true →
        state.MayPoll
  | .answer index request (.ok (some hash)) _ =>
      hash ≠ "" → ∀ poller ∈ state.pollers[index]?,
        ∀ asked ∈ poller.requests[request]?, asked = poller.confirmations
  | _ => True

end Sources

section Invariant

variable {config : Config}

/-- What the steps keep on a growing chain.  A poller that can report goes on
after all reports, and the subscription after all headers that it had. -/
structure Ordered (config : Config) (state : State) : Prop where
  source : state.sources ≤ 1
  numbered : ∀ report ∈ state.reports, ∃ blockNumber ∈ config.blockNumber,
    report.confirmations = report.head - blockNumber + 1
  increasing : (state.reports.map (·.head)).Pairwise (· < ·)
  polled : ∀ poller ∈ state.pollers, poller.active = true →
    ∀ report ∈ state.reports, report.confirmations ≤ poller.confirmations

/-- A block that a header may still announce comes after all reports, or is
the one that was caught last. -/
def Ahead (state : State) (block : Int × Option String) : Prop :=
  state.inManager = true → ∀ report ∈ state.reports,
    report.head ≤ block.1 ∧
      (report.head = block.1 → state.heads.lastCaughtBlockHash = block.2)

theorem acceptHeader_spec {watcher : HeadsWatcher} {header : Header}
    {number : Numbers} {parentHash : String}
    (accepted : acceptHeader watcher header = some (number, parentHash)) :
    header.number = some number ∧ header.parentHash = some parentHash ∧
      watcher.lastCaughtBlockHash ≠ some parentHash := by
  unfold acceptHeader at accepted
  split at accepted
  · rename_i shown parent numberEq parentEq
    split at accepted
    · rename_i valid
      cases accepted
      exact ⟨numberEq, parentEq, valid.2.2.2.2⟩
    · cases accepted
  · cases accepted

/-- The data handler ignores a header, or catches its block and reports it
where the receipt's block number converts. -/
theorem onHeader_spec (config : Config) (state : State) {header : Header}
    (listenerThrows : Bool)
    (numbered : header.number ≠ none → blockOf header ≠ none) :
    (state.onHeader config header listenerThrows).inManager =
        state.inManager ∧
      (state.onHeader config header listenerThrows).pollers = state.pollers ∧
      (((state.onHeader config header listenerThrows).reports =
            state.reports ∧
          (state.onHeader config header
              listenerThrows).heads.lastCaughtBlockHash =
            state.heads.lastCaughtBlockHash) ∨
        ∃ number parentHash,
          blockOf header = some (number, some parentHash) ∧
          state.heads.lastCaughtBlockHash ≠ some parentHash ∧
          (state.onHeader config header
              listenerThrows).heads.lastCaughtBlockHash = some parentHash ∧
          ((config.blockNumber = none ∧
              (state.onHeader config header listenerThrows).reports =
                state.reports) ∨
            ∃ blockNumber ∈ config.blockNumber,
              (state.onHeader config header listenerThrows).reports =
                state.reports ++
                  [⟨number - blockNumber + 1, parentHash, number⟩])) := by
  unfold State.onHeader
  cases accepted : acceptHeader state.heads header with
  | none => exact ⟨rfl, rfl, .inl ⟨rfl, rfl⟩⟩
  | some parts =>
      obtain ⟨shown, parentHash⟩ := parts
      obtain ⟨numberEq, parentEq, fresh⟩ := acceptHeader_spec accepted
      have there : blockOf header ≠ none :=
        numbered (by rw [numberEq]; exact Option.some_ne_none _)
      cases converted : Prepare.bigIntOf shown with
      | none =>
          exfalso
          apply there
          simp [blockOf, numberEq, converted]
      | some number =>
          have block : blockOf header = some (number, some parentHash) := by
            simp [blockOf, numberEq, converted, parentEq]
          cases base : config.blockNumber with
          | none =>
              have unreported : headerReport config shown parentHash = none := by
                simp only [headerReport, converted, base]
              dsimp only
              rw [unreported]
              exact ⟨rfl, rfl, .inr ⟨number, parentHash, block, fresh, rfl,
                .inl ⟨rfl, rfl⟩⟩⟩
          | some blockNumber =>
              have reported : headerReport config shown parentHash =
                  some ⟨number - blockNumber + 1, parentHash, number⟩ := by
                simp only [headerReport, converted, base]
              dsimp only
              rw [reported]
              dsimp only
              split
              · exact ⟨rfl, rfl, .inr ⟨number, parentHash, block, fresh, rfl,
                  .inr ⟨blockNumber, rfl, rfl⟩⟩⟩
              · exact ⟨rfl, rfl, .inr ⟨number, parentHash, block, fresh, rfl,
                  .inr ⟨blockNumber, rfl, rfl⟩⟩⟩

/-- Where one source at most is there and a poller can report, it is the only
source. -/
theorem alone {state : State} (single : state.sources ≤ 1) {index : Nat}
    {poller : Polling} (found : state.pollers[index]? = some poller)
    (active : poller.active = true) :
    state.inManager = false ∧
      ∀ changed, ∀ other ∈ state.pollers.set index changed,
        other.active = true → other = changed := by
  obtain ⟨inRange, rfl⟩ := List.getElem?_eq_some_iff.mp found
  have positive : 0 < state.pollers.countP Polling.active :=
    List.countP_pos_iff.mpr ⟨_, List.getElem_mem inRange, active⟩
  unfold State.sources at single
  cases managed : state.inManager with
  | true =>
      rw [managed, if_pos rfl] at single
      omega
  | false =>
      refine ⟨rfl, fun changed other member isActive => ?_⟩
      rw [managed, if_neg Bool.false_ne_true] at single
      obtain ⟨place, bound, rfl⟩ := List.getElem_of_mem member
      rw [List.getElem_set] at isActive ⊢
      by_cases same : index = place
      · rw [if_pos same]
      · exfalso
        rw [if_neg same] at isActive
        -- With this poller at rest, none is left that can report.
        have rest : (state.pollers.set index
            { interval := false }).countP Polling.active = 0 := by
          rw [List.countP_set inRange, active]
          simp only [Polling.active, if_true]
          change _ - 1 + 0 = 0
          omega
        rw [List.countP_eq_zero] at rest
        rw [List.length_set] at bound
        refine rest (state.pollers[place]) ?_ isActive
        rw [List.mem_iff_getElem]
        refine ⟨place, by rwa [List.length_set], ?_⟩
        rw [List.getElem_set, if_neg same]

theorem sources_setPoller {state : State} {index : Nat}
    {poller changed : Polling}
    (found : state.pollers[index]? = some poller)
    (active : changed.active = true → poller.active = true) :
    (state.setPoller index changed).sources ≤ state.sources := by
  obtain ⟨inRange, rfl⟩ := List.getElem?_eq_some_iff.mp found
  have counted := List.countP_set (p := Polling.active) (a := changed) inRange
  have positive : state.pollers[index].active = true →
      0 < state.pollers.countP Polling.active := fun isActive =>
    List.countP_pos_iff.mpr ⟨_, List.getElem_mem inRange, isActive⟩
  have managed : (state.setPoller index changed).inManager =
      state.inManager := rfl
  have pollers : (state.setPoller index changed).pollers =
      state.pollers.set index changed := rfl
  unfold State.sources
  rw [managed, pollers, counted]
  cases before : state.pollers[index].active with
  | true =>
      have := positive before
      split <;> simp <;> split <;> omega
  | false =>
      have rests : changed.active = false := by
        rw [Bool.eq_false_iff]
        intro isActive
        rw [active isActive] at before
        cases before
      simp [rests]

theorem sources_startPolling (state : State) :
    state.startPolling.sources = state.sources + 1 := by
  unfold State.sources State.startPolling
  dsimp only
  rw [List.countP_append, ← Nat.add_assoc]
  rfl

/-- A watcher with the same reports keeps the order if it has one source at
most and every poller that can report was there before. -/
theorem Ordered.kept {state other : State} (ordered : Ordered config state)
    (reports : other.reports = state.reports) (source : other.sources ≤ 1)
    (pollers : ∀ poller ∈ other.pollers, poller.active = true →
      ∃ before ∈ state.pollers, before.active = true ∧
        before.confirmations ≤ poller.confirmations) :
    Ordered config other where
  source := source
  numbered := by
    rw [reports]
    exact ordered.numbered
  increasing := by
    rw [reports]
    exact ordered.increasing
  polled poller member active report reported := by
    rw [reports] at reported
    obtain ⟨before, there, wasActive, le⟩ := pollers poller member active
    exact Int.le_trans (ordered.polled before there wasActive report reported)
      (Int.ofNat_le.mpr le)

theorem Ordered.same {state other : State} (ordered : Ordered config state)
    (reports : other.reports = state.reports)
    (pollers : other.pollers = state.pollers)
    (source : other.inManager = true → state.inManager = true) :
    Ordered config other := by
  apply ordered.kept reports
  · apply Nat.le_trans _ ordered.source
    unfold State.sources
    rw [pollers]
    apply Nat.add_le_add_right
    split
    · rename_i managed
      rw [if_pos (source managed)]
    · exact Nat.zero_le _
  · intro poller member active
    rw [pollers] at member
    exact ⟨poller, member, active, Nat.le_refl _⟩

theorem Ordered.startPolling {state : State} (ordered : Ordered config state)
    (may : state.MayPoll) : Ordered config state.startPolling where
  source := by
    rw [sources_startPolling, may.1]
  numbered := ordered.numbered
  increasing := ordered.increasing
  polled poller member active report reported := by
    rcases List.mem_append.mp member with before | started
    · exact ordered.polled poller before active report reported
    · rw [List.mem_singleton.mp started]
      exact may.2 report reported

/-- A report keeps the order if its block comes after all reports and its
count is that of its block. -/
theorem Ordered.emit {state : State} (ordered : Ordered config state)
    {report : Report}
    (numbered : ∃ blockNumber ∈ config.blockNumber,
      report.confirmations = report.head - blockNumber + 1)
    (later : ∀ earlier ∈ state.reports, earlier.head < report.head)
    (polled : ∀ poller ∈ state.pollers, poller.active = true →
      report.confirmations ≤ poller.confirmations) :
    Ordered config (state.emit report) where
  source := ordered.source
  numbered other member := by
    rcases List.mem_append.mp member with before | last
    · exact ordered.numbered other before
    · rw [List.mem_singleton.mp last]
      exact numbered
  increasing := by
    change ((state.reports ++ [report]).map _).Pairwise _
    rw [List.map_append, List.pairwise_append]
    refine ⟨ordered.increasing, List.pairwise_singleton _ _, ?_⟩
    intro head member other last
    obtain ⟨earlier, there, rfl⟩ := List.mem_map.mp member
    rw [List.mem_singleton.mp last]
    exact later earlier there
  polled poller member active other reported := by
    rcases List.mem_append.mp reported with before | last
    · exact ordered.polled poller member active other before
    · rw [List.mem_singleton.mp last]
      exact polled poller member active

theorem Ordered.reported_nil {state : State} (ordered : Ordered config state)
    (unknown : config.blockNumber = none) : state.reports = [] := by
  rw [List.eq_nil_iff_forall_not_mem]
  intro report member
  obtain ⟨blockNumber, known, -⟩ := ordered.numbered report member
  rw [unknown] at known
  cases known

theorem Ordered.onHeader {state : State} (ordered : Ordered config state)
    {header : Header} (listenerThrows : Bool)
    (numbered : header.number ≠ none → blockOf header ≠ none)
    (managed : state.inManager = true)
    (ahead : ∀ block ∈ blockOf header, Ahead state block) :
    Ordered config (state.onHeader config header listenerThrows) := by
  obtain ⟨inManager, pollers, cases⟩ :=
    onHeader_spec config state listenerThrows numbered
  have quiet : ∀ poller ∈ state.pollers, poller.active = false := by
    intro poller member
    rw [Bool.eq_false_iff]
    intro active
    obtain ⟨index, found⟩ := List.mem_iff_getElem?.mp member
    rw [(alone ordered.source found active).1] at managed
    cases managed
  obtain ⟨reports, -⟩ | ⟨number, parentHash, block, fresh, -, catching⟩ := cases
  · exact ordered.same reports pollers (inManager ▸ id)
  · obtain ⟨-, reports⟩ | ⟨blockNumber, known, reports⟩ := catching
    · exact ordered.same reports pollers (inManager ▸ id)
    · have emitted : Ordered config
          (state.emit ⟨number - blockNumber + 1, parentHash, number⟩) := by
        apply ordered.emit ⟨blockNumber, known, rfl⟩
        · intro earlier member
          obtain ⟨le, caught⟩ := ahead _ block managed earlier member
          rcases Int.lt_or_eq_of_le le with less | same
          · exact less
          · exact absurd (caught same) fresh
        · intro poller member active
          rw [quiet poller member] at active
          cases active
      exact emitted.same reports pollers (inManager ▸ id)

theorem Ordered.setPoller {state : State} (ordered : Ordered config state)
    {index : Nat} {poller changed : Polling}
    (found : state.pollers[index]? = some poller)
    (active : poller.active = true)
    (counted : poller.confirmations ≤ changed.confirmations) :
    Ordered config (state.setPoller index changed) := by
  have sources : (state.setPoller index changed).sources ≤ 1 :=
    Nat.le_trans (sources_setPoller found fun _ => active) ordered.source
  refine Ordered.kept ordered rfl sources fun other member isActive => ?_
  obtain rfl := (alone ordered.source found active).2 _ other member isActive
  exact ⟨poller, List.mem_of_getElem? found, active, counted⟩

theorem Polling.confirmations_tick (config : Config) (poller : Polling) :
    (poller.tick config).confirmations = poller.confirmations := by
  unfold Polling.tick
  split <;> rfl

theorem active_of_request {poller : Polling} {request asked : Nat}
    (made : poller.requests[request]? = some asked) :
    poller.active = true := by
  unfold Polling.active
  cases requests : poller.requests with
  | nil =>
      rw [requests] at made
      cases made
  | cons => exact Bool.or_true _

theorem inManager_onAnswer (blockNumber : Int) (state : State)
    (index asked : Nat) (poller : Polling)
    (block : Except Failure (Option String)) (listenerThrows : Bool) :
    (state.onAnswer blockNumber index asked poller block
      listenerThrows).inManager = state.inManager := by
  unfold State.onAnswer
  split
  · rfl
  · dsimp only
    split <;> rfl

theorem Ordered.onAnswer {state : State} (ordered : Ordered config state)
    {index request asked : Nat} {blockNumber : Int} {poller : Polling}
    (known : config.blockNumber = some blockNumber)
    (found : state.pollers[index]? = some poller)
    (made : poller.requests[request]? = some asked)
    (block : Except Failure (Option String)) (listenerThrows : Bool)
    (current : ∀ hash, block = .ok (some hash) → hash ≠ "" →
      asked = poller.confirmations) :
    Ordered config
      (state.onAnswer blockNumber index asked
        { poller with requests := poller.requests.eraseIdx request }
        block listenerThrows) := by
  have active := active_of_request made
  unfold State.onAnswer
  cases block with
  | error failure =>
      exact ordered.setPoller found active (Nat.le_refl _)
  | ok hash =>
      dsimp only
      split
      · exact ordered.setPoller found active (Nat.le_refl _)
      · rename_i shown isHash
        obtain ⟨rfl, nonempty⟩ := Option.filter_eq_some_iff.mp isHash
        have asks := current shown rfl (by simpa using nonempty)
        have moved : Ordered config (state.setPoller index
            { poller with
              requests := poller.requests.eraseIdx request
              confirmations := poller.confirmations + 1
              interval := poller.interval && !listenerThrows }) :=
          ordered.setPoller found active (Nat.le_succ _)
        apply Ordered.emit moved
        · exact ⟨blockNumber, known, by subst asks; push_cast; omega⟩
        · intro earlier member
          obtain ⟨base, isBase, count⟩ := ordered.numbered earlier member
          rw [known] at isBase
          cases isBase
          have := ordered.polled poller (List.mem_of_getElem? found) active
            earlier member
          change earlier.head < blockNumber + asked
          omega
        · intro other member isActive
          obtain rfl :=
            (alone ordered.source found active).2 _ other member isActive
          exact Int.le_refl _

theorem Ordered.subscribed {state : State} (ordered : Ordered config state)
    (none : state.sources = 0) (empty : state.reports = []) :
    Ordered config
      { state.subscribe .subscribed with inManager := true } where
  source := by
    have noPoller : state.pollers.countP Polling.active = 0 :=
      Nat.eq_zero_of_add_eq_zero_left none
    change 1 + state.pollers.countP Polling.active ≤ 1
    rw [noPoller]
  numbered := ordered.numbered
  increasing := ordered.increasing
  polled poller member active report reported := by
    change report ∈ state.reports at reported
    rw [empty] at reported
    cases reported

/-- A careful step keeps the order. -/
theorem Ordered.step {state : State} (ordered : Ordered config state)
    {label : Label} (careful : Careful state label)
    (numbered : ∀ header throws, label = .header header throws →
      (header.number ≠ none → blockOf header ≠ none) ∧
        ∀ block ∈ blockOf header, Ahead state block) :
    Ordered config (step config state label) := by
  cases label with
  | immediate => exact ordered.same rfl rfl id
  | subscribed =>
      simp only [Confirmations.step]
      split
      · rename_i requested
        obtain ⟨none, empty⟩ := careful requested
        exact ordered.subscribed none empty
      · exact ordered
  | subscribeFailed =>
      simp only [Confirmations.step]
      split
      · rename_i requested
        refine Ordered.startPolling (Ordered.same ordered rfl rfl id) ?_
        exact careful requested
      · exact ordered
  | header header listenerThrows =>
      simp only [Confirmations.step]
      obtain ⟨isNumber, ahead⟩ := numbered header listenerThrows rfl
      split
      · rename_i managed
        exact ordered.onHeader listenerThrows isNumber managed ahead
      · exact ordered
  | error =>
      simp only [Confirmations.step]
      split
      · exact ordered.same rfl rfl id
      · exact ordered
  | removed succeeded =>
      simp only [Confirmations.step]
      split
      · exact ordered
      · exact ordered.same rfl rfl fun managed =>
          (Bool.and_eq_true_iff.mp managed).1
  | removedOnError succeeded =>
      simp only [Confirmations.step]
      split
      · exact ordered
      · rename_i awaited
        cases succeeded with
        | false =>
            exact ordered.same rfl rfl fun managed =>
              (Bool.and_eq_true_iff.mp managed).1
        | true =>
            simp only [Bool.not_true, Bool.and_false, if_true]
            refine Ordered.startPolling
              (Ordered.same ordered rfl rfl fun managed => ?_) ?_
            · cases managed
            · exact careful awaited
  | headerTimeout =>
      simp only [Confirmations.step]
      split
      · rename_i timer
        split
        · rename_i waiting
          refine Ordered.startPolling (Ordered.same ordered rfl rfl id) ?_
          exact careful timer waiting
        · exact ordered.same rfl rfl id
      · exact ordered
  | tick index =>
      simp only [Confirmations.step]
      split
      · exact ordered
      · rename_i poller found
        split
        · rename_i running
          apply ordered.setPoller found
          · rw [Polling.active, running]
            rfl
          · exact Nat.le_of_eq (poller.confirmations_tick config).symm
        · exact ordered
  | answer index request block listenerThrows =>
      simp only [Confirmations.step]
      split
      · rename_i poller blockNumber found known
        split
        · exact ordered
        · rename_i asked made
          apply ordered.onAnswer known found made
          rintro hash rfl nonempty
          exact careful nonempty poller found asked made
      · exact ordered

theorem Ahead.kept {state other : State} {block : Int × Option String}
    (ahead : Ahead state block) (reports : other.reports = state.reports)
    (caught : other.heads.lastCaughtBlockHash =
      state.heads.lastCaughtBlockHash)
    (managed : other.inManager = true → state.inManager = true) :
    Ahead other block := by
  intro live
  rw [reports, caught]
  exact ahead (managed live)

theorem Ahead.onHeader {state : State} (ordered : Ordered config state)
    {header : Header} (listenerThrows : Bool) {block : Int × Option String}
    (ahead : Ahead state block)
    (numbered : header.number ≠ none → blockOf header ≠ none)
    (growing : ∀ earlier ∈ blockOf header, Ahead state earlier ∧
      earlier.1 ≤ block.1 ∧ (earlier.1 = block.1 → earlier.2 = block.2)) :
    Ahead (state.onHeader config header listenerThrows) block := by
  obtain ⟨inManager, -, cases⟩ :=
    onHeader_spec config state listenerThrows numbered
  obtain ⟨reports, caught⟩ | ⟨number, parentHash, isBlock, -, caught, catching⟩ :=
    cases
  · exact ahead.kept reports caught (inManager ▸ id)
  · obtain ⟨headerAhead, le, same⟩ := growing _ isBlock
    intro managed report member
    rw [inManager] at managed
    rw [caught]
    obtain ⟨unknown, reports⟩ | ⟨blockNumber, -, reports⟩ := catching
    · rw [reports, ordered.reported_nil unknown] at member
      cases member
    · rw [reports] at member
      rcases List.mem_append.mp member with before | last
      · obtain ⟨below, -⟩ := headerAhead managed report before
        exact ⟨Int.le_trans below le, fun equal =>
          same (Int.le_antisymm le (equal ▸ below))⟩
      · rw [List.mem_singleton.mp last]
        exact ⟨le, same⟩

/-- A block ahead of the reports stays ahead while it comes after the blocks
that headers announce. -/
theorem Ahead.step {state : State} (ordered : Ordered config state)
    {label : Label} (careful : Careful state label)
    {block : Int × Option String} (ahead : Ahead state block)
    (growing : ∀ header throws, label = .header header throws →
      (header.number ≠ none → blockOf header ≠ none) ∧
        ∀ earlier ∈ blockOf header, Ahead state earlier ∧
          earlier.1 ≤ block.1 ∧
          (earlier.1 = block.1 → earlier.2 = block.2)) :
    Ahead (step config state label) block := by
  cases label with
  | immediate => exact ahead
  | subscribed =>
      simp only [Confirmations.step]
      split
      · rename_i requested
        intro _ report member
        change report ∈ state.reports at member
        rw [(careful requested).2] at member
        cases member
      · exact ahead
  | subscribeFailed =>
      simp only [Confirmations.step]
      split
      · exact ahead
      · exact ahead
  | header header listenerThrows =>
      simp only [Confirmations.step]
      obtain ⟨isNumber, later⟩ := growing header listenerThrows rfl
      split
      · exact Ahead.onHeader ordered listenerThrows ahead isNumber later
      · exact ahead
  | error =>
      simp only [Confirmations.step]
      split
      · exact ahead
      · exact ahead
  | removed succeeded =>
      simp only [Confirmations.step]
      split
      · exact ahead
      · exact ahead.kept rfl rfl fun managed =>
          (Bool.and_eq_true_iff.mp managed).1
  | removedOnError succeeded =>
      simp only [Confirmations.step]
      split
      · exact ahead
      · cases succeeded with
        | false =>
            exact ahead.kept rfl rfl fun managed =>
              (Bool.and_eq_true_iff.mp managed).1
        | true =>
            exact ahead.kept rfl rfl fun managed =>
              (Bool.and_eq_true_iff.mp managed).1
  | headerTimeout =>
      simp only [Confirmations.step]
      split
      · split
        · exact ahead
        · exact ahead
      · exact ahead
  | tick index =>
      simp only [Confirmations.step]
      split
      · exact ahead
      · split
        · exact ahead
        · exact ahead
  | answer index request answer listenerThrows =>
      simp only [Confirmations.step]
      split
      · rename_i poller blockNumber found known
        split
        · exact ahead
        · rename_i asked made
          -- A poller with a request is the only source.
          have gone := (alone ordered.source found (active_of_request made)).1
          intro managed
          rw [inManager_onAnswer, gone] at managed
          cases managed
      · exact ahead

/-- The blocks that the headers of a run announce. -/
def blocksOf (labels : List Label) : List (Int × Option String) :=
  (headersOf labels).filterMap blockOf

theorem blocksOf_cons (label : Label) (labels : List Label) :
    ∃ first, blocksOf (label :: labels) = first ++ blocksOf labels ∧
      ∀ header throws, label = .header header throws →
        ∀ block, block ∈ blockOf header ↔ block ∈ first := by
  cases label with
  | header header throws =>
      refine ⟨(blockOf header).toList, ?_, ?_⟩
      · change (header :: headersOf labels).filterMap blockOf =
          _ ++ blocksOf labels
        rw [List.filterMap_cons]
        cases blockOf header <;> rfl
      · intro other otherThrows same block
        cases same
        exact Option.mem_toList.symm
  | _ => exact ⟨[], rfl, nofun⟩

theorem Growing.of_cons {label : Label} {labels : List Label}
    (growing : Growing (headersOf (label :: labels))) :
    Growing (headersOf labels) ∧
      ∀ header throws, label = .header header throws →
        (header.number ≠ none → blockOf header ≠ none) ∧
          ∀ earlier ∈ blockOf header, ∀ block ∈ blocksOf labels,
            earlier.1 ≤ block.1 ∧
              (earlier.1 = block.1 → earlier.2 = block.2) := by
  obtain ⟨first, blocks, isFirst⟩ := blocksOf_cons label labels
  obtain ⟨numbered, ordered⟩ := growing
  change (blocksOf (label :: labels)).Pairwise _ at ordered
  rw [blocks, List.pairwise_append] at ordered
  obtain ⟨-, rest, across⟩ := ordered
  have tail : ∀ header ∈ headersOf labels,
      header ∈ headersOf (label :: labels) := by
    intro header member
    cases label with
    | header => exact List.mem_cons_of_mem _ member
    | _ => exact member
  refine ⟨⟨fun header member => numbered header (tail header member), rest⟩,
    fun header throws same => ⟨?_, fun earlier isEarlier block later => ?_⟩⟩
  · subst same
    exact numbered header List.mem_cons_self
  · exact across earlier ((isFirst header throws same earlier).mp isEarlier)
      block later

/-- A careful run on a growing chain keeps the order. -/
theorem ordered_run {start : State} (ordered : Ordered config start)
    {labels : List Label} (growing : Growing (headersOf labels))
    (ahead : ∀ block ∈ blocksOf labels, Ahead start block)
    (careful : Run.Meets (step config) Careful start labels) :
    Ordered config (run (step config) start labels) := by
  induction labels generalizing start with
  | nil => exact ordered
  | cons label labels induction =>
      obtain ⟨first, blocks, isFirst⟩ := blocksOf_cons label labels
      obtain ⟨rest, across⟩ := growing.of_cons
      rw [blocks] at ahead
      have headerAhead : ∀ header throws, label = .header header throws →
          ∀ block ∈ blockOf header, Ahead start block := by
        intro header throws same block member
        apply ahead
        apply List.mem_append_left
        exact (isFirst header throws same block).mp member
      have stepped : Ordered config (step config start label) := by
        apply ordered.step careful.1
        intro header throws same
        exact ⟨(across header throws same).1, headerAhead header throws same⟩
      apply induction stepped rest _ careful.2
      intro block later
      apply Ahead.step ordered careful.1
        (ahead block (List.mem_append_right _ later))
      intro header throws same
      obtain ⟨numbered, grows⟩ := across header throws same
      exact ⟨numbered, fun earlier isEarlier =>
        ⟨headerAhead header throws same earlier isEarlier,
          grows earlier isEarlier block later⟩⟩

theorem Ordered.singleStream {state : State} (ordered : Ordered config state) :
    SingleStream state where
  source := ordered.source
  heads := ordered.increasing.imp Int.ne_of_lt
  numbers := by
    rw [List.pairwise_map]
    have heads := List.pairwise_map.mp ordered.increasing
    apply heads.imp_of_mem
    intro earlier later isEarlier isLater less
    obtain ⟨base, known, count⟩ := ordered.numbered earlier isEarlier
    obtain ⟨other, alsoKnown, laterCount⟩ := ordered.numbered later isLater
    cases Option.mem_unique known alsoKnown
    omega

theorem ordered_start (config : Config) : Ordered config {} where
  source := Nat.zero_le _
  numbered := nofun
  increasing := .nil
  polled := nofun

/-- In every run of careful steps on a chain whose heads only grow, whatever
the order of answers, headers, errors and timers, there is one stream of
confirmations. -/
theorem single_confirmation_stream (config : Config) (labels : List Label)
    (growing : Growing (headersOf labels))
    (careful : Run.Meets (step config) Careful {} labels) :
    SingleStream (run (step config) {} labels) := by
  apply Ordered.singleStream
  exact ordered_run (ordered_start config) growing (fun _ _ => nofun) careful

/-- A receipt of block 7, and two confirmations that are needed. -/
def minedAtSeven : Config where
  transactionConfirmationBlocks := 2
  receipt :=
    { blockHash := some "0x07", blockNumber := .bigint 7, status := none }

def headerEight : Header where
  number := some (.bigint 8)
  parentHash := some
    "0x0707070707070707070707070707070707070707070707070707070707070707"

/-- The header comes before the timeout, and ends the subscription. -/
theorem single_confirmation_stream_in_time :
    SingleStream (run (step minedAtSeven) {}
      [.immediate, .subscribed, .header headerEight false, .headerTimeout,
        .removed true]) := by
  apply single_confirmation_stream minedAtSeven
  · exact ⟨by simp [headersOf, headerEight, blockOf, Prepare.bigIntOf],
      List.pairwise_singleton _ _⟩
  · refine ⟨trivial, fun _ => ⟨rfl, rfl⟩, trivial, fun _ waiting => ?_,
      trivial, trivial⟩
    cases waiting

/-- The timeout fires before the first header: the subscription stays, and
the same head is reported by both. -/
theorem not_single_confirmation_stream :
    ¬ ∀ (config : Config) (labels : List Label),
      Growing (headersOf labels) →
        SingleStream (run (step config) {} labels) := by
  intro single
  have stream := single minedAtSeven
    [.immediate, .subscribed, .headerTimeout, .tick 0,
      .answer 0 0 (.ok (some "0x08")) false, .header headerEight false]
    ⟨by simp [headersOf, headerEight, blockOf, Prepare.bigIntOf],
      List.pairwise_singleton _ _⟩
  have twice := stream.heads
  revert twice
  decide

end Invariant

end Web3Js.Send.Confirmations
