import Web3Js.Http.Answers

/-!
# Deadlines and what they leave behind

A pending request has its deadline armed or its signal aborted, and a settled
one has neither a timer nor a listener.  Where the fetch does not answer once
its signal is aborted, no abort ends in a result, and the error says which
deadline it was.
-/

namespace Web3Js.Http

open Web3Js.Core (Value)

variable {request : Request} {state : State} {response : Response}

/-! ## What a step does -/

/-- The two compositions of a state are those of another. -/
structure State.SameSignals (state other : State) : Prop where
  request : other.requestComposition = state.requestComposition
  header : other.headerComposition = state.headerComposition

theorem State.SameSignals.refl (state : State) : state.SameSignals state :=
  ⟨rfl, rfl⟩

/-- The body has been told to stop, or will be when the request is aborted. -/
def State.Attentive (state : State) : Prop :=
  state.stopped = true ∨
    state.onAbort = true ∧ state.requestComposition.aborted = none

/-- The same before the body is read, where the fetch has answered in time. -/
structure State.Heeds (state : State) : Prop where
  received : state.phase ≠ .fetching → state.Attentive
  fetching : state.phase = .fetching →
    state.requestComposition.aborted = none

/-- Where the code goes on to after an answer. -/
inductive State.Advance (request : Request) (state : State) : State → Prop
  | pending {next : State} (signals : state.SameSignals next)
      (unsettled : ¬next.phase.IsSettled) (received : next.phase ≠ .fetching)
      (attentive : state.Heeds → next.Attentive) :
      Advance request state next
  | rejected {inner : State} (signals : state.SameSignals inner)
      (response : Response) (problem : Problem) :
      Advance request state (inner.fail request (some response) problem)
  | resolved {inner : State} (signals : state.SameSignals inner)
      (alive : state.phase = .fetching ∨
        state.requestComposition.aborted = none)
      (response : Response) (value : Value) :
      Advance request state (inner.settle (some response) (.ok value))

namespace State.Advance

theorem finish {inner : State} (signals : state.SameSignals inner)
    (alive : state.phase = .fetching ∨
      state.requestComposition.aborted = none) (text : String) :
    state.Advance request (inner.finish request response text) := by
  rw [State.finish_eq]
  cases interpret request response text with
  | error problem => exact .rejected signals response problem
  | ok value => exact .resolved signals alive response value

theorem complete (progress : Progress) :
    state.Advance request (state.complete request response progress) := by
  rw [State.complete]
  cases aborted : state.requestComposition.aborted with
  | some reason => exact .rejected (.refl state) response reason
  | none => exact finish (.refl state) (.inr aborted) _

theorem readOn {inner : State} (signals : state.SameSignals inner)
    (attentive : state.Heeds → inner.requestComposition.aborted = none →
      inner.Attentive) (progress : Progress) :
    state.Advance request (inner.readOn request response progress) := by
  rw [State.readOn]
  cases aborted : inner.requestComposition.aborted with
  | some reason => exact .rejected signals response reason
  | none =>
      exact .pending ⟨signals.request, signals.header⟩ id (by rintro ⟨⟩)
        fun heeds => attentive heeds aborted

theorem throwFrom {inner : State} (signals : state.SameSignals inner)
    (returns : Bool) (problem : Problem) :
    state.Advance request
      (inner.throwFrom request response returns problem) := by
  cases returns with
  | true =>
      exact .pending ⟨signals.request, signals.header⟩ id (by rintro ⟨⟩)
        fun _ => .inl rfl
  | false => exact .rejected signals response problem

theorem readBoundedText (fetching : state.phase = .fetching) :
    state.Advance request (state.readBoundedText request response) := by
  rw [State.readBoundedText]
  dsimp only
  split
  · exact .rejected (.refl state) response _
  cases response.body with
  | absent =>
      dsimp only
      split
      · exact finish (.refl state) (.inl fetching) ""
      · exact .rejected (.refl state) response _
  | bytes content =>
      dsimp only
      split
      · exact .rejected (.refl state) response _
      · exact finish (.refl state) (.inl fetching) _
  | stream items =>
      have attached : state.SameSignals { state with onAbort := true } :=
        ⟨rfl, rfl⟩
      exact readOn attached (fun _ unaborted => .inr ⟨rfl, unaborted⟩) _
  | iterable items returns =>
      exact .pending ⟨rfl, rfl⟩ id (by rintro ⟨⟩) fun heeds =>
        .inr ⟨rfl, heeds.fetching fetching⟩
  | unsupported type => exact .rejected (.refl state) response _

theorem onReaderRead (progress : Progress)
    (here : state.phase = .reading response progress) :
    state.Advance request
      (state.onReaderRead request response progress) := by
  have received : state.phase ≠ .fetching := by
    rw [here]
    rintro ⟨⟩
  have attentive : state.Heeds → state.requestComposition.aborted = none →
      state.Attentive := fun heeds _ => heeds.received received
  rw [State.onReaderRead]
  cases progress.remaining with
  | nil =>
      refine .pending (.refl state) ?_ received fun heeds =>
        heeds.received received
      rw [here]
      exact id
  | cons item remaining =>
      cases item with
      | undefined => exact readOn (.refl state) attentive _
      | other type => exact .rejected (.refl state) response _
      | binary chunk =>
          dsimp only
          split
          · exact .pending ⟨rfl, rfl⟩ id (by rintro ⟨⟩) fun _ => .inl rfl
          · exact readOn (.refl state) attentive _

theorem onIterated {returns : Bool} (progress : Progress)
    (here : state.phase = .iterating response returns progress) :
    state.Advance request
      (state.onIterated request response returns progress) := by
  have received : state.phase ≠ .fetching := by
    rw [here]
    rintro ⟨⟩
  rw [State.onIterated]
  cases progress.remaining with
  | nil =>
      refine .pending (.refl state) ?_ received fun heeds =>
        heeds.received received
      rw [here]
      exact id
  | cons item remaining =>
      dsimp only
      cases state.requestComposition.aborted with
      | some reason => exact throwFrom (.refl state) returns reason
      | none =>
          cases item with
          | undefined => exact throwFrom (.refl state) returns _
          | other type => exact throwFrom (.refl state) returns _
          | binary chunk =>
              dsimp only
              split
              · have destroyed : state.SameSignals
                    { state with stopped := true } := ⟨rfl, rfl⟩
                exact throwFrom destroyed returns _
              · exact .pending ⟨rfl, rfl⟩ id (by rintro ⟨⟩) fun heeds =>
                  heeds.received received

end State.Advance

/-- What a step can do. -/
inductive State.Moves (request : Request) (state : State) :
    Label → State → Prop
  | stays (label : Label) : Moves request state label state
  | advances {label : Label} {next : State}
      (received : state.phase ≠ .fetching)
      (unsettled : ¬state.phase.IsSettled)
      (advance : state.Advance request next) : Moves request state label next
  | fetched (response : Response) {next : State}
      (fetching : state.phase = .fetching)
      (advance : State.Advance request
        { state with headerComposition := state.headerComposition.dispose }
        next) : Moves request state (.fetched response) next
  | fetchFailed (thrown : Value) (fetching : state.phase = .fetching) :
      Moves request state (.fetchFailed thrown)
        (state.fail request none (.foreign thrown))
  | connectionDeadline (armed : state.headerComposition.timerArmed = true) :
      Moves request state .connectionDeadline
        (state.connectionDeadline request)
  | requestDeadline (armed : state.requestComposition.timerArmed = true) :
      Moves request state .requestDeadline (state.requestDeadline request)
  | callerAbort (reason : Value)
      (listening : state.requestComposition.listening = true) :
      Moves request state (.callerAbort reason) (state.callerAbort reason)

theorem State.moves (request : Request) (state : State) (label : Label) :
    state.Moves request label (state.step request label) := by
  cases label with
  | connectionDeadline =>
      cases armed : state.headerComposition.timerArmed with
      | true => exact .connectionDeadline armed
      | false =>
          rw [State.step, State.connectionDeadline, armed]
          exact .stays _
  | requestDeadline =>
      cases armed : state.requestComposition.timerArmed with
      | true => exact .requestDeadline armed
      | false =>
          rw [State.step, State.requestDeadline, armed]
          exact .stays _
  | callerAbort reason =>
      cases listening : state.requestComposition.listening with
      | true => exact .callerAbort reason listening
      | false =>
          rw [State.step, State.callerAbort, listening]
          exact .stays _
  | fetched response =>
      rw [State.step]
      cases phase : state.phase with
      | fetching => exact .fetched response phase (.readBoundedText phase)
      | reading | cancelling | iterating | returning | settled =>
          exact .stays _
  | fetchFailed thrown =>
      rw [State.step]
      cases phase : state.phase with
      | fetching => exact .fetchFailed thrown phase
      | reading | cancelling | iterating | returning | settled =>
          exact .stays _
  | read =>
      rw [State.step]
      cases phase : state.phase with
      | reading response progress =>
          refine .advances ?_ ?_ (.onReaderRead progress phase)
          · rw [phase]
            rintro ⟨⟩
          · rw [phase]
            exact id
      | iterating response returns progress =>
          refine .advances ?_ ?_ (.onIterated progress phase)
          · rw [phase]
            rintro ⟨⟩
          · rw [phase]
            exact id
      | fetching | cancelling | returning | settled => exact .stays _
  | ended =>
      rw [State.step]
      cases phase : state.phase with
      | reading response progress =>
          dsimp only
          split
          · refine .advances ?_ ?_ (.complete progress)
            · rw [phase]
              rintro ⟨⟩
            · rw [phase]
              exact id
          · exact .stays _
      | iterating response returns progress =>
          dsimp only
          split
          · refine .advances ?_ ?_ (.complete progress)
            · rw [phase]
              rintro ⟨⟩
            · rw [phase]
              exact id
          · exact .stays _
      | fetching | cancelling | returning | settled => exact .stays _
  | readFailed thrown =>
      rw [State.step]
      cases phase : state.phase with
      | reading response progress =>
          refine .advances ?_ ?_ (.rejected (.refl state) response _)
          · rw [phase]
            rintro ⟨⟩
          · rw [phase]
            exact id
      | iterating response returns progress =>
          refine .advances ?_ ?_ (.rejected (.refl state) response _)
          · rw [phase]
            rintro ⟨⟩
          · rw [phase]
            exact id
      | fetching | cancelling | returning | settled => exact .stays _
  | cancelled failure =>
      cases phase : state.phase with
      | cancelling response totalBytes =>
          cases failure <;> simp only [State.step, phase] <;>
            refine .advances ?_ ?_ (.rejected (.refl state) response _) <;>
              rw [phase]
          · rintro ⟨⟩
          · exact id
          · rintro ⟨⟩
          · exact id
      | fetching | reading | iterating | returning | settled =>
          simp only [State.step, phase]
          exact .stays _
  | returned =>
      rw [State.step]
      cases phase : state.phase with
      | returning response problem =>
          refine .advances ?_ ?_ (.rejected (.refl state) response problem)
          · rw [phase]
            rintro ⟨⟩
          · rw [phase]
            exact id
      | fetching | reading | cancelling | iterating | settled =>
          exact .stays _

/-! ## Timers and listeners -/

namespace AbortComposition

/-- A composition is disposed or waits for its deadline. -/
structure WellFormed (composition : AbortComposition) : Prop where
  released : composition.disposed = true →
    composition.timerArmed = false ∧ composition.listening = false
  waiting : composition.disposed = false →
    composition.timerArmed = true ∧ composition.aborted = none
  timedOut : composition.timedOut = true → composition.aborted ≠ none

variable {composition : AbortComposition}

theorem WellFormed.dispose (wellFormed : composition.WellFormed) :
    composition.dispose.WellFormed :=
  ⟨fun _ => ⟨rfl, rfl⟩, by rintro ⟨⟩, wellFormed.timedOut⟩

theorem abort_ne_none (reason : Problem) :
    (composition.abort reason).aborted ≠ none := by
  rw [abort]
  cases composition.aborted <;> rintro ⟨⟩

theorem wellFormed_abort (reason : Problem) :
    (composition.abort reason).dispose.WellFormed :=
  ⟨fun _ => ⟨rfl, rfl⟩, by rintro ⟨⟩, fun _ => abort_ne_none reason⟩

end AbortComposition

theorem wellFormed_composeAbortSignal (signal : Option (Option Problem)) :
    (composeAbortSignal signal).WellFormed := by
  rcases signal with _ | _ | reason
  · exact ⟨by rintro ⟨⟩, fun _ => ⟨rfl, rfl⟩, by rintro ⟨⟩⟩
  · exact ⟨by rintro ⟨⟩, fun _ => ⟨rfl, rfl⟩, by rintro ⟨⟩⟩
  · exact ⟨fun _ => ⟨rfl, rfl⟩, by rintro ⟨⟩, by rintro ⟨⟩⟩

/-- A pending request has its deadlines armed or is aborted, and a settled one
has let go of everything. -/
structure State.Bounded (state : State) : Prop where
  request : state.requestComposition.WellFormed
  header : state.headerComposition.WellFormed
  pending : ¬state.phase.IsSettled →
    state.requestComposition.disposed = true →
      state.requestComposition.aborted ≠ none
  fetching : state.phase = .fetching →
    (state.headerComposition.disposed = true →
      state.headerComposition.aborted ≠ none) ∧
    (state.requestComposition.aborted ≠ none →
      state.headerComposition.aborted ≠ none) ∧
    (state.headerComposition.disposed = false →
      state.headerComposition.listening = true)
  received : state.phase ≠ .fetching →
    state.headerComposition.disposed = true
  settled : state.phase.IsSettled →
    state.requestComposition.disposed = true ∧
      state.headerComposition.disposed = true ∧ state.onAbort = false

namespace State.Bounded

theorem settle {inner : State} (signals : state.SameSignals inner)
    (request : state.requestComposition.WellFormed)
    (header : state.headerComposition.WellFormed)
    (response : Option Response) (outcome : Except Problem Value) :
    (inner.settle response outcome).Bounded where
  request := by
    rw [← signals.request] at request
    exact request.dispose
  header := by
    rw [← signals.header] at header
    exact header.dispose
  pending := fun unsettled => absurd trivial unsettled
  fetching := by rintro ⟨⟩
  received := fun _ => rfl
  settled := fun _ => ⟨rfl, rfl, rfl⟩

theorem advance {next : State} (advance : state.Advance request next)
    (request : state.requestComposition.WellFormed)
    (header : state.headerComposition.WellFormed)
    (pending : state.requestComposition.disposed = true →
      state.requestComposition.aborted ≠ none)
    (headersIn : state.headerComposition.disposed = true) : next.Bounded := by
  cases advance with
  | pending signals unsettled received =>
      rw [← signals.header] at headersIn
      refine ⟨?_, ?_, ?_, fun fetching => absurd fetching received,
        fun _ => headersIn, fun settled => absurd settled unsettled⟩
      · rw [signals.request]
        exact request
      · rw [signals.header]
        exact header
      · rw [signals.request]
        exact fun _ => pending
  | rejected signals response problem =>
      exact settle signals request header (some response) _
  | resolved signals alive response value =>
      exact settle signals request header (some response) _

theorem abortRequest (bounded : state.Bounded)
    (armed : state.requestComposition.disposed = false)
    {composition : AbortComposition} (reason : Problem) :
    (State.abortRequest { state with requestComposition := composition }
      reason).Bounded := by
  have unsettled : ¬state.phase.IsSettled := by
    intro settled
    rw [(bounded.settled settled).1] at armed
    cases armed
  refine ⟨AbortComposition.wellFormed_abort reason, ?_, fun _ _ =>
    AbortComposition.abort_ne_none reason, ?_, fun received => ?_,
    fun settled => absurd settled unsettled⟩
  · change AbortComposition.WellFormed
      (if state.headerComposition.listening = true then
        (state.headerComposition.abort reason).dispose
      else state.headerComposition)
    split
    · exact AbortComposition.wellFormed_abort reason
    · exact bounded.header
  · intro fetching
    obtain ⟨disposed, aborts, listens⟩ := bounded.fetching fetching
    change (AbortComposition.disposed
        (if state.headerComposition.listening = true then
          (state.headerComposition.abort reason).dispose
        else state.headerComposition) = true →
      AbortComposition.aborted
        (if state.headerComposition.listening = true then
          (state.headerComposition.abort reason).dispose
        else state.headerComposition) ≠ none) ∧
      (_ → AbortComposition.aborted
        (if state.headerComposition.listening = true then
          (state.headerComposition.abort reason).dispose
        else state.headerComposition) ≠ none) ∧
      (AbortComposition.disposed
        (if state.headerComposition.listening = true then
          (state.headerComposition.abort reason).dispose
        else state.headerComposition) = false →
      AbortComposition.listening
        (if state.headerComposition.listening = true then
          (state.headerComposition.abort reason).dispose
        else state.headerComposition) = true)
    cases listening : state.headerComposition.listening with
    | true =>
        have gone : (state.headerComposition.abort reason).aborted ≠ none :=
          AbortComposition.abort_ne_none reason
        exact ⟨fun _ => gone, fun _ => gone, by rintro ⟨⟩⟩
    | false =>
        have isDisposed : state.headerComposition.disposed = true := by
          rw [← Bool.not_eq_false]
          intro alive
          rw [listens alive] at listening
          cases listening
        have gone := disposed isDisposed
        refine ⟨fun _ => gone, fun _ => gone, fun alive => ?_⟩
        exact listens alive
  · change AbortComposition.disposed
      (if state.headerComposition.listening = true then
        (state.headerComposition.abort reason).dispose
      else state.headerComposition) = true
    split
    · rfl
    · exact bounded.received received

theorem step (bounded : state.Bounded) (label : Label) :
    (state.step request label).Bounded := by
  have alive : ∀ {composition : AbortComposition},
      composition.WellFormed → composition.timerArmed = true ∨
        composition.listening = true → composition.disposed = false := by
    intro composition wellFormed holds
    rw [← Bool.not_eq_true]
    intro disposed
    obtain ⟨timer, listener⟩ := wellFormed.released disposed
    rw [timer, listener] at holds
    rcases holds with armed | listening
    · cases armed
    · cases listening
  have moved := State.moves request state label
  generalize state.step request label = next at moved ⊢
  cases moved with
  | stays => exact bounded
  | advances received unsettled moved =>
      exact advance moved bounded.request bounded.header
        (bounded.pending unsettled) (bounded.received received)
  | fetched response fetching moved =>
      refine advance moved bounded.request bounded.header.dispose
        (bounded.pending ?_) rfl
      rw [fetching]
      exact id
  | fetchFailed thrown fetching =>
      exact settle (.refl state) bounded.request bounded.header none _
  | connectionDeadline armed =>
      have notDisposed := alive bounded.header (.inl armed)
      have unsettled : ¬state.phase.IsSettled := by
        intro settled
        rw [(bounded.settled settled).2.1] at notDisposed
        cases notDisposed
      rw [State.connectionDeadline, if_pos armed]
      have gone : (AbortComposition.abort
          { state.headerComposition with timerArmed := false, timedOut := true }
          (.connectionTimeout request.connectionTimeout)).aborted ≠ none :=
        AbortComposition.abort_ne_none _
      exact ⟨bounded.request, AbortComposition.wellFormed_abort _,
        bounded.pending, fun _ => ⟨fun _ => gone, fun _ => gone,
          by rintro ⟨⟩⟩, fun _ => rfl, fun settled => absurd settled unsettled⟩
  | requestDeadline armed =>
      rw [State.requestDeadline, if_pos armed]
      exact bounded.abortRequest (alive bounded.request (.inl armed)) _
  | callerAbort reason listening =>
      rw [State.callerAbort, if_pos listening]
      exact bounded.abortRequest (alive bounded.request (.inr listening)) _

end State.Bounded

theorem bounded_start (signal : Option (Option Value)) :
    (start signal).Bounded := by
  have request : (start signal).requestComposition.WellFormed :=
    wellFormed_composeAbortSignal _
  have header : (start signal).headerComposition.WellFormed :=
    wellFormed_composeAbortSignal _
  rcases signal with _ | _ | reason
  · exact ⟨request, header, by rintro _ ⟨⟩, fun _ => ⟨by rintro ⟨⟩,
      fun gone => absurd rfl gone, fun _ => rfl⟩,
      fun received => absurd rfl received, False.elim⟩
  · exact ⟨request, header, by rintro _ ⟨⟩, fun _ => ⟨by rintro ⟨⟩,
      fun gone => absurd rfl gone, fun _ => rfl⟩,
      fun received => absurd rfl received, False.elim⟩
  · exact ⟨request, header, fun _ _ => by rintro ⟨⟩, fun _ =>
      ⟨fun _ => by rintro ⟨⟩, fun _ => by rintro ⟨⟩, by rintro ⟨⟩⟩,
      fun received => absurd rfl received, False.elim⟩

theorem bounded_after (signal : Option (Option Value)) (labels : List Label) :
    (after request signal labels).Bounded :=
  Run.invariant (fun _ label bounded => bounded.step label)
    (bounded_start signal) labels

/-- The bytes that are kept of a body. -/
def Phase.kept : Phase → Bytes
  | .reading _ progress | .iterating _ _ progress => progress.chunks.flatten
  | _ => []

/-- A pending request waits for a deadline or has been aborted, keeps no more
than the bound, and once settled leaves no timer and no listener. -/
theorem pending_is_bounded (request : Request)
    (signal : Option (Option Value)) (labels : List Label) :
    let state := after request signal labels
    (¬state.phase.IsSettled →
      state.requestComposition.timerArmed = true ∨
        state.requestComposition.aborted ≠ none) ∧
    (state.phase = .fetching →
      state.headerComposition.timerArmed = true ∨
        state.headerComposition.aborted ≠ none) ∧
    state.phase.kept.length ≤ request.maxResponseBytes ∧
    (state.phase.IsSettled →
      state.requestComposition.timerArmed = false ∧
      state.requestComposition.listening = false ∧
      state.headerComposition.timerArmed = false ∧
      state.headerComposition.listening = false ∧ state.onAbort = false) := by
  intro state
  have bounded : state.Bounded := bounded_after signal labels
  have sound : state.Sound request := sound_after signal labels
  refine ⟨fun unsettled => ?_, fun fetching => ?_, ?_, fun settled => ?_⟩
  · cases disposed : state.requestComposition.disposed with
    | true => exact .inr (bounded.pending unsettled disposed)
    | false => exact .inl (bounded.request.waiting disposed).1
  · cases disposed : state.headerComposition.disposed with
    | true => exact .inr ((bounded.fetching fetching).1 disposed)
    | false => exact .inl (bounded.header.waiting disposed).1
  · rw [State.Sound] at sound
    cases phase : state.phase with
    | reading response progress =>
        rw [phase] at sound
        rw [Phase.kept, ← sound.1.counted]
        exact sound.1.within
    | iterating response returns progress =>
        rw [phase] at sound
        rw [Phase.kept, ← sound.1.counted]
        exact sound.1.within
    | fetching | cancelling | returning | settled => exact Nat.zero_le _
  · obtain ⟨requestDone, headerDone, detached⟩ := bounded.settled settled
    obtain ⟨timer, listener⟩ := bounded.request.released requestDone
    obtain ⟨headerTimer, headerListener⟩ := bounded.header.released headerDone
    exact ⟨timer, listener, headerTimer, headerListener, detached⟩

/-! ## The reasons of rejections -/

/-- The fetch does not answer once its signal is aborted. -/
def Honours (state : State) (label : Label) : Prop :=
  ∀ response, label = .fetched response →
    state.headerComposition.aborted = none

/-- Violations of a bound, which are never taken for timeouts. -/
def Problem.IsViolation : Problem → Prop
  | .responseTooLarge _ _ | .capability _ _ => True
  | _ => False

/-- How the end of a request goes together with its signals. -/
structure State.Attributed (request : Request) (state : State) : Prop where
  received : state.phase ≠ .fetching →
    (∀ outcome, state.phase ≠ .settled none outcome) →
      state.headerComposition.timedOut = false
  resolved : ∀ response value, state.phase = .settled response (.ok value) →
    state.requestComposition.aborted = none
  rejected : ∀ response problem,
    state.phase = .settled response (.error problem) →
      ∃ raw, problem = state.caught request raw ∧
        (response = none → ∃ thrown, raw = .foreign thrown)

theorem State.SameSignals.caught {other : State}
    (signals : state.SameSignals other) (problem : Problem) :
    other.caught request problem = state.caught request problem := by
  unfold State.caught
  rw [signals.request, signals.header]

namespace State.Attributed

theorem advance {next : State} (advance : state.Advance request next)
    (inTime : state.headerComposition.timedOut = false)
    (alive : state.phase = .fetching →
      state.requestComposition.aborted = none) : next.Attributed request := by
  cases advance with
  | pending signals unsettled received =>
      refine ⟨fun _ _ => ?_, fun response value same => ?_,
        fun response problem same => ?_⟩
      · rw [signals.header]
        exact inTime
      · rw [same] at unsettled
        exact absurd trivial unsettled
      · rw [same] at unsettled
        exact absurd trivial unsettled
  | rejected signals response problem =>
      refine ⟨fun _ _ => ?_, by rintro _ _ ⟨⟩, fun settled failure same => ?_⟩
      · have kept := congrArg AbortComposition.timedOut signals.header
        exact kept.trans inTime
      · cases same
        exact ⟨problem, rfl, by rintro ⟨⟩⟩
  | resolved signals unaborted response value =>
      refine ⟨fun _ _ => ?_, fun settled result same => ?_, by rintro _ _ ⟨⟩⟩
      · have kept := congrArg AbortComposition.timedOut signals.header
        exact kept.trans inTime
      · have kept := congrArg AbortComposition.aborted signals.request
        exact kept.trans (unaborted.elim alive id)

/-- What changes the signals of a pending request leaves its phase alone. -/
theorem signalled {next : State} (attributed : state.Attributed request)
    (unsettled : ¬state.phase.IsSettled) (phase : next.phase = state.phase)
    (inTime : state.phase ≠ .fetching →
      next.headerComposition.timedOut =
        state.headerComposition.timedOut) : next.Attributed request := by
  refine ⟨fun received notSettled => ?_, fun response value same => ?_,
    fun response problem same => ?_⟩
  · rw [phase] at received notSettled
    rw [inTime received]
    exact attributed.received received notSettled
  · rw [← phase, same] at unsettled
    exact absurd trivial unsettled
  · rw [← phase, same] at unsettled
    exact absurd trivial unsettled

theorem step (attributed : state.Attributed request) (bounded : state.Bounded)
    (label : Label) (honours : Honours state label) :
    (state.step request label).Attributed request := by
  have pendingOf : ∀ {composition : AbortComposition},
      composition.WellFormed → composition.timerArmed = true ∨
        composition.listening = true →
      (state.phase.IsSettled → composition.disposed = true) →
        ¬state.phase.IsSettled := by
    intro composition wellFormed holds released settled
    obtain ⟨timer, listener⟩ := wellFormed.released (released settled)
    rw [timer, listener] at holds
    rcases holds with armed | listening
    · cases armed
    · cases listening
  have settledNone : ¬state.phase.IsSettled →
      ∀ outcome, state.phase ≠ .settled none outcome := by
    intro unsettled outcome same
    rw [same] at unsettled
    exact unsettled trivial
  have moved := State.moves request state label
  generalize state.step request label = next at moved ⊢
  cases moved with
  | stays => exact attributed
  | advances received unsettled moved =>
      exact advance moved
        (attributed.received received (settledNone unsettled))
        fun fetching => absurd fetching received
  | fetched response fetching moved =>
      have unaborted := honours response rfl
      refine advance moved ?_ fun _ => ?_
      · rw [← Bool.not_eq_true]
        intro timedOut
        exact bounded.header.timedOut timedOut unaborted
      · by_contra aborted
        exact (bounded.fetching fetching).2.1 aborted unaborted
  | fetchFailed thrown fetching =>
      refine ⟨fun _ notSettled => absurd rfl (notSettled _),
        by rintro _ _ ⟨⟩, fun response problem same => ?_⟩
      cases same
      exact ⟨.foreign thrown, rfl, fun _ => ⟨thrown, rfl⟩⟩
  | connectionDeadline armed =>
      have unsettled := pendingOf bounded.header (.inl armed)
        fun settled => (bounded.settled settled).2.1
      rw [State.connectionDeadline, if_pos armed]
      refine attributed.signalled unsettled rfl fun received => ?_
      rw [(bounded.header.released (bounded.received received)).1] at armed
      cases armed
  | requestDeadline armed =>
      have unsettled := pendingOf bounded.request (.inl armed)
        fun settled => (bounded.settled settled).1
      rw [State.requestDeadline, if_pos armed]
      refine attributed.signalled unsettled rfl fun received => ?_
      change AbortComposition.timedOut
        (if state.headerComposition.listening = true then _ else _) = _
      split <;> rfl
  | callerAbort reason listening =>
      have unsettled := pendingOf bounded.request (.inr listening)
        fun settled => (bounded.settled settled).1
      rw [State.callerAbort, if_pos listening]
      refine attributed.signalled unsettled rfl fun received => ?_
      change AbortComposition.timedOut
        (if state.headerComposition.listening = true then _ else _) = _
      split <;> rfl

end State.Attributed

/-! ## Settling after an abort -/

/-- A body that is read is told to stop when the request is aborted. -/
def State.Listens (state : State) : Prop :=
  state.phase ≠ .fetching → ¬state.phase.IsSettled → state.Attentive

namespace State.Listens

theorem advance {next : State} (advance : state.Advance request next)
    (heeds : state.Heeds) : next.Listens := by
  cases advance with
  | pending signals unsettled received attentive =>
      exact fun _ _ => attentive heeds
  | rejected signals response problem =>
      exact fun _ unsettled => absurd trivial unsettled
  | resolved signals alive response value =>
      exact fun _ unsettled => absurd trivial unsettled

theorem abortRequest (listens : state.Listens)
    {composition : AbortComposition} (reason : Problem) :
    (State.abortRequest { state with requestComposition := composition }
      reason).Listens := by
  intro received unsettled
  refine .inl (Bool.or_eq_true_iff.mpr ?_)
  exact (listens received unsettled).imp id And.left

theorem step (listens : state.Listens) (bounded : state.Bounded)
    (label : Label) (honours : Honours state label) :
    (state.step request label).Listens := by
  have moved := State.moves request state label
  generalize state.step request label = next at moved ⊢
  cases moved with
  | stays => exact listens
  | advances received unsettled moved =>
      exact advance moved ⟨fun _ => listens received unsettled,
        fun fetching => absurd fetching received⟩
  | fetched response fetching moved =>
      refine advance moved ⟨fun received => absurd fetching received,
        fun _ => ?_⟩
      by_contra aborted
      exact (bounded.fetching fetching).2.1 aborted (honours response rfl)
  | fetchFailed thrown fetching =>
      exact fun _ unsettled => absurd trivial unsettled
  | connectionDeadline armed =>
      rw [State.connectionDeadline, if_pos armed]
      exact listens
  | requestDeadline armed =>
      rw [State.requestDeadline, if_pos armed]
      exact listens.abortRequest _
  | callerAbort reason listening =>
      rw [State.callerAbort, if_pos listening]
      exact listens.abortRequest _

end State.Listens

/-- What an aborted request waits for: that the fetch rejects, that the body
ends or fails, that the reader is cancelled, that the iterator is closed. -/
def Phase.AnsweredBy : Phase → Label → Prop
  | .fetching, .fetchFailed _ => True
  | .reading _ _, .ended | .iterating _ _ _, .ended => True
  | .reading _ _, .readFailed _ | .iterating _ _ _, .readFailed _ => True
  | .cancelling _ _, .cancelled _ => True
  | .returning _ _, .returned => True
  | _, _ => False

/-- An aborted request settles with the next answer that it waits for. -/
theorem State.Attributed.settles (attributed : state.Attributed request)
    (listens : state.Listens)
    (aborted : state.requestComposition.aborted ≠ none ∨
      state.headerComposition.timedOut = true)
    (unsettled : ¬state.phase.IsSettled) {label : Label}
    (answered : state.phase.AnsweredBy label) :
    (state.step request label).phase.IsSettled := by
  have stopped : state.phase ≠ .fetching → state.stopped = true := by
    intro received
    rcases listens received unsettled with stopped | ⟨-, unaborted⟩
    · exact stopped
    · have late := aborted.resolve_left (not_not_intro unaborted)
      have inTime := attributed.received received fun outcome same =>
        unsettled (by rw [same]; trivial)
      rw [inTime] at late
      cases late
  cases phase : state.phase with
  | settled response outcome =>
      rw [phase] at unsettled
      exact absurd trivial unsettled
  | fetching =>
      rw [phase] at answered
      cases label with
      | fetchFailed thrown =>
          rw [State.step, phase]
          trivial
      | fetched | read | ended | readFailed | cancelled | returned
      | connectionDeadline | requestDeadline | callerAbort => cases answered
  | reading response progress =>
      have told := stopped (by rw [phase]; rintro ⟨⟩)
      rw [phase] at answered
      cases label with
      | ended =>
          rw [State.step, phase]
          dsimp only
          rw [told, Bool.or_true, if_pos rfl]
          exact isSettled_complete progress
      | readFailed thrown =>
          rw [State.step, phase]
          trivial
      | fetched | fetchFailed | read | cancelled | returned
      | connectionDeadline | requestDeadline | callerAbort => cases answered
  | iterating response returns progress =>
      have told := stopped (by rw [phase]; rintro ⟨⟩)
      rw [phase] at answered
      cases label with
      | ended =>
          rw [State.step, phase]
          dsimp only
          rw [told, Bool.or_true, if_pos rfl]
          exact isSettled_complete progress
      | readFailed thrown =>
          rw [State.step, phase]
          trivial
      | fetched | fetchFailed | read | cancelled | returned
      | connectionDeadline | requestDeadline | callerAbort => cases answered
  | cancelling response totalBytes =>
      rw [phase] at answered
      cases label with
      | cancelled failure =>
          cases failure with
          | none =>
              simp only [State.step, phase]
              trivial
          | some thrown =>
              simp only [State.step, phase]
              trivial
      | fetched | fetchFailed | read | ended | readFailed | returned
      | connectionDeadline | requestDeadline | callerAbort => cases answered
  | returning response problem =>
      rw [phase] at answered
      cases label with
      | returned =>
          rw [State.step, phase]
          trivial
      | fetched | fetchFailed | read | ended | readFailed | cancelled
      | connectionDeadline | requestDeadline | callerAbort => cases answered

/-! ## The durations that are asked for -/

section Durations

variable {platform : Platform} {options : ProviderBoundsOptions}
  {bounds : ProviderBounds} {override : Value} {method : Option String}

theorem validateTimeout_eq_ok {value : Value} {optionName : String}
    {timeout : Timeout}
    (valid : validateTimeout platform value optionName = .ok timeout) :
    value = .number (.finite timeout) := by
  cases value with
  | number number =>
      cases number with
      | finite duration =>
          simp only [validateTimeout] at valid
          split at valid
          · cases valid
            rfl
          · cases valid
      | notANumber | infinity => cases valid
  | undefined | null | boolean | string | other | array | object =>
      cases valid

/-- The deadline of a request that overrides the one of the provider. -/
def askedTimeout (options : ProviderBoundsOptions) : Value → Value
  | .undefined => orElse options.requestTimeout 120000
  | override => override

/-- A request has the deadlines that were asked for, or the defaults. -/
theorem HttpProvider.request_eq_ok
    (resolved : resolveProviderBounds platform options = .ok bounds)
    (built : HttpProvider.request platform bounds override method =
      .ok request) :
    request.method = method ∧
      orElse options.connectionTimeout 30000 =
        .number (.finite request.connectionTimeout) ∧
      askedTimeout options override =
        .number (.finite request.requestTimeout) := by
  obtain ⟨connection, isConnection, resolved⟩ := Outcome.bind_eq_ok.mp resolved
  obtain ⟨whole, isWhole, resolved⟩ := Outcome.bind_eq_ok.mp resolved
  obtain ⟨_, -, resolved⟩ := Outcome.bind_eq_ok.mp resolved
  obtain ⟨_, -, resolved⟩ := Outcome.bind_eq_ok.mp resolved
  cases resolved
  cases override with
  | undefined =>
      cases built
      exact ⟨rfl, validateTimeout_eq_ok isConnection,
        validateTimeout_eq_ok isWhole⟩
  | null | boolean | number | string | other | array | object =>
      obtain ⟨timeout, isTimeout, built⟩ := Outcome.bind_eq_ok.mp built
      cases built
      exact ⟨rfl, validateTimeout_eq_ok isConnection,
        validateTimeout_eq_ok isTimeout⟩

end Durations

/-- How a request that has been aborted ends. -/
structure State.EndsAborted (request : Request) (state : State)
    (outcome : Except Problem Value) : Prop where
  connection : state.headerComposition.timedOut = true →
    outcome = .error (.connectionTimeout request.connectionTimeout)
  whole : state.headerComposition.timedOut = false →
    state.requestComposition.timedOut = true →
      ∃ problem, outcome = .error problem ∧
        (problem = .requestTimeout request.requestTimeout request.method ∨
          problem.IsViolation)
  aborted : state.requestComposition.aborted ≠ none →
    ∃ problem, outcome = .error problem

theorem State.endsAborted (bounded : state.Bounded)
    (attributed : state.Attributed request) (sound : state.Sound request)
    {response : Option Response} {outcome : Except Problem Value}
    (ended : state.phase = .settled response outcome) :
    state.EndsAborted request outcome := by
  cases outcome with
  | ok value =>
      have unaborted := attributed.resolved response value ended
      refine ⟨fun timedOut => ?_, fun _ timedOut => ?_, absurd unaborted⟩
      · have received : state.phase ≠ .fetching := by
          rw [ended]
          rintro ⟨⟩
        have inTime := attributed.received received fun other same => ?_
        · rw [inTime] at timedOut
          cases timedOut
        · rw [ended] at same
          cases same
          rw [State.Sound, ended] at sound
          exact sound
      · exact absurd unaborted (bounded.request.timedOut timedOut)
  | error problem =>
      obtain ⟨raw, rfl, fetchFailed⟩ := attributed.rejected response problem
        ended
      refine ⟨fun timedOut => ?_, fun headerInTime timedOut => ?_,
        fun _ => ⟨_, rfl⟩⟩
      · have none : response = none := by
          cases response with
          | none => rfl
          | some received =>
              have inTime := attributed.received
                (by rw [ended]; rintro ⟨⟩)
                (by rw [ended]; rintro other ⟨⟩)
              rw [inTime] at timedOut
              cases timedOut
        obtain ⟨thrown, rfl⟩ := fetchFailed none
        unfold State.caught
        rw [timedOut]
        rfl
      · refine ⟨_, rfl, ?_⟩
        unfold State.caught
        rw [headerInTime, timedOut]
        cases raw with
        | responseTooLarge | capability => exact .inr trivial
        | provider | connectionTimeout | requestTimeout | response | unparsable
        | typeError | foreign => exact .inl rfl

/-- The headers are there in time and the body is not. -/
def lateLabels : List Label :=
  [.fetched digitResponse, .read, .requestDeadline]

/-- A provider that takes four bytes, and the defaults otherwise. -/
def digitOptions : ProviderBoundsOptions where
  maxResponseBytes := .number (.finite 4)

def digitBounds : ProviderBounds where
  connectionTimeout := digitRequest.connectionTimeout
  requestTimeout := digitRequest.requestTimeout
  maxResponseBytes := digitRequest.maxResponseBytes
  maxInFlightRequests := ⟨256, maxInFlightRequests_pos⟩

theorem resolved_digit :
    resolveProviderBounds digitRequest.platform digitOptions =
      .ok digitBounds := by
  rfl

theorem built_digit :
    HttpProvider.request digitRequest.platform digitBounds .undefined
      (some "qrl_chainId") = .ok digitRequest := rfl

end Web3Js.Http
