import Web3Js.Http.Reading

/-!
# Runs of a request

What has been read and what is still to come make up the text of the response
in every state of every run.  An abort can only end a run with a rejection: a
body that it cuts short is never taken for a whole one.
-/

namespace Web3Js.Http

open Web3Js.Core (Value)

theorem mergeChunks_flatten (chunks : List Bytes) :
    mergeChunks chunks chunks.flatten.length = chunks.flatten := by
  have general : ∀ (chunks : List Bytes) (written : Bytes),
      (chunks.foldl setChunk
        (written ++ List.replicate chunks.flatten.length 0,
          written.length)).1 = written ++ chunks.flatten := by
    intro chunks
    induction chunks with
    | nil => exact fun _ => rfl
    | cons chunk chunks induction =>
        intro written
        rw [List.foldl_cons, List.flatten_cons, List.length_append,
          List.replicate_add, setChunk, List.take_left' rfl, List.drop_append,
          List.drop_of_length_le (Nat.le_add_right _ _), List.nil_append,
          Nat.add_sub_cancel_left, List.drop_left' List.length_replicate,
          ← List.length_append, induction, List.append_assoc]
  exact general chunks []

variable {request : Request} {state : State} {response : Response}

/-! ## The ends of a request -/

/-- The request settles with the outcome of a response. -/
def State.conclude (request : Request) (state : State) (response : Response)
    (outcome : Except Problem Value) : State :=
  match outcome with
  | .ok value => state.settle (some response) (.ok value)
  | .error problem => state.fail request (some response) problem

theorem State.finish_eq (text : String) :
    state.finish request response text =
      state.conclude request response (interpret request response text) := by
  rw [State.finish, interpret]
  cases request.platform.parse text with
  | error problem => rfl
  | ok value =>
      dsimp only
      split <;> rfl

/-! ## What has been read -/

/-- The chunks and the items to come make up the text of the response. -/
structure Progress.Reads (request : Request) (response : Response)
    (skips : Bool) (progress : Progress) : Prop where
  text : boundedText request response =
    ((boundedContent request skips progress.totalBytes
      progress.remaining).map (progress.chunks.flatten ++ ·)).map
        request.platform.decode
  counted : progress.totalBytes = progress.chunks.flatten.length
  within : progress.totalBytes ≤ request.maxResponseBytes

namespace Progress.Reads

variable {skips : Bool} {progress : Progress}

theorem initial {items : List Item}
    (text : boundedText request response =
      (boundedContent request skips 0 items).map request.platform.decode) :
    Progress.Reads request response skips { remaining := items } := by
  refine ⟨?_, rfl, Nat.zero_le _⟩
  rw [text]
  cases boundedContent request skips 0 items <;> rfl

theorem chunk (reads : progress.Reads request response skips)
    {bytes : Bytes} {remaining : List Item}
    (items : progress.remaining = .binary bytes :: remaining)
    (fits : ¬request.maxResponseBytes.val <
      progress.totalBytes + bytes.length) :
    Progress.Reads request response skips
      { chunks := progress.chunks ++ [bytes]
        totalBytes := progress.totalBytes + bytes.length, remaining } := by
  refine ⟨?_, ?_, Nat.not_lt.mp fits⟩
  · rw [reads.text, items, boundedContent, if_neg fits]
    cases boundedContent request skips (progress.totalBytes + bytes.length)
        remaining with
    | error problem => rfl
    | ok rest =>
        simp only [Except.map, List.flatten_append, List.flatten_singleton,
          List.append_assoc]
  · rw [List.flatten_append, List.flatten_singleton, List.length_append,
      reads.counted]

theorem tooLarge (reads : progress.Reads request response skips)
    {bytes : Bytes} {remaining : List Item}
    (items : progress.remaining = .binary bytes :: remaining)
    (larger : request.maxResponseBytes.val <
      progress.totalBytes + bytes.length) :
    boundedText request response =
      .error (.responseTooLarge request.maxResponseBytes
        (progress.totalBytes + bytes.length)) := by
  rw [reads.text, items, boundedContent, if_pos larger]
  rfl

theorem passedOver (reads : progress.Reads request response true)
    {remaining : List Item}
    (items : progress.remaining = .undefined :: remaining) :
    Progress.Reads request response true { progress with remaining } := by
  refine ⟨?_, reads.counted, reads.within⟩
  rw [reads.text, items, boundedContent, if_pos rfl]

theorem notBinary (reads : progress.Reads request response false)
    {remaining : List Item}
    (items : progress.remaining = .undefined :: remaining) :
    boundedText request response =
      .error (nonBinaryChunk "undefined") := by
  rw [reads.text, items, boundedContent, if_neg Bool.false_ne_true]
  rfl

theorem other (reads : progress.Reads request response skips)
    {type : String} {remaining : List Item}
    (items : progress.remaining = .other type :: remaining) :
    boundedText request response = .error (nonBinaryChunk type) := by
  rw [reads.text, items, boundedContent]
  rfl

theorem ended (reads : progress.Reads request response skips)
    (items : progress.remaining = []) :
    boundedText request response =
      .ok (request.platform.decode
        (mergeChunks progress.chunks progress.totalBytes)) := by
  rw [reads.text, items, boundedContent, reads.counted, mergeChunks_flatten]
  exact congrArg (fun bytes => Except.ok (request.platform.decode bytes))
    (List.append_nil _)

end Progress.Reads

theorem answer_of_text {text : String}
    (read : boundedText request response = .ok text) :
    answer request response = interpret request response text := by
  rw [answer, read, Outcome.ok_bind]

theorem answer_of_problem {problem : Problem}
    (failed : boundedText request response = .error problem) :
    answer request response = .error problem := by
  rw [answer, failed, Outcome.error_bind]

/-! ## Safety -/

/-- What holds in every state of a run. -/
def State.Sound (request : Request) (state : State) : Prop :=
  match state.phase with
  | .fetching => state.stopped = false ∧ state.onAbort = false
  | .reading response progress =>
      progress.Reads request response true ∧
        (state.stopped = true → state.requestComposition.aborted ≠ none)
  | .iterating response _ progress =>
      progress.Reads request response false ∧
        (state.stopped = true → state.requestComposition.aborted ≠ none)
  | .cancelling response totalBytes =>
      boundedText request response =
        .error (.responseTooLarge request.maxResponseBytes totalBytes)
  | .returning response problem =>
      state.requestComposition.aborted = some problem ∨
        boundedText request response = .error problem
  | .settled (some response) (.ok value) =>
      answer request response = .ok value
  | .settled none (.ok _) => False
  | .settled _ (.error _) => True

namespace State.Sound

theorem fail (response : Option Response) (problem : Problem) :
    (state.fail request response problem).Sound request := by
  cases response <;> trivial

theorem conclude {outcome : Except Problem Value}
    (concluded : answer request response = outcome) :
    (state.conclude request response outcome).Sound request := by
  cases outcome with
  | error problem => exact fail (some response) problem
  | ok value => exact concluded

theorem finish {text : String}
    (read : boundedText request response = .ok text) :
    (state.finish request response text).Sound request := by
  rw [State.finish_eq]
  exact conclude (answer_of_text read)

theorem readOn {progress : Progress}
    (reads : progress.Reads request response true)
    (cut : state.stopped = true → state.requestComposition.aborted ≠ none) :
    (state.readOn request response progress).Sound request := by
  rw [State.readOn]
  cases state.requestComposition.aborted with
  | some reason => exact fail (some response) reason
  | none => exact ⟨reads, cut⟩

theorem throwFrom {returns : Bool} {problem : Problem}
    (due : state.requestComposition.aborted = some problem ∨
      boundedText request response = .error problem) :
    (state.throwFrom request response returns problem).Sound request := by
  cases returns with
  | true => exact due
  | false => exact fail (some response) problem

theorem complete {skips : Bool} {progress : Progress}
    (reads : progress.Reads request response skips)
    (whole : progress.remaining = [] ∨
      state.requestComposition.aborted ≠ none) :
    (state.complete request response progress).Sound request := by
  rw [State.complete]
  cases aborted : state.requestComposition.aborted with
  | some reason => exact fail (some response) reason
  | none => exact finish (reads.ended (whole.resolve_right (absurd aborted)))

theorem onReaderRead {progress : Progress}
    (reads : progress.Reads request response true)
    (cut : state.stopped = true → state.requestComposition.aborted ≠ none)
    (sound : state.Sound request) :
    (state.onReaderRead request response progress).Sound request := by
  rw [State.onReaderRead]
  cases items : progress.remaining with
  | nil => exact sound
  | cons item remaining =>
      cases item with
      | undefined => exact readOn (reads.passedOver items) cut
      | other type => exact fail (some response) (nonBinaryChunk type)
      | binary chunk =>
          dsimp only
          split
          next larger => exact reads.tooLarge items larger
          next fits => exact readOn (reads.chunk items fits) cut

theorem onIterated {returns : Bool} {progress : Progress}
    (reads : progress.Reads request response false)
    (cut : state.stopped = true → state.requestComposition.aborted ≠ none)
    (sound : state.Sound request) :
    (state.onIterated request response returns progress).Sound request := by
  rw [State.onIterated]
  cases items : progress.remaining with
  | nil => exact sound
  | cons item remaining =>
      dsimp only
      cases aborted : state.requestComposition.aborted with
      | some reason => exact throwFrom (.inl aborted)
      | none =>
          cases item with
          | undefined => exact throwFrom (.inr (reads.notBinary items))
          | other type => exact throwFrom (.inr (reads.other items))
          | binary chunk =>
              dsimp only
              split
              next larger =>
                  exact throwFrom (.inr (reads.tooLarge items larger))
              next fits =>
                  refine ⟨reads.chunk items fits, fun stopped => ?_⟩
                  exact absurd aborted (cut stopped)

theorem readBoundedText (fresh : state.stopped = false) :
    (state.readBoundedText request response).Sound request := by
  have text : boundedText request response =
      boundedText request response := rfl
  conv_rhs at text => rw [boundedText]
  rw [State.readBoundedText]
  dsimp only at text ⊢
  split
  next => exact fail (some response) _
  next within =>
      rw [if_neg within] at text
      cases body : response.body with
      | absent =>
          rw [body] at text
          dsimp only at text ⊢
          split
          next empty => exact finish (text.trans (if_pos empty))
          next => exact fail (some response) withheldBody
      | bytes content =>
          rw [body] at text
          dsimp only at text ⊢
          split
          next => exact fail (some response) _
          next fits =>
              refine finish (text.trans ((if_neg fits).trans ?_))
              have merged := mergeChunks_flatten [content]
              rw [List.flatten_singleton] at merged
              rw [merged]
      | stream items =>
          rw [body] at text
          refine readOn (.initial text) fun stopped => ?_
          rw [fresh] at stopped
          cases stopped
      | iterable items returns =>
          rw [body] at text
          refine ⟨.initial text, fun stopped => ?_⟩
          rw [fresh] at stopped
          cases stopped
      | unsupported type => exact fail (some response) _

/-- An abort leaves what has been read alone. -/
theorem abortRequest (sound : state.Sound request) (reason : Problem) :
    (state.abortRequest reason).Sound request := by
  have aborted : (state.abortRequest reason).requestComposition.aborted =
      state.requestComposition.aborted.or (some reason) := rfl
  have cut : (state.abortRequest reason).requestComposition.aborted ≠ none := by
    rw [aborted]
    cases state.requestComposition.aborted <;> rintro ⟨⟩
  rw [State.Sound] at sound ⊢
  rw [show (state.abortRequest reason).phase = state.phase from rfl]
  cases phase : state.phase with
  | fetching =>
      rw [phase] at sound
      refine ⟨?_, rfl⟩
      change (state.stopped || state.onAbort) = false
      rw [sound.1, sound.2]
      rfl
  | reading response progress =>
      rw [phase] at sound
      exact ⟨sound.1, fun _ => cut⟩
  | iterating response returns progress =>
      rw [phase] at sound
      exact ⟨sound.1, fun _ => cut⟩
  | cancelling response totalBytes =>
      rw [phase] at sound
      exact sound
  | returning response problem =>
      rw [phase] at sound
      refine sound.imp_left fun first => ?_
      rw [aborted, first]
      rfl
  | settled response outcome =>
      rw [phase] at sound
      cases response <;> cases outcome <;> exact sound

theorem step (sound : state.Sound request) (label : Label) :
    (state.step request label).Sound request := by
  cases label with
  | connectionDeadline =>
      rw [State.step, State.connectionDeadline]
      split
      · exact sound
      · exact sound
  | requestDeadline =>
      rw [State.step, State.requestDeadline]
      split
      · refine abortRequest ?_ _
        exact sound
      · exact sound
  | callerAbort reason =>
      rw [State.step, State.callerAbort]
      split
      · exact sound.abortRequest _
      · exact sound
  | fetched response =>
      rw [State.step]
      cases phase : state.phase with
      | fetching =>
          rw [State.Sound, phase] at sound
          exact readBoundedText sound.1
      | reading | cancelling | iterating | returning | settled => exact sound
  | fetchFailed thrown =>
      rw [State.step]
      cases phase : state.phase with
      | fetching => exact fail none (.foreign thrown)
      | reading | cancelling | iterating | returning | settled => exact sound
  | read =>
      rw [State.step]
      cases phase : state.phase with
      | reading response progress =>
          have here := sound
          rw [State.Sound, phase] at here
          exact onReaderRead here.1 here.2 sound
      | iterating response returns progress =>
          have here := sound
          rw [State.Sound, phase] at here
          exact onIterated here.1 here.2 sound
      | fetching | cancelling | returning | settled => exact sound
  | ended =>
      have whole : ∀ {progress : Progress},
          (progress.remaining.isEmpty || state.stopped) = true →
          (state.stopped = true → state.requestComposition.aborted ≠ none) →
            progress.remaining = [] ∨
              state.requestComposition.aborted ≠ none := by
        intro progress ends cut
        rw [Bool.or_eq_true, List.isEmpty_iff] at ends
        exact ends.imp_right cut
      rw [State.step]
      cases phase : state.phase with
      | reading response progress =>
          have here := sound
          rw [State.Sound, phase] at here
          dsimp only
          split
          next ends => exact complete here.1 (whole ends here.2)
          next => exact sound
      | iterating response returns progress =>
          have here := sound
          rw [State.Sound, phase] at here
          dsimp only
          split
          next ends => exact complete here.1 (whole ends here.2)
          next => exact sound
      | fetching | cancelling | returning | settled => exact sound
  | readFailed thrown =>
      rw [State.step]
      cases phase : state.phase with
      | reading response progress => exact fail (some response) _
      | iterating response returns progress => exact fail (some response) _
      | fetching | cancelling | returning | settled => exact sound
  | cancelled failure =>
      cases phase : state.phase with
      | cancelling response totalBytes =>
          cases failure <;> simp only [State.step, phase] <;>
            exact fail (some response) _
      | fetching | reading | iterating | returning | settled =>
          simp only [State.step, phase]
          exact sound
  | returned =>
      rw [State.step]
      cases phase : state.phase with
      | returning response problem => exact fail (some response) problem
      | fetching | reading | cancelling | iterating | settled => exact sound

end State.Sound

theorem sound_after (signal : Option (Option Value)) (labels : List Label) :
    (after request signal labels).Sound request := by
  refine Run.invariant (fun _ label sound => sound.step label) ?_ labels
  exact ⟨rfl, rfl⟩

/-- A request that resolves does so with the JSON value of the whole body of a
successful response, which is within the bound. -/
theorem resolves_complete (request : Request)
    (signal : Option (Option Value)) (labels : List Label)
    (response : Option Response) (value : Value)
    (resolved : (after request signal labels).phase =
      .settled response (.ok value)) :
    ∃ received text, response = some received ∧ received.ok = true ∧
      (received.body = .absent ∧ text = "" ∨
        ∃ bytes, received.body.content = some bytes ∧
          bytes.length ≤ request.maxResponseBytes ∧
          request.platform.decode bytes = text) ∧
      request.platform.parse text = .ok value := by
  have sound : (after request signal labels).Sound request :=
    sound_after signal labels
  rw [State.Sound, resolved] at sound
  cases response with
  | none => exact sound.elim
  | some received =>
      obtain ⟨text, read, interpreted⟩ := Outcome.bind_eq_ok.mp sound
      have whole : received.body = .absent ∧ text = "" ∨
          ∃ bytes, received.body.content = some bytes ∧
            bytes.length ≤ request.maxResponseBytes ∧
            request.platform.decode bytes = text := by
        by_cases absent : received.body = .absent
        · exact .inl ⟨absent, boundedText_absent absent read⟩
        · obtain ⟨bytes, all, fits, -, decoded⟩ :=
            (boundedText_eq_ok absent).mp read
          exact .inr ⟨bytes, all, fits, decoded⟩
      rw [interpret] at interpreted
      cases parsed : request.platform.parse text with
      | error problem =>
          rw [parsed] at interpreted
          cases interpreted
      | ok result =>
          rw [parsed] at interpreted
          dsimp only at interpreted
          split at interpreted
          next succeeded =>
              cases interpreted
              exact ⟨received, text, rfl, succeeded, whole, parsed⟩
          next => cases interpreted

/-- A request of a language with one text, that of the digit one. -/
def digitRequest : Request where
  platform := {
    number := fun _ => .notANumber
    shown := fun _ => ""
    decode := fun bytes => if bytes = [49] then "1" else ""
    parse := fun text =>
      if text = "1" then .ok (.number (.finite 1))
      else .error "Unexpected end of JSON input" }
  connectionTimeout := ⟨30000, connectionTimeout_pos⟩
  requestTimeout := ⟨120000, requestTimeout_pos⟩
  maxResponseBytes := ⟨4, Nat.succ_pos 3⟩
  method := some "qrl_chainId"

def digitResponse : Response where
  ok := true
  status := 200
  contentLength := none
  body := .stream [.undefined, .binary [49]]

/-- The deadline for the headers comes too late to do anything. -/
def digitLabels : List Label :=
  [.fetched digitResponse, .read, .connectionDeadline, .read, .ended]

theorem resolves_complete_digit :
    ∃ received text, some digitResponse = some received ∧ received.ok = true ∧
      (received.body = .absent ∧ text = "" ∨
        ∃ bytes, received.body.content = some bytes ∧
          bytes.length ≤ digitRequest.maxResponseBytes ∧
          digitRequest.platform.decode bytes = text) ∧
      digitRequest.platform.parse text = .ok (.number (.finite 1)) :=
  resolves_complete digitRequest none digitLabels (some digitResponse)
    (.number (.finite 1)) rfl

/-! ## Runs that nothing cuts short -/

/-- The labels that answer the request as it asks. -/
def Label.IsAnswer : Label → Prop
  | .fetched _ | .read | .ended | .cancelled none | .returned => True
  | _ => False

/-- Nothing has been aborted, and the end is that of the response. -/
structure State.Calm (request : Request) (state : State) : Prop where
  unaborted : state.requestComposition.aborted = none
  inTime : state.requestComposition.timedOut = false ∧
    state.headerComposition.timedOut = false
  answered : ∀ response outcome, state.phase = .settled response outcome →
    ∃ received, response = some received ∧
      outcome = answer request received

namespace State.Calm

theorem caught (calm : state.Calm request) (problem : Problem) :
    state.caught request problem = problem := by
  unfold State.caught
  rw [calm.inTime.1, calm.inTime.2]
  cases problem <;> rfl

theorem unsettled (calm : state.Calm request) {phase : Phase}
    (open' : ∀ response outcome, phase ≠ .settled response outcome)
    (onAbort stopped : Bool) :
    State.Calm request { state with phase, onAbort, stopped } :=
  ⟨calm.unaborted, calm.inTime, fun response outcome settled =>
    absurd settled (open' response outcome)⟩

theorem fail (calm : state.Calm request) {problem : Problem}
    (failed : answer request response = .error problem) :
    (state.fail request (some response) problem).Calm request := by
  refine ⟨calm.unaborted, calm.inTime, ?_⟩
  intro settled outcome same
  rw [State.fail, calm.caught] at same
  cases same
  exact ⟨response, rfl, failed.symm⟩

theorem finish (calm : state.Calm request) {text : String}
    (read : boundedText request response = .ok text) :
    (state.finish request response text).Calm request := by
  have answered := answer_of_text read
  rw [State.finish_eq]
  cases interpreted : interpret request response text with
  | error problem =>
      rw [interpreted] at answered
      exact calm.fail answered
  | ok value =>
      refine ⟨calm.unaborted, calm.inTime, ?_⟩
      intro settled outcome same
      cases same
      exact ⟨response, rfl, (answered.trans interpreted).symm⟩

theorem readOn (calm : state.Calm request) (progress : Progress) :
    (state.readOn request response progress).Calm request := by
  rw [State.readOn, calm.unaborted]
  exact calm.unsettled (by rintro _ _ ⟨⟩) _ _

theorem throwFrom (calm : state.Calm request) {problem : Problem}
    (failed : boundedText request response = .error problem)
    (returns : Bool) :
    (state.throwFrom request response returns problem).Calm request := by
  cases returns with
  | true => exact calm.unsettled (by rintro _ _ ⟨⟩) _ _
  | false => exact calm.fail (answer_of_problem failed)

theorem complete (calm : state.Calm request) {skips : Bool}
    {progress : Progress} (reads : progress.Reads request response skips)
    (whole : progress.remaining = []) :
    (state.complete request response progress).Calm request := by
  rw [State.complete, calm.unaborted]
  exact calm.finish (reads.ended whole)

theorem readBoundedText (calm : state.Calm request) :
    (state.readBoundedText request response).Calm request := by
  have text : boundedText request response =
      boundedText request response := rfl
  conv_rhs at text => rw [boundedText]
  rw [State.readBoundedText]
  dsimp only at text ⊢
  split
  next larger =>
      rw [if_pos larger] at text
      exact calm.fail (answer_of_problem text)
  next within =>
      rw [if_neg within] at text
      cases body : response.body with
      | absent =>
          rw [body] at text
          dsimp only at text ⊢
          split
          next empty => exact calm.finish (text.trans (if_pos empty))
          next full => exact calm.fail (answer_of_problem
            (text.trans (if_neg full)))
      | bytes content =>
          rw [body] at text
          dsimp only at text ⊢
          split
          next larger => exact calm.fail (answer_of_problem
            (text.trans (if_pos larger)))
          next fits =>
              refine calm.finish (text.trans ((if_neg fits).trans ?_))
              have merged := mergeChunks_flatten [content]
              rw [List.flatten_singleton] at merged
              rw [merged]
      | stream items =>
          have attached : State.Calm request { state with onAbort := true } :=
            ⟨calm.unaborted, calm.inTime, calm.answered⟩
          exact attached.readOn _
      | iterable items returns =>
          exact calm.unsettled (by rintro _ _ ⟨⟩) _ _
      | unsupported type =>
          rw [body] at text
          exact calm.fail (answer_of_problem text)

theorem step (calm : state.Calm request) (sound : state.Sound request)
    {label : Label} (isAnswer : label.IsAnswer) :
    (state.step request label).Calm request := by
  cases label with
  | fetched response =>
      rw [State.step]
      split
      · have disposed : State.Calm request { state with
            headerComposition := state.headerComposition.dispose } :=
          ⟨calm.unaborted, calm.inTime, calm.answered⟩
        exact disposed.readBoundedText
      · exact calm
  | read =>
      rw [State.step]
      cases phase : state.phase with
      | reading response progress =>
          rw [State.Sound, phase] at sound
          dsimp only
          rw [State.onReaderRead]
          cases items : progress.remaining with
          | nil => exact calm
          | cons item remaining =>
              cases item with
              | undefined => exact calm.readOn _
              | other type =>
                  exact calm.fail (answer_of_problem (sound.1.other items))
              | binary chunk =>
                  dsimp only
                  split
                  · exact calm.unsettled (by rintro _ _ ⟨⟩) _ _
                  · exact calm.readOn _
      | iterating response returns progress =>
          rw [State.Sound, phase] at sound
          dsimp only
          rw [State.onIterated]
          cases items : progress.remaining with
          | nil => exact calm
          | cons item remaining =>
              dsimp only
              rw [calm.unaborted]
              cases item with
              | undefined =>
                  exact calm.throwFrom (sound.1.notBinary items) returns
              | other type => exact calm.throwFrom (sound.1.other items) returns
              | binary chunk =>
                  dsimp only
                  split
                  next larger =>
                      have destroyed : State.Calm request
                          { state with stopped := true } :=
                        ⟨calm.unaborted, calm.inTime, calm.answered⟩
                      exact destroyed.throwFrom (sound.1.tooLarge items larger)
                        returns
                  next => exact calm.unsettled (by rintro _ _ ⟨⟩) _ _
      | fetching | cancelling | returning | settled => exact calm
  | ended =>
      have whole : ∀ {progress : Progress},
          (progress.remaining.isEmpty || state.stopped) = true →
          (state.stopped = true → state.requestComposition.aborted ≠ none) →
            progress.remaining = [] := by
        intro progress ends cut
        rw [Bool.or_eq_true, List.isEmpty_iff] at ends
        exact ends.resolve_right fun stopped => cut stopped calm.unaborted
      rw [State.step]
      cases phase : state.phase with
      | reading response progress =>
          rw [State.Sound, phase] at sound
          dsimp only
          split
          next ends => exact calm.complete sound.1 (whole ends sound.2)
          next => exact calm
      | iterating response returns progress =>
          rw [State.Sound, phase] at sound
          dsimp only
          split
          next ends => exact calm.complete sound.1 (whole ends sound.2)
          next => exact calm
      | fetching | cancelling | returning | settled => exact calm
  | cancelled failure =>
      cases failure with
      | some thrown => exact isAnswer.elim
      | none =>
          cases phase : state.phase with
          | cancelling response totalBytes =>
              rw [State.Sound, phase] at sound
              simp only [State.step, phase]
              exact calm.fail (answer_of_problem sound)
          | fetching | reading | iterating | returning | settled =>
              simp only [State.step, phase]
              exact calm
  | returned =>
      rw [State.step]
      cases phase : state.phase with
      | returning response problem =>
          rw [State.Sound, phase] at sound
          have failed := sound.resolve_left fun aborted => by
            rw [calm.unaborted] at aborted
            cases aborted
          exact calm.fail (answer_of_problem failed)
      | fetching | reading | cancelling | iterating | settled => exact calm
  | fetchFailed | readFailed | connectionDeadline | requestDeadline
  | callerAbort => exact isAnswer.elim

end State.Calm

/-- The reads that are left to make, where there is an end of them. -/
def Phase.Delivered (reads : Nat) : Phase → Prop
  | .fetching => False
  | .reading _ progress | .iterating _ _ progress =>
      progress.remaining.length ≤ reads
  | .cancelling _ _ | .returning _ _ | .settled _ _ => True

def Phase.IsSettled : Phase → Prop
  | .settled _ _ => True
  | _ => False

theorem isSettled_finish (text : String) :
    (state.finish request response text).phase.IsSettled := by
  rw [State.finish_eq]
  cases interpret request response text <;> trivial

theorem isSettled_complete (progress : Progress) :
    (state.complete request response progress).phase.IsSettled := by
  rw [State.complete]
  cases state.requestComposition.aborted with
  | some reason => trivial
  | none => exact isSettled_finish _

theorem delivered_readOn {progress : Progress} {reads : Nat}
    (left : progress.remaining.length ≤ reads) :
    (state.readOn request response progress).phase.Delivered reads := by
  rw [State.readOn]
  cases state.requestComposition.aborted with
  | some reason => trivial
  | none => exact left

theorem delivered_throwFrom (returns : Bool) (problem : Problem)
    (reads : Nat) :
    (state.throwFrom request response returns
      problem).phase.Delivered reads := by
  cases returns <;> trivial

theorem Phase.Delivered.read {reads : Nat}
    (delivered : state.phase.Delivered (reads + 1)) :
    (state.step request .read).phase.Delivered reads := by
  have shorter : ∀ {progress : Progress} {item : Item} {remaining : List Item},
      progress.remaining.length ≤ reads + 1 →
        progress.remaining = item :: remaining →
          remaining.length ≤ reads := by
    intro progress item remaining bound items
    rw [items, List.length_cons] at bound
    omega
  rw [State.step]
  cases phase : state.phase with
  | fetching =>
      rw [phase] at delivered
      exact delivered.elim
  | reading response progress =>
      have bound : progress.remaining.length ≤ reads + 1 := by
        rw [phase] at delivered
        exact delivered
      dsimp only
      rw [State.onReaderRead]
      cases items : progress.remaining with
      | nil =>
          dsimp only
          rw [phase, Phase.Delivered, items]
          exact Nat.zero_le _
      | cons item remaining =>
          have left := shorter bound items
          cases item with
          | undefined => exact delivered_readOn left
          | other type => trivial
          | binary chunk =>
              dsimp only
              split
              · trivial
              · exact delivered_readOn left
  | iterating response returns progress =>
      have bound : progress.remaining.length ≤ reads + 1 := by
        rw [phase] at delivered
        exact delivered
      dsimp only
      rw [State.onIterated]
      cases items : progress.remaining with
      | nil =>
          dsimp only
          rw [phase, Phase.Delivered, items]
          exact Nat.zero_le _
      | cons item remaining =>
          have left := shorter bound items
          dsimp only
          cases state.requestComposition.aborted with
          | some reason => exact delivered_throwFrom returns reason reads
          | none =>
              cases item with
              | undefined => exact delivered_throwFrom returns _ reads
              | other type => exact delivered_throwFrom returns _ reads
              | binary chunk =>
                  dsimp only
                  split
                  · exact delivered_throwFrom returns _ reads
                  · exact left
  | cancelling | returning | settled =>
      dsimp only
      rw [phase]
      trivial

/-- Once the rest of its body and the last answers are there, a request has
settled, whatever has happened to it before. -/
theorem isSettled_of_delivered {reads : Nat}
    (delivered : state.phase.Delivered reads) :
    (run (State.step request) state (List.replicate reads .read ++
      [.ended, .cancelled none, .returned])).phase.IsSettled := by
  induction reads generalizing state with
  | succ reads induction =>
      exact induction delivered.read
  | zero =>
      change ((((state.step request .ended).step request
        (.cancelled none)).step request .returned).phase).IsSettled
      have settledStays : ∀ {state : State} (label : Label),
          label.IsAnswer → state.phase.IsSettled →
            (state.step request label).phase.IsSettled := by
        intro state label isAnswer settled
        cases phase : state.phase with
        | settled response outcome =>
            cases label with
            | cancelled failure =>
                cases failure <;> simp only [State.step, phase] <;> trivial
            | fetched | read | ended | returned =>
                simp only [State.step, phase]
                trivial
            | fetchFailed | readFailed | connectionDeadline | requestDeadline
            | callerAbort => exact isAnswer.elim
        | fetching | reading | cancelling | iterating | returning =>
            rw [phase] at settled
            exact settled.elim
      cases phase : state.phase with
      | fetching =>
          rw [phase] at delivered
          exact delivered.elim
      | reading response progress =>
          rw [phase] at delivered
          have none := List.eq_nil_of_length_eq_zero
            (Nat.le_zero.mp delivered)
          apply settledStays .returned trivial
          apply settledStays (.cancelled .none) trivial
          simp only [State.step, phase, none, List.isEmpty_nil, Bool.true_or,
            if_true]
          exact isSettled_complete progress
      | iterating response returns progress =>
          rw [phase] at delivered
          have none := List.eq_nil_of_length_eq_zero
            (Nat.le_zero.mp delivered)
          apply settledStays .returned trivial
          apply settledStays (.cancelled .none) trivial
          simp only [State.step, phase, none, List.isEmpty_nil, Bool.true_or,
            if_true]
          exact isSettled_complete progress
      | cancelling response totalBytes =>
          apply settledStays .returned trivial
          simp only [State.step, phase]
          trivial
      | returning response problem =>
          simp only [State.step, phase]
          trivial
      | settled response outcome =>
          apply settledStays .returned trivial
          apply settledStays (.cancelled .none) trivial
          apply settledStays .ended trivial
          rw [phase]
          trivial

/-- Where the fetch, the body and nothing else answers, the request settles
with the answer of its response, and once its body has come it has settled. -/
theorem settles_as_answered (request : Request)
    (signal : Option (Option Value))
    (unaborted : ∀ reason, signal ≠ some (some reason))
    (labels : List Label) (answers : ∀ label ∈ labels, label.IsAnswer) :
    (∀ response outcome, (after request signal labels).phase =
        .settled response outcome →
      ∃ received, response = some received ∧
        outcome = answer request received) ∧
      ∀ reads, (after request signal labels).phase.Delivered reads →
        (after request signal (labels ++ (List.replicate reads .read ++
          [.ended, .cancelled none, .returned]))).phase.IsSettled := by
  have initial : (start signal).Calm request := by
    rcases signal with _ | _ | reason
    · exact ⟨rfl, ⟨rfl, rfl⟩, by rintro _ _ ⟨⟩⟩
    · exact ⟨rfl, ⟨rfl, rfl⟩, by rintro _ _ ⟨⟩⟩
    · exact absurd rfl (unaborted reason)
  have calm : (after request signal labels).Calm request := by
    have meets : Run.Meets (State.step request)
        (fun _ label => label.IsAnswer) (start signal) labels :=
      Run.meets_of_forall answers
    have kept : ∀ (state : State) (label : Label),
        state.Sound request ∧ state.Calm request → label.IsAnswer →
          (state.step request label).Sound request ∧
            (state.step request label).Calm request :=
      fun _ label holds isAnswer =>
        ⟨holds.1.step label, holds.2.step holds.1 isAnswer⟩
    have first : (start signal).Sound request ∧ (start signal).Calm request :=
      ⟨⟨rfl, rfl⟩, initial⟩
    have both := Run.invariant_of_meets kept first meets
    exact both.2
  refine ⟨calm.answered, fun reads delivered => ?_⟩
  rw [after, run, List.foldl_append]
  exact isSettled_of_delivered delivered

theorem settles_as_answered_digit :
    (∀ response outcome,
      (after digitRequest none [.fetched digitResponse]).phase =
        .settled response outcome →
      ∃ received, response = some received ∧
        outcome = answer digitRequest received) ∧
      ∀ reads,
        (after digitRequest none [.fetched digitResponse]).phase.Delivered
          reads →
        (after digitRequest none ([.fetched digitResponse] ++
          (List.replicate reads .read ++
            [.ended, .cancelled none, .returned]))).phase.IsSettled := by
  refine settles_as_answered digitRequest none ?_ [.fetched digitResponse] ?_
  · rintro reason ⟨⟩
  · intro label isFetched
    rw [List.mem_singleton] at isFetched
    rw [isFetched]
    trivial

end Web3Js.Http
