import Web3Js.Core.Sending

/-!
# How a request is settled

What a provider may report about a request either answers it with a value, or
rejects it, or is lost.  A request resolves by the first report that is not
lost, and stays pending where all are.
-/

namespace Web3Js.Core

section Settling

variable {language : Language} {texts : Texts}
  {useRpcCallSpecification : Bool} {id : Id}

theorem isReverted_ne_thrown {response value : Value} :
    isReverted response ≠ .error (.thrown value) := by
  intro failed
  rw [isReverted] at failed
  split at failed
  · split at failed
    · cases failed
    · cases failed
  · cases failed

theorem isSpecifiedError_ne_thrown {response value : Value} :
    isSpecifiedError language useRpcCallSpecification response ≠
      .error (.thrown value) := by
  intro failed
  rw [isSpecifiedError] at failed
  split at failed
  · rw [isResponseRpcError] at failed
    split at failed
    · cases failed
    · cases failed
  · cases failed

theorem invalidResponse_ne_thrown {response value : Value} :
    invalidResponse response ≠ .thrown value := by
  rw [invalidResponse]
  split <;> simp

theorem refuseError_ne_thrown {response value : Value} :
    refuseError language useRpcCallSpecification response ≠
      .error (.thrown value) := by
  intro failed
  rw [refuseError] at failed
  cases specified :
      isSpecifiedError language useRpcCallSpecification response with
  | error problem =>
      rw [specified] at failed
      cases failed
      exact isSpecifiedError_ne_thrown specified
  | ok isRpcError =>
      rw [specified, Outcome.ok_bind] at failed
      cases isRpcError with
      | true =>
          simp only [if_true] at failed
          split at failed
          · cases failed
          · cases failed
      | false =>
          simp only [Bool.false_eq_true, if_false] at failed
          cases checked : isReverted response with
          | error problem =>
              rw [checked] at failed
              cases failed
              exact isReverted_ne_thrown checked
          | ok reverted =>
              rw [checked, Outcome.ok_bind] at failed
              split at failed
              · cases failed
              · exact invalidResponse_ne_thrown (Except.error.inj failed)

/-- The processing throws a response itself only where it is an `Error`. -/
theorem process_eq_thrown {response value : Value} {error : Bool}
    (failed : process language useRpcCallSpecification id response true error =
      .error (.thrown value)) :
    value = response ∧ response.isErrorInstance = true ∧
      response.isResponseWithResult = false := by
  rw [process, processJsonRpcResponse] at failed
  split at failed
  · cases failed
  · cases refused : refuseError language useRpcCallSpecification response with
    | ok done => exact absurd refused refuseError_ne_ok
    | error problem =>
        rw [refused] at failed
        cases failed
        exact absurd refused refuseError_ne_thrown
  · rw [processAccepted] at failed
    by_cases isResult : response.isResponseWithResult = true
    · rw [if_pos isResult] at failed
      cases failed
    · rw [if_neg isResult] at failed
      rw [Bool.not_eq_true] at isResult
      by_cases isError : response.isErrorInstance = true
      · rw [if_pos isError] at failed
        cases reverted : isReverted response with
        | error problem =>
            rw [reverted] at failed
            cases failed
            exact absurd reverted isReverted_ne_thrown
        | ok done =>
            rw [reverted] at failed
            cases failed
            exact ⟨rfl, isError, isResult⟩
      · rw [if_neg isError, processOther_single, isResult] at failed
        cases failed

/-- What the processing throws for a legacy provider is an error, and no
result. -/
theorem process_throws {response : Value} {problem : Thrown} {error : Bool}
    (failed : process language useRpcCallSpecification id response true error =
      .error problem) :
    (problem.asValue texts).isErrorInstance = true ∧
      (problem.asValue texts).isResponseWithResult = false := by
  cases problem with
  | thrown value =>
      obtain ⟨rfl, isError, noResult⟩ := process_eq_thrown failed
      exact ⟨isError, noResult⟩
  | _ => exact ⟨rfl, rfl⟩

theorem processInPromise_eq_ok {response result : Value}
    {legacy error : Bool} :
    processInPromise language useRpcCallSpecification id response legacy
        error = .ok result ↔
      process language useRpcCallSpecification id response legacy error =
        .ok result := by
  rw [processInPromise]
  cases process language useRpcCallSpecification id response legacy error with
  | ok processed => simp
  | error problem => simp

theorem isJsonRpcResponse_eq_error {response : Value} :
    (∃ problem, isJsonRpcResponse response = .error problem) ↔
      response.isBatchResponse = none := by
  rw [isJsonRpcResponse]
  by_cases empty : response.isNullish = true
  · rw [if_pos empty, isBatchResponse_of_single (.inl empty)]
    simp
  · rw [if_neg empty]
    cases response.isBatchResponse with
    | none => simp
    | some isBatch => simp

/-- What a `catch` returns was processed. -/
theorem onCaught_eq_ok {error : Thrown} {result : Value}
    {legacy asError : Bool} :
    onCaught language texts useRpcCallSpecification id error legacy asError =
        .ok result ↔
      isJsonRpcResponse (error.asValue texts) = .ok true ∧
        process language useRpcCallSpecification id (error.asValue texts)
          legacy asError = .ok result := by
  rw [onCaught]
  cases isJsonRpcResponse (error.asValue texts) with
  | error problem => simp
  | ok isResponse =>
      cases isResponse with
      | false => simp
      | true => simp [processInPromise_eq_ok]

theorem onCaught_fulfils {error : Thrown} {value : Value} :
    (∃ result, onCaught language texts useRpcCallSpecification id error false
        false = .ok result ∧ received texts result = .ok value) ↔
      Fulfils false (error.asValue texts) value := by
  simp only [onCaught_eq_ok]
  constructor
  · rintro ⟨result, ⟨-, processed⟩, isValue⟩
    exact process_fulfils.mp ⟨result, processed, isValue⟩
  · intro fulfils
    obtain ⟨result, processed, isValue⟩ := process_fulfils.mpr fulfils
    exact ⟨result, ⟨fulfils.isJsonRpcResponse, processed⟩, isValue⟩

theorem onCaught_recovers {error : Thrown} {value : Value} :
    (∃ result, onCaught language texts useRpcCallSpecification id error true
        true = .ok result ∧ received texts result = .ok value) ↔
      Recovers (error.asValue texts) value := by
  simp only [onCaught_eq_ok]
  constructor
  · rintro ⟨result, ⟨-, processed⟩, isValue⟩
    exact process_recovers.mp ⟨result, processed, isValue⟩
  · intro recovers
    obtain ⟨result, processed, isValue⟩ := process_recovers.mpr recovers
    exact ⟨result, ⟨recovers.fulfils.isJsonRpcResponse, processed⟩, isValue⟩

/-- What a `then` throws is not recovered by the `catch` after it. -/
theorem onThen_fulfils {response value : Value} :
    (∃ result, onThen language texts useRpcCallSpecification id response =
        .ok result ∧ received texts result = .ok value) ↔
      Fulfils true response value := by
  constructor
  · rintro ⟨result, made, isValue⟩
    rw [onThen] at made
    cases processed : process language useRpcCallSpecification id response
        true false with
    | ok inner =>
        rw [processed] at made
        cases made
        exact process_fulfils.mp ⟨result, processed, isValue⟩
    | error problem =>
        rw [processed] at made
        have recovers := onCaught_recovers.mp ⟨result, made, isValue⟩
        have noResult : (problem.asValue texts).isResponseWithResult = false :=
          (process_throws processed).2
        rw [Recovers, noResult] at recovers
        cases recovers.2.1
  · intro fulfils
    obtain ⟨result, processed, isValue⟩ := process_fulfils.mpr fulfils
    refine ⟨result, ?_, isValue⟩
    rw [onThen, processed]

theorem resolveWithResponse_eq_some {response : Value}
    {settled : Except Reason Value} :
    resolveWithResponse language useRpcCallSpecification id response =
        some settled ↔
      ∃ result, process language useRpcCallSpecification id response true
        false = .ok result ∧ settled = .ok result := by
  rw [resolveWithResponse]
  cases process language useRpcCallSpecification id response true false with
  | error problem => simp
  | ok processed => simp [eq_comm]

theorem resolveWithResponse_eq_none {response : Value} :
    resolveWithResponse language useRpcCallSpecification id response = none ↔
      Refused response := by
  constructor
  · intro lost
    have never : ∀ result, process language useRpcCallSpecification id
        response true false ≠ .ok result := by
      intro result processed
      rw [resolveWithResponse, processed] at lost
      cases lost
    exact process_refused.mp never
  · intro refused
    cases processed : process language useRpcCallSpecification id response
        true false with
    | error problem => rw [resolveWithResponse, processed]
    | ok result =>
        exact absurd processed (process_refused.mpr refused result)

theorem rejectWithError_ne_ok {error result : Value} :
    rejectWithError language texts useRpcCallSpecification id error ≠
      some (.ok result) := by
  intro rejected
  rw [rejectWithError] at rejected
  split at rejected
  · cases rejected
  · cases rejected
  · split at rejected
    · cases rejected
    · cases rejected

theorem rejectCaught_ne_ok {error : Thrown} {result : Value} :
    rejectCaught language texts useRpcCallSpecification id error ≠
      some (.ok result) := by
  intro rejected
  rw [rejectCaught] at rejected
  split at rejected
  · cases rejected
  · cases rejected
  · split at rejected
    · cases rejected
    · cases rejected

theorem rejectCaught_eq_none {error : Thrown} :
    rejectCaught language texts useRpcCallSpecification id error = none ↔
      (error.asValue texts).isBatchResponse = none := by
  rw [rejectCaught, ← isJsonRpcResponse_eq_error]
  cases isJsonRpcResponse (error.asValue texts) with
  | error problem => simp
  | ok isResponse =>
      cases isResponse with
      | false => simp
      | true =>
          cases process language useRpcCallSpecification id
            (error.asValue texts) true true <;> simp

theorem isJsonRpcResponse_of_isResponseWithError {response : Value}
    (withError : response.isResponseWithError = some true) :
    isJsonRpcResponse response = .ok true := by
  rw [isJsonRpcResponse]
  split
  · rfl
  · rw [isBatchResponse_of_single (.inr (.inr (.inr withError))), withError]
    rfl

/-- Of the JSON-RPC responses only those with an error are refused. -/
theorem isResponseWithError_of_refused {response : Value}
    (isResponse : isJsonRpcResponse response = .ok true)
    (refused : Refused response) :
    response.isResponseWithError = some true := by
  rcases refused with withError | ⟨noResult, isError⟩
  · exact withError
  · have present : response.isNullish = false := by
      cases response with
      | object => rfl
      | _ => cases isError
    rw [isJsonRpcResponse, present,
      isBatchResponse_of_single (.inr (.inl isError)), noResult] at isResponse
    simpa using isResponse

/-- An error of a callback is lost where its elements cannot be read, and
where it is a JSON-RPC response with an error. -/
theorem rejectWithError_eq_none {error : Value} :
    rejectWithError language texts useRpcCallSpecification id error = none ↔
      error.isBatchResponse = none ∨
        error.isResponseWithError = some true := by
  rw [rejectWithError]
  cases isResponse : isJsonRpcResponse error with
  | error problem =>
      exact iff_of_true rfl
        (.inl (isJsonRpcResponse_eq_error.mp ⟨problem, isResponse⟩))
  | ok accepted =>
      have readable : error.isBatchResponse ≠ none := by
        rw [ne_eq, ← isJsonRpcResponse_eq_error, isResponse]
        simp
      cases accepted with
      | false =>
          apply iff_of_false
          · simp
          · rintro (unreadable | withError)
            · exact readable unreadable
            · rw [isJsonRpcResponse_of_isResponseWithError withError]
                at isResponse
              cases isResponse
      | true =>
          cases processed : process language useRpcCallSpecification id error
              true true with
          | error problem =>
              have refused : Refused error := process_refused.mp
                fun result same => by
                  rw [processed] at same
                  cases same
              exact iff_of_true rfl
                (.inr (isResponseWithError_of_refused isResponse refused))
          | ok result =>
              apply iff_of_false
              · simp
              · rintro (unreadable | withError)
                · exact readable unreadable
                · exact process_refused.mpr (.inl withError) result processed

end Settling

section Answering

/-- The reports that resolve a request with a value. -/
def Answers (texts : Texts) (way : Way) (report : Report) (value : Value) :
    Prop :=
  match way with
  | .web3 =>
      match report with
      | .resolved response | .rejected response =>
          Fulfils false response value
      | .threw error => Fulfils false (error.asValue texts) value
      | .called _ _ => False
  | .eip1193 | .legacySendAsync =>
      match report with
      | .resolved response => Fulfils true response value
      | .rejected error => Recovers error value
      | .threw _ | .called _ _ => False
  | .legacyRequest =>
      match report with
      | .resolved response => Fulfils true response value
      | .called error response =>
          error.truthy = false ∧ Fulfils true response value
      | .rejected _ | .threw _ => False
  | .legacySend =>
      match report with
      | .called error response =>
          error.truthy = false ∧ response.isNullish = false ∧
            Fulfils true response value
      | .resolved _ | .rejected _ | .threw _ => False

/-- A callback is called with what its handler throws at. -/
def LosesCall (error response : Value) : Prop :=
  error.truthy = true ∧ (error.isBatchResponse = none ∨
      error.isResponseWithError = some true) ∨
    error.truthy = false ∧ Refused response

/-- The reports that leave a request pending. -/
def Loses (way : Way) (report : Report) : Prop :=
  match way with
  | .web3 | .eip1193 | .legacySendAsync =>
      match report with
      | .called _ _ => True
      | .resolved _ | .rejected _ | .threw _ => False
  | .legacyRequest =>
      match report with
      | .rejected error => error.isBatchResponse = none
      | .called error response => LosesCall error response
      | .resolved _ | .threw _ => False
  | .legacySend =>
      match report with
      | .resolved _ | .rejected _ => True
      | .called error response => LosesCall error response
      | .threw _ => False

variable {language : Language} {texts : Texts}
  {useRpcCallSpecification : Bool} {id : Id}

theorem settleWeb3_answers {report : Report} {value : Value} :
    (∃ result, settleWeb3 language texts useRpcCallSpecification id report =
        some (.ok result) ∧ received texts result = .ok value) ↔
      Answers texts .web3 report value := by
  cases report with
  | resolved response =>
      simp only [settleWeb3, Option.some.injEq, processInPromise_eq_ok]
      exact process_fulfils
  | rejected error =>
      simp only [settleWeb3, Option.some.injEq]
      exact onCaught_fulfils
  | threw error =>
      simp only [settleWeb3, Option.some.injEq]
      exact onCaught_fulfils
  | called error response =>
      apply iff_of_false
      · rintro ⟨result, ⟨⟩, -⟩
      · exact False.elim

theorem settleChained_answers {report : Report} {value : Value} :
    (∃ result, settleChained language texts useRpcCallSpecification id
        report = some (.ok result) ∧ received texts result = .ok value) ↔
      Answers texts .eip1193 report value := by
  cases report with
  | resolved response =>
      simp only [settleChained, Option.some.injEq]
      exact onThen_fulfils
  | rejected error =>
      simp only [settleChained, Option.some.injEq]
      exact onCaught_recovers
  | threw error =>
      apply iff_of_false
      · rintro ⟨result, ⟨⟩, -⟩
      · exact False.elim
  | called error response =>
      apply iff_of_false
      · rintro ⟨result, ⟨⟩, -⟩
      · exact False.elim

theorem resolveWithResponse_answers {response value : Value} :
    (∃ result, resolveWithResponse language useRpcCallSpecification id
        response = some (.ok result) ∧ received texts result = .ok value) ↔
      Fulfils true response value := by
  constructor
  · rintro ⟨result, resolved, isValue⟩
    obtain ⟨inner, processed, same⟩ := resolveWithResponse_eq_some.mp resolved
    cases same
    exact process_fulfils.mp ⟨result, processed, isValue⟩
  · intro fulfils
    obtain ⟨result, processed, isValue⟩ := process_fulfils.mpr fulfils
    exact ⟨result, resolveWithResponse_eq_some.mpr ⟨result, processed, rfl⟩,
      isValue⟩

theorem settleLegacyRequest_answers {report : Report} {value : Value} :
    (∃ result, settleLegacyRequest language texts useRpcCallSpecification id
        report = some (.ok result) ∧ received texts result = .ok value) ↔
      Answers texts .legacyRequest report value := by
  cases report with
  | resolved response =>
      constructor
      · rintro ⟨result, settled, isValue⟩
        rw [settleLegacyRequest] at settled
        cases processed : process language useRpcCallSpecification id response
            true false with
        | ok inner =>
            rw [processed] at settled
            cases settled
            exact process_fulfils.mp ⟨result, processed, isValue⟩
        | error problem =>
            rw [processed] at settled
            exact absurd settled rejectCaught_ne_ok
      · intro fulfils
        obtain ⟨result, processed, isValue⟩ := process_fulfils.mpr fulfils
        refine ⟨result, ?_, isValue⟩
        rw [settleLegacyRequest, processed]
  | rejected error =>
      apply iff_of_false
      · rintro ⟨result, settled, -⟩
        exact rejectCaught_ne_ok settled
      · exact False.elim
  | called error response =>
      rw [settleLegacyRequest, Answers]
      cases failed : error.truthy with
      | true =>
          apply iff_of_false
          · rintro ⟨result, settled, -⟩
            exact rejectWithError_ne_ok settled
          · rintro ⟨⟨⟩, -⟩
      | false =>
          simp only [Bool.false_eq_true, if_false, true_and]
          exact resolveWithResponse_answers
  | threw error =>
      apply iff_of_false
      · rintro ⟨result, ⟨⟩, -⟩
      · exact False.elim

theorem settleLegacySend_answers {report : Report} {value : Value} :
    (∃ result, settleLegacySend language texts useRpcCallSpecification id
        report = some (.ok result) ∧ received texts result = .ok value) ↔
      Answers texts .legacySend report value := by
  cases report with
  | resolved response =>
      apply iff_of_false
      · rintro ⟨result, ⟨⟩, -⟩
      · exact False.elim
  | rejected error =>
      apply iff_of_false
      · rintro ⟨result, ⟨⟩, -⟩
      · exact False.elim
  | called error response =>
      rw [settleLegacySend, Answers]
      cases failed : error.truthy with
      | true =>
          apply iff_of_false
          · rintro ⟨result, settled, -⟩
            exact rejectWithError_ne_ok settled
          · rintro ⟨⟨⟩, -⟩
      | false =>
          cases empty : response.isNullish with
          | true => simp
          | false =>
              simp only [Bool.false_eq_true, if_false, true_and]
              exact resolveWithResponse_answers
  | threw error =>
      apply iff_of_false
      · rintro ⟨result, ⟨⟩, -⟩
      · exact False.elim

/-- One report resolves a request with exactly the values that it answers. -/
theorem settleReport_answers {way : Way} {report : Report} {value : Value} :
    (∃ result, settleReport language texts useRpcCallSpecification id way
        report = some (.ok result) ∧ received texts result = .ok value) ↔
      Answers texts way report value := by
  cases way with
  | web3 => exact settleWeb3_answers
  | eip1193 => exact settleChained_answers
  | legacyRequest => exact settleLegacyRequest_answers
  | legacySend => exact settleLegacySend_answers
  | legacySendAsync => exact settleChained_answers

/-- A call of a callback settles nothing exactly where its handler throws. -/
theorem settleLegacyRequest_eq_none {report : Report} :
    settleLegacyRequest language texts useRpcCallSpecification id report =
        none ↔ Loses .legacyRequest report := by
  cases report with
  | resolved response =>
      apply iff_of_false
      · intro lost
        rw [settleLegacyRequest] at lost
        cases processed : process language useRpcCallSpecification id response
            true false with
        | ok result =>
            rw [processed] at lost
            cases lost
        | error problem =>
            rw [processed] at lost
            have unreadable := rejectCaught_eq_none.mp lost
            have isError : (problem.asValue texts).isErrorInstance = true :=
              (process_throws processed).1
            rw [isBatchResponse_of_single (.inr (.inl isError))] at unreadable
            cases unreadable
      · exact False.elim
  | rejected error => exact rejectCaught_eq_none
  | called error response =>
      rw [settleLegacyRequest, Loses, LosesCall]
      cases error.truthy with
      | true => simp [rejectWithError_eq_none]
      | false => simp [resolveWithResponse_eq_none]
  | threw error =>
      exact iff_of_false (fun settled => by cases settled) False.elim

theorem not_refused_of_isNullish {response : Value}
    (empty : response.isNullish = true) : ¬Refused response := by
  rintro (withError | ⟨-, isError⟩)
  · rw [isResponseWithError_eq_none.mpr empty] at withError
    cases withError
  · cases response with
    | object => cases empty
    | _ => cases isError

theorem settleLegacySend_eq_none {report : Report} :
    settleLegacySend language texts useRpcCallSpecification id report =
        none ↔ Loses .legacySend report := by
  cases report with
  | resolved response => exact iff_of_true rfl trivial
  | rejected error => exact iff_of_true rfl trivial
  | called error response =>
      rw [settleLegacySend, Loses, LosesCall]
      cases error.truthy with
      | true => simp [rejectWithError_eq_none]
      | false =>
          cases empty : response.isNullish with
          | true => simp [not_refused_of_isNullish empty]
          | false => simp [resolveWithResponse_eq_none]
  | threw error =>
      exact iff_of_false (fun settled => by cases settled) False.elim

theorem settleReport_eq_none {way : Way} {report : Report} :
    settleReport language texts useRpcCallSpecification id way report = none ↔
      Loses way report := by
  cases way with
  | legacyRequest => exact settleLegacyRequest_eq_none
  | legacySend => exact settleLegacySend_eq_none
  | web3 =>
      cases report with
      | called error response => exact iff_of_true rfl trivial
      | _ => exact iff_of_false (fun settled => by cases settled) False.elim
  | _ =>
      cases report with
      | called error response => exact iff_of_true rfl trivial
      | _ => exact iff_of_false (fun settled => by cases settled) False.elim

theorem send_of_way {offered : SupportedProvider} {way : Way}
    (isWay : offered.way = some way) (reports : List Report) :
    send language texts useRpcCallSpecification id (some offered) reports =
      (reports.findSome? (settleReport language texts useRpcCallSpecification id
        way)).map fun settled => settled.bind (received texts) := by
  rw [send]
  simp only [sendRequest, isWay]

/-- Without a provider, or without a way, the request is rejected at once. -/
theorem send_rejected {provider : Option SupportedProvider}
    (noWay : provider.bind SupportedProvider.way = none)
    (reports : List Report) :
    ∃ reason, send language texts useRpcCallSpecification id provider reports =
      some (.error reason) := by
  cases provider with
  | none => exact ⟨_, rfl⟩
  | some offered =>
      rw [Option.bind_some] at noWay
      rw [send]
      simp only [sendRequest, noWay]
      exact ⟨_, rfl⟩

/-- A request resolves with a value exactly where the first report that is not
lost answers it. -/
theorem send_eq_ok (language : Language) (texts : Texts)
    (useRpcCallSpecification : Bool) (id : Id)
    (provider : Option SupportedProvider) (reports : List Report)
    (value : Value) :
    send language texts useRpcCallSpecification id provider reports =
        some (.ok value) ↔
      ∃ way, provider.bind SupportedProvider.way = some way ∧
        ∃ earlier report later, reports = earlier ++ report :: later ∧
          (∀ former ∈ earlier, Loses way former) ∧
          Answers texts way report value := by
  cases isWay : provider.bind SupportedProvider.way with
  | none =>
      apply iff_of_false
      · intro sent
        obtain ⟨reason, rejected⟩ := send_rejected isWay reports
        rw [rejected] at sent
        cases sent
      · rintro ⟨way, ⟨⟩, -⟩
  | some way =>
      obtain ⟨offered, rfl, offers⟩ := Option.bind_eq_some_iff.mp isWay
      rw [send_of_way offers]
      constructor
      · intro sent
        obtain ⟨settled, first, isValue⟩ := Option.map_eq_some_iff.mp sent
        obtain ⟨earlier, report, later, parts, settles, lost⟩ :=
          List.findSome?_eq_some_iff.mp first
        cases settled with
        | error reason => cases isValue
        | ok result =>
            exact ⟨way, rfl, earlier, report, later, parts,
              fun former among => settleReport_eq_none.mp (lost former among),
              settleReport_answers.mp ⟨result, settles, isValue⟩⟩
      · rintro ⟨_, ⟨⟩, earlier, report, later, parts, lost, answers⟩
        obtain ⟨result, settles, isValue⟩ := settleReport_answers.mpr answers
        apply Option.map_eq_some_iff.mpr
        refine ⟨.ok result, List.findSome?_eq_some_iff.mpr ?_, isValue⟩
        exact ⟨earlier, report, later, parts, settles,
          fun former among => settleReport_eq_none.mpr (lost former among)⟩

/-- A request stays pending exactly where every report is lost. -/
theorem send_eq_none (language : Language) (texts : Texts)
    (useRpcCallSpecification : Bool) (id : Id)
    (provider : Option SupportedProvider) (reports : List Report) :
    send language texts useRpcCallSpecification id provider reports = none ↔
      ∃ way, provider.bind SupportedProvider.way = some way ∧
        ∀ report ∈ reports, Loses way report := by
  cases isWay : provider.bind SupportedProvider.way with
  | none =>
      apply iff_of_false
      · intro pending
        obtain ⟨reason, rejected⟩ := send_rejected isWay reports
        rw [rejected] at pending
        cases pending
      · rintro ⟨way, ⟨⟩, -⟩
  | some way =>
      obtain ⟨offered, rfl, offers⟩ := Option.bind_eq_some_iff.mp isWay
      rw [send_of_way offers, Option.map_eq_none_iff,
        List.findSome?_eq_none_iff]
      simp only [settleReport_eq_none, Option.some.injEq, exists_eq_left']

/-- An error response that is handed to the callback of `send` is lost. -/
example (texts : Texts) :
    send .trivial texts false (.number (.finite 1))
      (some ⟨false, none, true, false⟩)
      [.called (.object false [("jsonrpc", .string "2.0"),
        ("id", .number (.finite 1)), ("error", .object false [])])
        .undefined] = none := rfl

end Answering

end Web3Js.Core
