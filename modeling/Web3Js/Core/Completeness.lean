import Web3Js.Core.Batch

/-!
# Completeness of a batch

Whatever happens after `execute`, a promise is only ever resolved with a
result under the id of its request.  Whether all promises settle is decided by
the first event: a request that shares its id with a later one is lost, a
rejected sending settles no promise, and a response that passes the checks of
length and ids need not have an entry for every request.
-/

namespace Web3Js.Core.BatchRequest

section Settlements

theorem getElem?_settleAll (promises : List (Option Settlement))
    (settlements : List (Nat × Settlement)) (position : Nat) :
    (settleAll promises settlements)[position]? =
      promises[position]?.map
        fun promise => promise.or (settlements.lookup position) := by
  induction settlements generalizing promises with
  | nil =>
      rw [settleAll, List.foldl_nil]
      simp
  | cons entry settlements induction =>
      obtain ⟨other, settlement⟩ := entry
      change (settleAll (settle promises other settlement) settlements)[position]?
        = _
      rw [induction, settle, List.getElem?_modify, List.lookup_cons]
      by_cases same : position = other
      · subst same
        cases promises[position]? with
        | none => simp
        | some promise => cases promise <;> simp
      · have differs : (position == other) = false := by simpa using same
        simp [differs, Ne.symm same]

theorem length_settleAll (promises : List (Option Settlement))
    (settlements : List (Nat × Settlement)) :
    (settleAll promises settlements).length = promises.length := by
  induction settlements generalizing promises with
  | nil => rfl
  | cons entry settlements induction =>
      change (settleAll (settle promises entry.1 entry.2) settlements).length = _
      rw [induction, settle, List.length_modify]

end Settlements

section Keys

/-- The promises stand under the ids of their requests. -/
structure WellKeyed (ids : List Id) (batch : BatchRequest) : Prop where
  length : batch.promises.length = ids.length
  own : ∀ {id position}, batch.requests.get? id = some position →
    ids[position]? = some id
  present : ∀ id ∈ ids, (batch.requests.get? id).isSome

theorem WellKeyed.add {ids : List Id} {batch : BatchRequest}
    (keyed : WellKeyed ids batch) (request : AddedRequest) :
    WellKeyed (ids ++ [request.payloadId]) (batch.add request) where
  length := by
    rw [BatchRequest.add, List.length_append, List.length_append,
      keyed.length]
    rfl
  own := by
    intro id position found
    rw [BatchRequest.add, OrderedMap.get?_set] at found
    by_cases same : id = request.payloadId
    · rw [if_pos same] at found
      cases found
      rw [keyed.length, same]
      simp
    · rw [if_neg same] at found
      have before := keyed.own found
      rw [List.getElem?_append_left (List.getElem?_eq_some_iff.mp before).1]
      exact before
  present := by
    intro id member
    rw [BatchRequest.add, OrderedMap.get?_set]
    by_cases same : id = request.payloadId
    · rw [if_pos same]
      rfl
    · rw [if_neg same]
      rcases List.mem_append.mp member with before | last
      · exact keyed.present id before
      · exact absurd (List.mem_singleton.mp last) same

theorem WellKeyed.addAll {ids : List Id} {batch : BatchRequest}
    (keyed : WellKeyed ids batch) (requests : List AddedRequest) :
    WellKeyed (ids ++ requests.map AddedRequest.payloadId)
      (batch.addAll requests) := by
  induction requests generalizing ids batch with
  | nil =>
      rw [List.map_nil, List.append_nil]
      exact keyed
  | cons request requests induction =>
      have later := induction (keyed.add request)
      rw [List.append_assoc] at later
      exact later

/-- With distinct ids every promise stands under its id. -/
theorem WellKeyed.get?_of_nodup {ids : List Id} {batch : BatchRequest}
    (keyed : WellKeyed ids batch) (distinct : ids.Nodup) {id : Id}
    {position : Nat} (found : ids[position]? = some id) :
    batch.requests.get? id = some position := by
  have member := List.mem_of_getElem? found
  obtain ⟨other, stored⟩ :=
    Option.isSome_iff_exists.mp (keyed.present id member)
  have same := keyed.own stored
  rw [← found] at same
  have bound := (List.getElem?_eq_some_iff.mp found).1
  obtain rfl := (List.getElem?_inj bound distinct).mp same.symm
  exact stored

/-- With a repeated id some promise is under no id. -/
theorem WellKeyed.exists_lost {ids : List Id} {batch : BatchRequest}
    (keyed : WellKeyed ids batch) (repeated : ¬ids.Nodup) :
    ∃ position < ids.length,
      ∀ id, batch.requests.get? id ≠ some position := by
  by_contra none
  push Not at none
  apply repeated
  apply List.nodup_iff_getElem?_ne_getElem?.mpr
  intro first second earlier bound same
  obtain ⟨id, stored⟩ := none first (Nat.lt_trans earlier bound)
  obtain ⟨other, storedOther⟩ := none second bound
  have ids_eq := keyed.own stored
  rw [same, keyed.own storedOther] at ids_eq
  cases ids_eq
  rw [stored] at storedOther
  have positions := Option.some.inj storedOther
  omega

theorem keys_addAll {batch : BatchRequest} {requests : List AddedRequest}
    (distinct : (batch.requests.keys ++
      requests.map AddedRequest.payloadId).Nodup) :
    (batch.addAll requests).requests.keys =
      batch.requests.keys ++ requests.map AddedRequest.payloadId := by
  induction requests generalizing batch with
  | nil => simp [addAll]
  | cons request requests induction =>
      have absent : batch.requests.get? request.payloadId = none := by
        apply OrderedMap.get?_eq_none.mpr
        intro member
        exact List.disjoint_of_nodup_append distinct member (by simp)
      have keys : (batch.add request).requests.keys =
          batch.requests.keys ++ [request.payloadId] :=
        OrderedMap.keys_set_of_absent absent _
      refine (induction ?_).trans ?_
      · rw [keys, List.append_assoc]
        exact distinct
      · rw [keys, List.append_assoc]
        rfl

end Keys

section Steps

variable (language : Language)

/-- The settlements that an abort gives to the promises of the batch. -/
def abortions (batch : BatchRequest) (message : String) :
    List (Nat × Settlement) :=
  batch.requests.entries.map fun entry =>
    (entry.2, .rejected (.aborted message))

/-- What an event does to the promises. -/
def settlements (batch : BatchRequest) : Event → List (Nat × Settlement)
  | .response elements =>
      if batch.answered then []
      else if elements.length ≠ batch.requests.size then
        batch.abortions "Invalid batch response"
      else if elements.any Value.isNullish then []
      else if sameText
          (numericIds language (batch.requests.keys.map idValue))
          (numericIds language (elements.map (·.property "id"))) then
        elements.filterMap (responseSettlement batch.requests)
      else batch.abortions "Invalid batch response"
  | .rejection isOperationTimeout =>
      if batch.answered ∨ batch.execution.isSome then []
      else if isOperationTimeout then
        batch.abortions "Batch request timeout"
      else []
  | .timeout =>
      if batch.execution.isSome then []
      else batch.abortions "Batch request timeout"

theorem processResponse_eq (batch : BatchRequest) (elements : List Value)
    (waiting : batch.answered = false) :
    ∃ execution,
      processResponse language { batch with answered := true } elements =
        { batch with
          promises := settleAll batch.promises
            (batch.settlements language (.response elements))
          answered := true
          execution := batch.execution.or (some execution) } := by
  have fresh : ¬batch.answered = true := by
    rw [waiting]
    exact Bool.false_ne_true
  rw [processResponse, settlements, if_neg fresh]
  by_cases sizes : elements.length ≠ batch.requests.size
  · rw [if_pos sizes, if_pos sizes]
    exact ⟨_, rfl⟩
  · rw [if_neg sizes, if_neg sizes]
    by_cases nulls : elements.any Value.isNullish = true
    · rw [if_pos nulls, if_pos nulls]
      exact ⟨_, rfl⟩
    · rw [if_neg nulls, if_neg nulls]
      by_cases texts : sameText
          (numericIds language (batch.requests.keys.map idValue))
          (numericIds language (elements.map (·.property "id"))) = true
      · rw [if_pos texts]
        simp only [texts, if_true]
        exact ⟨_, rfl⟩
      · rw [if_neg texts]
        simp only [texts]
        exact ⟨_, rfl⟩

/-- The step lemma: an event settles promises, leaves the requests and settles
the execution. -/
theorem step_eq (batch : BatchRequest) (event : Event) :
    ∃ answered execution, batch.step language event =
        { batch with
          promises :=
            settleAll batch.promises (batch.settlements language event)
          answered, execution } ∧
      (batch.answered = true → answered = true) ∧
      (batch.execution.isSome ∨ batch.answered = false →
        execution.isSome = true) ∧
      (event ≠ .timeout → answered = true) := by
  cases event with
  | response elements =>
      by_cases waiting : batch.answered = false
      · obtain ⟨execution, processed⟩ :=
          processResponse_eq language batch elements waiting
        refine ⟨true, batch.execution.or (some execution), ?_, fun _ => rfl,
          fun _ => ?_, fun _ => rfl⟩
        · rw [step, if_neg (by rw [waiting]; simp)]
          exact processed
        · cases batch.execution <;> rfl
      · rw [Bool.not_eq_false] at waiting
        refine ⟨true, batch.execution, ?_, fun _ => rfl, ?_, fun _ => rfl⟩
        · rw [step, if_pos waiting, settlements, if_pos waiting]
          rw [← waiting]
          rfl
        · rintro (settled | now)
          · exact settled
          · rw [waiting] at now
            cases now
  | rejection isOperationTimeout =>
      by_cases late : batch.answered = true ∨ batch.execution.isSome = true
      · refine ⟨true, batch.execution, ?_, fun _ => rfl, ?_, fun _ => rfl⟩
        · rw [step, if_pos late, settlements, if_pos late]
          rfl
        · rintro (settled | waiting)
          · exact settled
          · rcases late with now | settled
            · rw [waiting] at now
              cases now
            · exact settled
      · refine ⟨true, batch.execution.or (some .sendingFailed), ?_,
          fun _ => rfl, fun _ => ?_, fun _ => rfl⟩
        · rw [step, if_neg late, settlements, if_neg late]
          cases isOperationTimeout <;> rfl
        · cases batch.execution <;> rfl
  | timeout =>
      by_cases settled : batch.execution.isSome = true
      · refine ⟨batch.answered, batch.execution, ?_, id, fun _ => settled,
          (absurd rfl ·)⟩
        rw [step, if_pos settled, settlements, if_pos settled]
        rfl
      · refine ⟨batch.answered, batch.execution.or (some .timedOut), ?_, id,
          fun _ => ?_, (absurd rfl ·)⟩
        · rw [step, if_neg settled, settlements, if_neg settled]
          rfl
        · cases batch.execution <;> rfl

/-- A promise that is no longer pending. -/
def Settled (batch : BatchRequest) (position : Nat) : Prop :=
  ∃ settlement, batch.promises[position]? = some (some settlement)

/-- The promises of the map get a settlement from an abort, and only they. -/
theorem lookup_abortions (batch : BatchRequest) (message : String)
    (position : Nat) :
    ((batch.abortions message).lookup position).isSome ↔
      ∃ id, batch.requests.get? id = some position := by
  rw [List.lookup_isSome_iff, abortions]
  constructor
  · rintro ⟨entry, member, same⟩
    obtain ⟨⟨id, other⟩, stored, rfl⟩ := List.mem_map.mp member
    obtain rfl : position = other := by simpa using same
    exact ⟨id, OrderedMap.mem_entries.mp stored⟩
  · rintro ⟨id, stored⟩
    refine ⟨(position, .rejected (.aborted message)), ?_, by simp⟩
    exact List.mem_map.mpr
      ⟨(id, position), OrderedMap.mem_entries.mpr stored, rfl⟩

theorem responseSettlement_eq_some {requests : OrderedMap Id Nat}
    {response : Value} {position : Nat} {settlement : Settlement} :
    responseSettlement requests response = some (position, settlement) ↔
      ∃ id, response.responseId = some id ∧
        requests.get? id = some position ∧
        ((response.isResponseWithResult = true ∧
            settlement = .resolved (response.property "result")) ∨
          (response.isResponseWithResult = false ∧
            response.isResponseWithError = some true ∧
            settlement =
              .rejected (.responded (response.property "error")))) := by
  rw [responseSettlement]
  cases response.responseId with
  | none => simp
  | some id =>
      cases stored : requests.get? id with
      | none => simp [stored]
      | some other =>
          by_cases isResult : response.isResponseWithResult = true
          · simp [isResult, stored, eq_comm]
          · by_cases isError : response.isResponseWithError = some true
            · simp [isResult, isError, stored, eq_comm]
            · simp [isResult, isError]

/-- An event only settles promises of the map. -/
theorem lookup_settlements {language : Language} {batch : BatchRequest} {event : Event}
    {position : Nat} {settlement : Settlement}
    (settles : (position, settlement) ∈ batch.settlements language event) :
    ∃ id, batch.requests.get? id = some position := by
  have ofAbortions : ∀ message,
      (position, settlement) ∈ batch.abortions message →
      ∃ id, batch.requests.get? id = some position := by
    intro message member
    apply (lookup_abortions batch message position).mp
    apply List.lookup_isSome_iff.mpr
    exact ⟨_, member, by simp⟩
  cases event with
  | response elements =>
      rw [settlements] at settles
      split at settles
      · cases settles
      split at settles
      · exact ofAbortions _ settles
      split at settles
      · cases settles
      split at settles
      · obtain ⟨response, -, same⟩ := List.mem_filterMap.mp settles
        obtain ⟨id, -, stored, -⟩ := responseSettlement_eq_some.mp same
        exact ⟨id, stored⟩
      · exact ofAbortions _ settles
  | rejection isOperationTimeout =>
      rw [settlements] at settles
      split at settles
      · cases settles
      split at settles
      · exact ofAbortions _ settles
      · cases settles
  | timeout =>
      rw [settlements] at settles
      split at settles
      · cases settles
      · exact ofAbortions _ settles

/-- An event settles the promises that it has a settlement for. -/
theorem settled_step (batch : BatchRequest) (event : Event)
    (position : Nat) :
    (batch.step language event).Settled position ↔
      batch.Settled position ∨ (position < batch.promises.length ∧
        ((batch.settlements language event).lookup position).isSome) := by
  obtain ⟨answered, execution, stepped, -⟩ :=
    step_eq language batch event
  rw [stepped, Settled, Settled, getElem?_settleAll]
  by_cases bound : position < batch.promises.length
  · rw [List.getElem?_eq_getElem bound]
    cases batch.promises[position] with
    | some settlement => simp
    | none =>
        cases (batch.settlements language event).lookup position with
        | none => simp
        | some settlement => simp [bound]
  · rw [List.getElem?_eq_none (Nat.not_lt.mp bound)]
    simp [bound]

/-- Once the execution is settled, no pending promise can be settled any
more. -/
structure Quiet (batch : BatchRequest) : Prop where
  executed : batch.execution.isSome
  answered : batch.answered = true ∨
    ∀ {id position}, batch.requests.get? id = some position →
      position < batch.promises.length → batch.Settled position

theorem Quiet.settled_step {batch : BatchRequest} (quiet : Quiet batch)
    (event : Event) (position : Nat) :
    (batch.step language event).Settled position ↔
      batch.Settled position := by
  rw [BatchRequest.settled_step]
  constructor
  · rintro (settled | ⟨bound, settles⟩)
    · exact settled
    · obtain ⟨settlement, found⟩ := Option.isSome_iff_exists.mp settles
      have member := (List.lookup_eq_some_iff.mp found)
      rcases quiet.answered with answered | all
      · cases event with
        | response => simp [settlements, answered] at found
        | rejection => simp [settlements, answered] at found
        | timeout => simp [settlements, quiet.executed] at found
      · obtain ⟨before, after, split, -⟩ := member
        have settles : (position, settlement) ∈
            batch.settlements language event := by
          rw [split]
          simp
        obtain ⟨id, stored⟩ := lookup_settlements settles
        exact all stored bound
  · exact .inl

theorem Quiet.step {batch : BatchRequest} (quiet : Quiet batch)
    (event : Event) : Quiet (batch.step language event) := by
  have settled := fun position =>
    quiet.settled_step language event position
  obtain ⟨answered, execution, stepped, kept, executed, -⟩ :=
    step_eq language batch event
  rw [stepped] at settled ⊢
  refine ⟨executed (.inl quiet.executed), ?_⟩
  rcases quiet.answered with before | all
  · exact .inl (kept before)
  · refine .inr fun stored bound => (settled _).mpr (all stored ?_)
    rw [length_settleAll] at bound
    exact bound

/-- After `Quiet` a run settles nothing. -/
theorem Quiet.run {batch : BatchRequest} (quiet : Quiet batch)
    (events : List Event) :
    Quiet (events.foldl (BatchRequest.step language) batch) ∧
      ∀ position,
        (events.foldl (BatchRequest.step language) batch).Settled position ↔
          batch.Settled position := by
  induction events generalizing batch with
  | nil => exact ⟨quiet, fun position => Iff.rfl⟩
  | cons event events induction =>
      obtain ⟨later, settled⟩ := induction (quiet.step language event)
      refine ⟨later, fun position => ?_⟩
      rw [List.foldl_cons, settled position,
        quiet.settled_step language event position]

theorem quiet_first {batch : BatchRequest} (waiting : batch.answered = false)
    (open_ : batch.execution = none) (event : Event) :
    Quiet (batch.step language event) := by
  have settled := settled_step language batch event
  obtain ⟨answered, execution, stepped, -, executed, notTimeout⟩ :=
    step_eq language batch event
  rw [stepped] at settled ⊢
  refine ⟨executed (.inr waiting), ?_⟩
  cases event with
  | response | rejection => exact .inl (notTimeout (by simp))
  | timeout =>
      refine .inr fun {id position} stored bound => (settled position).mpr ?_
      rw [length_settleAll] at bound
      refine .inr ⟨bound, ?_⟩
      rw [settlements, open_]
      exact (lookup_abortions batch _ position).mpr ⟨id, stored⟩

end Steps

section First

variable (language : Language)

/-- The first event has a settlement for each of the distinct ids.  A response
must have another length, other ids as numbers, or a result or an error under
every id. -/
def AnswersAll (ids : List Id) : Event → Prop
  | .timeout => True
  | .rejection isOperationTimeout => isOperationTimeout = true
  | .response elements =>
      elements.length ≠ ids.length ∨
        (elements.any Value.isNullish = false ∧
          (sameText (numericIds language (ids.map idValue))
              (numericIds language (elements.map (·.property "id"))) = true →
            ∀ id ∈ ids, ∃ response ∈ elements,
              response.responseId = some id ∧
                response.validateResponse = some true))

variable {language} {ids : List Id} {batch : BatchRequest}

theorem lookup_responses (keyed : WellKeyed ids batch)
    (distinct : ids.Nodup) (elements : List Value) {position : Nat} {id : Id}
    (ofId : ids[position]? = some id) :
    ((elements.filterMap (responseSettlement batch.requests)).lookup
        position).isSome ↔
      ∃ response ∈ elements, response.responseId = some id ∧
        response.validateResponse = some true := by
  rw [List.lookup_isSome_iff]
  constructor
  · rintro ⟨⟨other, settlement⟩, member, same⟩
    obtain rfl : position = other := by simpa using same
    obtain ⟨response, isElement, settles⟩ := List.mem_filterMap.mp member
    obtain ⟨own, hasId, stored, valid⟩ :=
      responseSettlement_eq_some.mp settles
    have sameId := keyed.own stored
    rw [ofId] at sameId
    cases sameId
    refine ⟨response, isElement, hasId, ?_⟩
    rw [Value.validateResponse]
    rcases valid with ⟨isResult, -⟩ | ⟨noResult, isError, -⟩
    · rw [if_pos isResult]
    · rw [noResult, isError]
      rfl
  · rintro ⟨response, isElement, hasId, valid⟩
    have stored := keyed.get?_of_nodup distinct ofId
    rw [Value.validateResponse] at valid
    by_cases isResult : response.isResponseWithResult = true
    · refine ⟨(position, .resolved (response.property "result")), ?_,
        by simp⟩
      apply List.mem_filterMap.mpr
      refine ⟨response, isElement, responseSettlement_eq_some.mpr ?_⟩
      exact ⟨id, hasId, stored, .inl ⟨isResult, rfl⟩⟩
    · rw [if_neg isResult] at valid
      refine ⟨(position,
        .rejected (.responded (response.property "error"))), ?_, by simp⟩
      apply List.mem_filterMap.mpr
      refine ⟨response, isElement, responseSettlement_eq_some.mpr ?_⟩
      exact ⟨id, hasId, stored,
        .inr ⟨Bool.eq_false_iff.mpr isResult, valid, rfl⟩⟩

/-- With distinct ids, the first event settles every promise exactly where it
answers all of them. -/
theorem settlements_complete (keyed : WellKeyed ids batch)
    (distinct : ids.Nodup) (keys : batch.requests.keys = ids)
    (nonempty : ids ≠ []) (waiting : batch.answered = false)
    (unsettled : batch.execution = none) (event : Event) :
    (∀ position < ids.length,
      ((batch.settlements language event).lookup position).isSome) ↔
      AnswersAll language ids event := by
  have aborts : ∀ message, ∀ position < ids.length,
      ((batch.abortions message).lookup position).isSome := by
    intro message position bound
    apply (lookup_abortions batch message position).mpr
    refine ⟨ids[position], keyed.get?_of_nodup distinct ?_⟩
    exact List.getElem?_eq_getElem bound
  have size : batch.requests.size = ids.length := by
    rw [← keys, OrderedMap.keys, List.length_map]
    rfl
  have first : 0 < ids.length := List.length_pos_of_ne_nil nonempty
  cases event with
  | timeout =>
      rw [settlements, unsettled]
      exact ⟨fun _ => trivial, fun _ => aborts _⟩
  | rejection isOperationTimeout =>
      rw [settlements, waiting, unsettled]
      cases isOperationTimeout with
      | true => exact ⟨fun _ => rfl, fun _ => aborts _⟩
      | false =>
          constructor
          · intro all
            exact absurd (all 0 first) (by simp)
          · rintro ⟨⟩
  | response elements =>
      rw [settlements, waiting, if_neg Bool.false_ne_true, size, keys]
      by_cases sizes : elements.length ≠ ids.length
      · rw [if_pos sizes]
        exact ⟨fun _ => .inl sizes, fun _ => aborts _⟩
      · rw [if_neg sizes]
        by_cases nulls : elements.any Value.isNullish = true
        · rw [if_pos nulls]
          constructor
          · intro all
            exact absurd (all 0 first) (by simp)
          · rintro (differs | ⟨noNulls, -⟩)
            · exact absurd differs sizes
            · rw [nulls] at noNulls
              cases noNulls
        · rw [if_neg nulls]
          by_cases texts : sameText (numericIds language (ids.map idValue))
              (numericIds language (elements.map (·.property "id"))) = true
          · rw [if_pos texts]
            constructor
            · intro all
              refine .inr ⟨Bool.eq_false_iff.mpr nulls, fun _ id member => ?_⟩
              obtain ⟨position, bound, ofId⟩ := List.getElem_of_mem member
              apply (lookup_responses keyed distinct elements ?_).mp
                (all position bound)
              rw [List.getElem?_eq_getElem bound, ofId]
            · rintro (differs | ⟨-, each⟩)
              · exact absurd differs sizes
              · intro position bound
                apply (lookup_responses keyed distinct elements
                  (List.getElem?_eq_getElem bound)).mpr
                exact each texts _ (List.getElem_mem bound)
          · rw [if_neg texts]
            refine ⟨fun _ => .inr ⟨Bool.eq_false_iff.mpr nulls, ?_⟩, fun _ => aborts _⟩
            exact fun now => absurd now texts

end First

section Soundness

variable {language : Language} {ids : List Id}

/-- Every resolved promise has a result under its own id from one of the
events. -/
structure Sound (ids : List Id) (events : List Event)
    (batch : BatchRequest) : Prop where
  own : ∀ {id position}, batch.requests.get? id = some position →
    ids[position]? = some id
  resolved : ∀ {position : Nat} {result : Value},
    batch.promises[position]? = some (some (Settlement.resolved result)) →
    ∃ elements response, Event.response elements ∈ events ∧
      response ∈ elements ∧ response.isResponseWithResult = true ∧
      response.responseId = ids[position]? ∧
      result = response.property "result"

theorem resolved_settlements {batch : BatchRequest} {event : Event}
    {position : Nat} {result : Value}
    (settles : (position, Settlement.resolved result) ∈
      batch.settlements language event) :
    ∃ elements response, event = .response elements ∧
      response ∈ elements ∧ response.isResponseWithResult = true ∧
      (∃ id, response.responseId = some id ∧
        batch.requests.get? id = some position) ∧
      result = response.property "result" := by
  have ofAbortions : ∀ message,
      (position, Settlement.resolved result) ∉ batch.abortions message := by
    intro message member
    obtain ⟨entry, -, same⟩ := List.mem_map.mp member
    cases same
  cases event with
  | response elements =>
      rw [settlements] at settles
      split at settles
      · cases settles
      split at settles
      · exact absurd settles (ofAbortions _)
      split at settles
      · cases settles
      split at settles
      · obtain ⟨response, member, same⟩ := List.mem_filterMap.mp settles
        obtain ⟨id, hasId, stored, ⟨isResult, value⟩ | ⟨-, -, other⟩⟩ :=
          responseSettlement_eq_some.mp same
        · cases value
          exact ⟨elements, response, rfl, member, isResult,
            ⟨id, hasId, stored⟩, rfl⟩
        · cases other
      · exact absurd settles (ofAbortions _)
  | rejection isOperationTimeout =>
      rw [settlements] at settles
      split at settles
      · cases settles
      split at settles
      · exact absurd settles (ofAbortions _)
      · cases settles
  | timeout =>
      rw [settlements] at settles
      split at settles
      · cases settles
      · exact absurd settles (ofAbortions _)

theorem Sound.step {events : List Event} {batch : BatchRequest}
    (sound : Sound ids events batch) {event : Event}
    (member : event ∈ events) :
    Sound ids events (batch.step language event) := by
  obtain ⟨answered, execution, stepped, -⟩ :=
    step_eq language batch event
  rw [stepped]
  refine ⟨sound.own, ?_⟩
  intro position result resolved
  rw [getElem?_settleAll] at resolved
  obtain ⟨promise, before, settled⟩ := Option.map_eq_some_iff.mp resolved
  cases promise with
  | some settlement =>
      cases settled
      exact sound.resolved before
  | none =>
      obtain ⟨first, rest, split, -⟩ := List.lookup_eq_some_iff.mp settled
      have settles : (position, Settlement.resolved result) ∈
          batch.settlements language event := by
        rw [split]
        simp
      obtain ⟨elements, response, rfl, isElement, isResult,
        ⟨id, hasId, stored⟩, value⟩ := resolved_settlements settles
      refine ⟨elements, response, member, isElement, isResult, ?_, value⟩
      rw [hasId, sound.own stored]

theorem Sound.run {all : List Event} {batch : BatchRequest}
    (sound : Sound ids all batch) {events : List Event}
    (members : ∀ event ∈ events, event ∈ all) :
    Sound ids all (events.foldl (BatchRequest.step language) batch) := by
  induction events generalizing batch with
  | nil => exact sound
  | cons event events induction =>
      apply induction (sound.step (members event List.mem_cons_self))
      intro other member
      exact members other (List.mem_cons_of_mem event member)

end Soundness

section Main

/-- No promise settles before the execution. -/
theorem addAll_fresh (requests : List AddedRequest) :
    ((({} : BatchRequest).addAll requests).answered = false ∧
      (({} : BatchRequest).addAll requests).execution = none) ∧
    ∀ (position : Nat) settlement,
      (({} : BatchRequest).addAll requests).promises[position]? ≠
        some (some settlement) := by
  have all : ∀ (batch : BatchRequest), batch.answered = false →
      batch.execution = none →
      (∀ (position : Nat) settlement,
        batch.promises[position]? ≠ some (some settlement)) →
      ((batch.addAll requests).answered = false ∧
        (batch.addAll requests).execution = none) ∧
      ∀ (position : Nat) settlement,
        (batch.addAll requests).promises[position]? ≠
          some (some settlement) := by
    induction requests with
    | nil => exact fun batch waiting unsettled pending =>
        ⟨⟨waiting, unsettled⟩, pending⟩
    | cons request requests induction =>
        intro batch waiting unsettled pending
        apply induction (batch.add request) waiting unsettled
        intro position settlement settled
        rw [add, List.getElem?_append] at settled
        split at settled
        · exact pending position settlement settled
        · rw [List.getElem?_singleton] at settled
          split at settled
          · cases settled
          · cases settled
  apply all {} rfl rfl
  intro position settlement settled
  cases settled

theorem wellKeyed_added (added : List AddedRequest) :
    WellKeyed (added.map AddedRequest.payloadId)
      (({} : BatchRequest).addAll added) := by
  have keyed : WellKeyed [] ({} : BatchRequest) :=
    { length := rfl, own := fun found => by cases found
      present := fun id member => by cases member }
  exact keyed.addAll added

theorem size_added {added : List AddedRequest} (nonempty : added ≠ []) :
    (({} : BatchRequest).addAll added).requests.size ≠ 0 := by
  obtain ⟨request, others, rfl⟩ := List.exists_cons_of_ne_nil nonempty
  have stored := (wellKeyed_added (request :: others)).present
    request.payloadId (by simp)
  intro empty
  have none : (({} : BatchRequest).addAll
      (request :: others)).requests.entries = [] :=
    List.length_eq_zero_iff.mp empty
  rw [OrderedMap.get?, none] at stored
  cases stored

/-- After the first event, the promises that it has settlements for are
settled for good. -/
theorem settled_execute (language : Language) {added : List AddedRequest}
    (nonempty : added ≠ []) (first : Event) (rest : List Event) :
    (execute language (addAll {} added) (first :: rest)).execution.isSome ∧
      ∀ position < added.length,
        (execute language (addAll {} added) (first :: rest)).Settled
            position ↔
          (((addAll {} added).settlements language first).lookup
            position).isSome := by
  obtain ⟨⟨waiting, unsettled⟩, pending⟩ := addAll_fresh added
  have keyed := wellKeyed_added added
  rw [execute, if_neg (size_added nonempty), List.foldl_cons]
  obtain ⟨quiet, settled⟩ :=
    (quiet_first language waiting unsettled first).run language rest
  refine ⟨quiet.executed, ?_⟩
  intro position bound
  rw [settled position, settled_step]
  have inRange : position < (({} : BatchRequest).addAll added).promises.length := by
    rw [keyed.length, List.length_map]
    exact bound
  constructor
  · rintro (⟨settlement, before⟩ | ⟨-, settles⟩)
    · exact absurd before (pending position settlement)
    · exact settles
  · exact fun settles => .inr ⟨inRange, settles⟩

/-- Resolved promises have a result under their own ids. -/
theorem sound_execute (language : Language) (added : List AddedRequest)
    (events : List Event) :
    Sound (added.map AddedRequest.payloadId) events
      (execute language (addAll {} added) events) := by
  have start : Sound (added.map AddedRequest.payloadId) events
      (addAll {} added) := by
    refine ⟨(wellKeyed_added added).own, ?_⟩
    intro position result resolved
    exact absurd resolved ((addAll_fresh added).2 position _)
  rw [execute]
  split
  · exact ⟨start.own, start.resolved⟩
  · exact start.run fun event member => member

/-- When the execution has settled, every promise has, and the resolved ones
have a result under their own ids, exactly where the ids are distinct and the
first event answers all of them. -/
theorem execute_complete (language : Language) (added : List AddedRequest)
    (events : List Event) :
    (((execute language (addAll {} added) events).execution.isSome →
        ∀ position < added.length,
          (execute language (addAll {} added) events).Settled position) ∧
      ∀ (position : Nat) (result : Value),
        (execute language (addAll {} added) events).promises[position]? =
          some (some (.resolved result)) →
        ∃ elements response, Event.response elements ∈ events ∧
          response ∈ elements ∧ response.isResponseWithResult = true ∧
          response.responseId =
            (added.map AddedRequest.payloadId)[position]? ∧
          result = response.property "result") ↔
    (added ≠ [] → ∀ event, events.head? = some event →
      (added.map AddedRequest.payloadId).Nodup ∧
        AnswersAll language (added.map AddedRequest.payloadId) event) := by
  have sound := sound_execute language added events
  have keyed := wellKeyed_added added
  obtain ⟨⟨waiting, unsettled⟩, -⟩ := addAll_fresh added
  constructor
  · rintro ⟨complete, -⟩ nonempty event isFirst
    obtain ⟨rest, rfl⟩ : ∃ rest, events = event :: rest :=
      List.head?_eq_some_iff.mp isFirst
    obtain ⟨executed, settled⟩ :=
      settled_execute language nonempty event rest
    have all : ∀ position < (added.map AddedRequest.payloadId).length,
        (((addAll {} added).settlements language event).lookup
          position).isSome := by
      intro position bound
      rw [List.length_map] at bound
      exact (settled position bound).mp (complete executed position bound)
    have distinct : (added.map AddedRequest.payloadId).Nodup := by
      by_contra repeated
      obtain ⟨position, bound, lost⟩ := keyed.exists_lost repeated
      obtain ⟨settlement, found⟩ :=
        Option.isSome_iff_exists.mp (all position bound)
      obtain ⟨before, after, split, -⟩ := List.lookup_eq_some_iff.mp found
      have settles : (position, settlement) ∈
          (addAll {} added).settlements language event := by
        rw [split]
        simp
      obtain ⟨id, stored⟩ := lookup_settlements settles
      exact lost id stored
    refine ⟨distinct, ?_⟩
    apply (settlements_complete keyed distinct (keys_addAll (by simpa))
      (by simpa using nonempty) waiting unsettled event).mp all
  · intro condition
    refine ⟨?_, fun position result => sound.resolved⟩
    intro executed position bound
    have nonempty : added ≠ [] := List.ne_nil_of_length_pos (by omega)
    cases events with
    | nil =>
        rw [execute, if_neg (size_added nonempty), List.foldl_nil,
          unsettled] at executed
        cases executed
    | cons event rest =>
        obtain ⟨distinct, answers⟩ := condition nonempty event rfl
        apply ((settled_execute language nonempty event rest).2
          position bound).mpr
        apply (settlements_complete keyed distinct (keys_addAll (by simpa))
          (by simpa using nonempty) waiting unsettled event).mpr answers
        rw [List.length_map]
        exact bound

/-- The result `value` of the request with a string id. -/
def resultOf (id value : String) : Value :=
  .object false
    [("jsonrpc", .string "2.0"), ("id", .string id), ("result", .string value)]

/-- The execution settles and a promise does not: the second response carries
an id of no request, the sending is rejected, or two requests share an id. -/
theorem execute_violated :
    ((execute .trivial
        (addAll {} [⟨none, .string "a"⟩, ⟨none, .string "b"⟩])
        [.response [resultOf "a" "x", resultOf "c" "y"]]).execution.isSome ∧
      (execute .trivial
        (addAll {} [⟨none, .string "a"⟩, ⟨none, .string "b"⟩])
        [.response [resultOf "a" "x", resultOf "c" "y"]]).promises[1]? =
        some none) ∧
    ((execute .trivial (addAll {} [⟨none, .string "a"⟩])
        [.rejection false]).execution.isSome ∧
      (execute .trivial (addAll {} [⟨none, .string "a"⟩])
        [.rejection false]).promises[0]? = some none) ∧
    ((execute .trivial
        (addAll {} [⟨some (.string "a"), .string "b"⟩,
          ⟨some (.string "a"), .string "c"⟩])
        [.timeout]).execution.isSome ∧
      (execute .trivial
        (addAll {} [⟨some (.string "a"), .string "b"⟩,
          ⟨some (.string "a"), .string "c"⟩])
        [.timeout]).promises[0]? = some none) :=
  ⟨⟨rfl, rfl⟩, ⟨rfl, rfl⟩, ⟨rfl, rfl⟩⟩

end Main

end Web3Js.Core.BatchRequest
