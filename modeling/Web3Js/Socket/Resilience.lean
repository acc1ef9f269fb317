import Web3Js.Socket.Correlation

/-!
# What a peer can make the message loop throw

The predicates of the loop read properties of what a peer sent.  They throw on
a notification whose method is no text and on an array with `null` behind
single responses only; without such a message the loop runs to its end and
settles every request that a response addresses.
-/

namespace Web3Js.Socket

namespace Json

/-- What the loop cannot read. -/
inductive Harmful : Json → Prop
  | method {response : Json}
      (notification : response.isResponseWithNotification = true)
      (noText : ∀ text, response.property "method" ≠ some (.string text)) :
      Harmful response
  | element {front rest : List Json}
      (responses : ∀ element ∈ front, element.isSingleResponse = true) :
      Harmful (.array (front ++ .null :: rest))

/-- A result, an error or a batch of these, and no subscription. -/
structure WellFormed (response : Json) : Prop where
  valid : response.isSingleResponse = true ∨
    response.isBatchResponse = some true
  noSubscription : Provider.isSubscription response ≠ some true

/-- The id of a response, for a batch that of its first element. -/
def carriedId : Json → Option RequestId
  | .array (first :: _) => first.responseId
  | response => response.responseId

end Json

namespace Provider

/-- Whether an exception leaves the loop over the responses. -/
def responsesThrow : List Json → Bool
  | [] => false
  | response :: responses =>
      match route response with
      | .thrown => true
      | .skipped | .addressed _ _ => responsesThrow responses

section Routes

theorem validateResponse_eq_none {response : Json} :
    response.validateResponse = none ↔ response = .null := by
  constructor
  · intro unread
    cases response with
    | null => rfl
    | boolean | number | string | array | object =>
        unfold Json.validateResponse at unread
        split at unread
        · cases unread
        · cases unread
  · rintro rfl
    rfl

theorem everyValid_eq_none {responses : List Json} :
    Json.everyValid responses = none ↔
      ∃ front rest, responses = front ++ .null :: rest ∧
        ∀ element ∈ front, element.isSingleResponse = true := by
  induction responses with
  | nil =>
      constructor
      · intro unread
        cases unread
      · rintro ⟨front, rest, empty, -⟩
        exact absurd empty.symm (by simp)
  | cons response responses induction =>
      rw [Json.everyValid]
      cases valid : response.validateResponse with
      | none =>
          obtain rfl := validateResponse_eq_none.mp valid
          exact ⟨fun _ => ⟨[], responses, rfl, by simp⟩, fun _ => rfl⟩
      | some accepted =>
          have present : response ≠ .null := by
            rintro rfl
            cases valid
          cases accepted with
          | false =>
              constructor
              · intro unread
                cases unread
              · rintro ⟨front, rest, whole, singles⟩
                cases front with
                | nil => exact absurd (List.cons.inj whole).1 present
                | cons first front =>
                    obtain ⟨rfl, -⟩ := List.cons.inj whole
                    have single := singles response List.mem_cons_self
                    rw [Json.isSingleResponse, valid] at single
                    cases single
          | true =>
              dsimp only
              rw [induction]
              constructor
              · rintro ⟨front, rest, rfl, singles⟩
                refine ⟨response :: front, rest, rfl, ?_⟩
                intro element member
                rcases List.mem_cons.mp member with rfl | later
                · rw [Json.isSingleResponse, valid]
                  rfl
                · exact singles element later
              · rintro ⟨front, rest, whole, singles⟩
                cases front with
                | nil => exact absurd (List.cons.inj whole).1 present
                | cons first front =>
                    obtain ⟨rfl, others⟩ := List.cons.inj whole
                    exact ⟨front, rest, others, fun element member =>
                      singles element (List.mem_cons_of_mem response member)⟩

theorem isBatchResponse_eq_none {response : Json} :
    response.isBatchResponse = none ↔
      ∃ front rest, response = .array (front ++ .null :: rest) ∧
        ∀ element ∈ front, element.isSingleResponse = true := by
  cases response with
  | array elements =>
      cases elements with
      | nil => simp [Json.isBatchResponse]
      | cons first others =>
          rw [Json.isBatchResponse, everyValid_eq_none]
          simp only [Json.array.injEq]
          exact List.cons_ne_nil _ _
  | null | boolean | number | string | object =>
      simp [Json.isBatchResponse]

theorem isSubscription_eq_none {response : Json} :
    isSubscription response = none ↔
      response.isResponseWithNotification = true ∧
        ∀ text, response.property "method" ≠ some (.string text) := by
  unfold isSubscription
  split
  · rename_i notification
    split
    · rename_i text found
      constructor
      · intro unread
        cases unread
      · intro harmful
        exact absurd found (harmful.2 text)
    · rename_i noText
      exact ⟨fun _ => ⟨notification, fun text found => noText text found⟩,
        fun _ => rfl⟩
  · rename_i other
    constructor
    · intro unread
      cases unread
    · intro harmful
      exact absurd harmful.1 other

/-- The loop throws on what is harmful, and on nothing else. -/
theorem route_thrown_iff {response : Json} :
    route response = .thrown ↔ response.Harmful := by
  have cases : route response = .thrown ↔
      isSubscription response = none ∨
        isSubscription response = some false ∧
          response.isBatchResponse = none := by
    unfold route
    split
    · rename_i unread
      simp [unread]
    · rename_i subscription
      simp [subscription]
    · rename_i other
      split
      · rename_i unread
        simp [other, unread]
      · rename_i isBatch batch
        split
        · simp [other, batch]
        · simp [other, batch]
  rw [cases]
  constructor
  · rintro (unread | ⟨-, unread⟩)
    · obtain ⟨notification, noText⟩ := isSubscription_eq_none.mp unread
      exact .method notification noText
    · obtain ⟨front, rest, rfl, singles⟩ := isBatchResponse_eq_none.mp unread
      exact .element singles
  · rintro (⟨notification, noText⟩ | @⟨front, rest, singles⟩)
    · exact .inl (isSubscription_eq_none.mpr ⟨notification, noText⟩)
    · refine .inr ⟨rfl, ?_⟩
      exact isBatchResponse_eq_none.mpr ⟨front, rest, rfl, singles⟩

theorem truthy_of_harmful {response : Json} (harmful : response.Harmful) :
    response.truthy = true := by
  cases harmful with
  | element => rfl
  | method notification noText =>
      simp only [Json.isResponseWithNotification, Bool.and_eq_true]
        at notification
      exact notification.1.1.1.2

theorem responsesThrow_iff {responses : List Json} :
    responsesThrow responses = false ↔
      ∀ response ∈ responses, ¬response.Harmful := by
  induction responses with
  | nil => simp [responsesThrow]
  | cons response responses induction =>
      rw [responsesThrow, List.forall_mem_cons, ← route_thrown_iff]
      cases routed : route response with
      | thrown => simp
      | skipped =>
          dsimp only
          rw [induction]
          simp
      | addressed id isBatch =>
          dsimp only
          rw [induction]
          simp

/-- A well-formed response with an id is looked up under it. -/
theorem route_of_wellFormed {response : Json}
    (wellFormed : response.WellFormed) (harmless : ¬response.Harmful)
    {id : RequestId} (carried : response.carriedId = some id) :
    ∃ isBatch, route response = .addressed id isBatch := by
  have quiet : isSubscription response = some false := by
    cases subscription : isSubscription response with
    | none =>
        obtain ⟨notification, noText⟩ :=
          isSubscription_eq_none.mp subscription
        exact absurd (.method notification noText) harmless
    | some isNotification =>
        cases isNotification with
        | false => rfl
        | true => exact absurd subscription wellFormed.noSubscription
  cases batch : response.isBatchResponse with
  | none =>
      obtain ⟨front, rest, rfl, singles⟩ := isBatchResponse_eq_none.mp batch
      exact absurd (.element singles) harmless
  | some isBatch =>
      refine ⟨isBatch, ?_⟩
      have looked : addressedId response isBatch = some id := by
        rw [← carried]
        cases isBatch with
        | true =>
            obtain ⟨first, others, rfl, -⟩ := isBatchResponse_eq_true batch
            rfl
        | false =>
            have single : response.isSingleResponse = true := by
              rcases wellFormed.valid with single | valid
              · exact single
              · rw [batch] at valid
                cases valid
            cases response with
            | array elements => nomatch single
            | null | boolean | number | string | object => rfl
      rw [route, quiet]
      dsimp only
      rw [batch]
      dsimp only
      rw [looked]

end Routes

section Loop

variable {config : Config} {provider : Provider}

/-- Some response is the first one to address an item that one addresses. -/
theorem exists_reaches {sent : OrderedMap RequestId Nat} {key : Nat}
    {responses : List Json}
    (quiet : ∀ response ∈ responses, route response ≠ .thrown)
    {response : Json} (member : response ∈ responses)
    (addresses : Addresses sent key response) :
    ∃ first, Reaches sent key first responses := by
  induction responses with
  | nil => nomatch member
  | cons head responses induction =>
      by_cases here : Addresses sent key head
      · exact ⟨head, .here here⟩
      · have later : response ∈ responses := by
          rcases List.mem_cons.mp member with rfl | later
          · exact absurd addresses here
          · exact later
        obtain ⟨first, reaches⟩ := induction
          (fun other otherMember =>
            quiet other (List.mem_cons_of_mem head otherMember)) later
        exact ⟨first, .later (quiet head List.mem_cons_self) here reaches⟩

/-- The request that an id in flight belongs to is settled. -/
theorem Consistent.settled_of_wellFormed
    (consistent : provider.Consistent config) {responses : List Json}
    (harmless : ∀ response ∈ responses, ¬response.Harmful)
    {response : Json} (member : response ∈ responses)
    (wellFormed : response.WellFormed) {id : RequestId}
    (carried : response.carriedId = some id) {key : Nat}
    (inFlight : provider.sentRequestsQueue.get? id = some key) :
    ∃ item, (provider.handleResponses responses).items[key]? = some item ∧
      item.settlements.length = 1 := by
  obtain ⟨item, found, -, -⟩ := consistent.sentOwned id key inFlight
  obtain ⟨isBatch, routed⟩ :=
    route_of_wellFormed wellFormed (harmless response member) carried
  obtain ⟨first, reaches⟩ := exists_reaches
    (fun other otherMember thrown =>
      harmless other otherMember (route_thrown_iff.mp thrown)) member
    ⟨id, isBatch, routed, inFlight⟩
  obtain ⟨firstId, firstBatch, -, -, isOpen, settled⟩ :=
    consistent.handleResponses_reached found reaches
  exact ⟨_, settled, (isOpen.settle_closed _).once⟩

end Loop

section Results

/-- The handler returns, and every response of the event whose id is in flight
settles the request. -/
def Resilient (config : Config) (provider : Provider) (parsed : List Json) :
    Prop :=
  responsesThrow (parsed.filter Json.truthy) = false ∧
    ∀ response ∈ parsed, response.WellFormed →
      ∀ id key, response.carriedId = some id →
        provider.sentRequestsQueue.get? id = some key →
          ∃ item, (provider.onMessage config parsed).items[key]? =
            some item ∧ item.settlements.length = 1

theorem truthy_of_wellFormed {response : Json}
    (wellFormed : response.WellFormed) : response.truthy = true := by
  cases response with
  | array | object => rfl
  | null | boolean | number | string =>
      rcases wellFormed.valid with single | batch
      · simp [Json.isSingleResponse, Json.validateResponse,
          Json.isResponseWithResult, Json.isResponseWithError, Json.property,
          Json.isVersion2] at single
      · cases batch

/-- A notification whose method is a number, before the response to the
request with the id 1. -/
def numberedMethod : List Json :=
  [.object [("jsonrpc", .string "2.0"), ("method", .number 5),
      ("params", .object [])], replyOne]

end Results

end Provider

end Web3Js.Socket
