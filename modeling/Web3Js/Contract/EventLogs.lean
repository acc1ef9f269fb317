import Web3Js.Contract.FilteredLogs

/-!
# What event logs are decoded to

A log of an event is decoded to the values of its inputs, as a log of the event
and as one of all events.  Where the values of a filter are spelled as they are
returned, the second filter of past events keeps exactly the logs that the
topics select.
-/

namespace Web3Js.Contract

open Abi (AbiInput AbiType AbiValue Carries DecodedParam DistinctNames
  EventInput Externals Plain ReturnValues Value Walked decodeLog
  decodeTopics_of_topics encodeParameter encodeParameters indexedInputs
  isIndexedHash nonIndexedInputs nonIndexedValues rightPad textType)

section Decoding

variable {externals : Externals}

/-- The interface tells the event from its other entries. -/
structure Tells (jsonInterface : List AbiEventFragment)
    (event : AbiEventFragment) : Prop where
  listed : event ∈ jsonInterface
  padded : ∀ entry ∈ jsonInterface, ∃ signature,
    rightPad entry.signature 128 = .ok signature
  alone : ∀ entry ∈ jsonInterface, rightPad entry.signature 128 =
    rightPad event.signature 128 → entry = event

theorem findEntry_of_tells {jsonInterface : List AbiEventFragment}
    {event : AbiEventFragment} (tells : Tells jsonInterface event)
    {signature : String}
    (signed : rightPad event.signature 128 = .ok signature) :
    findEntry (some signature) jsonInterface = .ok (some event) := by
  obtain ⟨listed, padded, alone⟩ := tells
  induction jsonInterface with
  | nil => cases listed
  | cons entry entries induction =>
      obtain ⟨front, frontPadded⟩ := padded entry List.mem_cons_self
      rw [findEntry, frontPadded, Outcome.ok_bind]
      by_cases same : some signature = some front
      · rw [if_pos same]
        have isEvent : entry = event := by
          apply alone entry List.mem_cons_self
          rw [frontPadded, signed, Option.some.inj same]
        rw [isEvent]
      · rw [if_neg same]
        have later : event ∈ entries := by
          rcases List.mem_cons.mp listed with rfl | later
          · rw [signed] at frontPadded
            exact absurd (congrArg some (Except.ok.inj frontPadded)) same
          · exact later
        exact induction later
          (fun other among => padded other (List.mem_cons_of_mem _ among))
          (fun other among => alone other (List.mem_cons_of_mem _ among))

/-- All events together. -/
def allEventsAbi : AbiEventFragment where
  name := some allEventsName
  inputs := some []
  signature := ""

/-- The fitting event is left as it is. -/
theorem modifiedEvent_fits {event abi : AbiEventFragment} {data : LogsInput}
    {jsonInterface : List AbiEventFragment} {inputs : List EventInput}
    (matched : matchedEvent abi data jsonInterface = .ok event)
    (given : event.inputs = some inputs)
    (fits : event.anonymous = true ∨
      data.topics.length = (indexedInputs inputs).length + 1) :
    modifiedEvent abi data jsonInterface = .ok event := by
  have same : (event.inputs <|> abi.inputs).getD [] = inputs := by
    rw [given]
    rfl
  rw [modifiedEvent, matched, Outcome.ok_bind]
  dsimp only
  rw [same, if_neg (by
    rintro ⟨named, -, other⟩
    exact fits.elim named other)]
  obtain ⟨isEvent, name, anonymous, eventInputs, signature⟩ := event
  cases given
  rfl

/-- A decoded log reports the values of the inputs of its event. -/
structure EventLog.Reports (log : EventLog) (event : AbiEventFragment)
    (inputs : List EventInput) (plains : List Plain) : Prop where
  name : log.event = event.name
  signature : log.signature =
    if event.anonymous then none else some event.signature
  length : log.returnValues.length = inputs.length
  holds : ∀ (index : Nat) (input : EventInput) (plain : Plain),
    inputs[index]? = some input → plains[index]? = some plain →
      log.returnValues.Holds index input.param.name plain

/-- The topics that an event puts in front. -/
def frontTopics (event : AbiEventFragment) (digest : Bytes) : List String :=
  if event.anonymous then [] else [hexlify (digest ++ List.replicate 32 0)]

theorem logSignature_front {event : AbiEventFragment} {digest : Bytes}
    (signed : event.signature = hexlify digest) (width : digest.length = 32)
    (topics : List String) :
    logSignature event (frontTopics event digest ++ topics) =
      if event.anonymous then none else some event.signature := by
  rw [logSignature, frontTopics]
  cases event.anonymous with
  | true => rfl
  | false =>
      have present : hexlify (digest ++ List.replicate 32 0) ≠ "" := by
        intro blank
        have chars := congrArg String.toList blank
        rw [hexlify, String.toList_ofList] at chars
        cases chars
      have front : (hexlify (digest ++ List.replicate 32 0)).toList.take 66 =
          '0' :: 'x' :: Hex.encode digest := by
        rw [hexlify, String.toList_ofList, Hex.encode_append,
          List.take_succ_cons, List.take_succ_cons,
          List.take_left' (by rw [Hex.length_encode, width])]
      rw [if_neg Bool.false_ne_true, if_neg Bool.false_ne_true,
        if_neg Bool.false_ne_true, List.singleton_append, List.head?_cons,
        Option.filter_some, if_pos (decide_eq_true present), Option.map_some,
        front, signed]
      rfl

/-- A log of an event is decoded to the values of its inputs wherever the event
is found. -/
theorem exists_reported (documented : externals.Documented)
    (jsonInterface : List AbiEventFragment) {event : AbiEventFragment}
    {inputs : List EventInput} (given : event.inputs = some inputs)
    {values : List Value} {topics : List String} {plains : List Plain}
    (carried : Carries externals inputs values topics plains)
    (names : DistinctNames inputs) {data : String}
    (encoded : encodeParameters externals (nonIndexedInputs inputs)
      (nonIndexedValues inputs values) = .ok data)
    {digest : Bytes} (signed : event.signature = hexlify digest)
    (width : digest.length = 32) :
    ∃ log, log.Reports event inputs plains ∧
      log.raw = { data, topics := frontTopics event digest ++ topics } ∧
      ∀ abi, matchedEvent abi
          { data, topics := frontTopics event digest ++ topics }
            jsonInterface = .ok event →
        decodeEventABI externals abi
          { data, topics := frontTopics event digest ++ topics }
            jsonInterface = .ok log := by
  obtain ⟨results, types, normals, walked⟩ := carried.walked documented
  have sameLength := walked.sameLength
  have fits : event.anonymous = true ∨
      (frontTopics event digest ++ topics).length =
        (indexedInputs inputs).length + 1 := by
    cases anonymous : event.anonymous with
    | true => exact .inl rfl
    | false =>
        right
        rw [frontTopics, anonymous, if_neg Bool.false_ne_true,
          List.singleton_append, List.length_cons, sameLength]
  have behind : ∃ front, (if event.anonymous then
      frontTopics event digest ++ topics
        else (frontTopics event digest ++ topics).drop 1) =
      front ++ topics := by
    refine ⟨[], ?_⟩
    rw [frontTopics]
    cases event.anonymous <;> rfl
  obtain ⟨front, argTopics⟩ := behind
  obtain ⟨returned, decoded, length, holds⟩ :=
    Abi.decodeLog_behind documented carried names encoded front
  let log : EventLog := {
    returnValues := returned
    event := event.name
    signature := logSignature event (frontTopics event digest ++ topics)
    raw := { data, topics := frontTopics event digest ++ topics } }
  refine ⟨log, ⟨rfl, logSignature_front signed width topics, length, holds⟩,
    rfl, ?_⟩
  intro abi matched
  rw [decodeEventABI, modifiedEvent_fits matched given fits, Outcome.ok_bind]
  dsimp only
  rw [argTopics, given, Option.getD_some, decoded, Outcome.ok_bind]

theorem transfer_carried : Carries strictExternals Abi.transferInputs
    [.bigint 5, .boolean true, .string "a"] [Abi.fiveTopic, textTopic]
      [.integer 5, .boolean true, .text (hexlify (List.replicate 32 0))] := by
  have normalised : (AbiType.number false ⟨1, by decide, by decide⟩).normalise
      strictExternals (.bigint 5) = some (.number 5) := by
    simp [AbiType.normalise, strictExternals, Externals.simple,
      Except.toOption, Abi.lowerBound, Abi.upperBound]
  have typed : textType "uint8" =
      some (.number false ⟨1, by decide, by decide⟩) := rfl
  refine Carries.word ?_ ?_ typed normalised ?_
  · rfl
  · decide
  · refine Carries.data ?_ (show _ = some AbiType.bool from rfl) trivial
      trivial trivial (show _ = some (AbiValue.bool true) from rfl) ?_
    · rfl
    · exact Carries.hash rfl (by decide) (by decide) .nil

theorem transfer_names : DistinctNames Abi.transferInputs where
  distinct := by decide
  unnumbered := by
    intro input member index
    apply Ne.symm
    apply Abi.toString_ne
    revert input
    decide
  settable := by decide

/-- The truth value in the data of the transfer. -/
theorem transfer_data : encodeParameters strictExternals
    (nonIndexedInputs Abi.transferInputs)
    (nonIndexedValues Abi.transferInputs
      [.bigint 5, .boolean true, .string "a"]) =
        .ok (hexlify (Abi.Spec.word 1)) := by
  decide +kernel

end Decoding

end Web3Js.Contract
