import Web3Js.Lib.Invariant
import Web3Js.Socket.Provider
import Web3Js.Socket.Framing

/-!
# The provider and its parser

A socket hands the text of each event to the parser, and the provider takes
the values that come of it.  Nothing else that happens to the provider reaches
the parser, so what it returns depends on the received text and on what it has
kept alone.
-/

namespace Web3Js.Socket

open JsonText

/-- How the literals of a text become values. -/
structure Reading where
  number : Text → ℚ
  string : Text → String

namespace Reading

variable (reading : Reading)

mutual

/-- The value of a tree; of the members of one name the last counts. -/
def read : Tree → Json
  | .null => .null
  | .boolean value => .boolean value
  | .number literal => .number (reading.number literal)
  | .string content => .string (reading.string content)
  | .array elements => .array (readElements elements)
  | .object members => .object (readMembers members).reverse

def readElements : List Tree → List Json
  | [] => []
  | tree :: trees => read tree :: readElements trees

def readMembers : List (Text × Tree) → List (String × Json)
  | [] => []
  | (name, tree) :: members =>
      (reading.string name, read tree) :: readMembers members

end

end Reading

structure Receiver where
  provider : Provider
  parser : ChunkResponseParser

namespace Receiver

inductive ReceiverAction
  /-- The socket receives a text. -/
  | data (text : Text)
  /-- The timer of an incomplete chunk fires. -/
  | chunkTimeout
  /-- Anything else that happens to the provider. -/
  | other (action : Provider.Action)

section Steps

variable (config : Config) (reading : Reading)
  (errorListened : Bool)

/-- `_onMessage`, with the parser that it asks; an error of the parser clears
the queues. -/
def receive (receiver : Receiver) (text : Text) : Receiver :=
  let parsed := receiver.parser.parseResponse errorListened text
  let provider := Nat.iterate Provider.clearQueues parsed.clearings
    receiver.provider
  match parsed.returnValues with
  | none => { provider, parser := parsed.parser }
  | some values =>
      { provider := provider.onMessage config (values.map reading.read)
        parser := parsed.parser }

def chunkTimeout (receiver : Receiver) : Receiver :=
  if receiver.parser.timerRunning then
    let (parser, clears) := receiver.parser.chunkTimeout
    { provider :=
        if clears then receiver.provider.clearQueues else receiver.provider
      parser }
  else receiver

def step (receiver : Receiver) : ReceiverAction → Receiver
  | .data text => receiver.receive config reading errorListened text
  | .chunkTimeout => receiver.chunkTimeout
  | .other action =>
      { receiver with provider := receiver.provider.step config action }

/-- What `parseResponse` returns over a run; `none` if it throws. -/
def returned : Receiver → List ReceiverAction → Option (List Tree)
  | _, [] => some []
  | receiver, action :: actions =>
      let rest := returned (receiver.step config reading errorListened action)
        actions
      match action with
      | .data text =>
          (receiver.parser.parseResponse errorListened text).returnValues.bind
            fun values => rest.map (values ++ ·)
      | .chunkTimeout | .other _ => rest

/-- The texts of the events. -/
def received : List ReceiverAction → List Text
  | [] => []
  | .data text :: actions => text :: received actions
  | .chunkTimeout :: actions | .other _ :: actions => received actions

end Steps

section Kept

variable {config : Config} {reading : Reading}
  {errorListened : Bool} {receiver : Receiver}

theorem parser_receive (receiver : Receiver) (text : Text) :
    (receiver.receive config reading errorListened text).parser =
      (receiver.parser.parseResponse errorListened text).parser := by
  unfold receive
  dsimp only
  split <;> rfl

theorem kept_chunkTimeout (receiver : Receiver) :
    receiver.chunkTimeout.parser.kept = receiver.parser.kept := by
  unfold chunkTimeout
  split <;> rfl

theorem feed_marks_cons {limit : Nat} {pending text : Text}
    {texts : List Text} {fed : Fed}
    (isFed : feed limit pending (cuts .plain (marks (text :: texts))) =
      some fed) :
    ∃ first rest,
      feed limit pending (cuts .plain (marks [text])) = some first ∧
        feed limit first.kept (cuts .plain (marks texts)) = some rest ∧
        fed = first.andThen rest := by
  rw [← List.singleton_append, marks_append, cuts_marks_append,
    feed_append] at isFed
  obtain ⟨first, isFirst, later⟩ := Option.bind_eq_some_iff.mp isFed
  obtain ⟨rest, isRest, same⟩ := Option.map_eq_some_iff.mp later
  exact ⟨first, rest, isFirst, isRest, same.symm⟩

theorem parseResponse_gives (errorListened : Bool)
    {parser : ChunkResponseParser} {text : Text}
    {fed : Fed} (isFed : feed maxChunkBytes parser.kept
      (cuts .plain (marks [text])) = some fed) :
    ChunkResponseParser.Gives (parser.parseResponse errorListened text)
      fed := by
  rw [← marks_dechunk, List.flatMap_singleton] at isFed
  exact ChunkResponseParser.parsePieces_gives errorListened isFed

/-- Whatever else happens, the received text and what was kept before decide
what is returned. -/
theorem returned_of_feed (config : Config) (reading : Reading)
    (errorListened : Bool) {receiver : Receiver}
    {actions : List ReceiverAction} {fed : Fed}
    (isFed : feed maxChunkBytes receiver.parser.kept
      (cuts .plain (marks (received actions))) = some fed) :
    returned config reading errorListened receiver actions =
        some fed.values ∧
      (Web3Js.run (step config reading errorListened) receiver
        actions).parser.kept = fed.kept := by
  induction actions generalizing receiver fed with
  | nil =>
      rw [received, marks, List.flatMap_nil, cuts_nil] at isFed
      cases isFed
      exact ⟨rfl, rfl⟩
  | cons action actions induction =>
      rw [Web3Js.run, List.foldl_cons]
      cases action with
      | data text =>
          obtain ⟨first, rest, isFirst, isRest, rfl⟩ := feed_marks_cons isFed
          have gives := parseResponse_gives errorListened isFirst
          have kept : (receiver.step config reading errorListened
              (.data text)).parser.kept = first.kept := by
            rw [← gives.kept]
            exact congrArg _ (parser_receive receiver text)
          rw [← kept] at isRest
          obtain ⟨values, last⟩ := induction isRest
          refine ⟨?_, last⟩
          rw [returned, gives.returnValues, values]
          rfl
      | chunkTimeout =>
          have kept : (receiver.step config reading errorListened
              .chunkTimeout).parser.kept = receiver.parser.kept :=
            kept_chunkTimeout receiver
          rw [← kept] at isFed
          exact induction isFed
      | other action => exact induction isFed

end Kept

end Receiver

end Web3Js.Socket
