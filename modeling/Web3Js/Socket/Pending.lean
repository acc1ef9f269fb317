import Mathlib.Data.List.ReduceOption
import Web3Js.Lib.JsonContent
import Web3Js.Socket.Cuts

/-!
# What the chunk parser keeps

The pieces are read as one stream of marked units.  At each mark what is kept
is given up if it is too long and taken off if it is a document.
-/

namespace Web3Js.Socket

open JsonText

/-! ## Reading a stream -/

/-- The values of a stream, and what is kept at its end. -/
structure Fed where
  values : List Tree
  kept : Text

namespace Fed

def andThen (first rest : Fed) : Fed :=
  ⟨first.values ++ rest.values, rest.kept⟩

theorem andThen_assoc (first second third : Fed) :
    (first.andThen second).andThen third =
      first.andThen (second.andThen third) := by
  unfold andThen
  rw [List.append_assoc]

end Fed

/-- A mark is reached. -/
def endPiece (limit : Nat) (pending : Text) : Option Fed :=
  if limit < pending.length then none
  else
    match parse pending with
    | none => some ⟨[], pending⟩
    | some result => some ⟨if isTruthy result then [result] else [], []⟩

/-- `none` when what is kept grows too long. -/
def feed (limit : Nat) (pending : Text) : Marked → Option Fed
  | [] => some ⟨[], pending⟩
  | some read :: stream => feed limit (pending ++ [read]) stream
  | none :: stream =>
      (endPiece limit pending).bind fun first =>
        (feed limit first.kept stream).map first.andThen

section Feeding

variable {limit : Nat} {pending : Text}

theorem feed_nil (limit : Nat) (pending : Text) :
    feed limit pending [] = some ⟨[], pending⟩ := rfl

theorem feed_units (text : Text) (stream : Marked) :
    feed limit pending (text.map some ++ stream) =
      feed limit (pending ++ text) stream := by
  induction text generalizing pending with
  | nil => rw [List.map_nil, List.nil_append, List.append_nil]
  | cons read text induction =>
      rw [List.map_cons, List.cons_append, feed, induction,
        List.append_assoc, List.singleton_append]

theorem feed_mark (stream : Marked) :
    feed limit pending (none :: stream) =
      (endPiece limit pending).bind fun first =>
        (feed limit first.kept stream).map first.andThen := rfl

theorem feed_append (stream more : Marked) :
    feed limit pending (stream ++ more) =
      (feed limit pending stream).bind fun first =>
        (feed limit first.kept more).map first.andThen := by
  induction stream generalizing pending with
  | nil =>
      rw [List.nil_append, feed_nil, Option.bind_some]
      exact (Option.map_id').symm
  | cons entry stream induction =>
      cases entry with
      | some read => exact induction
      | none =>
          rw [List.cons_append, feed_mark, feed_mark, Option.bind_assoc]
          apply congrArg
          funext first
          rw [induction, Option.map_bind, Option.bind_map]
          apply congrArg
          funext second
          rw [Function.comp_apply, Function.comp_apply, Option.map_map]
          apply congrArg (fun joined => Option.map joined _)
          funext third
          exact (Fed.andThen_assoc first second third).symm

theorem feed_after {first : Fed} {stream : Marked}
    (fed : feed limit pending stream = some first) (more : Marked) :
    feed limit pending (stream ++ more) =
      (feed limit first.kept more).map first.andThen := by
  rw [feed_append, fed, Option.bind_some]

/-- What is not a document yet is kept. -/
theorem endPiece_kept (fits : pending.length ≤ limit)
    (unfinished : parse pending = none) :
    endPiece limit pending = some ⟨[], pending⟩ := by
  rw [endPiece, if_neg (Nat.not_lt.mpr fits), unfinished]

theorem endPiece_parsed (fits : pending.length ≤ limit) {tree : Tree}
    (parsed : parse pending = some tree) (truthy : isTruthy tree = true) :
    endPiece limit pending = some ⟨[tree], []⟩ := by
  rw [endPiece, if_neg (Nat.not_lt.mpr fits), parsed]
  dsimp only
  rw [if_pos truthy]

theorem feed_mark_kept (fits : pending.length ≤ limit)
    (unfinished : parse pending = none) (stream : Marked) :
    feed limit pending (none :: stream) = feed limit pending stream := by
  rw [feed_mark, endPiece_kept fits unfinished, Option.bind_some]
  exact Option.map_id'

/-- Where no text that goes on like this is JSON, nothing comes of it. -/
theorem feed_dead (dead : JsonText.run initial pending = none) {stream : Marked}
    (fits : pending.length + stream.reduceOption.length ≤ limit) :
    feed limit pending stream =
      some ⟨[], pending ++ stream.reduceOption⟩ := by
  induction stream generalizing pending with
  | nil => rw [feed_nil, List.reduceOption_nil, List.append_nil]
  | cons entry stream induction =>
      cases entry with
      | some read =>
          have longer : JsonText.run initial (pending ++ [read]) = none := by
            rw [run_append, dead, Option.bind_none]
          rw [List.reduceOption_cons_of_some, List.length_cons] at fits
          have rest := induction longer (by
            rw [List.length_append, List.length_singleton]
            omega)
          rw [feed, rest, List.append_assoc, List.singleton_append,
            List.reduceOption_cons_of_some]
      | none =>
          rw [List.reduceOption_cons_of_none] at fits ⊢
          rw [feed_mark_kept, induction dead fits]
          · omega
          · rw [parse, dead, Option.bind_none]

/-- Where what is read on ends nothing, nothing comes of it. -/
theorem feed_stays {state : State}
    (ran : JsonText.run initial pending = some state)
    {stream : Marked} (stays : Stays state stream.reduceOption)
    (fits : pending.length + stream.reduceOption.length ≤ limit) :
    feed limit pending stream =
      some ⟨[], pending ++ stream.reduceOption⟩ := by
  induction stream generalizing pending state with
  | nil => rw [feed_nil, List.reduceOption_nil, List.append_nil]
  | cons entry stream induction =>
      cases entry with
      | some read =>
          rw [List.reduceOption_cons_of_some] at stays fits ⊢
          rw [List.length_cons] at fits
          have room : (pending ++ [read]).length +
              stream.reduceOption.length ≤ limit := by
            rw [List.length_append, List.length_singleton]
            omega
          have longer : JsonText.run initial (pending ++ [read]) =
              step state read := by
            rw [run_append, ran, Option.bind_some, run_cons]
            cases step state read <;> rfl
          rw [feed, List.append_cons pending read stream.reduceOption]
          cases stepped : step state read with
          | none =>
              rw [stepped] at longer
              exact feed_dead longer room
          | some next =>
              rw [stepped] at longer
              exact induction longer (stays.2 next stepped) room
      | none =>
          rw [List.reduceOption_cons_of_none] at stays fits ⊢
          rw [feed_mark_kept, induction ran stays fits]
          · omega
          · rw [parse, ran]
            exact result?_of_inside stays.inside

theorem feed_spaces {spaces : Text}
    (blank : ∀ read ∈ spaces, isSpace read = true) {stream : Marked}
    (blanks : ∀ read ∈ stream.reduceOption, isSpace read = true)
    (fits : spaces.length + stream.reduceOption.length ≤ limit) :
    feed limit spaces stream = some ⟨[], spaces ++ stream.reduceOption⟩ := by
  induction stream generalizing spaces with
  | nil => rw [feed_nil, List.reduceOption_nil, List.append_nil]
  | cons entry stream induction =>
      cases entry with
      | some read =>
          rw [List.reduceOption_cons_of_some] at blanks fits ⊢
          have longer : ∀ unit ∈ spaces ++ [read], isSpace unit = true := by
            intro unit member
            rcases List.mem_append.mp member with before | last
            · exact blank unit before
            · rw [List.mem_singleton.mp last]
              exact blanks read List.mem_cons_self
          have rest := induction longer
            (fun unit member => blanks unit (List.mem_cons_of_mem _ member))
            (by
              rw [List.length_append, List.length_singleton]
              rw [List.length_cons] at fits
              omega)
          rw [feed, rest, List.append_assoc, List.singleton_append]
      | none =>
          rw [List.reduceOption_cons_of_none] at blanks fits ⊢
          rw [feed_mark_kept, induction blank blanks fits]
          · omega
          · rw [parse, run_initial_spaces blank]
            rfl

end Feeding

/-! ## The parser reads a stream -/

namespace ChunkResponseParser

def kept (parser : ChunkResponseParser) : Text := parser.lastChunk.getD []

theorem chunkData_eq (parser : ChunkResponseParser) (piece : Text) :
    parser.chunkData piece = parser.kept ++ piece := by
  unfold chunkData kept
  cases parser.lastChunk with
  | none => rfl
  | some lastChunk => cases lastChunk <;> rfl

/-- Chunks arrive one after the other. -/
def parseEach (errorListened : Bool) :
    ChunkResponseParser → List Text → Parsed
  | parser, [] => { parser, returnValues := some [] }
  | parser, data :: chunks =>
      let first := parser.parseResponse errorListened data
      match first.returnValues with
      | none => first
      | some values =>
          let rest := parseEach errorListened first.parser chunks
          { rest with
            returnValues := rest.returnValues.map (values ++ ·)
            clearings := first.clearings + rest.clearings }

/-- Without an error, that is how the parser stands at the end. -/
structure Gives (parsed : Parsed) (fed : Fed) : Prop where
  returnValues : parsed.returnValues = some fed.values
  kept : parsed.parser.kept = fed.kept
  clearings : parsed.clearings = 0

section Correspondence

variable (errorListened : Bool)

theorem parsePieces_gives {parser : ChunkResponseParser}
    {pieces : List Text} {fed : Fed}
    (isFed : feed maxChunkBytes parser.kept (marks pieces) = some fed) :
    Gives (parsePieces errorListened parser pieces) fed := by
  induction pieces generalizing parser fed with
  | nil =>
      cases isFed
      exact ⟨rfl, rfl, rfl⟩
  | cons piece pieces induction =>
      rw [marks_cons, feed_units, feed_mark, ← chunkData_eq] at isFed
      obtain ⟨first, ended, later⟩ := Option.bind_eq_some_iff.mp isFed
      obtain ⟨rest, isRest, rfl⟩ := Option.map_eq_some_iff.mp later
      rw [endPiece] at ended
      split at ended
      · cases ended
      · rename_i short
        rw [parsePieces]
        simp only [if_neg short]
        cases parsed : parse (parser.chunkData piece) with
        | none =>
            rw [parsed] at ended
            cases ended
            exact induction isRest
        | some result =>
            rw [parsed] at ended
            cases ended
            have gives : Gives (parsePieces errorListened { parser with
                lastChunk := none, timerRunning := false } pieces) rest :=
              induction isRest
            dsimp only
            split
            · refine ⟨?_, gives.kept, gives.clearings⟩
              rw [gives.returnValues]
              rfl
            · exact gives

theorem Gives.andThen {first rest : Parsed} {before after : Fed}
    (gives : Gives first before) (givesRest : Gives rest after) :
    Gives { rest with
        returnValues := rest.returnValues.map (before.values ++ ·)
        clearings := first.clearings + rest.clearings }
      (before.andThen after) where
  returnValues := by
    dsimp only
    rw [givesRest.returnValues]
    rfl
  kept := givesRest.kept
  clearings := by
    dsimp only
    rw [gives.clearings, givesRest.clearings]

/-- The chunks are read as one text that is marked at their ends. -/
theorem parseEach_gives {parser : ChunkResponseParser} {chunks : List Text}
    {fed : Fed} (isFed : feed maxChunkBytes parser.kept
      (cuts .plain (marks chunks)) = some fed) :
    Gives (parseEach errorListened parser chunks) fed := by
  rw [← marks_dechunk] at isFed
  induction chunks generalizing parser fed with
  | nil =>
      cases isFed
      exact ⟨rfl, rfl, rfl⟩
  | cons data chunks induction =>
      rw [List.flatMap_cons, marks, List.flatMap_append, ← marks, ← marks,
        feed_append] at isFed
      obtain ⟨first, isFirst, later⟩ := Option.bind_eq_some_iff.mp isFed
      obtain ⟨rest, isRest, rfl⟩ := Option.map_eq_some_iff.mp later
      have gives : Gives (parser.parseResponse errorListened data) first :=
        parsePieces_gives errorListened isFirst
      rw [← gives.kept] at isRest
      simp only [parseEach, gives.returnValues]
      exact gives.andThen (induction isRest)

end Correspondence

end ChunkResponseParser

end Web3Js.Socket
