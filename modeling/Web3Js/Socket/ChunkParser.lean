import Web3Js.Lib.JsonText

/-!
# The chunk parser

What arrives on a socket is cut where one document seems to end and another to
begin, and at every separator of the parser's own; a piece that is not JSON is
kept and put before the next one.  A piece that grows too long is given up.
-/

namespace Web3Js.Socket

open JsonText

section Dechunking

/-- `|--|` -/
def separator : Text := plainText "|--|"

/-- `[\n\r]` -/
def isLineBreak (read : CodeUnit) : Bool :=
  read == unit '\n' || read == unit '\r'

/-- The length of a match of `before`, a line break or none, and `after`. -/
def matchBetween (before after text : Text) : Option Nat :=
  if before.isPrefixOf text then
    let rest := text.drop before.length
    if rest.head?.any isLineBreak && after.isPrefixOf (rest.drop 1) then
      some (before.length + 1 + after.length)
    else if after.isPrefixOf rest then some (before.length + after.length)
    else none
  else none

/-- Replace the matches from the left, when a number of units belong to the
last one. -/
def replaceFrom (before after : Text) : Nat → Text → Text
  | _, [] => []
  | skip + 1, _ :: text => replaceFrom before after skip text
  | 0, read :: text =>
      match matchBetween before after (read :: text) with
      | some length =>
          before ++ separator ++ after ++
            replaceFrom before after (length - 1) text
      | none => read :: replaceFrom before after 0 text

/-- `replace`, where a match gets the separator in place of the line break. -/
def replaceAll (before after : String) (text : Text) : Text :=
  replaceFrom (plainText before) (plainText after) 0 text

/-- `split` at the separator; `piece` was read since the last one. -/
def splitFrom (piece : Text) : Nat → Text → List Text
  | _, [] => [piece]
  | skip + 1, _ :: text => splitFrom piece skip text
  | 0, read :: text =>
      if separator.isPrefixOf (read :: text) then
        piece :: splitFrom [] (separator.length - 1) text
      else splitFrom (piece ++ [read]) 0 text

def dechunk (data : Text) : List Text :=
  let data := replaceAll "\x7d" "\x7b" data
  let data := replaceAll "\x7d]" "[\x7b" data
  let data := replaceAll "\x7d" "[\x7b" data
  let data := replaceAll "\x7d]" "\x7b" data
  splitFrom [] 0 data

end Dechunking

section Truthiness

/-- The decimal digits of a literal before its exponent. -/
def mantissa (literal : Text) : Text := literal.takeWhile fun read =>
  !isExponentMark read

def exponentDigits (literal : Text) : Text :=
  (literal.dropWhile fun read => !isExponentMark read).filter fun read =>
    (digitValue read).isSome

def naturalOf (digits : Text) : Nat :=
  digits.foldl (fun value read => value * 10 + (digitValue read).getD 0) 0

/-- The exponent of the last digit of the mantissa. -/
def scale (literal : Text) : Int :=
  let isNegative :=
    (literal.dropWhile fun read => !isExponentMark read).contains (unit '-')
  let exponent : Int := naturalOf (exponentDigits literal)
  let fraction := (mantissa literal).dropWhile (· != unit '.')
  (if isNegative then -exponent else exponent) - (fraction.length - 1 : Nat)

/-- The double that is nearest to the literal is a zero. -/
def roundsToZero (literal : Text) : Bool :=
  naturalOf ((mantissa literal).filter fun read => (digitValue read).isSome) *
    10 ^ (scale literal).toNat * 2 ^ 1075 ≤ 10 ^ (-scale literal).toNat

def isTruthy : Tree → Bool
  | .null => false
  | .boolean value => value
  | .number literal => !roundsToZero literal
  | .string content => content ≠ []
  | .array _ | .object _ => true

end Truthiness

/-- `MAX_CHUNK_BYTES`; it is compared with a number of code units. -/
def maxChunkBytes : Nat := 10 * 1024 * 1024

structure ChunkResponseParser where
  autoReconnect : Bool
  lastChunk : Option Text := none
  /-- `lastChunkTimeout` is running. -/
  timerRunning : Bool := false

namespace ChunkResponseParser

/-- What handling a piece, or the rest of the pieces, comes to. -/
structure Parsed where
  parser : ChunkResponseParser
  /-- `none` when emitting an error throws, since nothing listens to it. -/
  returnValues : Option (List Tree)
  /-- The calls of `clearQueues`. -/
  clearings : Nat := 0

/-- Prepend the last chunk. -/
def chunkData (parser : ChunkResponseParser) (piece : Text) : Text :=
  match parser.lastChunk with
  | none | some [] => piece
  | some lastChunk => lastChunk ++ piece

section Parsing

variable (errorListened : Bool)

def parsePieces : ChunkResponseParser → List Text → Parsed
  | parser, [] => { parser, returnValues := some [] }
  | parser, piece :: pieces =>
      let chunkData := parser.chunkData piece
      if maxChunkBytes < chunkData.length then
        let parser := { parser with lastChunk := none }
        if errorListened then
          let rest := parsePieces parser pieces
          { rest with clearings := rest.clearings + 1 }
        else { parser, returnValues := none, clearings := 1 }
      else
        match parse chunkData with
        | none =>
            parsePieces
              { parser with lastChunk := some chunkData, timerRunning := true }
              pieces
        | some result =>
            let rest := parsePieces
              { parser with lastChunk := none, timerRunning := false } pieces
            if isTruthy result then
              { rest with
                returnValues := rest.returnValues.map (result :: ·) }
            else rest

def parseResponse (parser : ChunkResponseParser) (data : Text) : Parsed :=
  parsePieces errorListened parser (dechunk data)

end Parsing

/-- The timer of an incomplete chunk fires; whether it clears the queues. -/
def chunkTimeout (parser : ChunkResponseParser) :
    ChunkResponseParser × Bool :=
  ({ parser with timerRunning := false }, !parser.autoReconnect)

end ChunkResponseParser

example : (dechunk (plainText "[\x7b\x7d]\n\x7b\"a\":\"\x7d\x7b\"\x7d")) =
    [plainText "[\x7b\x7d]", plainText "\x7b\"a\":\"\x7d",
      plainText "\x7b\"\x7d"] := by
  decide

end Web3Js.Socket
