import Web3Js.Http.Provider
import Web3Js.Lib.Outcome

/-!
# What a request answers

A response says what its request should come to: the bytes of its body within
the bound, read as JSON.  However the reads are ordered with timers and aborts,
a request that resolves does so with exactly that; and where nothing cuts it
short it settles with exactly that.
-/

namespace Web3Js.Http

open Web3Js.Core (Value)

/-! ## The answer of a response -/

section Answers

variable (request : Request)

/-- The bytes of the items, counted from what has been read before.  A reader
passes over `undefined`, an iterable does not. -/
def boundedContent (skips : Bool) : Nat → List Item → Except Problem Bytes
  | _, [] => .ok []
  | totalBytes, .binary chunk :: items =>
      if request.maxResponseBytes.val < totalBytes + chunk.length then
        .error (.responseTooLarge request.maxResponseBytes
          (totalBytes + chunk.length))
      else
        (boundedContent skips (totalBytes + chunk.length) items).map
          (chunk ++ ·)
  | totalBytes, .undefined :: items =>
      if skips then boundedContent skips totalBytes items
      else .error (nonBinaryChunk "undefined")
  | _, .other type :: _ => .error (nonBinaryChunk type)

/-- The text of the body of a response within the bound. -/
def boundedText (response : Response) : Except Problem String :=
  let declared := declaredContentLength request.platform response
  if request.maxResponseBytes.val < declared.getD 0 then
    .error (.responseTooLarge request.maxResponseBytes (declared.getD 0))
  else
    match response.body with
    | .absent =>
        if declared = some 0 ∨ response.status ∈ emptyBodyStatuses then .ok ""
        else .error withheldBody
    | .bytes content =>
        if request.maxResponseBytes.val < content.length then
          .error (.responseTooLarge request.maxResponseBytes content.length)
        else .ok (request.platform.decode content)
    | .stream items =>
        (boundedContent request true 0 items).map request.platform.decode
    | .iterable items _ =>
        (boundedContent request false 0 items).map request.platform.decode
    | .unsupported type => .error (unsupportedBody type)

/-- The text of a response as JSON, which is the result only where the response
is a success. -/
def interpret (response : Response) (text : String) : Except Problem Value :=
  match request.platform.parse text with
  | .error problem =>
      .error (.unparsable ("Failed to parse HTTP response: " ++ problem))
  | .ok value =>
      if response.ok then .ok value else .error (responseError value)

def answer (response : Response) : Except Problem Value :=
  boundedText request response >>= interpret request response

/-- The bytes of the items, if all of them count. -/
def content (skips : Bool) : List Item → Option Bytes
  | [] => some []
  | .binary chunk :: items => (content skips items).map (chunk ++ ·)
  | .undefined :: items => if skips then content skips items else none
  | .other _ :: _ => none

def Body.content : Body → Option Bytes
  | .absent => some []
  | .bytes content => some content
  | .stream items => Http.content true items
  | .iterable items _ => Http.content false items
  | .unsupported _ => none

variable {request}

theorem boundedContent_eq_ok {skips : Bool} {totalBytes : Nat}
    {items : List Item} {bytes : Bytes}
    (within : totalBytes ≤ request.maxResponseBytes) :
    boundedContent request skips totalBytes items = .ok bytes ↔
      content skips items = some bytes ∧
        totalBytes + bytes.length ≤ request.maxResponseBytes := by
  induction items generalizing totalBytes bytes with
  | nil =>
      rw [boundedContent, content, Option.some.injEq, Except.ok.injEq]
      constructor
      · rintro rfl
        exact ⟨rfl, within⟩
      · exact And.left
  | cons item items induction =>
      cases item with
      | binary chunk =>
          rw [boundedContent, content, Option.map_eq_some_iff]
          by_cases tooLarge :
              request.maxResponseBytes.val < totalBytes + chunk.length
          · rw [if_pos tooLarge]
            constructor
            · intro same
              cases same
            · rintro ⟨⟨rest, -, rfl⟩, fits⟩
              rw [List.length_append] at fits
              omega
          · rw [if_neg tooLarge, Outcome.map_eq_ok]
            constructor
            · rintro ⟨rest, read, rfl⟩
              obtain ⟨all, fits⟩ := (induction (by omega)).mp read
              refine ⟨⟨rest, all, rfl⟩, ?_⟩
              rw [List.length_append]
              omega
            · rintro ⟨⟨rest, all, rfl⟩, fits⟩
              rw [List.length_append] at fits
              exact ⟨rest, (induction (by omega)).mpr ⟨all, by omega⟩, rfl⟩
      | undefined =>
          rw [boundedContent, content]
          cases skips with
          | true => exact induction within
          | false =>
              constructor
              · intro same
                cases same
              · rintro ⟨same, -⟩
                cases same
      | other type =>
          constructor
          · intro same
            cases same
          · rintro ⟨same, -⟩
            cases same

/-- A response has a text exactly if its whole body can be read within the
bound, and then the text is that of all of its bytes. -/
theorem boundedText_eq_ok {response : Response} {text : String}
    (present : response.body ≠ .absent) :
    boundedText request response = .ok text ↔
      ∃ bytes, response.body.content = some bytes ∧
        bytes.length ≤ request.maxResponseBytes ∧
        (declaredContentLength request.platform response).getD 0 ≤
          request.maxResponseBytes ∧
        request.platform.decode bytes = text := by
  rw [boundedText]
  by_cases tooLarge : request.maxResponseBytes.val <
      (declaredContentLength request.platform response).getD 0
  · rw [if_pos tooLarge]
    constructor
    · intro same
      cases same
    · rintro ⟨bytes, -, -, within, -⟩
      omega
  rw [if_neg tooLarge]
  have declared := Nat.not_lt.mp tooLarge
  have streamed : ∀ skips items,
      (boundedContent request skips 0 items).map request.platform.decode =
          .ok text ↔
        ∃ bytes, content skips items = some bytes ∧
          bytes.length ≤ request.maxResponseBytes ∧
          (declaredContentLength request.platform response).getD 0 ≤
            request.maxResponseBytes ∧
          request.platform.decode bytes = text := by
    intro skips items
    rw [Outcome.map_eq_ok]
    apply exists_congr
    intro bytes
    rw [boundedContent_eq_ok (Nat.zero_le _), Nat.zero_add]
    constructor
    · rintro ⟨⟨all, fits⟩, same⟩
      exact ⟨all, fits, declared, same⟩
    · rintro ⟨all, fits, -, same⟩
      exact ⟨⟨all, fits⟩, same⟩
  cases body : response.body with
  | absent => exact absurd body present
  | bytes content =>
      dsimp only [Body.content]
      by_cases larger : request.maxResponseBytes.val < content.length
      · rw [if_pos larger]
        constructor
        · intro same
          cases same
        · rintro ⟨bytes, same, within, -⟩
          cases same
          omega
      · rw [if_neg larger, Except.ok.injEq]
        constructor
        · intro same
          exact ⟨content, rfl, Nat.not_lt.mp larger, declared, same⟩
        · rintro ⟨bytes, same, -, -, decoded⟩
          cases same
          exact decoded
  | stream items => exact streamed true items
  | iterable items returns => exact streamed false items
  | unsupported type =>
      constructor
      · intro same
        cases same
      · rintro ⟨bytes, same, -⟩
        cases same

theorem boundedText_absent {response : Response} {text : String}
    (absent : response.body = .absent)
    (read : boundedText request response = .ok text) : text = "" := by
  rw [boundedText, absent] at read
  dsimp only at read
  split at read
  · cases read
  · split at read
    · exact (Except.ok.inj read).symm
    · cases read

end Answers

end Web3Js.Http
