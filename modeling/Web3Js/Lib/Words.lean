/-!
# Words before a delimiter

A word of symbols of one kind ends where another symbol or nothing follows.
It is found again by taking symbols of that kind, so that two texts that begin
with such words agree only if the words do.
-/

namespace Web3Js.Words

variable {α : Type} {kind : α → Bool}

/-- A word of this kind can not go on with the text. -/
def Stops (kind : α → Bool) (rest : List α) : Prop :=
  ∀ symbol ∈ rest.head?, kind symbol = false

theorem stops_nil (kind : α → Bool) : Stops kind [] := by
  intro symbol member
  cases member

theorem stops_cons {symbol : α} (other : kind symbol = false)
    (rest : List α) : Stops kind (symbol :: rest) := by
  intro first member
  obtain rfl := Option.some.inj member
  exact other

theorem Stops.takeWhile {rest : List α} (stops : Stops kind rest) :
    rest.takeWhile kind = [] := by
  cases rest with
  | nil => rfl
  | cons symbol rest =>
      rw [List.takeWhile_cons, stops symbol rfl]
      rfl

theorem Stops.dropWhile {rest : List α} (stops : Stops kind rest) :
    rest.dropWhile kind = rest := by
  cases rest with
  | nil => rfl
  | cons symbol rest =>
      rw [List.dropWhile_cons, stops symbol rfl]
      rfl

theorem takeWhile_word {word rest : List α} (all : word.all kind = true)
    (stops : Stops kind rest) : (word ++ rest).takeWhile kind = word := by
  rw [List.takeWhile_append_of_pos (List.all_eq_true.mp all),
    stops.takeWhile, List.append_nil]

theorem dropWhile_word {word rest : List α} (all : word.all kind = true)
    (stops : Stops kind rest) : (word ++ rest).dropWhile kind = rest := by
  rw [List.dropWhile_append_of_pos (List.all_eq_true.mp all),
    stops.dropWhile]

/-- Texts that begin with words have the same words and rests. -/
theorem cut {word word' rest rest' : List α} (all : word.all kind = true)
    (all' : word'.all kind = true) (stops : Stops kind rest)
    (stops' : Stops kind rest') (same : word ++ rest = word' ++ rest') :
    word = word' ∧ rest = rest' := by
  constructor
  · rw [← takeWhile_word all stops, same, takeWhile_word all' stops']
  · rw [← dropWhile_word all stops, same, dropWhile_word all' stops']

end Web3Js.Words
