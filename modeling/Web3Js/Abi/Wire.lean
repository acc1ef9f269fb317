import Web3Js.Abi.Value

/-!
# Writer and reader

The writer collects chunks of bytes; the place of an updatable value is the
index of its chunk.  The reader walks over a byte string and hands out
sub-readers, whose offsets count from its own position.  The word size of
both is 64 bytes.
-/

namespace Web3Js.Abi

/-- `AbiCoder._getWordSize` -/
def wordSize : Nat := 64

def padding : Bytes := List.replicate wordSize 0

structure Writer where
  data : List Bytes := []
  dataLength : Nat := 0

namespace Writer

/-- The `data` getter; a string holds at most `maxSafeInteger` code units. -/
def text (writer : Writer) : Except Error String :=
  if 2 + 2 * writer.data.flatten.length ≤ maxSafeInteger then
    .ok (hexlify writer.data.flatten)
  else
    .error { code := .unspecified, message := "Invalid string length" }

def writeData (writer : Writer) (data : Bytes) : Writer × Nat :=
  ({ data := writer.data ++ [data],
     dataLength := writer.dataLength + data.length },
    data.length)

def appendWriter (writer other : Writer) : Writer × Nat :=
  writer.writeData other.data.flatten

/-- Padded on the right to the word size. -/
def writeBytes (writer : Writer) (value : Bytes) : Writer × Nat :=
  let paddingOffset := value.length % wordSize
  writer.writeData
    (if paddingOffset ≠ 0 then value ++ padding.drop paddingOffset else value)

/-- Padded on the left to the word size. -/
def getValue (value : Int) : Except Error Bytes := do
  let bytes ← BigNumber.toBytes value
  if wordSize < bytes.length then
    .error { code := .bufferOverrun, message := "value out-of-bounds" }
  else if bytes.length % wordSize ≠ 0 then
    .ok (padding.drop (bytes.length % wordSize) ++ bytes)
  else
    .ok bytes

def writeValue (writer : Writer) (value : Int) :
    Except Error (Writer × Nat) := do
  let bytes ← getValue value
  pure (writer.writeData bytes)

/-- A word to be filled in later, and the place of its chunk. -/
def writeUpdatableValue (writer : Writer) : Writer × Nat :=
  ({ data := writer.data ++ [padding],
     dataLength := writer.dataLength + wordSize },
    writer.data.length)

/-- The function that `writeUpdatableValue` returns. -/
def updateValue (writer : Writer) (place : Nat) (value : Int) :
    Except Error Writer := do
  let bytes ← getValue value
  pure { writer with data := writer.data.set place bytes }

end Writer

abbrev CoerceFunc := String → Decoded → Except Error Decoded

structure Reader where
  data : Bytes
  coerceFunc : Option CoerceFunc
  allowLoose : Bool
  offset : Nat := 0

/-- A step of a reader.  The reader has moved also when the step throws. -/
def Read (α : Type) := Reader → Except Error α × Reader

namespace Read

instance : Monad Read where
  pure value := fun reader => (.ok value, reader)
  bind step next := fun reader =>
    match step reader with
    | (.ok value, moved) => next value moved
    | (.error problem, moved) => (.error problem, moved)

/-- A computation that does not touch the reader. -/
def lift {α : Type} (outcome : Except Error α) : Read α :=
  fun reader => (outcome, reader)

def throw {α : Type} (problem : Error) : Read α := lift (.error problem)

theorem bind_of_ok {α β : Type} {step : Read α} {next : α → Read β}
    {reader moved : Reader} {value : α}
    (stepped : step reader = (.ok value, moved)) :
    (step >>= next) reader = next value moved := by
  simp only [bind, stepped]

theorem lift_bind_of_ok {α β : Type} {outcome : Except Error α} {value : α}
    (known : outcome = .ok value) (next : α → Read β) (reader : Reader) :
    (lift outcome >>= next) reader = next value reader := by
  simp only [bind, lift, known]

end Read

namespace Reader

/-- The digits of `/^(u?int)([0-9]*)$/` and whether the type is signed. -/
def matchNumber (type : String) : Option (Bool × List Char) :=
  match type.toList with
  | 'u' :: 'i' :: 'n' :: 't' :: digits =>
      if digits.all Char.isDigit then some (false, digits) else none
  | 'i' :: 'n' :: 't' :: digits =>
      if digits.all Char.isDigit then some (true, digits) else none
  | _ => none

/-- `parseInt` of decimal digits. -/
def parseInt (digits : List Char) : Nat :=
  digits.foldl (fun number digit => 10 * number + (digit.toNat - 48)) 0

/-- The default coerce function: integers of at most 48 bits become numbers. -/
def defaultCoerce : CoerceFunc := fun name value =>
  match matchNumber name with
  | some (_, digits) =>
      if digits ≠ [] ∧ parseInt digits ≤ 48 then
        match value with
        | .bigNumber integer => do
            let number ← BigNumber.toNumber integer
            pure (.number number)
        | _ =>
            .error { code := .unspecified,
                     message := "value.toNumber is not a function" }
      else .ok value
  | none => .ok value

def coerce (name : String) (value : Decoded) : Read Decoded := fun reader =>
  ((reader.coerceFunc.getD defaultCoerce) name value, reader)

/-- The bytes that `_peekBytes` finds at the position, none out of bounds. -/
def peekBytes (reader : Reader) (length : Nat) (loose : Bool) :
    Except Error Bytes :=
  let alignedLength := (length + (wordSize - 1)) / wordSize * wordSize
  let rest := reader.data.drop reader.offset
  if reader.offset + alignedLength ≤ reader.data.length then
    .ok (rest.take alignedLength)
  else if reader.allowLoose ∧ loose ∧
      reader.offset + length ≤ reader.data.length then
    .ok (rest.take length)
  else
    .error { code := .bufferOverrun, message := "data out-of-bounds" }

def subReader (reader : Reader) (offset : Nat) : Reader :=
  { reader with data := reader.data.drop (reader.offset + offset), offset := 0 }

def readBytes (length : Nat) (loose : Bool) : Read Bytes := fun reader =>
  match reader.peekBytes length loose with
  | .ok bytes =>
      (.ok (bytes.take length),
        { reader with offset := reader.offset + bytes.length })
  | .error problem => (.error problem, reader)

def readValue : Read Nat := do
  let bytes ← readBytes wordSize false
  pure (BigEndian.toNat bytes)

end Reader

end Web3Js.Abi
