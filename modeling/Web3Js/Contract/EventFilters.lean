import Web3Js.Abi.LogRoundTrip
import Web3Js.Utils.Conversion

/-!
# Event filters and event logs

The filter for the logs of an event has a topic for its signature and one for
every indexed input, which is open where no value is given, and offers several
texts where a list is.  A log is decoded by the inputs of its event, which for
all events together is looked up by the first topic.  Past events are decoded
and then filtered again, by the texts of the returned values.
-/

namespace Web3Js.Contract

open Abi (AbiInput Decoded DecodedParam EventInput Externals ReturnValues Value
  decodeLog encodeParameter formatOddHexstrings indexedInputs rightPad)

/-- An entry of the JSON interface, as events are looked up in it. -/
structure AbiEventFragment where
  isEvent : Bool := true
  name : Option String
  anonymous : Bool := false
  inputs : Option (List EventInput)
  signature : String

def allEventsName : String := "ALLEVENTS"

inductive Topic
  /-- `null` -/
  | any
  | one (topic : String)
  | oneOf (topics : List String)

structure Filter where
  address : Option String := none
  /-- The values for the inputs, by their names. -/
  filter : List (String × Value) := []
  /-- Topics that are given as an array. -/
  topics : Option (List Topic) := none

/-- What `encodeEventABI` returns, without the blocks. -/
structure EventFilter where
  topics : Option (List Topic)
  address : Option String

/-- What an object without a property of its own inherits. -/
def inheritedMember (name : String) : Value :=
  if name = "__proto__" then .object []
  else if Abi.objectPrototypeNames.contains name then
    .function ("function " ++ (if name = "constructor" then "Object" else name)
      ++ "() \x7b [native code] \x7d")
  else .undefined

/-- `filter[name]` -/
def Filter.given (options : Filter) (name : String) : Value :=
  (options.filter.lookup name).getD (inheritedMember name)

section Texts

mutual

/-- `String(value)`, of numbers that are integers. -/
def shown : Value → String
  | .undefined => "undefined"
  | .null => "null"
  | .boolean value => if value then "true" else "false"
  | .number value => String.ofList (Utils.numberText value.num)
  | .notANumber => "NaN"
  | .infinity negative => if negative then "-Infinity" else "Infinity"
  | .bigint value => String.ofList (Decimal.text value)
  | .string value => value
  | .function source => source
  | .array elements => String.intercalate "," (shownElements elements)
  | .object _ => "[object Object]"
  | .byteArray bytes =>
      String.intercalate "," (bytes.map fun byte => toString byte.toNat)

/-- The elements of an array that is joined. -/
def shownElements : List Value → List String
  | [] => []
  | element :: elements =>
      (match element with
        | .undefined | .null => ""
        | element => shown element) :: shownElements elements

end

mutual

def shownDecoded : Decoded → String
  | .null => "null"
  | .boolean value => if value then "true" else "false"
  | .number value | .bigint value | .bigNumber value =>
      String.ofList (Decimal.text value)
  | .string value => value
  | .result elements named =>
      String.intercalate "," (shownDecodedElements elements ++
        (Abi.addedIndices elements.length named).map fun index =>
          ((Abi.addedAt named index).bind
            ((shownDecodedElements elements)[·]?)).getD "")
  -- A deferred error has been thrown before.
  | .failure .. => ""

def shownDecodedElements : List Decoded → List String
  | [] => []
  | element :: elements =>
      (match element with
        | .null => ""
        | element => shownDecoded element) :: shownDecodedElements elements

end

/-- `String` of a returned value. -/
def shownParam : Option DecodedParam → String
  | none => "undefined"
  | some (.value decoded) => shownDecoded decoded
  | some (.object ..) => "[object Object]"

/-- `String(returnValues[key])` -/
def shownReturned (values : ReturnValues) (key : String) : String :=
  if (values.read key).isNone && (values.properties.get? key).isNone then
    shown (inheritedMember key)
  else shownParam (values.read key)

theorem shownReturned_of_read {values : ReturnValues} {key : String}
    {param : DecodedParam} (read : values.read key = some param) :
    shownReturned values key = shownParam (some param) := by
  rw [shownReturned, read]
  rfl

def upperCase (text : String) : List Char := text.toList.map Char.toUpper

end Texts

section Encoding

variable (externals : Externals)

def byteOf : Value → Option UInt8
  | .number number =>
      if number.den = 1 ∧ 0 ≤ number ∧ number ≤ 255 then
        some (UInt8.ofNat number.num.toNat)
      else none
  | _ => none

def listedBytes : Option Bytes → Except String Bytes
  | some bytes => .ok bytes
  | none => .error "must pass \"bytes\" validation"

/-- The bytes that `keccak256` hashes. -/
def bytesToHash : Value → Except String Bytes
  | .string text =>
      if Validator.isHexStrict text then Utils.hexToUint8Array text
      else .ok (externals.utf8ToBytes text)
  | .bigint number => .ok (externals.utf8ToBytes (toString number))
  | .number number => .ok (externals.utf8ToBytes (toString number.num))
  | .array elements => listedBytes (elements.mapM byteOf)
  | .byteArray bytes => .ok bytes
  | _ => .error "must pass \"bytes\" validation"

def keccak256 (data : Value) : Except String String := do
  let bytes ← bytesToHash externals data
  .ok (hexlify (externals.keccak256 bytes))

/-- `new TextEncoder().encode(value)` -/
def textEncoderEncode : Value → Bytes
  | .undefined => []
  | value => externals.utf8ToBytes (shown value)

def encodeIndexedStringTopic (value : Value) : Except String String := do
  let _ ← encodeParameter externals (.text "string") value
  rightPad (hexlify (externals.keccak256 (textEncoderEncode externals value)))
    128

def normalizeBytes : Value → Value
  | .string text => .string (formatOddHexstrings text)
  | value => value

def encodeIndexedBytesTopic (value : Value) : Except String String := do
  let _ ← encodeParameter externals (.text "bytes") (normalizeBytes value)
  let hash ← keccak256 externals (normalizeBytes value)
  rightPad hash 128

/-- The topic of one value. -/
def encodeIndexed (type : String) (value : Value) : Except String String :=
  if type = "string" then encodeIndexedStringTopic externals value
  else if type = "bytes" then encodeIndexedBytesTopic externals value
  else encodeParameter externals (.text type) value

def encodeTopic (type : String) : (given : Value) → Except String Topic
  | .undefined | .null => .ok .any
  | .array values => (values.mapM (encodeIndexed externals type)).map .oneOf
  | value => (encodeIndexed externals type value).map .one

def signatureTopics (event : AbiEventFragment) : Except String (List Topic) :=
  if event.anonymous ∨ event.name = some allEventsName then .ok []
  else (rightPad event.signature 128).map fun topic => [.one topic]

def argumentTopics (event : AbiEventFragment) (options : Filter) :
    Except String (List Topic) :=
  if event.name = some allEventsName then .ok []
  else (indexedInputs (event.inputs.getD [])).mapM fun input =>
    encodeTopic externals input.param.type (options.given input.param.name)

def encodeTopics (event : AbiEventFragment) (options : Filter) :
    Except String (List Topic) :=
  match options.topics with
  | some topics => .ok topics
  | none => do
      let signature ← signatureTopics event
      let arguments ← argumentTopics externals event options
      .ok (signature ++ arguments)

/-- The address of the contract; an empty one counts as none. -/
def filterAddress : Option String → Except String (Option String)
  | none => .ok none
  | some address =>
      if address = "" then .ok none
      else if Validator.isAddressString externals.toCryptography address true
      then
        .ok (some (String.ofList
          ('Q' :: (address.toList.drop 1).map Char.toLower)))
      else .error ("Invalid filter address: " ++ address ++
        "; expected a Q-prefixed QRL address")

def encodeEventABI (contract : Option String) (event : AbiEventFragment)
    (options : Filter) : Except String EventFilter := do
  let topics ← encodeTopics externals event options
  let address ← filterAddress externals contract
  .ok { topics := if topics.isEmpty then none else some topics, address }

end Encoding

section Decoding

structure LogsInput where
  data : String
  topics : List String

/-- What `decodeEventABI` adds to the fields of a log. -/
structure EventLog where
  returnValues : ReturnValues
  event : Option String
  signature : Option String
  raw : LogsInput

/-- `rightPad(entry.signature, 128) === topics[0]`; a signature that cannot be
padded throws. -/
def findEntry (topic : Option String) :
    List AbiEventFragment → Except String (Option AbiEventFragment)
  | [] => .ok none
  | entry :: entries => do
      let padded ← rightPad entry.signature 128
      if topic = some padded then .ok (some entry)
      else findEntry topic entries

/-- An unknown log is taken for an anonymous one. -/
def unknownEvent : AbiEventFragment where
  name := none
  anonymous := true
  inputs := none
  signature := ""

def matchedEvent (event : AbiEventFragment) (data : LogsInput)
    (jsonInterface : List AbiEventFragment) :
    Except String AbiEventFragment :=
  if event.name = some allEventsName then do
    let found ← findEntry data.topics.head? jsonInterface
    .ok (found.getD unknownEvent)
  else .ok event

/-- The event by which a log is decoded.  Where the number of topics does not
fit it is taken for an anonymous event without inputs. -/
def modifiedEvent (event : AbiEventFragment) (data : LogsInput)
    (jsonInterface : List AbiEventFragment) :
    Except String AbiEventFragment := do
  let matched ← matchedEvent event data jsonInterface
  let inputs := (matched.inputs <|> event.inputs).getD []
  let indexed := (indexedInputs inputs).length
  if ¬matched.anonymous ∧ 0 < indexed ∧ data.topics.length ≠ indexed + 1 then
    .ok { matched with anonymous := true, inputs := some [] }
  else .ok { matched with inputs := some inputs }

/-- The front of the first topic, for events that are not anonymous. -/
def logSignature (event : AbiEventFragment) (topics : List String) :
    Option String :=
  if event.anonymous then none
  else (topics.head?.filter (· ≠ "")).map fun topic =>
    String.ofList (topic.toList.take 66)

def decodeEventABI (externals : Externals) (event : AbiEventFragment)
    (data : LogsInput) (jsonInterface : List AbiEventFragment) :
    Except String EventLog := do
  let modified ← modifiedEvent event data jsonInterface
  let argTopics := if modified.anonymous then data.topics
    else data.topics.drop 1
  let returnValues ← decodeLog externals (modified.inputs.getD []) data.data
    argTopics
  .ok {
    returnValues
    event := modified.name
    signature := logSignature modified data.topics
    raw := data }

end Decoding

section PastEvents

variable (externals : Externals)

/-- What a value is compared as: a hash for indexed texts and bytes. -/
def expectedText (input : Option EventInput) (value : Value) :
    Except String String :=
  match input with
  | some input =>
      if input.indexed ∧ input.param.type = "string" then
        .ok (hexlify (externals.keccak256 (textEncoderEncode externals value)))
      else if input.indexed ∧ input.param.type = "bytes" then
        keccak256 externals (normalizeBytes value)
      else .ok (shown value)
  | none => .ok (shown value)

def matchesValue (input : Option EventInput) (returned : String)
    (value : Value) : Except String Bool := do
  let expected ← expectedText externals input value
  .ok (decide (upperCase returned = upperCase expected))

def matchesGiven (input : Option EventInput) (returned : String) :
    (given : Value) → Except String Bool
  | .array values => values.anyM (matchesValue externals input returned)
  | value => matchesValue externals input returned value

/-- The event whose inputs tell which values are hashed. -/
def logAbi (abi : AbiEventFragment) (jsonInterface : List AbiEventFragment)
    (log : EventLog) : Option AbiEventFragment :=
  if abi.name = some allEventsName then
    jsonInterface.find? fun item =>
      item.isEvent && decide (some item.signature = log.signature)
  else some abi

/-- `filterKeys.every` of a decoded log. -/
def keepsLog (abi : AbiEventFragment) (jsonInterface : List AbiEventFragment)
    (options : Filter) (log : EventLog) : Except String Bool :=
  let inputs := ((logAbi abi jsonInterface log).bind (·.inputs)).getD []
  options.filter.allM fun entry =>
    matchesGiven externals (inputs.find? (·.param.name = entry.1))
      (shownReturned log.returnValues entry.1) entry.2

def keepLogs (abi : AbiEventFragment) (jsonInterface : List AbiEventFragment)
    (options : Filter) : List EventLog → Except String (List EventLog)
  | [] => .ok []
  | log :: logs => do
      let kept ← keepsLog externals abi jsonInterface options log
      let others ← keepLogs abi jsonInterface options logs
      .ok (if kept then log :: others else others)

/-- Logs that the node gives for the filter; the filter by values is skipped
where it has no keys. -/
def getPastEvents (contract : Option String)
    (jsonInterface : List AbiEventFragment) (abi : AbiEventFragment)
    (options : Filter) (getLogs : EventFilter → List LogsInput) :
    Except String (List EventLog) := do
  let filter ← encodeEventABI externals contract abi options
  let decodedLogs ← (getLogs filter).mapM fun log =>
    decodeEventABI externals abi log jsonInterface
  keepLogs externals abi jsonInterface options decodedLogs

end PastEvents

end Web3Js.Contract
