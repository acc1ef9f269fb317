import Web3Js.Socket.Correlation
import Web3Js.Socket.LiveSocket
import Web3Js.Socket.Truncation

/-!
# Responses in segments

A chunk in which no document ends gives no values, and the provider takes that
for a lost connection.  So a response that arrives in several chunks reaches
its request only if the provider is already reconnecting.
-/

namespace Web3Js.Socket

open JsonText

/-! ## Limits -/

section Limits

variable {less more : Nat}

theorem endPiece_limit (smaller : less ≤ more) (pending : Text) :
    endPiece less pending = none ∨
      endPiece less pending = endPiece more pending := by
  by_cases long : less < pending.length
  · left
    rw [endPiece, if_pos long]
  · right
    have short : ¬ more < pending.length := by omega
    rw [endPiece, endPiece, if_neg long, if_neg short]

/-- A larger limit makes a difference only where the smaller one is
exceeded. -/
theorem feed_limit (smaller : less ≤ more) (pending : Text)
    (stream : Marked) :
    feed less pending stream = none ∨
      feed less pending stream = feed more pending stream := by
  induction stream generalizing pending with
  | nil => exact .inr rfl
  | cons entry stream induction =>
      cases entry with
      | some read => exact induction (pending ++ [read])
      | none =>
          rw [feed_mark, feed_mark]
          rcases endPiece_limit smaller pending with exceeded | same
          · left
            rw [exceeded, Option.bind_none]
          · rw [same]
            cases ended : endPiece more pending with
            | none => exact .inl rfl
            | some first =>
                rw [Option.bind_some, Option.bind_some]
                rcases induction first.kept with later | sameLater
                · left
                  rw [later, Option.map_none]
                · right
                  rw [sameLater]

end Limits

/-! ## A document in chunks -/

/-- `data.split('|--|').join('')` -/
def withoutSeparators (data : Text) : Text := (splitFrom [] 0 data).flatten

section Parts

variable {text : Text} {tree : Tree} {limit : Nat}

theorem strip_splitFrom (data piece : Text) (tail : Marked) :
    (splitFrom piece 0 data).flatten ++ strip tail =
      piece ++ strip (data.map some ++ none :: tail) := by
  induction size : data.length using Nat.strongRecOn
    generalizing data piece with
  | ind size induction =>
  subst size
  cases data with
  | nil =>
      rw [splitFrom, List.map_nil, List.nil_append, strip_mark]
      simp
  | cons read data =>
      by_cases separates : separator <+: read :: data
      · obtain ⟨rest, whole⟩ := separates
        have shorter : rest.length < (read :: data).length := by
          rw [← whole, List.length_append]
          exact Nat.lt_add_of_pos_left (by decide)
        rw [← whole, splitFrom_separator, List.map_append, List.append_assoc,
          strip_separator, List.flatten_cons, List.append_assoc,
          induction _ shorter rest [] rfl]
        rfl
      · have apart : ¬ separator.map some <+:
            some read :: (data.map some ++ none :: tail) := by
          rw [← List.cons_append, ← List.map_cons]
          exact fun starts => separates (prefix_marked.mp starts)
        rw [splitFrom_cons piece separates, List.map_cons, List.cons_append,
          strip_unit apart,
          induction data.length (Nat.lt_succ_self _) data _ rfl]
        simp

theorem strip_marks (chunks : List Text) :
    strip (marks chunks) = chunks.flatMap withoutSeparators := by
  induction chunks with
  | nil => exact strip_nil
  | cons chunk chunks induction =>
      have whole := strip_splitFrom chunk [] (marks chunks)
      rw [marks_cons, List.flatMap_cons, ← induction]
      exact whole.symm

/-- Nothing comes of the chunks before the last one. -/
theorem values_of_part (isDocument : IsDocument text tree)
    {chunks : List Text} {rest : Text}
    (content : text = chunks.flatten ++ rest)
    (begun : chunks = [] ∨ chunks.flatten ≠ []) (unfinished : rest ≠ [])
    {fed : Fed}
    (isFed : feed limit [] (cuts .plain (marks chunks)) = some fed) :
    fed.values = [] := by
  rcases begun with rfl | begun
  · rw [marks, List.flatMap_nil, cuts_nil] at isFed
    cases isFed
    rfl
  · obtain ⟨state, fedLarge, -⟩ := feed_truncated isDocument content begun
      unfinished (Nat.le_max_right limit (strip (marks chunks)).length)
    rcases feed_limit (Nat.le_max_left limit (strip (marks chunks)).length) []
      (cuts .plain (marks chunks)) with exceeded | same
    · rw [exceeded] at isFed
      cases isFed
    · rw [same, fedLarge] at isFed
      cases isFed
      rfl

/-- The last chunk gives the document, if it is not too long. -/
theorem feed_whole (isDocument : IsDocument text tree) {chunks : List Text}
    {final : Text} (content : (chunks ++ [final]).flatten = text)
    (nonempty : final ≠ []) :
    ∃ found, parse (strip (marks (chunks ++ [final]))) = some found ∧
      isTruthy found = true ∧
      ∀ limit, feed limit [] (cuts .plain (marks (chunks ++ [final]))) =
        if (strip (marks (chunks ++ [final]))).length ≤ limit then
          some ⟨[found], []⟩
        else none := by
  obtain ⟨first, inner, last, enclosed⟩ := enclosed_of_document isDocument
  obtain rfl | ⟨others, unit', rfl⟩ := List.eq_nil_or_concat' final
  · exact absurd rfl nonempty
  have marked := reduceOption_marks (chunks ++ [others ++ [unit']])
  rw [content, enclosed.text] at marked
  have atFirst : (marks (chunks ++ [others ++ [unit']])).reduceOption =
      [] ++ first :: (inner ++ [last]) := marked
  obtain ⟨lead, behind, split, blank, afterFirst⟩ := split_at_unit atFirst
  obtain ⟨front, later, rfl, rfl, nothing⟩ := split_at_unit afterFirst
  have leadBlank : ∀ read ∈ lead.reduceOption, isSpace read = true := by
    rw [blank]
    exact List.forall_mem_nil _
  -- The chunk ends right behind the last bracket.
  have ends : marks (chunks ++ [others ++ [unit']]) =
      (marks chunks ++ others.map some) ++ some unit' :: [none] := by
    rw [marks_append]
    simp [marks]
  have atLast : marks (chunks ++ [others ++ [unit']]) =
      (lead ++ some first :: front) ++ some last :: later := by
    rw [split]
    simp
  obtain ⟨-, rfl, rfl⟩ := split_unique (atLast.symm.trans ends) (by
    have lengths := congrArg (fun stream => stream.reduceOption.length)
      (atLast.symm.trans ends)
    simp only [List.reduceOption_append, List.reduceOption_cons_of_some,
      List.length_append, List.length_cons, nothing] at lengths ⊢
    change _ + (0 + 1) = _ + (0 + 1) at lengths
    omega)
  have apart : ¬ separator.map some <+:
      some first :: (front ++ some last :: [none]) := by
    apply not_separator_of_ne
    rcases enclosed.opening with rfl | rfl <;> decide
  have stripped : strip (marks (chunks ++ [others ++ [last]])) =
      first :: (strip front ++ [last]) := by
    rw [split, strip_blank leadBlank, blank, strip_unit apart,
      strip_append_unit front [none] enclosed.closing.notSeparating,
      strip_mark, strip_nil, List.nil_append]
  rw [stripped]
  obtain ⟨events, found, reads, -, cut⟩ :=
    cuts_document (first :: (strip front ++ [last])).length isDocument enclosed
      front [none] rfl (List.forall_mem_nil _)
  refine ⟨found, parse_done reads.run, isTruthy_composite reads.composite,
    fun limit => ?_⟩
  have whole : cuts .plain (marks (chunks ++ [others ++ [last]])) =
      lead ++ events ++ [none] := by
    rw [split, cuts_blank leadBlank, cut, cuts_mark, cuts_nil,
      List.append_assoc]
  have fedEvents : ∀ limit, (first :: (strip front ++ [last])).length ≤ limit →
      feed limit [] (lead ++ events) =
        some ⟨[], first :: (strip front ++ [last])⟩ := by
    intro limit fits
    have room : ([] : Text).length + lead.reduceOption.length ≤ limit := by
      rw [blank]
      exact Nat.zero_le limit
    obtain ⟨events', found', reads', -, cut'⟩ := cuts_document limit isDocument
      enclosed front [none] rfl (List.forall_mem_nil _)
    obtain rfl : events' = events :=
      List.append_cancel_right (cut'.symm.trans cut)
    rw [feed_after (feed_spaces (List.forall_mem_nil _) leadBlank room), blank]
    exact congrArg _ (reads'.fed fits)
  rw [whole]
  by_cases fits : (first :: (strip front ++ [last])).length ≤ limit
  · rw [if_pos fits, feed_after (fedEvents limit fits)]
    have fed : feed limit (first :: (strip front ++ [last])) [none] =
        some ⟨[found], []⟩ := feed_document reads.run reads.composite fits
    rw [fed]
    rfl
  · rw [if_neg fits, feed_append]
    rcases feed_limit (Nat.le_of_not_le fits) [] (lead ++ events) with
      exceeded | same
    · rw [exceeded, Option.bind_none]
    · rw [same, fedEvents _ (Nat.le_refl _), Option.bind_some, feed_mark,
        endPiece, if_pos (Nat.lt_of_not_le fits)]
      rfl

end Parts

/-! ## What the provider does -/

namespace Provider

section Unanswerable

variable {config : Config} {provider other : Provider} {key : Nat}

/-- No response has resolved the item, and none reaches it any more. -/
structure Unanswerable (provider : Provider) (key : Nat) : Prop where
  unresolved : ∀ item response, provider.items[key]? = some item →
    .resolve response ∉ item.settlements
  unsent : ∀ id, provider.sentRequestsQueue.get? id ≠ some key

theorem Unanswerable.of_rejecting (unanswerable : provider.Unanswerable key)
    (rejecting : Rejecting provider other)
    (sends : Sends provider other []) : other.Unanswerable key where
  unresolved after response found resolved := by
    obtain ⟨item, itemFound, -, -, itemResolved⟩ :=
      rejecting key after response found resolved
    exact unanswerable.unresolved item response itemFound itemResolved
  unsent id sent := by
    rcases sends id key sent with before | new
    · exact unanswerable.unsent id before
    · cases new

theorem Unanswerable.onMessage (unanswerable : provider.Unanswerable key)
    (consistent : provider.Consistent config) (parsed : List Json) :
    (provider.onMessage config parsed).Unanswerable key where
  unresolved after response found resolved := by
    rcases consistent.onMessage_cases parsed found resolved with
      ⟨item, itemFound, -, -, itemResolved⟩ |
      ⟨item, id, isBatch, -, -, -, -, reaches, -⟩
    · exact unanswerable.unresolved item response itemFound itemResolved
    · obtain ⟨queuedId, queued⟩ := reaches.queued
      exact unanswerable.unsent queuedId queued
  unsent id sent := by
    rcases sends_onMessage provider parsed id key sent with before | new
    · exact unanswerable.unsent id before
    · cases new

/-- Settling an id takes it out of the sent queue. -/
theorem Consistent.settleRequest_unsent
    (consistent : provider.Consistent config) (id : RequestId)
    (outcome : Settlement) :
    (provider.settleRequest id outcome).sentRequestsQueue.get? id = none := by
  rcases consistent.settleRequest_cases id outcome with
    ⟨none, same⟩ | ⟨owner, item, -, -, -, member, closes⟩
  · rw [same]
    rw [owner, Option.or_eq_none_iff] at none
    exact none.1
  · rw [closes.sent, OrderedMap.get?_eraseAll, if_pos member]

theorem Consistent.rejectAll_unsent
    (consistent : provider.Consistent config) {ids : List RequestId}
    (reason : Reason) {id : RequestId} (member : id ∈ ids) :
    (provider.rejectAll ids reason).sentRequestsQueue.get? id = none := by
  induction ids generalizing provider with
  | nil => cases member
  | cons first ids induction =>
      have settled := consistent.settleRequest first (.reject reason)
      by_cases later : id ∈ ids
      · exact induction settled later
      · obtain rfl := (List.mem_cons.mp member).resolve_right later
        have unsent := consistent.settleRequest_unsent id (.reject reason)
        cases found : (provider.rejectAll (id :: ids)
            reason).sentRequestsQueue.get? id with
        | none => rfl
        | some owner =>
            rcases sends_rejectAll (provider.settleRequest id (.reject reason))
              ids reason id owner found with before | new
            · rw [unsent] at before
              cases before
            · cases new

/-- Rejecting everything that is sent leaves nothing to answer. -/
theorem Consistent.unanswerable_rejectAll
    (consistent : provider.Consistent config) {ids : List RequestId}
    (reason : Reason)
    (all : ∀ id owner, provider.sentRequestsQueue.get? id = some owner →
      id ∈ ids)
    (unresolved : ∀ item response, provider.items[key]? = some item →
      .resolve response ∉ item.settlements) :
    (provider.rejectAll ids reason).Unanswerable key where
  unresolved after response found resolved := by
    obtain ⟨item, itemFound, -, -, itemResolved⟩ :=
      rejecting_rejectAll provider ids reason key after response found resolved
    exact unresolved item response itemFound itemResolved
  unsent id sent := by
    rcases sends_rejectAll provider ids reason id key sent with before | new
    · rw [consistent.rejectAll_unsent reason (all id key before)] at sent
      cases sent
    · cases new

theorem Consistent.unanswerable_clearQueues
    (consistent : provider.Consistent config)
    (unresolved : ∀ item response, provider.items[key]? = some item →
      .resolve response ∉ item.settlements) :
    provider.clearQueues.Unanswerable key := by
  have cleared : Consistent config
      { provider with connectionTimer := false } :=
    consistent.congr rfl rfl rfl
  apply cleared.unanswerable_rejectAll _ _ unresolved
  intro id owner sent
  exact List.mem_append_right _ (OrderedMap.mem_keys_of_get? sent)

theorem Consistent.unanswerable_reconnect
    (consistent : provider.Consistent config)
    (fresh : provider.isReconnecting = false)
    (unresolved : ∀ item response, provider.items[key]? = some item →
      .resolve response ∉ item.settlements) :
    (provider.reconnect config).Unanswerable key := by
  have reconnecting : Consistent config
      { provider with isReconnecting := true } :=
    consistent.congr rfl rfl rfl
  have rejected : (Provider.rejectAll { provider with isReconnecting := true }
      provider.sentRequestsQueue.keys
      .pendingRequestsOnReconnecting).Unanswerable key :=
    reconnecting.unanswerable_rejectAll _
      (fun id owner sent => OrderedMap.mem_keys_of_get? sent) unresolved
  unfold Provider.reconnect
  rw [fresh, if_neg (by decide)]
  dsimp only
  split
  · exact rejected.of_rejecting (.of_items rfl) (.of_sent rfl [])
  · exact rejected.of_rejecting
      ((Rejecting.of_items rfl).trans (rejecting_clearQueues _))
      ((Sends.of_sent rfl []).trans (sends_clearQueues _))

end Unanswerable

end Provider

/-! ## Chunks that arrive at the provider -/

namespace ChunkResponseParser

/-- A chunk that makes the kept text too long clears the queues. -/
theorem clearings_of_overflow (errorListened : Bool)
    {parser : ChunkResponseParser} {pieces : List Text}
    (exceeded : feed maxChunkBytes parser.kept (marks pieces) = none) :
    (parsePieces errorListened parser pieces).clearings ≠ 0 := by
  induction pieces generalizing parser with
  | nil => cases exceeded
  | cons piece pieces induction =>
      rw [marks_cons, feed_units, feed_mark, ← chunkData_eq] at exceeded
      rw [parsePieces]
      dsimp only
      by_cases long : maxChunkBytes < (parser.chunkData piece).length
      · rw [if_pos long]
        split
        · exact Nat.succ_ne_zero _
        · exact Nat.one_ne_zero
      · rw [if_neg long]
        rw [endPiece, if_neg long] at exceeded
        cases parsed : parse (parser.chunkData piece) with
        | none =>
            simp only [parsed, Option.bind_some, Option.map_eq_none_iff]
              at exceeded
            exact induction exceeded
        | some result =>
            simp only [parsed, Option.bind_some, Option.map_eq_none_iff]
              at exceeded
            have later : (parsePieces errorListened { parser with
                lastChunk := none, timerRunning := false }
                pieces).clearings ≠ 0 := induction exceeded
            dsimp only
            split <;> exact later

end ChunkResponseParser

namespace Receiver

section Receiving

variable {config : Config} {reading : Reading} {errorListened : Bool}
  {receiver : Receiver} {key : Nat}

theorem consistent_iterate {provider : Provider}
    (consistent : provider.Consistent config) (times : Nat) :
    (Nat.iterate Provider.clearQueues times provider).Consistent config := by
  induction times generalizing provider with
  | zero => exact consistent
  | succ times induction => exact induction consistent.clearQueues

theorem consistent_receive
    (consistent : receiver.provider.Consistent config) (text : Text) :
    (receiver.receive config reading errorListened
      text).provider.Consistent config := by
  have cleared := consistent_iterate consistent
    (receiver.parser.parseResponse errorListened text).clearings
  unfold receive
  dsimp only
  split
  · exact cleared
  · exact cleared.onMessage _

theorem unanswerable_iterate {provider : Provider}
    (unanswerable : provider.Unanswerable key) (times : Nat) :
    (Nat.iterate Provider.clearQueues times provider).Unanswerable key := by
  induction times generalizing provider with
  | zero => exact unanswerable
  | succ times induction =>
      exact induction (unanswerable.of_rejecting
        (Provider.rejecting_clearQueues _) (Provider.sends_clearQueues _))

theorem unanswerable_receive
    (consistent : receiver.provider.Consistent config)
    (unanswerable : receiver.provider.Unanswerable key) (text : Text) :
    (receiver.receive config reading errorListened
      text).provider.Unanswerable key := by
  have cleared := unanswerable_iterate unanswerable
    (receiver.parser.parseResponse errorListened text).clearings
  unfold receive
  dsimp only
  split
  · exact cleared
  · exact cleared.onMessage (consistent_iterate consistent _) _

theorem unanswerable_run (consistent : receiver.provider.Consistent config)
    (unanswerable : receiver.provider.Unanswerable key)
    (chunks : List Text) :
    (Web3Js.run (receive config reading errorListened) receiver
      chunks).provider.Unanswerable key := by
  have preserved : Run.Preserves (receive config reading errorListened)
      fun receiver => receiver.provider.Consistent config ∧
        receiver.provider.Unanswerable key :=
    fun _ text both => ⟨consistent_receive both.1 text,
      unanswerable_receive both.1 both.2 text⟩
  exact (Run.invariant preserved ⟨consistent, unanswerable⟩ chunks).2

/-- The parser gives up on a chunk. -/
theorem unanswerable_of_overflow
    (consistent : receiver.provider.Consistent config)
    (unresolved : ∀ item response, receiver.provider.items[key]? = some item →
      .resolve response ∉ item.settlements) {text : Text}
    (exceeded : feed maxChunkBytes receiver.parser.kept
      (cuts .plain (marks [text])) = none) :
    (receiver.receive config reading errorListened
      text).provider.Unanswerable key := by
  rw [← marks_dechunk, List.flatMap_singleton] at exceeded
  have clearings :=
    ChunkResponseParser.clearings_of_overflow errorListened exceeded
  obtain ⟨times, more⟩ := Nat.exists_eq_succ_of_ne_zero clearings
  have cleared : (Nat.iterate Provider.clearQueues (times + 1)
      receiver.provider).Unanswerable key :=
    unanswerable_iterate (consistent.unanswerable_clearQueues unresolved) times
  have still := consistent_iterate consistent (times + 1)
  unfold receive
  dsimp only
  rw [ChunkResponseParser.parseResponse, more]
  split
  · exact cleared
  · exact cleared.onMessage still _

/-- A chunk that the parser reads without an error. -/
theorem provider_receive (config : Config) (reading : Reading)
    {errorListened : Bool} {receiver : Receiver} {text : Text}
    {values : List Tree}
    (returned : (receiver.parser.parseResponse errorListened
      text).returnValues = some values)
    (clearings : (receiver.parser.parseResponse errorListened
      text).clearings = 0) :
    (receiver.receive config reading errorListened text).provider =
      receiver.provider.onMessage config (values.map reading.read) := by
  unfold receive
  simp only [returned, clearings]
  rfl

theorem receive_gives (config : Config) (reading : Reading)
    (errorListened : Bool) {receiver : Receiver} {text : Text} {fed : Fed}
    (isFed : feed maxChunkBytes receiver.parser.kept
      (cuts .plain (marks [text])) = some fed) :
    (receiver.receive config reading errorListened text).provider =
        receiver.provider.onMessage config (fed.values.map reading.read) ∧
      (receiver.receive config reading errorListened text).parser.kept =
        fed.kept := by
  have gives := parseResponse_gives errorListened isFed
  refine ⟨provider_receive config reading gives.returnValues gives.clearings,
    ?_⟩
  rw [parser_receive]
  exact gives.kept

theorem onMessage_nothing (auto : config.autoReconnect = true)
    (provider : Provider) :
    provider.onMessage config [] = provider.reconnect config := by
  unfold Provider.onMessage
  simp [auto]

/-- While it reconnects, the provider ignores chunks without values. -/
theorem run_nothing (auto : config.autoReconnect = true)
    (reconnecting : receiver.provider.isReconnecting = true)
    {chunks : List Text} {fed : Fed}
    (isFed : feed maxChunkBytes receiver.parser.kept
      (cuts .plain (marks chunks)) = some fed) (nothing : fed.values = []) :
    (Web3Js.run (receive config reading errorListened) receiver
        chunks).provider = receiver.provider ∧
      (Web3Js.run (receive config reading errorListened) receiver
        chunks).parser.kept = fed.kept := by
  induction chunks generalizing receiver fed with
  | nil =>
      rw [marks, List.flatMap_nil, cuts_nil] at isFed
      cases isFed
      exact ⟨rfl, rfl⟩
  | cons chunk chunks induction =>
      obtain ⟨first, rest, isFirst, isRest, rfl⟩ := feed_marks_cons isFed
      obtain ⟨noneFirst, noneRest⟩ := List.append_eq_nil_iff.mp nothing
      obtain ⟨provider, kept⟩ :=
        receive_gives config reading errorListened isFirst
      have same : (receiver.receive config reading errorListened
          chunk).provider = receiver.provider := by
        rw [provider, noneFirst, List.map_nil, onMessage_nothing auto,
          Provider.reconnect, if_pos reconnecting]
      rw [← kept] at isRest
      obtain ⟨rest, last⟩ := induction (by rwa [same]) isRest noneRest
      exact ⟨rest.trans same, last⟩

/-- If the text gets too long while it arrives, the queues are cleared. -/
theorem unanswerable_of_long (auto : config.autoReconnect = true)
    (consistent : receiver.provider.Consistent config)
    (reconnecting : receiver.provider.isReconnecting = true)
    (unresolved : ∀ item response, receiver.provider.items[key]? = some item →
      .resolve response ∉ item.settlements) {chunks : List Text}
    (parts : ∀ before after fed, chunks = before ++ after → after ≠ [] →
      feed maxChunkBytes receiver.parser.kept (cuts .plain (marks before)) =
        some fed → fed.values = [])
    (exceeded : feed maxChunkBytes receiver.parser.kept
      (cuts .plain (marks chunks)) = none) :
    (Web3Js.run (receive config reading errorListened) receiver
      chunks).provider.Unanswerable key := by
  induction chunks generalizing receiver with
  | nil =>
      rw [marks, List.flatMap_nil, cuts_nil] at exceeded
      cases exceeded
  | cons chunk chunks induction =>
      rw [Web3Js.run, List.foldl_cons]
      cases isFirst : feed maxChunkBytes receiver.parser.kept
          (cuts .plain (marks [chunk])) with
      | none =>
          exact unanswerable_run (consistent_receive consistent chunk)
            (unanswerable_of_overflow consistent unresolved isFirst) chunks
      | some first =>
          have joined : ∀ others, feed maxChunkBytes receiver.parser.kept
              (cuts .plain (marks (chunk :: others))) =
                (feed maxChunkBytes first.kept
                  (cuts .plain (marks others))).map first.andThen := by
            intro others
            rw [← List.singleton_append, marks_append, cuts_marks_append,
              feed_after isFirst]
          rw [joined, Option.map_eq_none_iff] at exceeded
          have present : chunks ≠ [] := by
            rintro rfl
            rw [marks, List.flatMap_nil, cuts_nil] at exceeded
            cases exceeded
          have nothing := parts [chunk] chunks first rfl present isFirst
          obtain ⟨provider, kept⟩ :=
            receive_gives config reading errorListened isFirst
          have same : (receiver.receive config reading errorListened
              chunk).provider = receiver.provider := by
            rw [provider, nothing, List.map_nil, onMessage_nothing auto,
              Provider.reconnect, if_pos reconnecting]
          apply induction
          · exact consistent_receive consistent chunk
          · rwa [same]
          · rwa [same]
          · intro before after fed split later isFed
            rw [kept] at isFed
            have whole := joined before
            rw [isFed] at whole
            have values := parts (chunk :: before) after _
              (congrArg (chunk :: ·) split) later whole
            exact (List.append_eq_nil_iff.mp values).2
          · rwa [kept]

/-- The request at the position has been resolved with the response. -/
def ResolvedWith (receiver : Receiver) (key : Nat) (response : Json) : Prop :=
  ∃ item, receiver.provider.items[key]? = some item ∧
    .resolve response ∈ item.settlements

/-- One response resolves a request with nothing but itself. -/
theorem resolved_by_one {provider : Provider}
    (consistent : provider.Consistent config)
    (unresolved : ∀ item response, provider.items[key]? = some item →
      .resolve response ∉ item.settlements) {value response : Json}
    {item : Item} (found : (provider.onMessage config [value]).items[key]? =
      some item) (resolved : .resolve response ∈ item.settlements) :
    value = response := by
  rcases consistent.onMessage_cases [value] found resolved with
    ⟨before, beforeFound, -, -, already⟩ |
    ⟨reached, id, isBatch, -, -, -, -, reaches, -⟩
  · exact absurd already (unresolved before response beforeFound)
  · have member : response ∈ [value].filter Json.truthy := by
      generalize [value].filter Json.truthy = responses at reaches ⊢
      induction reaches with
      | here => exact List.mem_cons_self
      | later _ _ _ induction => exact List.mem_cons_of_mem _ induction
    exact (List.mem_singleton.mp (List.mem_filter.mp member).1).symm

/-- What the last chunk of a text does, when the provider waited for it. -/
theorem receive_final (config : Config) (reading : Reading)
    (errorListened : Bool) {receiver : Receiver} {chunks : List Text}
    {final : Text} {found : Tree}
    (parts : ∀ fed, feed maxChunkBytes [] (cuts .plain (marks chunks)) =
      some fed → fed.values = [])
    (isFed : feed maxChunkBytes [] (cuts .plain
      (marks (chunks ++ [final]))) = some ⟨[found], []⟩)
    (auto : config.autoReconnect = true)
    (between : receiver.parser.kept = [])
    (waits : chunks = [] ∨ receiver.provider.isReconnecting = true) :
    (Web3Js.run (receive config reading errorListened) receiver
        (chunks ++ [final])).provider =
      receiver.provider.onMessage config [reading.read found] := by
  rw [marks_append, cuts_marks_append, feed_append] at isFed
  obtain ⟨first, isFirst, later⟩ := Option.bind_eq_some_iff.mp isFed
  obtain ⟨rest, isRest, same⟩ := Option.map_eq_some_iff.mp later
  have nothing := parts first isFirst
  have values : rest.values = [found] := by
    have joined : first.values ++ rest.values = [found] :=
      congrArg Fed.values same
    rwa [nothing] at joined
  rw [← between] at isFirst
  have before : (Web3Js.run (receive config reading errorListened) receiver
        chunks).provider = receiver.provider ∧
      (Web3Js.run (receive config reading errorListened) receiver
        chunks).parser.kept = first.kept := by
    rcases waits with rfl | reconnecting
    · rw [marks, List.flatMap_nil, cuts_nil] at isFirst
      cases isFirst
      exact ⟨rfl, rfl⟩
    · exact run_nothing auto reconnecting isFirst nothing
  rw [← before.2] at isRest
  obtain ⟨provider, -⟩ := receive_gives config reading errorListened isRest
  rw [Web3Js.run, List.foldl_append, List.foldl_cons, List.foldl_nil,
    ← Web3Js.run, provider, values, before.1]
  rfl

end Receiving

/-- A response in several chunks is delivered like in one exactly when the
provider is reconnecting already, the text is not too long and it reads the
same without the separators that each chunk contains. -/
theorem resolved_in_chunks_iff (config : Config) (reading : Reading)
    (errorListened : Bool) {receiver : Receiver}
    (auto : config.autoReconnect = true)
    (reachable : Provider.Reachable config receiver.provider)
    (between : receiver.parser.kept = []) {key : Nat} {item : Item}
    (found : receiver.provider.items[key]? = some item) (inFlight : item.Open)
    {text : Text} {tree : Tree} (isDocument : IsDocument text tree)
    {response : Json}
    (delivered : ResolvedWith
      (receiver.receive config reading errorListened text) key response)
    {chunks : List Text} (content : chunks.flatten = text)
    (several : 2 ≤ chunks.length) (nonempty : ∀ chunk ∈ chunks, chunk ≠ []) :
    ResolvedWith (Web3Js.run (receive config reading errorListened) receiver
        chunks) key response ↔
      receiver.provider.isReconnecting = true ∧
        (chunks.flatMap withoutSeparators).length ≤ maxChunkBytes ∧
        (parse (chunks.flatMap withoutSeparators)).map reading.read =
          some response := by
  have consistent := reachable.consistent
  have unresolved : ∀ other response,
      receiver.provider.items[key]? = some other →
        .resolve response ∉ other.settlements := by
    intro other response otherFound
    rw [found] at otherFound
    cases otherFound
    rw [inFlight.silent]
    exact List.not_mem_nil
  have notLost : ∀ other : Receiver, other.provider.Unanswerable key →
      ¬ ResolvedWith other key response := by
    rintro other unanswerable ⟨after, afterFound, resolved⟩
    exact unanswerable.unresolved after response afterFound resolved
  -- In one chunk, the text is not too long and has the value `response`.
  have present : text ≠ [] := by
    obtain ⟨first, inner, last, enclosed⟩ := enclosed_of_document isDocument
    rw [enclosed.text]
    exact List.cons_ne_nil _ _
  have single : ([] ++ [text]).flatten = text := List.flatten_singleton
  obtain ⟨one, -, -, fedOne⟩ := feed_whole isDocument single present
  have atOnce : receiver.provider.onMessage config [reading.read one] =
        (receiver.receive config reading errorListened text).provider ∧
      reading.read one = response := by
    have isFed := fedOne maxChunkBytes
    split at isFed
    · have nothing : ∀ fed, feed maxChunkBytes [] (cuts .plain (marks [])) =
          some fed → fed.values = [] := by
        intro fed isNone
        rw [marks, List.flatMap_nil, cuts_nil] at isNone
        cases isNone
        rfl
      have provider := receive_final config reading errorListened nothing
        isFed auto between (.inl rfl)
      obtain ⟨after, afterFound, resolved⟩ := delivered
      have same : (receiver.receive config reading errorListened
          text).provider = receiver.provider.onMessage config
            [reading.read one] := provider
      rw [same] at afterFound
      exact ⟨same.symm,
        resolved_by_one consistent unresolved afterFound resolved⟩
    · rw [← between] at isFed
      exact absurd delivered (notLost _
        (unanswerable_of_overflow consistent unresolved isFed))
  obtain rfl | ⟨others, final, rfl⟩ := List.eq_nil_or_concat' chunks
  · exact absurd several (by decide)
  have finalPresent := nonempty final (by simp)
  obtain ⟨whole, parsed, -, fedWhole⟩ := feed_whole isDocument content
    finalPresent
  have parts : ∀ before after fed, others ++ [final] = before ++ after →
      after ≠ [] → feed maxChunkBytes [] (cuts .plain (marks before)) =
        some fed → fed.values = [] := by
    intro before after fed split later isFed
    have begun : before = [] ∨ before.flatten ≠ [] := by
      cases before with
      | nil => exact .inl rfl
      | cons chunk before =>
          right
          rw [List.flatten_cons]
          apply List.append_ne_nil_of_left_ne_nil
          exact nonempty chunk (by simp [split])
    have unfinished : after.flatten ≠ [] := by
      obtain ⟨chunk, rest, rfl⟩ := List.exists_cons_of_ne_nil later
      rw [List.flatten_cons]
      apply List.append_ne_nil_of_left_ne_nil
      exact nonempty chunk (by simp [split])
    rw [split, List.flatten_append] at content
    exact values_of_part isDocument content.symm begun unfinished isFed
  have before : ∀ fed, feed maxChunkBytes [] (cuts .plain (marks others)) =
      some fed → fed.values = [] := fun fed isFed =>
    parts others [final] fed rfl (List.cons_ne_nil _ _) isFed
  rw [← strip_marks, parsed, Option.map_some, Option.some.injEq]
  constructor
  · intro resolved
    have reconnecting : receiver.provider.isReconnecting = true := by
      by_contra fresh
      have more : others ≠ [] := by
        rintro rfl
        exact absurd several (Nat.not_succ_le_self 1)
      obtain ⟨chunk, rest, rfl⟩ := List.exists_cons_of_ne_nil more
      apply notLost _ _ resolved
      rw [List.cons_append, Web3Js.run, List.foldl_cons]
      apply unanswerable_run (consistent_receive consistent chunk)
      cases isFirst : feed maxChunkBytes receiver.parser.kept
          (cuts .plain (marks [chunk])) with
      | none => exact unanswerable_of_overflow consistent unresolved isFirst
      | some first =>
          obtain ⟨provider, -⟩ :=
            receive_gives config reading errorListened isFirst
          rw [between] at isFirst
          have nothing := parts [chunk] (rest ++ [final]) first rfl
            (List.append_ne_nil_of_right_ne_nil _ (List.cons_ne_nil _ _))
            isFirst
          rw [provider, nothing, List.map_nil, onMessage_nothing auto]
          exact consistent.unanswerable_reconnect
            (Bool.eq_false_iff.mpr fresh) unresolved
    have isFed := fedWhole maxChunkBytes
    split at isFed
    · rename_i short
      have provider := receive_final config reading errorListened before isFed
        auto between (.inr reconnecting)
      obtain ⟨after, afterFound, isResolved⟩ := resolved
      rw [provider] at afterFound
      exact ⟨reconnecting, short,
        resolved_by_one consistent unresolved afterFound isResolved⟩
    · apply absurd resolved
      apply notLost
      rw [← between] at parts isFed
      exact unanswerable_of_long auto consistent reconnecting unresolved parts
        isFed
  · rintro ⟨reconnecting, short, same⟩
    have isFed := fedWhole maxChunkBytes
    rw [if_pos short] at isFed
    have provider := receive_final config reading errorListened before isFed
      auto between (.inr reconnecting)
    obtain ⟨after, afterFound, resolved⟩ := delivered
    rw [← atOnce.1, atOnce.2] at afterFound
    refine ⟨after, ?_, resolved⟩
    rw [provider, same]
    exact afterFound

/-- A request with the id 1 has been sent. -/
def waitingReceiver : Receiver where
  provider := Web3Js.run (Provider.step Provider.defaultConfig)
    Provider.initial [Provider.requestOne]
  parser := { autoReconnect := true }

theorem reachable_waitingReceiver :
    Provider.Reachable Provider.defaultConfig waitingReceiver.provider :=
  ⟨[Provider.requestOne], rfl⟩

/-- The chunks `{"jsonrpc":"2.0",` and `"id":1,"result":true}` -/
def resultChunks : List Text :=
  [plainText "\x7b\"jsonrpc\":\"2.0\",",
    plainText "\"id\":1,\"result\":true\x7d"]

def trueValue : Json :=
  .object [("result", .boolean true), ("id", .number 1),
    ("jsonrpc", .string "2.0")]

theorem read_trueResult : plainReading.read trueResult.tree = trueValue := rfl

theorem resolved_at_once :
    ResolvedWith (waitingReceiver.receive Provider.defaultConfig plainReading
      true trueResult.text) 0 trueValue := by
  have returned : (waitingReceiver.parser.parseResponse true
      trueResult.text).returnValues = some [trueResult.tree] := rfl
  have provider := provider_receive Provider.defaultConfig plainReading
    returned rfl
  rw [List.map_singleton, read_trueResult] at provider
  have settlements : (waitingReceiver.provider.onMessage
      Provider.defaultConfig [trueValue]).items[0]?.map Item.settlements =
        some [.resolve trueValue] := rfl
  obtain ⟨item, found, same⟩ := Option.map_eq_some_iff.mp settlements
  refine ⟨item, ?_, ?_⟩
  · rw [provider]
    exact found
  · rw [same]
    exact List.mem_singleton.mpr rfl

theorem resolved_in_chunks_iff_waitingReceiver :
    ResolvedWith (Web3Js.run (receive Provider.defaultConfig plainReading true)
        waitingReceiver resultChunks) 0 trueValue ↔
      waitingReceiver.provider.isReconnecting = true ∧
        (resultChunks.flatMap withoutSeparators).length ≤ maxChunkBytes ∧
        (parse (resultChunks.flatMap withoutSeparators)).map
            plainReading.read = some trueValue := by
  have inFlight : ∃ item, waitingReceiver.provider.items[0]? = some item ∧
      item.Open := by
    have queued : waitingReceiver.provider.sentRequestsQueue.get?
        (.number 1) = some 0 := by decide
    obtain ⟨item, found, isOpen, -⟩ :=
      reachable_waitingReceiver.consistent.sentOwned _ _ queued
    exact ⟨item, found, isOpen⟩
  obtain ⟨item, found, isOpen⟩ := inFlight
  exact resolved_in_chunks_iff Provider.defaultConfig plainReading true rfl
    reachable_waitingReceiver rfl found isOpen trueResult.isDocument
    resolved_at_once rfl (by decide) (by decide)

theorem reconnect_firstChunk : (waitingReceiver.receive Provider.defaultConfig
    plainReading true (plainText "\x7b\"jsonrpc\":\"2.0\",")).provider =
      waitingReceiver.provider.reconnect Provider.defaultConfig := by
  have noValue : (waitingReceiver.parser.parseResponse true
      (plainText "\x7b\"jsonrpc\":\"2.0\",")).returnValues = some [] := rfl
  have noClearing : (waitingReceiver.parser.parseResponse true
      (plainText "\x7b\"jsonrpc\":\"2.0\",")).clearings = 0 := rfl
  have provider := provider_receive Provider.defaultConfig plainReading noValue
    noClearing
  rw [List.map_nil, onMessage_nothing rfl] at provider
  exact provider

theorem provider_resultChunks :
    (Web3Js.run (receive Provider.defaultConfig plainReading true)
        waitingReceiver resultChunks).provider =
      (waitingReceiver.provider.reconnect Provider.defaultConfig).onMessage
        Provider.defaultConfig [trueValue] := by
  have returned : ((waitingReceiver.receive Provider.defaultConfig plainReading
      true (plainText "\x7b\"jsonrpc\":\"2.0\",")).parser.parseResponse true
        (plainText "\"id\":1,\"result\":true\x7d")).returnValues =
          some [trueResult.tree] := by
    rw [parser_receive]
    rfl
  have clearings : ((waitingReceiver.receive Provider.defaultConfig
      plainReading true (plainText "\x7b\"jsonrpc\":\"2.0\",")
        ).parser.parseResponse true
          (plainText "\"id\":1,\"result\":true\x7d")).clearings = 0 := by
    rw [parser_receive]
    rfl
  have second := provider_receive Provider.defaultConfig plainReading returned
    clearings
  rw [List.map_singleton, read_trueResult, reconnect_firstChunk] at second
  rw [resultChunks, Web3Js.run, List.foldl_cons, List.foldl_cons,
    List.foldl_nil]
  exact second

/-- The first chunk makes the provider reconnect and reject the request. -/
theorem not_resolved_in_chunks :
    ResolvedWith (waitingReceiver.receive Provider.defaultConfig plainReading
        true trueResult.text) 0 trueValue ∧
      resultChunks.flatten = trueResult.text ∧
      ¬ ResolvedWith (Web3Js.run (receive Provider.defaultConfig plainReading
        true) waitingReceiver resultChunks) 0 trueValue := by
  refine ⟨resolved_at_once, rfl, ?_⟩
  have rejected : ((waitingReceiver.provider.reconnect
      Provider.defaultConfig).onMessage Provider.defaultConfig
        [trueValue]).items[0]?.map Item.settlements =
          some [.reject .pendingRequestsOnReconnecting] := rfl
  rintro ⟨item, found, resolved⟩
  rw [provider_resultChunks] at found
  rw [found] at rejected
  have settlements : item.settlements =
      [.reject .pendingRequestsOnReconnecting] := Option.some.inj rejected
  rw [settlements] at resolved
  cases List.mem_singleton.mp resolved

end Receiver

end Web3Js.Socket
