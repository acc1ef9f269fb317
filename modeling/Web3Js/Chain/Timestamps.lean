import Web3Js.Chain.Activation

/-!
# Hardforks of a block and a time

Hardforks that are scheduled by block come first and those that are scheduled
by time after them.  A block number and a timestamp then give the last hardfork
that both have reached, unless the timestamp is past a hardfork that the block
number has not come to.
-/

namespace Web3Js.Chain

/-- The hardforks of blocks and behind them those of times. -/
structure Staged (blockForks timeForks : List HardforkConfig) : Prop where
  blocks : ∀ hf ∈ blockForks, (∃ block, hf.block = some block) ∧
    hf.timestamp = none
  times : ∀ hf ∈ timeForks, hf.block = none ∧
    ∃ time, hf.timestamp = some time
  inTime : timeForks.Pairwise fun first second =>
    ∀ early late, first.timestamp = some early → second.timestamp = some late →
      early ≤ late

/-- A hardfork of a block is still to come, and one of a time is past. -/
def Contradictory (hardforks : List HardforkConfig)
    (blockNumber timestamp : Nat) : Prop :=
  (∃ hf ∈ hardforks, ∃ block, hf.block = some block ∧ blockNumber < block) ∧
    ∃ hf ∈ hardforks, ∃ time, hf.timestamp = some time ∧ time < timestamp

variable {blockForks timeForks before after : List HardforkConfig}
  {hf : HardforkConfig} {blockNumber timestamp : Nat}

theorem HardforkConfig.comesAfter_some :
    hf.comesAfter blockNumber (some timestamp) = true ↔
      (∃ block, hf.block = some block ∧ blockNumber < block) ∨
        ∃ time, hf.timestamp = some time ∧ timestamp < time := by
  unfold comesAfter
  cases hf.block <;> cases hf.timestamp <;> simp

/-! ## The timestamps of a candidate -/

theorem foldl_max_le {hfs : List HardforkConfig} {start bound : Nat}
    (low : start ≤ bound)
    (times : ∀ hf ∈ hfs, ∀ time, hf.timestamp = some time → time ≤ bound) :
    hfs.foldl (fun acc hf => max (hf.timestamp.getD 0) acc) start ≤ bound := by
  induction hfs generalizing start with
  | nil => exact low
  | cons hf hfs induction =>
      obtain ⟨first, rest⟩ := List.forall_mem_cons.mp times
      refine induction (Nat.max_le.mpr ⟨?_, low⟩) rest
      cases time : hf.timestamp with
      | none => exact Nat.zero_le _
      | some scheduled => exact first scheduled time

theorem foldl_min_lt {hfs : List HardforkConfig} {start bound : Nat}
    (high : start ≤ bound) :
    hfs.foldl (fun acc hf => min (hf.timestamp.getD bound) acc) start < bound ↔
      start < bound ∨
        ∃ hf ∈ hfs, ∃ time, hf.timestamp = some time ∧ time < bound := by
  induction hfs generalizing start with
  | nil => simp
  | cons hf hfs induction =>
      have either : min (hf.timestamp.getD bound) start < bound ↔
          start < bound ∨ ∃ time, hf.timestamp = some time ∧ time < bound := by
        cases time : hf.timestamp with
        | none =>
            rw [Option.getD_none, Nat.min_eq_right high]
            simp
        | some scheduled =>
            rw [Option.getD_some]
            constructor
            · intro less
              by_cases before : start < bound
              · exact .inl before
              · exact .inr ⟨scheduled, rfl, by omega⟩
            · rintro (less | ⟨_, ⟨⟩, less⟩)
              · omega
              · omega
      rw [List.foldl_cons, induction (Nat.le_trans (Nat.min_le_right _ _) high),
        either, List.exists_mem_cons_iff, or_assoc]

/-- The checks of a candidate before which no later time comes. -/
theorem checkTimestamps_of_reached
    (reached : ∀ other ∈ before, ∀ time, other.timestamp = some time →
      time ≤ timestamp) :
    ((∃ other ∈ after, ∃ time, other.timestamp = some time ∧
        time < timestamp) →
      checkTimestamps (before ++ hf :: after) before.length before.length
          (some timestamp) =
        .error
          "Maximum HF determined by block number is lower than timestamp HF") ∧
    ((¬∃ other ∈ after, ∃ time, other.timestamp = some time ∧
        time < timestamp) →
      checkTimestamps (before ++ hf :: after) before.length before.length
          (some timestamp) = .ok ()) := by
  cases timestamp with
  | zero =>
      refine ⟨?_, fun _ => rfl⟩
      rintro ⟨_, -, time, -, less⟩
      exact absurd less (Nat.not_lt_zero time)
  | succ timestamp =>
      have low := foldl_max_le (Nat.zero_le (timestamp + 1)) reached
      have high := @foldl_min_lt after _ _ (Nat.le_refl (timestamp + 1))
      rw [or_iff_right (Nat.lt_irrefl _)] at high
      rw [checkTimestamps, List.take_left' rfl, ← List.drop_drop,
        List.drop_left' rfl, List.drop_one, List.tail_cons,
        if_neg (Nat.not_lt.mpr low), ← high]
      exact ⟨fun earlier => if_pos earlier, fun none => if_neg none⟩

/-! ## Lookup by block number and time -/

/-- The lookup with a timestamp, its list being cut at the first hardfork that
is still to come. -/
theorem getHardforkByBlockNumber_of_isCut {hardforks : List HardforkConfig}
    (applied : ∀ hf ∈ hardforks, hf.isApplied = true)
    (cut : IsCut (HardforkConfig.comesAfter blockNumber (some timestamp))
      hardforks (before ++ [hf]) after) :
    getHardforkByBlockNumber hardforks blockNumber (some timestamp) =
      checkTimestamps (before ++ hf :: after) before.length before.length
        (some timestamp) >>= fun _ => .ok hf.name := by
  have whole : hardforks = before ++ hf :: after := by
    rw [cut.whole, List.append_assoc, List.singleton_append]
  have all : hardforks.filter HardforkConfig.isApplied = hardforks :=
    List.filter_eq_self.mpr applied
  have alone : scheduledTogether (hf :: after) = 0 := by
    cases behind : after with
    | nil => rfl
    | cons next rest =>
        rw [scheduledTogether, if_neg]
        rintro ⟨sameBlock, sameTime⟩
        have later := cut.after next (by rw [behind]; rfl)
        have notLater := cut.before hf
          (List.mem_append_right before List.mem_cons_self)
        have same : hf.comesAfter blockNumber (some timestamp) =
            next.comesAfter blockNumber (some timestamp) := by
          unfold HardforkConfig.comesAfter
          rw [sameBlock, sameTime]
        rw [same, later] at notLater
        cases notLater
  have length : (before ++ [hf]).length = before.length + 1 :=
    List.length_append
  have index := cut.findIdx?
  have position := cut.getD_findIdx?
  rw [length] at index position
  rw [getHardforkByBlockNumber, all]
  dsimp only
  split
  next first =>
      rw [first] at index
      split at index
      · cases index
      · cases index
  next search =>
      rw [position, candidate, if_neg (Nat.succ_ne_zero _),
        Nat.add_sub_cancel, whole]
      dsimp only
      rw [List.drop_left' rfl, alone, Nat.add_zero,
        List.getElem?_append_right (Nat.le_refl _), Nat.sub_self]
      rfl

/-- Where the hardforks still to come are only those of times, none of them is
past. -/
theorem not_earlier_of_times (staged : Staged blockForks timeForks)
    {front rest : List HardforkConfig} (split : timeForks = front ++ rest)
    (later : ∀ hf ∈ rest.head?,
      hf.comesAfter blockNumber (some timestamp) = true) :
    ¬∃ other ∈ rest, ∃ time, other.timestamp = some time ∧
      time < timestamp := by
  rintro ⟨other, among, time, scheduled, less⟩
  cases rest with
  | nil => cases among
  | cons first rest =>
      have isTime : first ∈ timeForks := by
        rw [split]
        exact List.mem_append_right front List.mem_cons_self
      rcases HardforkConfig.comesAfter_some.mp (later first rfl) with
        ⟨block, atBlock, -⟩ | ⟨start, starts, more⟩
      · rw [(staged.times first isTime).1] at atBlock
        cases atBlock
      · rcases List.mem_cons.mp among with rfl | among
        · rw [starts] at scheduled
          cases scheduled
          omega
        · have inTime := staged.inTime
          rw [split, List.pairwise_append, List.pairwise_cons] at inTime
          have notLess := inTime.2.1.1 other among start time starts scheduled
          omega

/-- A block number and a timestamp contradict each other exactly if a hardfork
still to come has an earlier time. -/
theorem contradictory_iff (staged : Staged blockForks timeForks)
    {run rest : List HardforkConfig}
    (cut : IsCut (HardforkConfig.comesAfter blockNumber (some timestamp))
      (blockForks ++ timeForks) run rest) :
    Contradictory (blockForks ++ timeForks) blockNumber timestamp ↔
      ∃ other ∈ rest, ∃ time, other.timestamp = some time ∧
        time < timestamp := by
  have whole := cut.whole
  rw [List.append_eq_append_iff] at whole
  constructor
  · rintro ⟨⟨late, among, block, atBlock, more⟩, early, amongEarly, time,
      scheduled, less⟩
    have isBlock : late ∈ blockForks := by
      refine (List.mem_append.mp among).resolve_right fun inTimes => ?_
      rw [(staged.times late inTimes).1] at atBlock
      cases atBlock
    have isTime : early ∈ timeForks := by
      refine (List.mem_append.mp amongEarly).resolve_left fun inBlocks => ?_
      rw [(staged.blocks early inBlocks).2] at scheduled
      cases scheduled
    refine ⟨early, ?_, time, scheduled, less⟩
    rcases whole with ⟨front, rfl, -⟩ | ⟨between, -, rfl⟩
    · have notLater := cut.before late (List.mem_append_left front isBlock)
      rw [HardforkConfig.comesAfter_some.mpr
        (.inl ⟨block, atBlock, more⟩)] at notLater
      cases notLater
    · exact List.mem_append_right between isTime
  · intro earlier
    obtain ⟨early, among, scheduled⟩ := earlier
    refine ⟨?_, early, ?_, scheduled⟩
    · rcases whole with ⟨front, -, split⟩ | ⟨between, split, rfl⟩
      · exact absurd ⟨early, among, scheduled⟩
          (not_earlier_of_times staged split cut.after)
      · cases between with
        | nil =>
            exact absurd ⟨early, among, scheduled⟩
              (not_earlier_of_times staged (List.nil_append _).symm cut.after)
        | cons late between =>
            have isBlock : late ∈ blockForks := by
              rw [split]
              exact List.mem_append_right run List.mem_cons_self
            refine ⟨late, List.mem_append_left timeForks isBlock, ?_⟩
            rcases HardforkConfig.comesAfter_some.mp (cut.after late rfl) with
              atBlock | ⟨time, atTime, -⟩
            · exact atBlock
            · rw [(staged.blocks late isBlock).2] at atTime
              cases atTime
    · rw [cut.whole]
      exact List.mem_append_right run among

/-- A block number and a timestamp give the last hardfork of those that have
been reached from the start on, are refused where no hardfork has been reached
and where they contradict each other. -/
theorem getHardforkByBlockNumber_staged
    (staged : Staged blockForks timeForks)
    (blockNumber timestamp : Nat) :
    ∃ run rest, IsCut (HardforkConfig.comesAfter blockNumber (some timestamp))
        (blockForks ++ timeForks) run rest ∧
      (run = [] → rest ≠ [] →
        getHardforkByBlockNumber (blockForks ++ timeForks) blockNumber
          (some timestamp) =
            .error "Must have at least one hardfork at block 0") ∧
      ∀ before hf, run = before ++ [hf] →
        (Contradictory (blockForks ++ timeForks) blockNumber timestamp →
          getHardforkByBlockNumber (blockForks ++ timeForks) blockNumber
            (some timestamp) = .error
              "Maximum HF determined by block number is lower than timestamp HF"
          ) ∧
        (¬Contradictory (blockForks ++ timeForks) blockNumber timestamp →
          getHardforkByBlockNumber (blockForks ++ timeForks) blockNumber
            (some timestamp) = .ok hf.name) := by
  have applied : ∀ hf ∈ blockForks ++ timeForks, hf.isApplied = true := by
    intro hf among
    rw [HardforkConfig.isApplied]
    rcases List.mem_append.mp among with inBlocks | inTimes
    · obtain ⟨⟨block, scheduled⟩, -⟩ := staged.blocks hf inBlocks
      rw [scheduled]
      rfl
    · obtain ⟨-, time, scheduled⟩ := staged.times hf inTimes
      rw [scheduled, Option.isSome_some, Bool.or_true]
  obtain ⟨run, rest, cut⟩ := exists_isCut
    (HardforkConfig.comesAfter blockNumber (some timestamp))
    (blockForks ++ timeForks)
  refine ⟨run, rest, cut, ?_, ?_⟩
  · rintro rfl unfinished
    have index := cut.findIdx?
    rw [if_neg (by rw [List.isEmpty_iff]; exact unfinished)] at index
    rw [getHardforkByBlockNumber, List.filter_eq_self.mpr applied]
    dsimp only
    rw [index]
    rfl
  rintro before hf rfl
  rw [getHardforkByBlockNumber_of_isCut applied cut]
  have reached : ∀ other ∈ before, ∀ time, other.timestamp = some time →
      time ≤ timestamp := by
    intro other among time scheduled
    have notLater := cut.before other (List.mem_append_left [hf] among)
    rw [← Bool.not_eq_true, HardforkConfig.comesAfter_some] at notLater
    by_contra later
    exact notLater (.inr ⟨time, scheduled, Nat.not_le.mp later⟩)
  obtain ⟨refused, passed⟩ :=
    @checkTimestamps_of_reached before rest hf timestamp reached
  have exactly := contradictory_iff staged cut
  constructor
  · intro contradictory
    rw [refused (exactly.mp contradictory)]
    rfl
  · intro consistent
    rw [passed fun earlier => consistent (exactly.mpr earlier)]
    rfl

def earlyForks : List HardforkConfig :=
  [⟨"zond", some 0, none, none⟩, ⟨"later", some 5, none, none⟩]

def lateForks : List HardforkConfig := [⟨"latest", none, some 60, none⟩]

theorem staged_forks : Staged earlyForks lateForks := by
  refine ⟨?_, ?_, List.pairwise_singleton _ _⟩
  · simp [earlyForks]
  · simp [lateForks]

/-- The block number is before the second hardfork and the time past the third
one. -/
theorem getHardforkByBlockNumber_staged_forks :
    ∃ run rest, IsCut (HardforkConfig.comesAfter 3 (some 70))
        (earlyForks ++ lateForks) run rest ∧
      (run = [] → rest ≠ [] →
        getHardforkByBlockNumber (earlyForks ++ lateForks) 3 (some 70) =
          .error "Must have at least one hardfork at block 0") ∧
      ∀ before hf, run = before ++ [hf] →
        (Contradictory (earlyForks ++ lateForks) 3 70 →
          getHardforkByBlockNumber (earlyForks ++ lateForks) 3 (some 70) =
            .error
              "Maximum HF determined by block number is lower than timestamp HF"
          ) ∧
        (¬Contradictory (earlyForks ++ lateForks) 3 70 →
          getHardforkByBlockNumber (earlyForks ++ lateForks) 3 (some 70) =
            .ok hf.name) :=
  getHardforkByBlockNumber_staged staged_forks 3 70

end Web3Js.Chain
