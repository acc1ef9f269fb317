import Mathlib.Data.List.Nodup
import Web3Js.Chain.Schedule
import Web3Js.Lib.Cut

/-!
# The hardfork of a block

In a schedule whose blocks are in order, the hardfork of a block is the last
one that has started by then.  The comparisons of hardforks by their place
agree with it, and it stays until the block that is given as the next one.
-/

namespace Web3Js.Chain

/-- Block numbers only grow along the schedule, and no name occurs twice. -/
structure Ordered (hardforks : List HardforkConfig) : Prop where
  names : (hardforks.map (·.name)).Nodup
  blocks : hardforks.Pairwise fun first second =>
    ∀ early late, first.block = some early → second.block = some late →
      early ≤ late

/-- Started at a block up to the given one. -/
def HardforkConfig.startedBy (blockNumber : Nat) (hf : HardforkConfig) :
    Bool :=
  match hf.block with
  | some block => decide (block ≤ blockNumber)
  | none => false

variable {hardforks before after : List HardforkConfig} {hf : HardforkConfig}
  {blockNumber : Nat}

theorem HardforkConfig.startedBy_eq_true :
    hf.startedBy blockNumber = true ↔
      ∃ block, hf.block = some block ∧ block ≤ blockNumber := by
  rw [startedBy]
  cases hf.block with
  | none =>
      constructor
      · rintro ⟨⟩
      · rintro ⟨_, ⟨⟩, -⟩
  | some block => exact decide_eq_true_iff.trans (by simp)

theorem HardforkConfig.startedBy_eq_false :
    hf.startedBy blockNumber = false ↔
      ∀ block, hf.block = some block → blockNumber < block := by
  rw [startedBy]
  cases hf.block with
  | none =>
      constructor
      · rintro - _ ⟨⟩
      · exact fun _ => rfl
  | some block => exact decide_eq_false_iff_not.trans (by simp)

theorem HardforkConfig.comesAfter_none :
    hf.comesAfter blockNumber none = true ↔
      ∃ block, hf.block = some block ∧ blockNumber < block := by
  unfold comesAfter
  cases hf.block with
  | none =>
      constructor
      · rintro ⟨⟩
      · rintro ⟨_, ⟨⟩, -⟩
  | some block =>
      dsimp only
      rw [Bool.or_false, decide_eq_true_iff]
      simp

/-! ## Lookup by block number -/

theorem scheduledTogether_eq_zero {hfs : List HardforkConfig}
    (apart : ∀ next ∈ hfs.head?, hf.block ≠ next.block) :
    scheduledTogether (hf :: hfs) = 0 := by
  cases hfs with
  | nil => rfl
  | cons next hfs =>
      rw [scheduledTogether, if_neg]
      rintro ⟨same, -⟩
      exact apart next rfl same

/-- The hardfork of a block is the last one that has started. -/
theorem getHardforkByBlockNumber_of_isLast (ordered : Ordered hardforks)
    (last : IsLast (HardforkConfig.startedBy blockNumber) hardforks before hf
      after) :
    getHardforkByBlockNumber hardforks blockNumber none = .ok hf.name := by
  obtain ⟨block, scheduled, started⟩ :=
    HardforkConfig.startedBy_eq_true.mp last.holds
  have isApplied : hf.isApplied = true := by
    rw [HardforkConfig.isApplied, scheduled]
    rfl
  have blocks := ordered.blocks
  rw [last.whole, List.pairwise_append] at blocks
  -- what comes behind is cut at the first hardfork of a later block
  obtain ⟨between, rest, cut⟩ := exists_isCut
    (HardforkConfig.comesAfter blockNumber none)
    (after.filter HardforkConfig.isApplied)
  have notBetween : ∀ other ∈ between, other.block = none := by
    intro other among
    have listed : other ∈ after.filter HardforkConfig.isApplied := by
      rw [cut.whole]
      exact List.mem_append_left rest among
    have later := HardforkConfig.startedBy_eq_false.mp
      (last.after other (List.mem_of_mem_filter listed))
    have notLater := cut.before other among
    cases block : other.block with
    | none => rfl
    | some number =>
        rw [HardforkConfig.comesAfter_none.mpr
          ⟨number, block, later number block⟩] at notLater
        cases notLater
  have whole : hardforks.filter HardforkConfig.isApplied =
      (before.filter HardforkConfig.isApplied ++ hf :: between) ++ rest := by
    rw [last.whole, List.filter_append, List.filter_cons_of_pos isApplied,
      cut.whole, List.append_assoc, List.cons_append]
  have wholeCut : IsCut (HardforkConfig.comesAfter blockNumber none)
      (hardforks.filter HardforkConfig.isApplied)
      (before.filter HardforkConfig.isApplied ++ hf :: between) rest := by
    refine ⟨whole, fun other among => ?_, cut.after⟩
    rw [← Bool.not_eq_true, HardforkConfig.comesAfter_none]
    rintro ⟨number, later, much⟩
    rcases List.mem_append.mp among with early | among
    · have notMore := blocks.2.2 other (List.mem_of_mem_filter early) hf
        List.mem_cons_self number block later scheduled
      omega
    · rcases List.mem_cons.mp among with rfl | among
      · rw [scheduled] at later
        cases later
        omega
      · rw [notBetween other among] at later
        cases later
  have lastBlock : IsLast (·.block.isSome)
      (before.filter HardforkConfig.isApplied ++ hf :: between)
      (before.filter HardforkConfig.isApplied) hf between := by
    refine ⟨rfl, ?_, fun other among => ?_⟩
    · rw [scheduled]
      rfl
    · rw [notBetween other among]
      rfl
  have found : candidate (hardforks.filter HardforkConfig.isApplied)
      (before.filter HardforkConfig.isApplied ++ hf :: between).length none =
        some (before.filter HardforkConfig.isApplied).length := by
    rw [candidate, whole, List.take_left' rfl, lastBlock.findIdx?_reverse,
      List.length_append, List.length_cons]
    exact congrArg some (by omega)
  have alone : scheduledTogether (hf :: (between ++ rest)) = 0 := by
    apply scheduledTogether_eq_zero
    intro next isNext
    rw [scheduled]
    cases together : between with
    | nil =>
        rw [together, List.nil_append] at isNext
        obtain ⟨number, later, much⟩ :=
          HardforkConfig.comesAfter_none.mp (cut.after next isNext)
        rw [later]
        intro same
        cases same
        omega
    | cons other others =>
        rw [together] at isNext
        cases isNext
        have among : next ∈ between := by
          rw [together]
          exact List.mem_cons_self
        rw [notBetween next among]
        rintro ⟨⟩
  have notFirst : (before.filter HardforkConfig.isApplied ++
      hf :: between).length ≠ 0 := by
    rw [List.length_append, List.length_cons]
    omega
  have index := wholeCut.findIdx?
  have position := wholeCut.getD_findIdx?
  rw [getHardforkByBlockNumber]
  dsimp only
  split
  next first =>
      rw [first] at index
      split at index
      · cases index
      · exact absurd (Option.some.inj index).symm notFirst
  next search =>
      rw [position, found]
      dsimp only
      rw [whole, List.append_assoc, List.drop_left' rfl, List.cons_append,
        alone, Nat.add_zero, checkTimestamps, Outcome.ok_bind,
        List.getElem?_append_right (Nat.le_refl _), Nat.sub_self]
      rfl

/-! ## Places in the schedule -/

theorem lastPosition_eq_none {name : String}
    (absent : name ∉ hardforks.map (·.name)) :
    lastPosition name hardforks = none := by
  induction hardforks with
  | nil => rfl
  | cons hf hardforks induction =>
      rw [List.map_cons, List.mem_cons, not_or] at absent
      rw [lastPosition, induction absent.2]
      exact if_neg fun same => absent.1 same.symm

theorem lastPosition_of_nodup (hf : HardforkConfig)
    (names : ((before ++ hf :: after).map (·.name)).Nodup) :
    lastPosition hf.name (before ++ hf :: after) = some before.length := by
  induction before with
  | nil =>
      rw [List.nil_append, List.map_cons, List.nodup_cons] at names
      rw [List.nil_append, lastPosition, lastPosition_eq_none names.1]
      exact if_pos rfl
  | cons first before induction =>
      rw [List.cons_append, List.map_cons, List.nodup_cons] at names
      rw [List.cons_append, lastPosition, induction names.2]
      rfl

/-- A name is that of one place only. -/
theorem split_of_name {hf' : HardforkConfig}
    {before' after' : List HardforkConfig}
    (names : ((before ++ hf :: after).map (·.name)).Nodup)
    (same : before ++ hf :: after = before' ++ hf' :: after')
    (sameName : hf.name = hf'.name) :
    before = before' ∧ hf = hf' ∧ after = after' := by
  have place := lastPosition_of_nodup hf names
  rw [same] at names place
  rw [sameName, lastPosition_of_nodup hf' names, Option.some.injEq] at place
  obtain ⟨fronts, rests⟩ := List.append_inj same place.symm
  cases rests
  exact ⟨fronts, rfl, rfl⟩

theorem find?_name_of_nodup (hf : HardforkConfig)
    (names : ((before ++ hf :: after).map (·.name)).Nodup) :
    (before ++ hf :: after).find? (·.name = hf.name) = some hf := by
  induction before with
  | nil =>
      have here : decide (hf.name = hf.name) = true := decide_eq_true rfl
      exact List.find?_cons_of_pos here
  | cons first before induction =>
      rw [List.cons_append, List.map_cons, List.nodup_cons] at names
      rw [List.cons_append, List.find?_cons_of_neg, induction names.2]
      rw [decide_eq_true_iff]
      intro same
      apply names.1
      rw [same]
      exact List.mem_map_of_mem
        (List.mem_append_right before List.mem_cons_self)

theorem findIdx?_name_of_nodup (hf : HardforkConfig)
    (names : ((before ++ hf :: after).map (·.name)).Nodup) :
    (before ++ hf :: after).findIdx? (·.name = hf.name) =
      some before.length := by
  have cut : IsCut (fun other : HardforkConfig => decide (other.name = hf.name))
      (before ++ hf :: after) before (hf :: after) := by
    refine ⟨rfl, fun other among => ?_, ?_⟩
    · rw [decide_eq_false_iff_not]
      intro same
      rw [List.map_append, List.map_cons, List.nodup_append] at names
      exact names.2.2 other.name (List.mem_map_of_mem among) hf.name
        List.mem_cons_self same
    · rintro _ ⟨⟩
      exact decide_eq_true rfl
  exact cut.findIdx?

/-- The hardfork that is set for a block is the last one that has started, and
the other functions agree with it: a hardfork of a block is up to the one that
is set exactly if it has started, and it is said to be active then unless it is
one of block zero. -/
theorem setHardforkByBlockNumber_agrees (common : Common)
    (ordered : Ordered common.hardforks)
    (listed : common.changes = common.hardforks.map (·.name))
    (blockNumber : Nat)
    (reached : ∃ hf ∈ common.hardforks, hf.startedBy blockNumber = true) :
    ∃ hf ∈ common.hardforks,
      common.setHardforkByBlockNumber blockNumber none =
        .ok { common with hardfork := hf.name } ∧
      hf.startedBy blockNumber = true ∧
      ∀ other ∈ common.hardforks, ∀ block, other.block = some block →
        (Common.gteHardfork { common with hardfork := hf.name } other.name =
          true ↔ block ≤ blockNumber) ∧
        (common.hardforkIsActiveOnBlock (some other.name) blockNumber =
          true ↔ block ≠ 0 ∧ block ≤ blockNumber) := by
  obtain ⟨before, hf, after, last⟩ := exists_isLast reached
  refine ⟨hf, last.mem, ?_, last.holds, fun other among block scheduled => ?_⟩
  · rw [Common.setHardforkByBlockNumber,
      getHardforkByBlockNumber_of_isLast ordered last, Outcome.ok_bind,
      Common.setHardfork, listed, if_pos (List.mem_map_of_mem last.mem)]
  obtain ⟨start, hfScheduled, started⟩ :=
    HardforkConfig.startedBy_eq_true.mp last.holds
  obtain ⟨front, rest, split⟩ := List.append_of_mem among
  have names := ordered.names
  have blocks := ordered.blocks
  have place : lastPosition hf.name common.hardforks = some before.length := by
    rw [last.whole] at names ⊢
    exact lastPosition_of_nodup hf names
  have otherPlace : lastPosition other.name common.hardforks =
      some front.length := by
    rw [split] at names ⊢
    exact lastPosition_of_nodup other names
  constructor
  · rw [Common.gteHardfork, Common.hardforkGteHardfork, Option.getD_none]
    dsimp only
    rw [place, otherPlace]
    dsimp only
    rw [decide_eq_true_iff]
    constructor
    · intro notBehind
      by_cases same : front.length = before.length
      · obtain ⟨-, rests⟩ := List.append_inj (last.whole.symm.trans split)
          same.symm
        cases rests
        rw [hfScheduled] at scheduled
        cases scheduled
        exact started
      · -- the other hardfork is in front of the one that is set
        have inFront : front.length < before.length :=
          Nat.lt_of_le_of_ne notBehind same
        rw [List.pairwise_iff_getElem] at blocks
        have bound : before.length < common.hardforks.length := by
          rw [last.whole, List.length_append, List.length_cons]
          omega
        have notMore := blocks front.length before.length
          (Nat.lt_trans inFront bound) bound inFront block start
          (by simp only [split, List.getElem_append_right (Nat.le_refl _),
            Nat.sub_self, List.getElem_cons_zero, scheduled])
          (by simp only [last.whole, List.getElem_append_right (Nat.le_refl _),
            Nat.sub_self, List.getElem_cons_zero, hfScheduled])
        exact Nat.le_trans notMore started
    · intro notLater
      by_contra behind
      have otherLast : other ∈ after := by
        have member := among
        have index : common.hardforks[front.length]? = some other := by
          rw [split, List.getElem?_append_right (Nat.le_refl _), Nat.sub_self]
          rfl
        rw [last.whole, List.getElem?_append_right (by omega)] at index
        obtain ⟨number, next⟩ : ∃ number,
            front.length - before.length = number + 1 :=
          ⟨front.length - before.length - 1, by omega⟩
        rw [next, List.getElem?_cons_succ] at index
        exact List.mem_of_getElem? index
      have notStarted := HardforkConfig.startedBy_eq_false.mp
        (last.after other otherLast) block scheduled
      omega
  · rw [Common.hardforkIsActiveOnBlock, Common.hardforkBlock,
      Common.getHardfork, Option.getD_some]
    rw [split] at names
    rw [split, find?_name_of_nodup other names, Option.bind_some, scheduled]
    exact decide_eq_true_iff

/-- A chain with two hardforks at block five and one that is not applied. -/
def forkedChain : Common :=
  Common.new [⟨"zond", some 0, none, none⟩, ⟨"later", some 5, none, none⟩,
    ⟨"planned", none, none, none⟩, ⟨"latest", some 5, none, none⟩] none

theorem ordered_forkedChain : Ordered forkedChain.hardforks := by
  refine ⟨by decide, ?_⟩
  simp [forkedChain, Common.new]

theorem setHardforkByBlockNumber_agrees_forkedChain :
    ∃ hf ∈ forkedChain.hardforks,
      forkedChain.setHardforkByBlockNumber 7 none =
        .ok { forkedChain with hardfork := hf.name } ∧
      hf.startedBy 7 = true ∧
      ∀ other ∈ forkedChain.hardforks, ∀ block, other.block = some block →
        (Common.gteHardfork { forkedChain with hardfork := hf.name }
          other.name = true ↔ block ≤ 7) ∧
        (forkedChain.hardforkIsActiveOnBlock (some other.name) 7 = true ↔
          block ≠ 0 ∧ block ≤ 7) :=
  setHardforkByBlockNumber_agrees forkedChain ordered_forkedChain rfl 7
    ⟨_, List.mem_cons_self, rfl⟩

/-! ## How long a hardfork stays -/

theorem blockOrTime_of_byBlock (byBlock : hf.timestamp = none) :
    hf.blockOrTime = hf.block := by
  rw [HardforkConfig.blockOrTime, byBlock, Option.none_or]

theorem find?_congr_of_mem {p q : HardforkConfig → Bool}
    (same : ∀ hf ∈ hardforks, p hf = q hf) :
    hardforks.find? p = hardforks.find? q := by
  induction hardforks with
  | nil => rfl
  | cons hf hardforks induction =>
      obtain ⟨first, rest⟩ := List.forall_mem_cons.mp same
      rw [List.find?_cons, List.find?_cons, first, induction rest]

/-- The next hardfork is the first one behind that has a block. -/
theorem nextHardfork_of_isLast (common : Common)
    (ordered : Ordered common.hardforks)
    (byBlock : ∀ hf ∈ common.hardforks, hf.timestamp = none)
    (last : IsLast (HardforkConfig.startedBy blockNumber) common.hardforks
      before hf after) :
    common.nextHardforkBlockOrTimestamp (some hf.name) =
      (after.find? (·.block.isSome)).bind (·.block) := by
  obtain ⟨block, scheduled, started⟩ :=
    HardforkConfig.startedBy_eq_true.mp last.holds
  have names := ordered.names
  rw [last.whole] at names byBlock
  have position := findIdx?_name_of_nodup hf names
  have search : (after.find? fun next => next.blockOrTime.isSome &&
      decide (next.blockOrTime ≠ hf.blockOrTime)) =
        after.find? (·.block.isSome) := by
    apply find?_congr_of_mem
    intro next among
    have noTime := byBlock next
      (List.mem_append_right before (List.mem_cons_of_mem hf among))
    have hfNoTime := byBlock hf (List.mem_append_right before
      List.mem_cons_self)
    have later := HardforkConfig.startedBy_eq_false.mp (last.after next among)
    rw [blockOrTime_of_byBlock noTime, blockOrTime_of_byBlock hfNoTime,
      scheduled]
    cases nextBlock : next.block with
    | none => rfl
    | some number =>
        have more := later number nextBlock
        rw [Option.isSome_some, Bool.true_and, decide_eq_true_iff,
          ne_eq, Option.some.injEq]
        omega
  rw [Common.nextHardforkBlockOrTimestamp, Option.getD_some, last.whole,
    position]
  change ((before ++ hf :: after)[before.length]?.bind _) = _
  rw [List.getElem?_append_right (Nat.le_refl _), Nat.sub_self]
  change ((List.drop (before.length + 1) (before ++ hf :: after)).find? _).bind
    (·.blockOrTime) = _
  rw [← List.drop_drop, List.drop_left' rfl, List.drop_one, List.tail_cons,
    search]
  cases found : after.find? (·.block.isSome) with
  | none => rfl
  | some next =>
      have among := List.mem_of_find?_eq_some found
      exact blockOrTime_of_byBlock (byBlock next
        (List.mem_append_right before (List.mem_cons_of_mem hf among)))

/-- On a chain whose hardforks are scheduled by block, the hardfork of a block
is that of the blocks behind it exactly up to the block that is given as its
next one, and of all of them where there is no next one. -/
theorem hardfork_until_next (common : Common)
    (ordered : Ordered common.hardforks)
    (byBlock : ∀ hf ∈ common.hardforks, hf.timestamp = none)
    (blockNumber : Nat)
    (reached : ∃ hf ∈ common.hardforks, hf.startedBy blockNumber = true) :
    ∃ name, getHardforkByBlockNumber common.hardforks blockNumber none =
        .ok name ∧
      (∀ next, common.nextHardforkBlockOrTimestamp (some name) = some next →
        blockNumber < next ∧ ∀ later, blockNumber ≤ later →
          (getHardforkByBlockNumber common.hardforks later none = .ok name ↔
            later < next)) ∧
      (common.nextHardforkBlockOrTimestamp (some name) = none →
        ∀ later, blockNumber ≤ later →
          getHardforkByBlockNumber common.hardforks later none = .ok name) := by
  obtain ⟨before, hf, after, last⟩ := exists_isLast reached
  obtain ⟨block, scheduled, started⟩ :=
    HardforkConfig.startedBy_eq_true.mp last.holds
  -- a hardfork that stays is the last one that has started
  have stays : ∀ later, blockNumber ≤ later →
      (∀ other ∈ after, other.startedBy later = false) →
        getHardforkByBlockNumber common.hardforks later none = .ok hf.name := by
    intro later notBefore notStarted
    have stillLast : IsLast (HardforkConfig.startedBy later) common.hardforks
        before hf after :=
      ⟨last.whole, HardforkConfig.startedBy_eq_true.mpr
        ⟨block, scheduled, Nat.le_trans started notBefore⟩, notStarted⟩
    exact getHardforkByBlockNumber_of_isLast ordered stillLast
  refine ⟨hf.name, getHardforkByBlockNumber_of_isLast ordered last, ?_, ?_⟩
  all_goals rw [nextHardfork_of_isLast common ordered byBlock last]
  · intro number isNext
    obtain ⟨next, found, nextBlock⟩ := Option.bind_eq_some_iff.mp isNext
    obtain ⟨-, front, rest, split, without⟩ :=
      List.find?_eq_some_iff_append.mp found
    have among : next ∈ after := List.mem_of_find?_eq_some found
    have later := HardforkConfig.startedBy_eq_false.mp (last.after next among)
    have blocks := ordered.blocks
    rw [last.whole, split, List.pairwise_append, List.pairwise_cons,
      List.pairwise_append, List.pairwise_cons] at blocks
    refine ⟨later number nextBlock, fun other notBefore => ?_⟩
    constructor
    · intro same
      by_contra notYet
      have nextStarted : next.startedBy other = true :=
        HardforkConfig.startedBy_eq_true.mpr
          ⟨number, nextBlock, Nat.not_lt.mp notYet⟩
      have reachedNext : ∃ fork ∈ common.hardforks,
          fork.startedBy other = true := by
        refine ⟨next, ?_, nextStarted⟩
        rw [last.whole]
        exact List.mem_append_right before (List.mem_cons_of_mem hf among)
      obtain ⟨_, hf', _, last'⟩ := exists_isLast reachedNext
      rw [getHardforkByBlockNumber_of_isLast ordered last',
        Except.ok.injEq] at same
      have names := ordered.names
      rw [last.whole] at names
      obtain ⟨-, -, rfl⟩ := split_of_name names
        (last.whole.symm.trans last'.whole) same.symm
      rw [last'.after next among] at nextStarted
      cases nextStarted
    · intro notYet
      apply stays other notBefore
      intro fork isAfter
      rw [HardforkConfig.startedBy_eq_false]
      intro forkBlock forkScheduled
      rw [split] at isAfter
      rcases List.mem_append.mp isAfter with inFront | inRest
      · have none := without fork inFront
        rw [forkScheduled] at none
        cases none
      · rcases List.mem_cons.mp inRest with rfl | inRest
        · rw [nextBlock] at forkScheduled
          cases forkScheduled
          exact notYet
        · have notLess := blocks.2.1.2.2.1.1 fork inRest number forkBlock
            nextBlock forkScheduled
          omega
  · intro noNext later notBefore
    apply stays later notBefore
    intro fork isAfter
    rw [HardforkConfig.startedBy_eq_false]
    intro forkBlock forkScheduled
    cases found : after.find? (·.block.isSome) with
    | none =>
        have none := List.find?_eq_none.mp found fork isAfter
        rw [forkScheduled] at none
        exact absurd rfl none
    | some next =>
        have isSome := List.find?_some found
        rw [found, Option.bind_some] at noNext
        rw [noNext] at isSome
        cases isSome

theorem hardfork_until_next_forkedChain :
    ∃ name, getHardforkByBlockNumber forkedChain.hardforks 3 none = .ok name ∧
      (∀ next, forkedChain.nextHardforkBlockOrTimestamp (some name) =
          some next →
        3 < next ∧ ∀ later, 3 ≤ later →
          (getHardforkByBlockNumber forkedChain.hardforks later none =
            .ok name ↔ later < next)) ∧
      (forkedChain.nextHardforkBlockOrTimestamp (some name) = none →
        ∀ later, 3 ≤ later →
          getHardforkByBlockNumber forkedChain.hardforks later none =
            .ok name) :=
  hardfork_until_next forkedChain ordered_forkedChain (by decide) 3
    ⟨_, List.mem_cons_self, rfl⟩

end Web3Js.Chain
