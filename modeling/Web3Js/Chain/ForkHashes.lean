import Mathlib.Data.List.Dedup
import Web3Js.Chain.Activation
import Web3Js.Hash
import Web3Js.Utils.Units

/-!
# Fork hashes

A fork hash is a checksum over the genesis hash and the blocks and times of the
hardforks up to one.  On a schedule in order it is that of the distinct blocks
and times up to that of the hardfork, and looking a hardfork up by its hash
gives the last one of the same block or time.
-/

namespace Web3Js.Chain

open Utils (hexToBytes padStart)

section Definitions

-- `crc32Uint8Array(...) >>> 0`
variable (crc32 : Bytes → UInt32)

/-- The bytes of the loop over the hardforks up to the given one.  A missing
block or time is passed over like the start of the chain. -/
def forkBytes (hardfork : String) (prevBlockOrTime : Nat) :
    List HardforkConfig → Except String Bytes
  | [] => .ok []
  | hf :: hfs => do
      let blockOrTime := hf.blockOrTime.getD 0
      let isNew := blockOrTime ≠ 0 ∧ blockOrTime ≠ prevBlockOrTime
      let hfBlock ←
        if isNew then
          hexToBytes (String.ofList (padStart (Hex.digits blockOrTime) 16))
        else .ok []
      if hf.name = hardfork then .ok hfBlock
      else
        let rest ← forkBytes hardfork
          (if isNew then blockOrTime else prevBlockOrTime) hfs
        .ok (hfBlock ++ rest)

/-- `bytesToHex(intToUint8Array(checksum))` -/
def checksumText (checksum : UInt32) : Except String String :=
  (hexToBytes (String.ofList ('0' :: 'x' ::
    Hex.padToEven (Hex.digits checksum.toNat)))).map hexlify

/-- `_calcForkHash` -/
def calcForkHash (hardforks : List HardforkConfig) (hardfork : String)
    (genesisHash : Bytes) : Except String String := do
  let hfBytes ← forkBytes hardfork 0 hardforks
  checksumText (crc32 (genesisHash ++ hfBytes))

namespace Common

def forkHash (common : Common) (hardfork : Option String)
    (genesisHash : Option Bytes) : Except String String :=
  let hardfork := hardfork.getD common.hardfork
  let future := "No fork hash calculation possible for future hardfork"
  match common.getHardfork hardfork with
  | none => .error future
  | some data =>
      if data.isApplied then
        match data.forkHash, genesisHash with
        | some forkHash, _ => .ok forkHash
        | none, some genesisHash =>
            calcForkHash crc32 common.hardforks hardfork genesisHash
        | none, none => .error "genesisHash required for forkHash calculation"
      else .error future

/-- The loop of `setForkHashes`, with the hardforks that it has been over. -/
def setForkHashesFrom (common : Common) (genesisHash : Bytes)
    (done : List HardforkConfig) :
    List HardforkConfig → Except String (List HardforkConfig)
  | [] => .ok done
  | hf :: hfs =>
      if hf.forkHash = none ∧ hf.blockOrTime ≠ none then do
        let forkHash ← forkHash crc32
          { common with hardforks := done ++ hf :: hfs } (some hf.name)
          (some genesisHash)
        setForkHashesFrom common genesisHash
          (done ++ [{ hf with forkHash := some forkHash }]) hfs
      else setForkHashesFrom common genesisHash (done ++ [hf]) hfs

def setForkHashes (common : Common) (genesisHash : Bytes) :
    Except String Common := do
  let hardforks ← setForkHashesFrom crc32 common genesisHash []
    common.hardforks
  .ok { common with hardforks }

def hardforkForForkHash (common : Common) (forkHash : String) :
    Option HardforkConfig :=
  (common.hardforks.filter (·.forkHash = some forkHash)).getLast?

end Common

end Definitions

/-! ## The points of a schedule -/

/-- The distinct blocks and times up to one, without the start of the chain. -/
def forkPoints (hardforks : List HardforkConfig) (blockOrTime : Nat) :
    List Nat :=
  ((hardforks.filterMap (·.blockOrTime)).filter fun point =>
    decide (0 < point ∧ point ≤ blockOrTime)).dedup

/-- A point as eight bytes. -/
def pointBytes (point : Nat) : Bytes := BigEndian.ofNat 8 point

/-- What the checksum of a point is taken over. -/
def forkInput (hardforks : List HardforkConfig) (genesisHash : Bytes)
    (blockOrTime : Nat) : Bytes :=
  genesisHash ++ (forkPoints hardforks blockOrTime).flatMap pointBytes

/-- Blocks and times only grow along the schedule, fit into eight bytes, and no
name occurs twice. -/
structure InOrder (hardforks : List HardforkConfig) : Prop where
  names : (hardforks.map (·.name)).Nodup
  points : (hardforks.filterMap (·.blockOrTime)).Pairwise (· ≤ ·)
  small : ∀ point ∈ hardforks.filterMap (·.blockOrTime), point < 2 ^ 64

theorem hexToBytes_point {point : Nat} (small : point < 2 ^ 64) :
    hexToBytes (String.ofList (padStart (Hex.digits point) 16)) =
      .ok (pointBytes point) := by
  have short : (Hex.digits point).length ≤ 16 := by
    rw [Hex.digits, Nat.length_toDigits_le_iff (by omega) (by omega)]
    exact small
  have length : (padStart (Hex.digits point) 16).length = 2 * 8 := by
    rw [padStart, List.length_append, List.length_replicate]
    omega
  have allDigits :
      (padStart (Hex.digits point) 16).all Hex.isDigit = true := by
    rw [padStart, List.all_append, Hex.isDigit_digits, Bool.and_true,
      List.all_eq_true]
    intro digit zero
    rw [List.eq_of_mem_replicate zero]
    rfl
  obtain ⟨bytes, read, eight⟩ := Hex.exists_decode 8 length allDigits
  have value := Hex.toNat_of_decode read
  rw [padStart, Hex.numeral_zeros_append, Hex.numeral_digits] at value
  have same := BigEndian.ofNat_toNat bytes
  rw [eight, value] at same
  rw [Utils.hexToBytes_of_hexDigits read, pointBytes, same]

theorem exists_checksumText (checksum : UInt32) :
    ∃ bytes, Hex.decode (Hex.padToEven (Hex.digits checksum.toNat)) =
        some bytes ∧
      BigEndian.toNat bytes = checksum.toNat ∧
      checksumText checksum = .ok (hexlify bytes) := by
  obtain ⟨bytes, read, value, -⟩ := Hex.decode_padToEven
    (Hex.isDigit_digits checksum.toNat)
  rw [Hex.numeral_digits] at value
  refine ⟨bytes, read, value, ?_⟩
  rw [checksumText, Utils.hexToBytes_of_digits String.toList_ofList, read]
  rfl

/-- Different checksums have different texts. -/
theorem checksumText_injective {first second : UInt32} {text : String}
    (firstText : checksumText first = .ok text)
    (secondText : checksumText second = .ok text) : first = second := by
  obtain ⟨bytes, -, value, shown⟩ := exists_checksumText first
  obtain ⟨bytes', -, value', shown'⟩ := exists_checksumText second
  rw [shown, Except.ok.injEq] at firstText
  rw [shown', Except.ok.injEq, ← firstText, hexlify, hexlify] at secondText
  have chars := congrArg String.toList secondText
  rw [String.toList_ofList, String.toList_ofList, List.cons.injEq,
    List.cons.injEq] at chars
  rw [Hex.encode_injective chars.2.2, value] at value'
  exact UInt32.toNat_inj.mp value'

/-! ## The bytes of the loop -/

theorem InOrder.tail {first : HardforkConfig} {hardforks : List HardforkConfig}
    (inOrder : InOrder (first :: hardforks)) : InOrder hardforks := by
  obtain ⟨names, points, small⟩ := inOrder
  rw [List.map_cons, List.nodup_cons] at names
  cases point : first.blockOrTime with
  | none =>
      rw [List.filterMap_cons_none point] at points small
      exact ⟨names.2, points, small⟩
  | some first =>
      rw [List.filterMap_cons_some point] at points small
      exact ⟨names.2, (List.pairwise_cons.mp points).2,
        (List.forall_mem_cons.mp small).2⟩

/-- The loop collects the points behind the last one up to that of the
hardfork, each once and in order. -/
theorem exists_forkBytes {hardforks : List HardforkConfig}
    {prevBlockOrTime upTo : Nat} (inOrder : InOrder hardforks)
    (before : ∀ point ∈ hardforks.filterMap (·.blockOrTime),
      prevBlockOrTime ≤ point)
    {hf : HardforkConfig} (among : hf ∈ hardforks)
    (scheduled : hf.blockOrTime = some upTo) :
    ∃ points : List Nat,
      forkBytes hf.name prevBlockOrTime hardforks =
        .ok (points.flatMap pointBytes) ∧
      points.Pairwise (· < ·) ∧
      ∀ point, point ∈ points ↔
        point ∈ hardforks.filterMap (·.blockOrTime) ∧
          prevBlockOrTime < point ∧ point ≤ upTo := by
  induction hardforks generalizing prevBlockOrTime with
  | nil => cases among
  | cons first hardforks induction =>
      have names := inOrder.names
      rw [List.map_cons, List.nodup_cons] at names
      -- the hardfork is the first one exactly if it has its name
      have here : first.name = hf.name → hf = first := by
        intro same
        refine (List.mem_cons.mp among).resolve_right fun behind => names.1 ?_
        rw [same]
        exact List.mem_map_of_mem behind
      have there : ¬first.name = hf.name → hf ∈ hardforks := by
        intro different
        refine (List.mem_cons.mp among).resolve_left ?_
        rintro rfl
        exact different rfl
      rw [forkBytes]
      cases firstPoint : first.blockOrTime with
      | none =>
          have notHere : ¬first.name = hf.name := by
            intro same
            rw [here same, firstPoint] at scheduled
            cases scheduled
          rw [List.filterMap_cons_none firstPoint] at before ⊢
          obtain ⟨points, collected, increasing, members⟩ :=
            induction inOrder.tail before (there notHere)
          refine ⟨points, ?_, increasing, members⟩
          have notNew : ¬((0 : Nat) ≠ 0 ∧ 0 ≠ prevBlockOrTime) :=
            fun isNew => isNew.1 rfl
          rw [Option.getD_none, if_neg notNew, if_neg notNew, Outcome.ok_bind]
          dsimp only
          rw [if_neg notHere, collected]
          rfl
      | some point =>
          have inOrder' := inOrder.points
          have small := inOrder.small
          rw [List.filterMap_cons_some firstPoint] at before inOrder' small ⊢
          obtain ⟨low, -⟩ := List.forall_mem_cons.mp before
          obtain ⟨upward, -⟩ := List.pairwise_cons.mp inOrder'
          obtain ⟨fits, -⟩ := List.forall_mem_cons.mp small
          rw [Option.getD_some]
          by_cases isNew : point ≠ 0 ∧ point ≠ prevBlockOrTime
          · rw [if_pos isNew, if_pos isNew, hexToBytes_point fits,
              Outcome.ok_bind]
            dsimp only
            by_cases named : first.name = hf.name
            · rw [here named, firstPoint] at scheduled
              cases scheduled
              refine ⟨[upTo], ?_, List.pairwise_singleton _ _, fun other => ?_⟩
              · rw [if_pos named, List.flatMap_singleton]
              · rw [List.mem_singleton, List.mem_cons]
                constructor
                · rintro rfl
                  exact ⟨.inl rfl, by omega, Nat.le_refl _⟩
                · rintro ⟨rfl | behind, -, notMore⟩
                  · rfl
                  · exact Nat.le_antisymm notMore (upward other behind)
            · obtain ⟨points, collected, increasing, members⟩ :=
                induction inOrder.tail upward (there named)
              have upToBehind : upTo ∈ hardforks.filterMap (·.blockOrTime) :=
                List.mem_filterMap.mpr ⟨hf, there named, scheduled⟩
              refine ⟨point :: points, ?_, ?_, fun other => ?_⟩
              · rw [if_neg named, collected, List.flatMap_cons]
                rfl
              · refine List.pairwise_cons.mpr ⟨fun other isMember => ?_,
                  increasing⟩
                exact ((members other).mp isMember).2.1
              · rw [List.mem_cons, List.mem_cons, members other]
                constructor
                · rintro (rfl | ⟨behind, more, notMore⟩)
                  · exact ⟨.inl rfl, by omega, upward upTo upToBehind⟩
                  · exact ⟨.inr behind, by omega, notMore⟩
                · rintro ⟨rfl | behind, more, notMore⟩
                  · exact .inl rfl
                  · by_cases same : other = point
                    · exact .inl same
                    · have notLess := upward other behind
                      exact .inr ⟨behind, by omega, notMore⟩
          · rw [if_neg isNew, if_neg isNew, Outcome.ok_bind]
            dsimp only
            by_cases named : first.name = hf.name
            · rw [here named, firstPoint] at scheduled
              cases scheduled
              refine ⟨[], ?_, .nil, fun other => ?_⟩
              · rw [if_pos named]
                rfl
              · constructor
                · rintro ⟨⟩
                · rintro ⟨-, more, notMore⟩
                  exact absurd ⟨by omega, by omega⟩ isNew
            · obtain ⟨points, collected, increasing, members⟩ :=
                induction inOrder.tail
                  (List.forall_mem_cons.mp before).2 (there named)
              refine ⟨points, ?_, increasing, fun other => ?_⟩
              · rw [if_neg named, collected]
                rfl
              · rw [List.mem_cons, members other]
                constructor
                · rintro ⟨behind, more, notMore⟩
                  exact ⟨.inr behind, more, notMore⟩
                · rintro ⟨rfl | behind, more, notMore⟩
                  · exact absurd ⟨by omega, by omega⟩ isNew
                  · exact ⟨behind, more, notMore⟩

theorem mem_forkPoints {hardforks : List HardforkConfig} {upTo point : Nat} :
    point ∈ forkPoints hardforks upTo ↔
      point ∈ hardforks.filterMap (·.blockOrTime) ∧ 0 < point ∧
        point ≤ upTo := by
  rw [forkPoints, List.mem_dedup, List.mem_filter, decide_eq_true_iff]

theorem pairwise_forkPoints {hardforks : List HardforkConfig}
    (inOrder : InOrder hardforks) (upTo : Nat) :
    (forkPoints hardforks upTo).Pairwise (· < ·) := by
  have notLess : (forkPoints hardforks upTo).Pairwise (· ≤ ·) :=
    (inOrder.points.filter _).sublist (List.dedup_sublist _)
  have different : (forkPoints hardforks upTo).Pairwise (· ≠ ·) :=
    List.nodup_dedup _
  exact (notLess.and different).imp fun both =>
    Nat.lt_of_le_of_ne both.1 both.2

/-- The loop collects the points of the schedule. -/
theorem forkBytes_eq {hardforks : List HardforkConfig}
    (inOrder : InOrder hardforks) {hf : HardforkConfig}
    (among : hf ∈ hardforks) {upTo : Nat}
    (scheduled : hf.blockOrTime = some upTo) :
    forkBytes hf.name 0 hardforks =
      .ok ((forkPoints hardforks upTo).flatMap pointBytes) := by
  obtain ⟨points, collected, increasing, members⟩ := exists_forkBytes inOrder
    (fun point _ => Nat.zero_le point) among scheduled
  have same : points = forkPoints hardforks upTo := by
    have sameMembers : points.Perm (forkPoints hardforks upTo) := by
      rw [List.perm_ext_iff_of_nodup (increasing.imp Nat.ne_of_lt)
        ((pairwise_forkPoints inOrder upTo).imp Nat.ne_of_lt)]
      intro point
      rw [members, mem_forkPoints]
    exact sameMembers.eq_of_pairwise
      (fun _ _ _ _ less more => absurd less (Nat.lt_asymm more)) increasing
      (pairwise_forkPoints inOrder upTo)
  rw [collected, same]

theorem find?_name_of_mem {hardforks : List HardforkConfig}
    (names : (hardforks.map (·.name)).Nodup) {hf : HardforkConfig}
    (among : hf ∈ hardforks) :
    hardforks.find? (·.name = hf.name) = some hf := by
  obtain ⟨before, after, rfl⟩ := List.append_of_mem among
  exact find?_name_of_nodup hf names

theorem isApplied_of_blockOrTime {hf : HardforkConfig}
    {point : Nat} (scheduled : hf.blockOrTime = some point) :
    hf.isApplied = true := by
  rw [HardforkConfig.blockOrTime, Option.or_eq_some_iff] at scheduled
  rw [HardforkConfig.isApplied]
  rcases scheduled with time | ⟨-, block⟩
  · rw [time, Option.isSome_some, Bool.or_true]
  · rw [block]
    rfl

/-- The fork hash of a hardfork without one is the checksum of the genesis hash
and the distinct points up to that of the hardfork. -/
theorem forkHash_eq {crc32 : Bytes → UInt32} {common : Common}
    (inOrder : InOrder common.hardforks) {hf : HardforkConfig}
    (among : hf ∈ common.hardforks) (unset : hf.forkHash = none) {point : Nat}
    (scheduled : hf.blockOrTime = some point) (genesisHash : Bytes) :
    common.forkHash crc32 (some hf.name) (some genesisHash) =
      checksumText (crc32 (forkInput common.hardforks genesisHash point)) := by
  have isApplied := isApplied_of_blockOrTime scheduled
  rw [Common.forkHash, Option.getD_some, Common.getHardfork,
    find?_name_of_mem inOrder.names among]
  dsimp only
  rw [if_pos isApplied, unset]
  change calcForkHash crc32 common.hardforks hf.name genesisHash = _
  rw [calcForkHash, forkBytes_eq inOrder among scheduled]
  rfl

/-! ## Hardforks by their hashes -/

/-- A hardfork with the hash that it is given. -/
def withForkHash (crc32 : Bytes → UInt32) (hardforks : List HardforkConfig)
    (genesisHash : Bytes) (hf : HardforkConfig) : HardforkConfig :=
  match hf.blockOrTime with
  | some point => { hf with forkHash :=
      (checksumText (crc32 (forkInput hardforks genesisHash point))).toOption }
  | none => hf

section Hashes

variable {crc32 : Bytes → UInt32} {hardforks : List HardforkConfig}
  {genesisHash : Bytes} {hf : HardforkConfig}

@[simp] theorem withForkHash_name :
    (withForkHash crc32 hardforks genesisHash hf).name = hf.name := by
  unfold withForkHash
  cases hf.blockOrTime <;> rfl

@[simp] theorem withForkHash_blockOrTime :
    (withForkHash crc32 hardforks genesisHash hf).blockOrTime =
      hf.blockOrTime := by
  unfold withForkHash
  cases point : hf.blockOrTime with
  | none => exact point
  | some point => exact point

theorem withForkHash_forkHash {point : Nat}
    (scheduled : hf.blockOrTime = some point) :
    (withForkHash crc32 hardforks genesisHash hf).forkHash =
      (checksumText
        (crc32 (forkInput hardforks genesisHash point))).toOption := by
  unfold withForkHash
  rw [scheduled]

/-- What is said of a schedule by its names, blocks and times. -/
theorem InOrder.congr {others : List HardforkConfig}
    (inOrder : InOrder hardforks)
    (names : others.map (·.name) = hardforks.map (·.name))
    (points : others.filterMap (·.blockOrTime) =
      hardforks.filterMap (·.blockOrTime)) : InOrder others := by
  refine ⟨?_, ?_, ?_⟩
  · rw [names]
    exact inOrder.names
  · rw [points]
    exact inOrder.points
  · rw [points]
    exact inOrder.small

theorem names_withForkHash (done rest : List HardforkConfig) :
    (done.map (withForkHash crc32 hardforks genesisHash) ++ rest).map
        (·.name) = (done ++ rest).map (·.name) := by
  rw [List.map_append, List.map_append, List.map_map]
  congr 2
  funext other
  exact withForkHash_name

theorem points_withForkHash (done rest : List HardforkConfig) :
    (done.map (withForkHash crc32 hardforks genesisHash) ++ rest).filterMap
        (·.blockOrTime) = (done ++ rest).filterMap (·.blockOrTime) := by
  rw [List.filterMap_append, List.filterMap_append, List.filterMap_map]
  congr 2
  funext other
  exact withForkHash_blockOrTime

theorem setForkHashesFrom_eq {common : Common}
    (inOrder : InOrder common.hardforks)
    (unset : ∀ hf ∈ common.hardforks, hf.forkHash = none)
    {done rest : List HardforkConfig}
    (whole : common.hardforks = done ++ rest) :
    common.setForkHashesFrom crc32 genesisHash
        (done.map (withForkHash crc32 common.hardforks genesisHash)) rest =
      .ok (common.hardforks.map
        (withForkHash crc32 common.hardforks genesisHash)) := by
  induction rest generalizing done with
  | nil =>
      rw [List.append_nil] at whole
      rw [Common.setForkHashesFrom]
      exact congrArg (fun list => Except.ok
        (list.map (withForkHash crc32 common.hardforks genesisHash)))
        whole.symm
  | cons hf rest induction =>
      have among : hf ∈ common.hardforks := by
        rw [whole]
        exact List.mem_append_right done List.mem_cons_self
      have whole' : common.hardforks = done ++ [hf] ++ rest := by
        rw [whole, List.append_assoc, List.singleton_append]
      rw [Common.setForkHashesFrom]
      cases scheduled : hf.blockOrTime with
      | none =>
          have same : withForkHash crc32 common.hardforks genesisHash hf =
              hf := by
            unfold withForkHash
            rw [scheduled]
          rw [if_neg fun both => both.2 rfl, ← induction whole',
            List.map_append, List.map_singleton, same]
      | some point =>
          have inOrder' : InOrder
              (done.map (withForkHash crc32 common.hardforks genesisHash) ++
                hf :: rest) := by
            apply inOrder.congr
            · rw [names_withForkHash, whole]
            · rw [points_withForkHash, whole]
          have input : forkInput
              (done.map (withForkHash crc32 common.hardforks genesisHash) ++
                hf :: rest) genesisHash point =
              forkInput common.hardforks genesisHash point := by
            rw [forkInput, forkInput, forkPoints, forkPoints,
              points_withForkHash, whole]
          obtain ⟨bytes, -, -, text⟩ := exists_checksumText
            (crc32 (forkInput common.hardforks genesisHash point))
          have hash : Common.forkHash crc32
              { common with hardforks := (done.map
                (withForkHash crc32 common.hardforks genesisHash) ++
                  hf :: rest) } (some hf.name) (some genesisHash) =
              .ok (hexlify bytes) := by
            rw [forkHash_eq inOrder'
              (List.mem_append_right _ List.mem_cons_self) (unset hf among)
              scheduled, input, text]
          have next : withForkHash crc32 common.hardforks genesisHash hf =
              { hf with forkHash := some (hexlify bytes) } := by
            unfold withForkHash
            rw [scheduled]
            dsimp only
            rw [text]
            rfl
          rw [if_pos ⟨unset hf among, by rintro ⟨⟩⟩, hash, Outcome.ok_bind,
            ← induction whole', List.map_append, List.map_singleton, next]

theorem setForkHashes_eq {common : Common} (inOrder : InOrder common.hardforks)
    (unset : ∀ hf ∈ common.hardforks, hf.forkHash = none) :
    common.setForkHashes crc32 genesisHash =
      .ok { common with hardforks := (common.hardforks.map
        (withForkHash crc32 common.hardforks genesisHash)) } := by
  have all := @setForkHashesFrom_eq crc32 genesisHash common inOrder unset []
    common.hardforks rfl
  rw [List.map_nil] at all
  rw [Common.setForkHashes, all]
  rfl

theorem length_flatMap_pointBytes (points : List Nat) :
    (points.flatMap pointBytes).length = 8 * points.length := by
  induction points with
  | nil => rfl
  | cons point points induction =>
      rw [List.flatMap_cons, List.length_append, induction, pointBytes,
        BigEndian.length_ofNat, List.length_cons]
      omega

/-- Later points have longer inputs. -/
theorem length_forkInput_lt (inOrder : InOrder hardforks)
    {first second : Nat} (earlier : first < second)
    (among : second ∈ hardforks.filterMap (·.blockOrTime)) :
    (forkInput hardforks genesisHash first).length <
      (forkInput hardforks genesisHash second).length := by
  have nodup : (second :: forkPoints hardforks first).Nodup := by
    refine List.nodup_cons.mpr ⟨fun isFirst => ?_,
      (pairwise_forkPoints inOrder first).imp Nat.ne_of_lt⟩
    have notMore := (mem_forkPoints.mp isFirst).2.2
    omega
  have within : second :: forkPoints hardforks first ⊆
      forkPoints hardforks second := by
    intro point isMember
    rcases List.mem_cons.mp isMember with rfl | isMember
    · exact mem_forkPoints.mpr ⟨among, by omega, Nat.le_refl _⟩
    · obtain ⟨isPoint, positive, notMore⟩ := mem_forkPoints.mp isMember
      exact mem_forkPoints.mpr ⟨isPoint, positive, by omega⟩
  have shorter := (List.subperm_of_subset nodup within).length_le
  rw [List.length_cons] at shorter
  rw [forkInput, forkInput, List.length_append, List.length_append,
    length_flatMap_pointBytes, length_flatMap_pointBytes]
  omega

theorem forkInput_injective (inOrder : InOrder hardforks) {first second : Nat}
    (isFirst : first ∈ hardforks.filterMap (·.blockOrTime))
    (isSecond : second ∈ hardforks.filterMap (·.blockOrTime))
    (same : forkInput hardforks genesisHash first =
      forkInput hardforks genesisHash second) : first = second := by
  have lengths := congrArg List.length same
  rcases Nat.lt_trichotomy first second with earlier | same | later
  · exact absurd lengths
      (Nat.ne_of_lt (length_forkInput_lt inOrder earlier isSecond))
  · exact same
  · exact absurd lengths.symm
      (Nat.ne_of_lt (length_forkInput_lt inOrder later isFirst))

end Hashes

/-- The checksums of different points are different. -/
def NoCollision (crc32 : Bytes → UInt32) (hardforks : List HardforkConfig)
    (genesisHash : Bytes) : Prop :=
  ∀ first ∈ hardforks.filterMap (·.blockOrTime),
    ∀ second ∈ hardforks.filterMap (·.blockOrTime),
      crc32 (forkInput hardforks genesisHash first) =
          crc32 (forkInput hardforks genesisHash second) →
        forkInput hardforks genesisHash first =
          forkInput hardforks genesisHash second

instance (crc32 : Bytes → UInt32) (hardforks : List HardforkConfig)
    (genesisHash : Bytes) :
    Decidable (NoCollision crc32 hardforks genesisHash) :=
  inferInstanceAs (Decidable (∀ first ∈ hardforks.filterMap (·.blockOrTime),
    ∀ second ∈ hardforks.filterMap (·.blockOrTime),
      crc32 (forkInput hardforks genesisHash first) =
          crc32 (forkInput hardforks genesisHash second) →
        forkInput hardforks genesisHash first =
          forkInput hardforks genesisHash second))

/-- The hash that a hardfork without one is given is the checksum of the
genesis hash and the distinct points up to its own; where the checksums of the
points do not collide, looking it up gives the last hardfork of the same block
or time. -/
theorem hardforkForForkHash_setForkHashes (crc32 : Bytes → UInt32)
    (common : Common) (genesisHash : Bytes)
    (inOrder : InOrder common.hardforks)
    (unset : ∀ hf ∈ common.hardforks, hf.forkHash = none) :
    ∃ hashed, common.setForkHashes crc32 genesisHash = .ok hashed ∧
      ∀ hf ∈ common.hardforks, ∀ point, hf.blockOrTime = some point →
        ∃ forkHash,
          checksumText
              (crc32 (forkInput common.hardforks genesisHash point)) =
            .ok forkHash ∧
          hashed.forkHash crc32 (some hf.name) none = .ok forkHash ∧
          (NoCollision crc32 common.hardforks genesisHash →
            ∃ before found after,
              hashed.hardforkForForkHash forkHash = some found ∧
              IsLast (fun other => decide (other.blockOrTime = some point))
                hashed.hardforks before found after) := by
  refine ⟨_, setForkHashes_eq inOrder unset, fun hf among point scheduled => ?_⟩
  obtain ⟨bytes, -, -, text⟩ := exists_checksumText
    (crc32 (forkInput common.hardforks genesisHash point))
  have isPoint : point ∈ common.hardforks.filterMap (·.blockOrTime) :=
    List.mem_filterMap.mpr ⟨hf, among, scheduled⟩
  have hash : (withForkHash crc32 common.hardforks genesisHash hf).forkHash =
      some (hexlify bytes) := by
    rw [withForkHash_forkHash scheduled, text]
    rfl
  have mapped : withForkHash crc32 common.hardforks genesisHash hf ∈
      common.hardforks.map
        (withForkHash crc32 common.hardforks genesisHash) :=
    List.mem_map_of_mem among
  have names : ((common.hardforks.map
      (withForkHash crc32 common.hardforks genesisHash)).map
        (·.name)).Nodup := by
    have same := @names_withForkHash crc32 common.hardforks genesisHash
      common.hardforks []
    rw [List.append_nil, List.append_nil] at same
    rw [same]
    exact inOrder.names
  refine ⟨hexlify bytes, text, ?_, fun noCollision => ?_⟩
  · have isApplied :
        (withForkHash crc32 common.hardforks genesisHash hf).isApplied =
          true :=
      isApplied_of_blockOrTime (withForkHash_blockOrTime.trans scheduled)
    have searched := find?_name_of_mem names mapped
    rw [withForkHash_name] at searched
    rw [Common.forkHash, Option.getD_some, Common.getHardfork, searched]
    dsimp only
    rw [if_pos isApplied, hash]
  -- having the hash is having the point
  have samePoint : ∀ other ∈ common.hardforks.map
      (withForkHash crc32 common.hardforks genesisHash),
      decide (other.forkHash = some (hexlify bytes)) =
        decide (other.blockOrTime = some point) := by
    intro other isMember
    obtain ⟨fork, isFork, rfl⟩ := List.mem_map.mp isMember
    rw [decide_eq_decide, withForkHash_blockOrTime]
    cases forkPoint : fork.blockOrTime with
    | none =>
        have own : withForkHash crc32 common.hardforks genesisHash fork =
            fork := by
          unfold withForkHash
          rw [forkPoint]
        rw [own, unset fork isFork]
        exact ⟨by rintro ⟨⟩, by rintro ⟨⟩⟩
    | some otherPoint =>
        have isOther : otherPoint ∈
            common.hardforks.filterMap (·.blockOrTime) :=
          List.mem_filterMap.mpr ⟨fork, isFork, forkPoint⟩
        rw [withForkHash_forkHash forkPoint, Outcome.toOption_eq_some,
          Option.some.injEq]
        constructor
        · intro sameText
          have sameSum := checksumText_injective sameText text
          exact forkInput_injective inOrder isOther isPoint
            (noCollision otherPoint isOther point isPoint sameSum)
        · rintro rfl
          exact text
  have present : ∃ other ∈ common.hardforks.map
      (withForkHash crc32 common.hardforks genesisHash),
      decide (other.blockOrTime = some point) = true := by
    refine ⟨_, mapped, ?_⟩
    rw [withForkHash_blockOrTime, scheduled]
    exact decide_eq_true rfl
  obtain ⟨before, found, after, last⟩ := exists_isLast present
  refine ⟨before, found, after, ?_, last⟩
  rw [Common.hardforkForForkHash, List.filter_congr samePoint]
  exact last.getLast?_filter

/-! ## A checksum -/

/-- The remainder after eight more bits. -/
def crcByte : Nat → UInt32 → UInt32
  | 0, remainder => remainder
  | bits + 1, remainder =>
      crcByte bits
        (if remainder % 2 = 1 then (remainder / 2) ^^^ 3988292384
          else remainder / 2)

/-- CRC-32 -/
def crc32 (bytes : Bytes) : UInt32 :=
  bytes.foldl (fun remainder byte => crcByte 8 (remainder ^^^ byte.toUInt32))
    4294967295 ^^^ 4294967295

theorem inOrder_forkedChain : InOrder forkedChain.hardforks :=
  ⟨by decide, by decide, by decide⟩

theorem hardforkForForkHash_setForkHashes_forkedChain :
    ∃ hashed, forkedChain.setForkHashes crc32 [1] = .ok hashed ∧
      ∀ hf ∈ forkedChain.hardforks, ∀ point, hf.blockOrTime = some point →
        ∃ forkHash before found after,
          hashed.forkHash crc32 (some hf.name) none = .ok forkHash ∧
          hashed.hardforkForForkHash forkHash = some found ∧
          IsLast (fun other => decide (other.blockOrTime = some point))
            hashed.hardforks before found after := by
  obtain ⟨hashed, made, each⟩ := hardforkForForkHash_setForkHashes crc32
    forkedChain [1] inOrder_forkedChain (by decide)
  refine ⟨hashed, made, fun hf among point scheduled => ?_⟩
  obtain ⟨forkHash, -, isHash, unique⟩ := each hf among point scheduled
  obtain ⟨before, found, after, looked, last⟩ := unique (by decide +kernel)
  exact ⟨forkHash, before, found, after, isHash, looked, last⟩

end Web3Js.Chain
