import VllmMlu.Moe.AlignBlockSize

/-! What the four kernels leave in their buffers, whatever the order of their programs. -/
namespace VllmMlu.Moe
open VllmMlu.Library VllmMlu.Library.Kernel VllmMlu.Library.Buckets

variable {topkIds : List Nat} {numExperts blockSize tokensPerThread : Nat}

/-- How many tokens of an expert the programs before one have, from the counts of each. -/
def countOf (topkIds : List Nat) (tokensPerThread pid expert : Nat) : Nat :=
  seen (topkIds.drop (pid * tokensPerThread)) tokensPerThread expert

theorem stage1_returns (hids : ∀ id ∈ topkIds, id < numExperts) {pid : Nat}
    (hpid : pid < numExperts) {entry : Nat → Nat → Nat} {tokensCnts : List Nat}
    (hholds : Holds tokensCnts (numExperts + 1) numExperts entry)
    (hzero : ∀ expert, entry (pid + 1) expert = 0) :
    ∃ next, moeAlignBlockSizeStage1 topkIds numExperts topkIds.length tokensPerThread pid
        tokensCnts = .ok next ∧
      Holds next (numExperts + 1) numExperts fun row expert =>
        if row = pid + 1 then countOf topkIds tokensPerThread pid expert
        else entry row expert := by
  unfold moeAlignBlockSizeStage1
  refine @loop_returns _ _ _ (fun turn tokensCnts => Holds tokensCnts (numExperts + 1) numExperts
    fun row expert => if row = pid + 1 then
      seen (topkIds.drop (pid * tokensPerThread)) turn expert else entry row expert) _ _ _ _ ?_ ?_
  · refine hholds.congr fun row _ expert _ => ?_
    split
    · rename_i hrow
      rw [hrow, hzero, seen_zero]
    · rfl
  · intro turn hturn state hstate
    rw [Nat.one_mul, Nat.zero_add]
    split
    · rename_i hlt
      obtain ⟨idx, hidx⟩ : ∃ idx, topkIds[pid * tokensPerThread + turn]? = some idx :=
        ⟨_, List.getElem?_eq_getElem hlt⟩
      have hexpert := hids idx (List.mem_of_getElem? hidx)
      have hget : (topkIds.drop (pid * tokensPerThread))[turn]? = some idx := by
        rw [List.getElem?_drop, hidx]
      have hrow : pid + 1 < numExperts + 1 := by omega
      obtain ⟨next, hstore, hnext⟩ := hstate.store hrow hexpert
        (seen (topkIds.drop (pid * tokensPerThread)) turn idx + 1)
      have hload := hstate.load hrow hexpert
      rw [if_pos rfl] at hload
      refine ⟨next, bind_eq_ok.mpr ⟨idx, load_eq_ok hidx, bind_eq_ok.mpr ⟨_, hload, hstore⟩⟩,
        hnext.congr fun row _ expert _ => ?_⟩
      rw [seen_succ hget]
      by_cases hsame : row = pid + 1
      · by_cases hidx : expert = idx
        · rw [if_pos ⟨hsame, hidx⟩, if_pos hsame, if_pos hidx.symm, hidx]
        · rw [if_neg fun h => hidx h.2, if_pos hsame, if_pos hsame, if_neg (Ne.symm hidx),
            Nat.add_zero]
      · rw [if_neg fun h => hsame h.1, if_neg hsame, if_neg hsame]
    · rename_i hge
      refine ⟨state, rfl, hstate.congr fun row _ expert _ => ?_⟩
      have hlength : (topkIds.drop (pid * tokensPerThread)).length ≤ turn := by
        rw [List.length_drop]
        omega
      rw [seen_of_length_le hlength, seen_of_length_le (Nat.le_succ_of_le hlength)]

/-- Between programs of the first stage: the counts of those that have run. -/
def AfterStage1 (topkIds : List Nat) (numExperts tokensPerThread : Nat) (done : Finset Nat)
    (tokensCnts : List Nat) : Prop :=
  Holds tokensCnts (numExperts + 1) numExperts fun row expert =>
    if 0 < row ∧ row - 1 ∈ done then countOf topkIds tokensPerThread (row - 1) expert else 0

/-- The first launch leaves the counts of program `pid` in row `pid + 1`. -/
theorem stage1_launch (hids : ∀ id ∈ topkIds, id < numExperts) (order : GridOrder numExperts) :
    ∃ tokensCnts, launch order
        (moeAlignBlockSizeStage1 topkIds numExperts topkIds.length tokensPerThread)
        (List.replicate ((numExperts + 1) * numExperts) 0) = .ok tokensCnts ∧
      Holds tokensCnts (numExperts + 1) numExperts fun row expert =>
        if row = 0 then 0 else countOf topkIds tokensPerThread (row - 1) expert := by
  have hstart : AfterStage1 topkIds numExperts tokensPerThread ∅
      (List.replicate ((numExperts + 1) * numExperts) 0) :=
    (Holds.replicate _ _ _).congr fun row _ expert _ => by simp
  obtain ⟨tokensCnts, hlaunch, hholds⟩ := @launch_returns _ _ _ order
    (moeAlignBlockSizeStage1 topkIds numExperts topkIds.length tokensPerThread)
    (AfterStage1 topkIds numExperts tokensPerThread) _ hstart (by
      intro done pid hpid hfresh state hstate
      obtain ⟨next, hnext, hholds⟩ := stage1_returns hids hpid hstate (by simp [hfresh])
      refine ⟨next, hnext, hholds.congr fun row _ expert _ => ?_⟩
      by_cases hrow : row = pid + 1
      · simp [hrow]
      · have hother : 0 < row → row - 1 ≠ pid := by omega
        rw [if_neg hrow]
        by_cases hpos : 0 < row
        · simp [hpos, hother hpos]
        · simp [hpos])
  refine ⟨tokensCnts, hlaunch, hholds.congr fun row hrow expert _ => ?_⟩
  rcases Nat.eq_zero_or_pos row with rfl | hpos
  · simp
  · rw [if_pos ⟨hpos, Finset.mem_range.mpr (by omega)⟩, if_neg (by omega)]

/-- Between turns of the second stage: the sums in the column of `pid`. -/
def InStage2 (topkIds : List Nat) (numExperts tokensPerThread pid : Nat)
    (entry : Nat → Nat → Nat) (turn : Nat) (state : List Nat × Nat) : Prop :=
  state.2 = seen topkIds (turn * tokensPerThread) pid ∧
    Holds state.1 (numExperts + 1) numExperts fun row expert =>
      if expert = pid ∧ 0 < row ∧ row ≤ turn then seen topkIds (row * tokensPerThread) expert
      else entry row expert

/-- The second stage replaces the counts of an expert by their sums from the first row on. -/
theorem stage2_returns {pid : Nat} (hpid : pid < numExperts) {entry : Nat → Nat → Nat}
    {tokensCnts : List Nat} (hholds : Holds tokensCnts (numExperts + 1) numExperts entry)
    (hcounts : ∀ row, entry (row + 1) pid = countOf topkIds tokensPerThread row pid) :
    ∃ next, moeAlignBlockSizeStage2 numExperts pid tokensCnts = .ok next ∧
      Holds next (numExperts + 1) numExperts fun row expert =>
        if expert = pid ∧ 0 < row then seen topkIds (row * tokensPerThread) expert
        else entry row expert := by
  have hstart : InStage2 topkIds numExperts tokensPerThread pid entry 0 (tokensCnts, 0) := by
    refine ⟨by rw [Nat.zero_mul, seen_zero], hholds.congr fun row _ expert _ => ?_⟩
    rw [if_neg (by omega)]
  obtain ⟨⟨next, lastCnt⟩, hloop, -, hnext⟩ := @loop_returns _ _ (stage2Turn numExperts pid)
    (InStage2 topkIds numExperts tokensPerThread pid entry) numExperts 1 1 _ hstart (by
      rintro turn hturn ⟨state, lastCnt⟩ ⟨hlast, hstate⟩
      simp only at hlast hstate
      have hrow : 1 + 1 * turn < numExperts + 1 := by omega
      have hload := hstate.load hrow hpid
      have hcount : entry (1 + 1 * turn) pid = countOf topkIds tokensPerThread turn pid := by
        rw [Nat.one_mul, Nat.add_comm, hcounts]
      rw [if_neg (by omega), hcount] at hload
      have hsum : lastCnt + countOf topkIds tokensPerThread turn pid =
          seen topkIds ((turn + 1) * tokensPerThread) pid := by
        rw [hlast, Nat.succ_mul, seen_add]
        rfl
      obtain ⟨next, hstore, hnext⟩ := hstate.store hrow hpid
        (lastCnt + countOf topkIds tokensPerThread turn pid)
      refine ⟨(next, lastCnt + countOf topkIds tokensPerThread turn pid),
        bind_eq_ok.mpr ⟨_, hload, bind_eq_ok.mpr ⟨_, hstore, rfl⟩⟩, hsum,
        hnext.congr fun row _ expert _ => ?_⟩
      rw [hsum]
      by_cases hsame : row = 1 + 1 * turn ∧ expert = pid
      · have hrow : row = turn + 1 := by omega
        rw [if_pos hsame, if_pos ⟨hsame.2, by omega, by omega⟩, hrow, hsame.2]
      · rw [if_neg hsame]
        by_cases hdone : expert = pid ∧ 0 < row ∧ row ≤ turn
        · rw [if_pos hdone, if_pos ⟨hdone.1, hdone.2.1, by omega⟩]
        · rw [if_neg hdone, if_neg (by omega)])
  refine ⟨next, bind_eq_ok.mpr ⟨_, hloop, rfl⟩, hnext.congr fun row hrow expert _ => ?_⟩
  have hle : row ≤ numExperts := by omega
  simp only [hle, and_true]

/-- Between programs of the second stage: the sums of the experts whose programs have run. -/
def AfterStage2 (topkIds : List Nat) (numExperts tokensPerThread : Nat) (done : Finset Nat)
    (tokensCnts : List Nat) : Prop :=
  Holds tokensCnts (numExperts + 1) numExperts fun row expert =>
    if expert ∈ done ∧ 0 < row then seen topkIds (row * tokensPerThread) expert
    else if row = 0 then 0 else countOf topkIds tokensPerThread (row - 1) expert

/-- After the second launch row `row` has the counts of all tokens of the programs before. -/
theorem stage2_launch (order : GridOrder numExperts) {tokensCnts : List Nat}
    (hholds : Holds tokensCnts (numExperts + 1) numExperts fun row expert =>
      if row = 0 then 0 else countOf topkIds tokensPerThread (row - 1) expert) :
    ∃ next, launch order (moeAlignBlockSizeStage2 numExperts) tokensCnts = .ok next ∧
      Holds next (numExperts + 1) numExperts fun row expert =>
        seen topkIds (row * tokensPerThread) expert := by
  have hstart : AfterStage2 topkIds numExperts tokensPerThread ∅ tokensCnts :=
    hholds.congr fun row _ expert _ => by simp
  obtain ⟨next, hlaunch, hnext⟩ := @launch_returns _ _ _ order (moeAlignBlockSizeStage2 numExperts)
    (AfterStage2 topkIds numExperts tokensPerThread) _ hstart (by
      intro done pid hpid hfresh state hstate
      obtain ⟨next, hnext, hholds⟩ := @stage2_returns topkIds numExperts tokensPerThread pid hpid
        _ _ hstate (by simp [hfresh])
      refine ⟨next, hnext, hholds.congr fun row _ expert _ => ?_⟩
      by_cases hexpert : expert = pid
      · by_cases hpos : 0 < row <;> simp [hexpert, hpos]
      · simp [hexpert])
  refine ⟨next, hlaunch, hnext.congr fun row _ expert hexpert => ?_⟩
  rcases Nat.eq_zero_or_pos row with rfl | hpos
  · simp
  · rw [if_pos ⟨Finset.mem_range.mpr hexpert, hpos⟩]

/-- The tokens of an expert, rounded up to whole blocks. -/
def paddedCount (topkIds : List Nat) (blockSize expert : Nat) : Nat :=
  roundUp (topkIds.count expert) blockSize

theorem dvd_offset (topkIds : List Nat) (blockSize expert : Nat) :
    blockSize ∣ offset (paddedCount topkIds blockSize) expert :=
  offset_dvd (fun other => dvd_roundUp (topkIds.count other) blockSize) expert

/-- Between turns of the third stage: where the blocks of the first experts end. -/
def InStage3 (topkIds : List Nat) (numExperts blockSize turn : Nat) (state : List Nat × Nat) :
    Prop :=
  state.1.length = numExperts + 1 ∧ state.2 = offset (paddedCount topkIds blockSize) turn ∧
    ∀ expert ≤ turn, state.1[expert]? = some (offset (paddedCount topkIds blockSize) expert)

/-- The third stage adds up the padded counts. -/
theorem stage3_returns {tokensCnts totalTokensPostPad : List Nat}
    (hcover : topkIds.length ≤ numExperts * tokensPerThread)
    (hholds : Holds tokensCnts (numExperts + 1) numExperts fun row expert =>
      seen topkIds (row * tokensPerThread) expert)
    (htotal : 0 < totalTokensPostPad.length) :
    ∃ cumsum, moeAlignBlockSizeStage3 numExperts blockSize tokensCnts totalTokensPostPad
        (List.replicate (numExperts + 1) 0) =
          .ok (totalTokensPostPad.set 0 (offset (paddedCount topkIds blockSize) numExperts),
            cumsum) ∧
      ∀ expert ≤ numExperts,
        cumsum[expert]? = some (offset (paddedCount topkIds blockSize) expert) := by
  have hstart : InStage3 topkIds numExperts blockSize 0
      (List.replicate (numExperts + 1) 0, 0) := by
    refine ⟨List.length_replicate, rfl, fun expert hexpert => ?_⟩
    rw [Nat.le_zero.mp hexpert]
    rfl
  obtain ⟨⟨cumsum, lastCumsum⟩, hloop, hlength, hlast, hcumsum⟩ := @loop_returns _ _
    (stage3Turn numExperts blockSize tokensCnts) (InStage3 topkIds numExperts blockSize)
    numExperts 1 1 _ hstart (by
      rintro turn hturn ⟨state, lastCumsum⟩ ⟨hlength, hlast, hstate⟩
      simp only at hlength hlast hstate
      have hload := hholds.load (Nat.lt_succ_self numExperts) hturn
      rw [seen_of_length_le hcover] at hload
      have hindex : numExperts * numExperts + (1 + 1 * turn) - 1 =
          numExperts * numExperts + turn := by omega
      have hbound : 1 + 1 * turn < state.length := by omega
      refine ⟨(state.set (1 + 1 * turn) (lastCumsum + paddedCount topkIds blockSize turn),
        lastCumsum + paddedCount topkIds blockSize turn), ?_, ?_, ?_, fun expert hexpert => ?_⟩
      · exact bind_eq_ok.mpr ⟨_, hindex ▸ hload, bind_eq_ok.mpr ⟨_, store_eq_ok hbound _, rfl⟩⟩
      · rw [List.length_set, hlength]
      · rw [hlast]
        rfl
      · rw [List.getElem?_set]
        split
        · rename_i heq
          rw [← heq, hlast, Nat.one_mul, Nat.add_comm 1 turn]
          rfl
        · exact hstate expert (by omega))
  refine ⟨cumsum, bind_eq_ok.mpr ⟨_, hloop, bind_eq_ok.mpr ⟨_, store_eq_ok htotal _, ?_⟩⟩,
    hcumsum⟩
  simp only at hlast
  rw [hlast]
  rfl

/-! The last stage. -/

/-- The blocks of the experts whose programs have run carry their labels. -/
structure Labelled (width : Nat → Nat) (blockSize numBlocks : Nat) (done : Finset Nat)
    (expertIds : List Nat) : Prop where
  length : expertIds.length = numBlocks
  label : ∀ expert ∈ done, ∀ block, offset width expert ≤ block * blockSize →
    block * blockSize < offset width (expert + 1) → expertIds[block]? = some expert

/-- The tokens selected so far are at their places, and all other slots are padding. -/
structure Placed (topkIds : List Nat) (width : Nat → Nat) (numSlots : Nat)
    (selected : Nat → Prop) (sortedTokenIds : List Nat) : Prop where
  length : sortedTokenIds.length = numSlots
  filled : ∀ i < topkIds.length, selected i → sortedTokenIds[place topkIds width i]? = some i
  free : ∀ q < numSlots, (∀ i < topkIds.length, selected i → place topkIds width i ≠ q) →
    sortedTokenIds[q]? = some topkIds.length

/-- One more token takes its place. -/
theorem Placed.store {width : Nat → Nat} (hwidth : ∀ key, topkIds.count key ≤ width key)
    {numSlots : Nat} {selected : Nat → Prop} {sortedTokenIds : List Nat}
    (hplaced : Placed topkIds width numSlots selected sortedTokenIds) {i : Nat}
    (hi : i < topkIds.length) (hslot : place topkIds width i < numSlots) :
    Placed topkIds width numSlots (fun j => selected j ∨ j = i)
      (sortedTokenIds.set (place topkIds width i) i) := by
  refine ⟨by rw [List.length_set, hplaced.length], fun j hj hselected => ?_, fun q hq hnone => ?_⟩
  · rw [List.getElem?_set, hplaced.length, if_pos hslot]
    split
    · rename_i heq
      rw [place_injective hwidth hi hj heq]
    · rename_i hne
      rcases hselected with hselected | rfl
      · exact hplaced.filled j hj hselected
      · exact absurd rfl hne
  · rw [List.getElem?_set, if_neg (hnone i hi (.inr rfl))]
    exact hplaced.free q hq fun j hj hselected => hnone j hj (.inl hselected)

theorem Placed.congr {width : Nat → Nat} {numSlots : Nat} {selected other : Nat → Prop}
    {sortedTokenIds : List Nat}
    (hplaced : Placed topkIds width numSlots selected sortedTokenIds)
    (h : ∀ i < topkIds.length, (selected i ↔ other i)) :
    Placed topkIds width numSlots other sortedTokenIds :=
  ⟨hplaced.length, fun i hi hother => hplaced.filled i hi ((h i hi).mpr hother),
    fun q hq hnone => hplaced.free q hq fun i hi hselected => hnone i hi ((h i hi).mp hselected)⟩

/-- What the last stage is given: `cumsum`, and buffers that are large enough. -/
structure Room (topkIds : List Nat) (numExperts blockSize numSlots numBlocks : Nat)
    (cumsum : List Nat) : Prop where
  positive : 0 < blockSize
  experts : ∀ id ∈ topkIds, id < numExperts
  cumsum : ∀ expert ≤ numExperts,
    cumsum[expert]? = some (offset (paddedCount topkIds blockSize) expert)
  slots : offset (paddedCount topkIds blockSize) numExperts ≤ numSlots
  blocks : ∀ block, block * blockSize < offset (paddedCount topkIds blockSize) numExperts →
    block < numBlocks

section LastStage

variable {numSlots numBlocks : Nat} {cumsum : List Nat}
  (room : Room topkIds numExperts blockSize numSlots numBlocks cumsum)

include room

theorem Room.count_le (expert : Nat) :
    topkIds.count expert ≤ paddedCount topkIds blockSize expert := le_roundUp room.positive

/-- A block that starts before the end of an expert's blocks is there. -/
theorem Room.block_lt {pid block : Nat} (hpid : pid < numExperts)
    (hlt : block * blockSize < offset (paddedCount topkIds blockSize) (pid + 1)) :
    block < numBlocks :=
  room.blocks block (lt_of_lt_of_le hlt (offset_mono _ hpid))

/-- Between turns of the first loop: the first blocks of `pid` are labelled, too. -/
def InLabels (topkIds : List Nat) (blockSize numBlocks : Nat) (done : Finset Nat) (pid turn : Nat)
    (expertIds : List Nat) : Prop :=
  Labelled (paddedCount topkIds blockSize) blockSize numBlocks done expertIds ∧
    ∀ block, offset (paddedCount topkIds blockSize) pid ≤ block * blockSize →
      block * blockSize < offset (paddedCount topkIds blockSize) pid + blockSize * turn →
      expertIds[block]? = some pid

theorem stage4_labels {done : Finset Nat} {pid : Nat} (hpid : pid < numExperts)
    (hfresh : pid ∉ done) {expertIds : List Nat}
    (hlabelled : Labelled (paddedCount topkIds blockSize) blockSize numBlocks done expertIds) :
    ∃ next, (List.range' (offset (paddedCount topkIds blockSize) pid)
        (cdiv (offset (paddedCount topkIds blockSize) (pid + 1) -
          offset (paddedCount topkIds blockSize) pid) blockSize) blockSize).foldlM
        (fun expertIds i => store expertIds (i / blockSize) pid) expertIds = .ok next ∧
      Labelled (paddedCount topkIds blockSize) blockSize numBlocks (insert pid done) next := by
  obtain ⟨first, hfirst⟩ := dvd_offset topkIds blockSize pid
  have hcount : cdiv (offset (paddedCount topkIds blockSize) (pid + 1) -
      offset (paddedCount topkIds blockSize) pid) blockSize =
        cdiv (topkIds.count pid) blockSize := by
    rw [offset, Nat.add_sub_cancel_left, paddedCount, roundUp, cdiv_mul _ room.positive]
  have hstart : InLabels topkIds blockSize numBlocks done pid 0 expertIds :=
    ⟨hlabelled, fun block hle hlt => by omega⟩
  obtain ⟨next, hloop, hnext, hlast⟩ := @loop_returns _ _
    (fun expertIds i => store expertIds (i / blockSize) pid)
    (InLabels topkIds blockSize numBlocks done pid) (cdiv (topkIds.count pid) blockSize) blockSize
    (offset (paddedCount topkIds blockSize) pid) _ hstart (by
      rintro turn hturn state ⟨hstate, hown⟩
      have hblock : (offset (paddedCount topkIds blockSize) pid + blockSize * turn) / blockSize =
          first + turn := by
        rw [hfirst, ← Nat.mul_add, Nat.mul_div_cancel_left _ room.positive]
      have hfirstBlock : (first + turn) * blockSize =
          offset (paddedCount topkIds blockSize) pid + blockSize * turn := by
        rw [hfirst]
        ring
      have hinside : (first + turn) * blockSize <
          offset (paddedCount topkIds blockSize) (pid + 1) := by
        rw [hfirstBlock, offset, paddedCount, roundUp, Nat.mul_comm blockSize turn]
        exact Nat.add_lt_add_left (Nat.mul_lt_mul_of_pos_right hturn room.positive) _
      have hbound : first + turn < state.length := by
        rw [hstate.length]
        exact room.block_lt hpid hinside
      refine ⟨state.set (first + turn) pid, ?_, ⟨by rw [List.length_set, hstate.length], ?_⟩, ?_⟩
      · rw [hblock, store_eq_ok hbound]
      · intro expert hexpert block hle hlt
        rw [List.getElem?_set, if_neg, hstate.label expert hexpert block hle hlt]
        rintro rfl
        have hsame := bucket_unique hle hlt (by omega) hinside
        exact hfresh (hsame ▸ hexpert)
      · intro block hle hlt
        rw [List.getElem?_set]
        split
        · rfl
        · rename_i hne
          refine hown block hle (Nat.lt_of_not_ge fun hge => hne ?_)
          have hle' : (first + turn) * blockSize ≤ block * blockSize := by omega
          have hlt' : block * blockSize < (first + turn + 1) * blockSize := by
            rw [Nat.add_one_mul, hfirstBlock]
            rw [Nat.mul_add_one] at hlt
            omega
          have hfloor := Nat.le_of_mul_le_mul_right hle' room.positive
          have hceil := Nat.lt_of_mul_lt_mul_right hlt'
          omega)
  rw [hcount]
  refine ⟨next, hloop, hnext.length, fun expert hexpert block hle hlt => ?_⟩
  rcases Finset.mem_insert.mp hexpert with rfl | hexpert
  · refine hlast block hle ?_
    rw [offset, paddedCount, roundUp] at hlt
    rwa [Nat.mul_comm blockSize]
  · exact hnext.label expert hexpert block hle hlt

/-- Between turns of the second loop: the first tokens of `pid` are placed, too. -/
structure InTokens (topkIds : List Nat) (numExperts blockSize tokensPerThread numSlots : Nat)
    (selected : Nat → Prop) (entry : Nat → Nat → Nat) (expertIds : List Nat) (pid turn : Nat)
    (buffers : Placement) : Prop where
  expertIds : buffers.expertIds = expertIds
  counts : Holds buffers.tokensCnts (numExperts + 1) numExperts fun row expert =>
    if row = pid then seen topkIds (pid * tokensPerThread + turn) expert else entry row expert
  tokens : Placed topkIds (paddedCount topkIds blockSize) numSlots
    (fun i => selected i ∨ (pid * tokensPerThread ≤ i ∧ i < pid * tokensPerThread + turn))
    buffers.sortedTokenIds

/-- A turn places the token behind the earlier ones of its expert. -/
theorem stage4Turn_returns {selected : Nat → Prop} {entry : Nat → Nat → Nat}
    {expertIds : List Nat} {pid turn : Nat} (hpid : pid < numExperts)
    (hturn : pid * tokensPerThread + turn < topkIds.length) {buffers : Placement}
    (hbuffers : InTokens topkIds numExperts blockSize tokensPerThread numSlots selected entry
      expertIds pid turn buffers) :
    ∃ next, stage4Turn topkIds cumsum numExperts pid buffers (pid * tokensPerThread + turn) =
        .ok next ∧
      InTokens topkIds numExperts blockSize tokensPerThread numSlots selected entry expertIds pid
        (turn + 1) next := by
  obtain ⟨expertId, hget⟩ : ∃ expertId, topkIds[pid * tokensPerThread + turn]? = some expertId :=
    ⟨_, List.getElem?_eq_getElem hturn⟩
  have hexpert := room.experts expertId (List.mem_of_getElem? hget)
  have hrow : pid < numExperts + 1 := by omega
  have hload := hbuffers.counts.load hrow hexpert
  rw [if_pos rfl] at hload
  obtain ⟨tokensCnts, hstore, hcounts⟩ := hbuffers.counts.store hrow hexpert
    (seen topkIds (pid * tokensPerThread + turn) expertId + 1)
  have hplace : seen topkIds (pid * tokensPerThread + turn) expertId +
      offset (paddedCount topkIds blockSize) expertId =
        place topkIds (paddedCount topkIds blockSize) (pid * tokensPerThread + turn) := by
    rw [place_eq hget, Nat.add_comm]
  have hslot : place topkIds (paddedCount topkIds blockSize) (pid * tokensPerThread + turn) <
      numSlots := by
    have hmem := (place_mem room.count_le hget).2
    have hle := offset_mono (paddedCount topkIds blockSize)
      (show expertId + 1 ≤ numExperts from hexpert)
    have hslots := room.slots
    omega
  refine ⟨⟨_, buffers.expertIds, tokensCnts⟩,
    bind_eq_ok.mpr ⟨_, load_eq_ok hget, bind_eq_ok.mpr ⟨_, hload,
      bind_eq_ok.mpr ⟨_, load_eq_ok (room.cumsum expertId hexpert.le), bind_eq_ok.mpr
        ⟨_, store_eq_ok (hplace ▸ hbuffers.tokens.length ▸ hslot) _,
          bind_eq_ok.mpr ⟨_, hstore, rfl⟩⟩⟩⟩⟩, hbuffers.expertIds, ?_, ?_⟩
  · refine hcounts.congr fun row _ expert _ => ?_
    rw [← Nat.add_assoc, seen_succ hget]
    by_cases hsame : row = pid
    · by_cases hother : expert = expertId
      · rw [if_pos ⟨hsame, hother⟩, if_pos hsame, if_pos hother.symm, hother]
      · rw [if_neg fun h => hother h.2, if_pos hsame, if_pos hsame, if_neg (Ne.symm hother),
          Nat.add_zero]
    · rw [if_neg fun h => hsame h.1, if_neg hsame, if_neg hsame]
  · rw [hplace]
    refine (hbuffers.tokens.store room.count_le hturn hslot).congr fun i _ => ?_
    rw [or_assoc]
    refine or_congr Iff.rfl ?_
    omega

/-- Between programs of the last stage. -/
structure AfterStage4 (topkIds : List Nat)
    (numExperts blockSize tokensPerThread numSlots numBlocks : Nat) (done : Finset Nat)
    (buffers : Placement) : Prop where
  counts : Holds buffers.tokensCnts (numExperts + 1) numExperts fun row expert =>
    seen topkIds ((if row ∈ done then row + 1 else row) * tokensPerThread) expert
  labels : Labelled (paddedCount topkIds blockSize) blockSize numBlocks done buffers.expertIds
  tokens : Placed topkIds (paddedCount topkIds blockSize) numSlots
    (fun i => i / tokensPerThread ∈ done) buffers.sortedTokenIds

omit room in
/-- The tokens of one program, the last of which may have fewer. -/
theorem seen_program (pid expert : Nat) :
    seen topkIds (pid * tokensPerThread +
        (min (pid * tokensPerThread + tokensPerThread) topkIds.length - pid * tokensPerThread))
        expert =
      seen topkIds ((pid + 1) * tokensPerThread) expert := by
  rw [Nat.add_one_mul]
  rcases Nat.le_total (pid * tokensPerThread + tokensPerThread) topkIds.length with hle | hge
  · rw [Nat.min_eq_left hle, Nat.add_sub_cancel_left]
  · rw [seen_of_length_le hge, seen_of_length_le (by omega)]

theorem stage4_returns (hcover : topkIds.length ≤ numExperts * tokensPerThread)
    {done : Finset Nat} {pid : Nat} (hpid : pid < numExperts) (hfresh : pid ∉ done)
    {buffers : Placement}
    (hbuffers : AfterStage4 topkIds numExperts blockSize tokensPerThread numSlots numBlocks done
      buffers) :
    ∃ next, moeAlignBlockSizeStage4 topkIds cumsum numExperts blockSize topkIds.length
        tokensPerThread pid buffers = .ok next ∧
      AfterStage4 topkIds numExperts blockSize tokensPerThread numSlots numBlocks
        (insert pid done) next := by
  obtain ⟨expertIds, hlabels, hlabelled⟩ := stage4_labels room hpid hfresh hbuffers.labels
  have hstart : InTokens topkIds numExperts blockSize tokensPerThread numSlots
      (fun i => i / tokensPerThread ∈ done)
      (fun row expert =>
        seen topkIds ((if row ∈ done then row + 1 else row) * tokensPerThread) expert)
      expertIds pid 0 { buffers with expertIds := expertIds } := by
    refine ⟨rfl, hbuffers.counts.congr fun row _ expert _ => ?_,
      hbuffers.tokens.congr fun i _ => ?_⟩
    · by_cases hrow : row = pid
      · rw [if_pos hrow, hrow, if_neg hfresh, Nat.add_zero]
      · rw [if_neg hrow]
    · rw [or_iff_left (by omega)]
  obtain ⟨next, hloop, hexpertIds, hcounts, htokens⟩ := @loop_returns _ _
    (stage4Turn topkIds cumsum numExperts pid) _
    (min (pid * tokensPerThread + tokensPerThread) topkIds.length - pid * tokensPerThread) 1
    (pid * tokensPerThread) _ hstart (by
      intro turn hturn state hstate
      rw [Nat.one_mul]
      exact stage4Turn_returns room hpid (by omega) hstate)
  refine ⟨next, bind_eq_ok.mpr ⟨_, load_eq_ok (room.cumsum pid hpid.le), bind_eq_ok.mpr
    ⟨_, load_eq_ok (room.cumsum (pid + 1) hpid), bind_eq_ok.mpr ⟨_, hlabels, hloop⟩⟩⟩,
    hcounts.congr fun row _ expert _ => ?_, hexpertIds ▸ hlabelled, htokens.congr fun i hi => ?_⟩
  · by_cases hrow : row = pid
    · rw [if_pos hrow, seen_program, hrow, if_pos (Finset.mem_insert_self _ _)]
    · rw [if_neg hrow]
      simp only [Finset.mem_insert, hrow, false_or]
  · have hpositive : 0 < tokensPerThread := by
      by_contra hzero
      rw [Nat.eq_zero_of_not_pos hzero, Nat.mul_zero] at hcover
      omega
    have hlow := Nat.le_div_iff_mul_le hpositive (x := pid) (y := i)
    have hhigh := Nat.div_lt_iff_lt_mul hpositive (x := i) (y := pid + 1)
    rw [Nat.add_one_mul] at hhigh
    rw [Finset.mem_insert, or_comm]
    refine or_congr_left ?_
    omega

theorem stage4_launch (hcover : topkIds.length ≤ numExperts * tokensPerThread)
    (order : GridOrder numExperts) {buffers : Placement}
    (hbuffers : AfterStage4 topkIds numExperts blockSize tokensPerThread numSlots numBlocks ∅
      buffers) :
    ∃ next, launch order (moeAlignBlockSizeStage4 topkIds cumsum numExperts blockSize
        topkIds.length tokensPerThread) buffers = .ok next ∧
      Labelled (paddedCount topkIds blockSize) blockSize numBlocks (Finset.range numExperts)
        next.expertIds ∧
      Placed topkIds (paddedCount topkIds blockSize) numSlots (fun _ => True)
        next.sortedTokenIds := by
  obtain ⟨next, hlaunch, hnext⟩ := @launch_returns _ _ _ order _
    (AfterStage4 topkIds numExperts blockSize tokensPerThread numSlots numBlocks) _ hbuffers
    fun _ _ hpid hfresh _ hstate => stage4_returns room hcover hpid hfresh hstate
  refine ⟨next, hlaunch, hnext.labels, hnext.tokens.congr fun i hi => ?_⟩
  rw [iff_true, Finset.mem_range]
  exact Nat.div_lt_of_lt_mul (by rw [Nat.mul_comm]; omega)

end LastStage

section Placement

variable {width : Nat → Nat} {numSlots : Nat} {sortedTokenIds : List Nat}

/-- A slot with a token is the place of the token. -/
theorem Placed.eq_place (hplaced : Placed topkIds width numSlots (fun _ => True) sortedTokenIds)
    {q i : Nat} (hget : sortedTokenIds[q]? = some i) (hi : i < topkIds.length) :
    q = place topkIds width i := by
  have hq : q < numSlots := hplaced.length ▸ (List.getElem?_eq_some_iff.mp hget).1
  by_contra hne
  by_cases hfree : ∀ j < topkIds.length, True → place topkIds width j ≠ q
  · have hpadding := hplaced.free q hq hfree
    rw [hget, Option.some.injEq] at hpadding
    omega
  · push Not at hfree
    obtain ⟨j, hj, -, heq⟩ := hfree
    have hfilled := hplaced.filled j hj trivial
    rw [heq, hget, Option.some.injEq] at hfilled
    exact hne (hfilled ▸ heq.symm)

/-- A slot holds a token or padding. -/
theorem Placed.le (hplaced : Placed topkIds width numSlots (fun _ => True) sortedTokenIds)
    {q i : Nat} (hget : sortedTokenIds[q]? = some i) : i ≤ topkIds.length := by
  have hq : q < numSlots := hplaced.length ▸ (List.getElem?_eq_some_iff.mp hget).1
  by_cases hfree : ∀ j < topkIds.length, True → place topkIds width j ≠ q
  · have hpadding := hplaced.free q hq hfree
    rw [hget, Option.some.injEq] at hpadding
    exact hpadding.le
  · push Not at hfree
    obtain ⟨j, hj, -, heq⟩ := hfree
    have hfilled := hplaced.filled j hj trivial
    rw [heq, hget, Option.some.injEq] at hfilled
    omega

end Placement

/-- What `moe_align_block_size` promises of its results. -/
structure Aligned (topkIds : List Nat) (numExperts blockSize : Nat)
    (aligned : AlignedTokens Int) (total : Nat) : Prop where
  total_eq : total =
    ((List.range numExperts).map fun expert => roundUp (topkIds.count expert) blockSize).sum
  numTokensPostPad : aligned.numTokensPostPad = [total]
  fits : total ≤ aligned.sortedTokenIds.length
  once : ∀ i < topkIds.length, (aligned.sortedTokenIds.take total).count i = 1
  padding : ∀ i ∈ aligned.sortedTokenIds.take total, i < topkIds.length ∨ i = topkIds.length
  expert : ∀ q i, q < total → aligned.sortedTokenIds[q]? = some i → i < topkIds.length →
    aligned.expertIds[q / blockSize]? = topkIds[i]?.map Int.ofNat
  order : ∀ q r i j, q < r → r < total → aligned.sortedTokenIds[q]? = some i →
    aligned.sortedTokenIds[r]? = some j → i < topkIds.length → j < topkIds.length →
    topkIds[i]? = topkIds[j]? → i < j
  grouped : ∀ (block other : Nat) expert next, block ≤ other → other * blockSize < total →
    aligned.expertIds[block]? = some expert → aligned.expertIds[other]? = some next →
    expert ≤ next

/-- The buffers of the four kernels, put together. -/
theorem triton_returns (orders : GridOrders numExperts) (hids : ∀ id ∈ topkIds, id < numExperts)
    (hblock : 0 < blockSize) {sortedTokenIds expertIds : List Nat}
    (hslots : offset (paddedCount topkIds blockSize) numExperts ≤ sortedTokenIds.length)
    (hblocks : ∀ block, block * blockSize < offset (paddedCount topkIds blockSize) numExperts →
      block < expertIds.length) (hexperts : 0 < numExperts) :
    ∃ aligned, moeAlignBlockSizeTriton orders topkIds blockSize sortedTokenIds expertIds [0] =
        .ok aligned ∧
      aligned.numTokensPostPad = [offset (paddedCount topkIds blockSize) numExperts] ∧
      Labelled (paddedCount topkIds blockSize) blockSize expertIds.length
        (Finset.range numExperts) aligned.expertIds ∧
      Placed topkIds (paddedCount topkIds blockSize) sortedTokenIds.length (fun _ => True)
        aligned.sortedTokenIds := by
  have hcover : topkIds.length ≤ numExperts * cdiv topkIds.length numExperts := by
    rw [Nat.mul_comm]
    exact le_roundUp hexperts
  obtain ⟨counted, hstage1, hcounted⟩ := @stage1_launch topkIds numExperts
    (cdiv topkIds.length numExperts) hids orders.stage1
  obtain ⟨summed, hstage2, hsummed⟩ := stage2_launch orders.stage2 hcounted
  obtain ⟨cumsum, hstage3, hcumsum⟩ := @stage3_returns topkIds numExperts blockSize
    (cdiv topkIds.length numExperts) summed [0] hcover hsummed Nat.one_pos
  have room : Room topkIds numExperts blockSize sortedTokenIds.length expertIds.length cumsum :=
    ⟨hblock, hids, hcumsum, hslots, hblocks⟩
  have hstart : AfterStage4 topkIds numExperts blockSize (cdiv topkIds.length numExperts)
      sortedTokenIds.length expertIds.length ∅
      ⟨List.replicate sortedTokenIds.length topkIds.length, List.replicate expertIds.length 0,
        summed⟩ := by
    refine ⟨hsummed.congr fun row _ expert _ => by simp,
      ⟨List.length_replicate, fun expert hexpert => absurd hexpert (Finset.notMem_empty expert)⟩,
      ⟨List.length_replicate, fun i _ hselected => absurd hselected (Finset.notMem_empty _),
        fun q hq _ => ?_⟩⟩
    rw [List.getElem?_replicate, if_pos hq]
  obtain ⟨buffers, hstage4, hlabelled, hplaced⟩ :=
    stage4_launch room hcover orders.stage4 hstart
  exact ⟨⟨buffers.sortedTokenIds, buffers.expertIds, _⟩, bind_eq_ok.mpr ⟨_, hstage1,
    bind_eq_ok.mpr ⟨_, hstage2, bind_eq_ok.mpr ⟨_, hstage3, bind_eq_ok.mpr ⟨_, hstage4, rfl⟩⟩⟩⟩,
    rfl, hlabelled, hplaced⟩

/-- Padding adds less than a block for each expert. -/
theorem offset_paddedCount_le (hids : ∀ id ∈ topkIds, id < numExperts) (hblock : 0 < blockSize) :
    offset (paddedCount topkIds blockSize) numExperts ≤
      topkIds.length + numExperts * (blockSize - 1) := by
  have hle := @offset_le_offset (paddedCount topkIds blockSize) topkIds.count (blockSize - 1)
    (fun expert => roundUp_le hblock) numExperts
  rwa [offset_count topkIds numExperts hids] at hle

/-- The block of a token's place carries the label of its expert. -/
theorem label_of_place (hblock : 0 < blockSize) {numBlocks : Nat} {expertIds : List Nat}
    (hids : ∀ id ∈ topkIds, id < numExperts)
    (hlabelled : Labelled (paddedCount topkIds blockSize) blockSize numBlocks
      (Finset.range numExperts) expertIds) {i expert : Nat} (hget : topkIds[i]? = some expert) :
    expertIds[place topkIds (paddedCount topkIds blockSize) i / blockSize]? = some expert := by
  obtain ⟨hle, hlt⟩ := @place_mem topkIds (paddedCount topkIds blockSize) i expert
    (fun other => le_roundUp hblock) hget
  obtain ⟨first, hfirst⟩ := dvd_offset topkIds blockSize expert
  refine hlabelled.label expert
    (Finset.mem_range.mpr (hids expert (List.mem_of_getElem? hget))) _ ?_ ?_
  · rw [hfirst, Nat.mul_comm] at hle ⊢
    exact Nat.mul_le_mul_right _ ((Nat.le_div_iff_mul_le hblock).mpr hle)
  · exact lt_of_le_of_lt (Nat.div_mul_le_self _ _) hlt

theorem aligned_of_placed (hblock : 0 < blockSize) (hids : ∀ id ∈ topkIds, id < numExperts)
    {numBlocks numSlots : Nat} {aligned : AlignedTokens Nat}
    (htotal : aligned.numTokensPostPad = [offset (paddedCount topkIds blockSize) numExperts])
    (hslots : offset (paddedCount topkIds blockSize) numExperts ≤ numSlots)
    (hlabelled : Labelled (paddedCount topkIds blockSize) blockSize numBlocks
      (Finset.range numExperts) aligned.expertIds)
    (hplaced : Placed topkIds (paddedCount topkIds blockSize) numSlots (fun _ => True)
      aligned.sortedTokenIds) :
    Aligned topkIds numExperts blockSize
      ⟨aligned.sortedTokenIds, aligned.expertIds.map Int.ofNat, aligned.numTokensPostPad⟩
      (offset (paddedCount topkIds blockSize) numExperts) where
  total_eq := offset_eq_sum _ _
  numTokensPostPad := htotal
  fits := by
    rw [hplaced.length]
    exact hslots
  once := by
    intro i hi
    have hget := List.getElem?_eq_getElem hi
    have hplace := (@place_mem topkIds (paddedCount topkIds blockSize) i _
      (fun other => le_roundUp hblock) hget).2
    have hexpert := hids _ (List.getElem_mem hi)
    have hend := offset_mono (paddedCount topkIds blockSize)
      (show topkIds[i] + 1 ≤ numExperts from hexpert)
    have htake : place topkIds (paddedCount topkIds blockSize) i <
        offset (paddedCount topkIds blockSize) numExperts := by omega
    refine @count_eq_one _ (place topkIds (paddedCount topkIds blockSize) i) i ?_ fun q hq => ?_
    · rw [List.getElem?_take, if_pos htake, hplaced.filled i hi trivial]
    · rw [List.getElem?_take] at hq
      split at hq
      · exact hplaced.eq_place hq hi
      · cases hq
  padding := by
    intro i hmem
    obtain ⟨q, hq⟩ := List.mem_iff_getElem?.mp (List.mem_of_mem_take hmem)
    exact Nat.lt_or_eq_of_le (hplaced.le hq)
  expert := by
    intro q i _ hget hi
    have hkey := List.getElem?_eq_getElem hi
    rw [List.getElem?_map, hplaced.eq_place hget hi, label_of_place hblock hids hlabelled hkey,
      hkey]
  order := by
    intro q r i j hqr _ hgetq hgetr hi hj hsame
    have hkey := List.getElem?_eq_getElem hi
    rw [hplaced.eq_place hgetq hi, hplaced.eq_place hgetr hj] at hqr
    rcases Nat.lt_trichotomy i j with h | h | h
    · exact h
    · rw [h] at hqr
      exact absurd hqr (Nat.lt_irrefl _)
    · have hback := @place_lt_place topkIds (paddedCount topkIds blockSize) j i _
        (hsame ▸ hkey) hkey h
      omega
  grouped := by
    intro block other expert next hle hlt hexpert hnext
    have hmul := Nat.mul_le_mul_right blockSize hle
    obtain ⟨first, hfirst, hlow, hhigh⟩ := exists_bucket (lt_of_le_of_lt hmul hlt)
    obtain ⟨second, hsecond, hlow', hhigh'⟩ := exists_bucket hlt
    rw [List.getElem?_map, hlabelled.label first (Finset.mem_range.mpr hfirst) block hlow hhigh,
      Option.map_some, Option.some.injEq] at hexpert
    rw [List.getElem?_map, hlabelled.label second (Finset.mem_range.mpr hsecond) other hlow' hhigh',
      Option.map_some, Option.some.injEq] at hnext
    rw [← hexpert, ← hnext]
    exact Int.ofNat_le.mpr (bucket_mono hmul hlow hhigh')

/-- The token indices are sorted by expert into whole blocks, whatever the order in which the
programs of each stage run, and no access is outside its buffer. -/
theorem moe_aligned (hexperts : 0 < numExperts) (hblock : 0 < blockSize)
    (hids : ∀ id ∈ topkIds, id < numExperts) (orders : GridOrders numExperts)
    (padSortedIds : Bool) :
    ∃ aligned total,
      moeAlignBlockSize orders topkIds blockSize none padSortedIds = .ok aligned ∧
        Aligned topkIds numExperts blockSize aligned total := by
  have hpadded := offset_paddedCount_le hids hblock
  obtain ⟨size, hsize, hbound⟩ : ∃ size, size = (if padSortedIds then
      roundUp (topkIds.length + numExperts * (blockSize - 1)) blockSize
      else topkIds.length + numExperts * (blockSize - 1)) ∧
        offset (paddedCount topkIds blockSize) numExperts ≤ size := by
    refine ⟨_, rfl, ?_⟩
    split
    · exact hpadded.trans (le_roundUp hblock)
    · exact hpadded
  have hslots : offset (paddedCount topkIds blockSize) numExperts ≤
      (List.replicate size topkIds.length).length := by
    rwa [List.length_replicate]
  have hblocks : ∀ block, block * blockSize < offset (paddedCount topkIds blockSize) numExperts →
      block < (List.replicate (cdiv size blockSize) 0).length := by
    intro block hlt
    rw [List.length_replicate]
    exact lt_cdiv hblock (lt_of_lt_of_le hlt hbound)
  obtain ⟨aligned, htriton, htotal, hlabelled, hplaced⟩ :=
    triton_returns orders hids hblock hslots hblocks hexperts
  refine ⟨_, _, ?_, aligned_of_placed hblock hids htotal hslots hlabelled hplaced⟩
  unfold moeAlignBlockSize
  simp only [← hsize]
  exact bind_eq_ok.mpr ⟨aligned, htriton, rfl⟩

/-- Three programs in different orders. -/
def mixedOrders : GridOrders 3 where
  stage1 := ⟨[2, 0, 1], by decide⟩
  stage2 := ⟨[1, 2, 0], by decide⟩
  stage4 := ⟨[0, 2, 1], by decide⟩

/-- Four tokens, three experts, one of which has none. -/
theorem moe_aligned_four_tokens : ∃ aligned total,
    moeAlignBlockSize mixedOrders [2, 0, 2, 2] 2 none false = .ok aligned ∧
      Aligned [2, 0, 2, 2] 3 2 aligned total :=
  moe_aligned (by decide) (by decide) (by decide) mixedOrders false

example : (moeAlignBlockSize mixedOrders [2, 0, 2, 2] 2 none false).map
      (fun aligned => (aligned.sortedTokenIds, aligned.expertIds, aligned.numTokensPostPad)) =
    .ok ([1, 4, 0, 2, 3, 4, 4], [0, 2, 2, 0], [6]) := by decide

end VllmMlu.Moe
