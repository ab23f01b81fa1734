import Mathlib.Tactic.Ring
import VllmMlu.Moe.FusedMoe
import VllmMlu.Moe.LocalExperts

/-! One launch of the fused kernel: every program has a tile of its own, and the tiles together
are the products of all tokens with their experts. -/
namespace VllmMlu.Moe
open VllmMlu.Library VllmMlu.Library.Kernel

section TileOrder

variable {numPidM numPidN groupSizeM pid pidM pidN : Nat}

/-- How many rows of tiles a group has; the last one may have fewer. -/
def groupHeight (numPidM groupSizeM groupId : Nat) : Nat :=
  min (numPidM - groupId * groupSizeM) groupSizeM

/-- The program of a tile. -/
def pidOf (numPidM numPidN groupSizeM pidM pidN : Nat) : Nat :=
  pidM / groupSizeM * (groupSizeM * numPidN) +
    (pidN * groupHeight numPidM groupSizeM (pidM / groupSizeM) + pidM % groupSizeM)

theorem tileOf_eq (numPidM numPidN groupSizeM pid : Nat) :
    tileOf numPidM numPidN groupSizeM pid =
      (pid / (groupSizeM * numPidN) * groupSizeM + pid % (groupSizeM * numPidN) %
          groupHeight numPidM groupSizeM (pid / (groupSizeM * numPidN)),
        pid % (groupSizeM * numPidN) /
          groupHeight numPidM groupSizeM (pid / (groupSizeM * numPidN))) := rfl

theorem groupHeight_pos (hgroup : 0 < groupSizeM) (hpid : pid < numPidM * numPidN) :
    0 < groupHeight numPidM groupSizeM (pid / (groupSizeM * numPidN)) := by
  have hfirst : pid / (groupSizeM * numPidN) * groupSizeM < numPidM := by
    apply Nat.lt_of_mul_lt_mul_right (a := numPidN)
    calc pid / (groupSizeM * numPidN) * groupSizeM * numPidN
        = pid / (groupSizeM * numPidN) * (groupSizeM * numPidN) := Nat.mul_assoc _ _ _
      _ ≤ pid := Nat.div_mul_le_self _ _
      _ < numPidM * numPidN := hpid
  rw [groupHeight]
  omega

/-- The programs of the last group fit in its rows. -/
theorem mod_lt_group (hgroup : 0 < groupSizeM) (hpid : pid < numPidM * numPidN) :
    pid % (groupSizeM * numPidN) <
      groupHeight numPidM groupSizeM (pid / (groupSizeM * numPidN)) * numPidN := by
  have hpos : 0 < groupSizeM * numPidN :=
    Nat.mul_pos hgroup (Nat.pos_of_mul_pos_left (Nat.zero_lt_of_lt hpid))
  rw [groupHeight, Nat.min_def]
  split
  · have hsum := Nat.div_add_mod' pid (groupSizeM * numPidN)
    rw [Nat.sub_mul, Nat.mul_assoc]
    omega
  · exact Nat.mod_lt pid hpos

theorem tileOf_lt (hgroup : 0 < groupSizeM) (hpid : pid < numPidM * numPidN) :
    (tileOf numPidM numPidN groupSizeM pid).1 < numPidM ∧
      (tileOf numPidM numPidN groupSizeM pid).2 < numPidN := by
  have hheight := groupHeight_pos hgroup hpid
  have hmod := Nat.mod_lt (pid % (groupSizeM * numPidN)) hheight
  refine ⟨?_, Nat.div_lt_of_lt_mul (mod_lt_group hgroup hpid)⟩
  simp only [tileOf]
  simp only [groupHeight] at hheight hmod
  omega

/-- The numbering of the tiles has an inverse. -/
theorem pidOf_tileOf (hgroup : 0 < groupSizeM) (hpid : pid < numPidM * numPidN) :
    pidOf numPidM numPidN groupSizeM (tileOf numPidM numPidN groupSizeM pid).1
      (tileOf numPidM numPidN groupSizeM pid).2 = pid := by
  have hmod : pid % (groupSizeM * numPidN) %
      groupHeight numPidM groupSizeM (pid / (groupSizeM * numPidN)) < groupSizeM :=
    (Nat.mod_lt _ (groupHeight_pos hgroup hpid)).trans_le (Nat.min_le_right _ _)
  rw [tileOf_eq, pidOf, grid_div hmod, grid_mod hmod, Nat.div_add_mod', Nat.div_add_mod']

theorem mod_lt_groupHeight (hgroup : 0 < groupSizeM) (hpidM : pidM < numPidM) :
    pidM % groupSizeM < groupHeight numPidM groupSizeM (pidM / groupSizeM) := by
  have hsum := Nat.div_add_mod' pidM groupSizeM
  have hmod := Nat.mod_lt pidM hgroup
  rw [groupHeight]
  omega

theorem pidOf_group (hgroup : 0 < groupSizeM) (hpidM : pidM < numPidM) (hpidN : pidN < numPidN) :
    pidN * groupHeight numPidM groupSizeM (pidM / groupSizeM) + pidM % groupSizeM <
      groupHeight numPidM groupSizeM (pidM / groupSizeM) * numPidN := by
  rw [Nat.mul_comm _ numPidN]
  exact Holds.row_lt hpidN (mod_lt_groupHeight hgroup hpidM)

theorem pidOf_lt (hgroup : 0 < groupSizeM) (hpidM : pidM < numPidM) (hpidN : pidN < numPidN) :
    pidOf numPidM numPidN groupSizeM pidM pidN < numPidM * numPidN := by
  have hfirst : pidM / groupSizeM * groupSizeM ≤ numPidM :=
    (Nat.div_mul_le_self pidM groupSizeM).trans hpidM.le
  calc pidOf numPidM numPidN groupSizeM pidM pidN
      < pidM / groupSizeM * (groupSizeM * numPidN) +
          groupHeight numPidM groupSizeM (pidM / groupSizeM) * numPidN :=
        Nat.add_lt_add_left (pidOf_group hgroup hpidM hpidN) _
    _ ≤ pidM / groupSizeM * groupSizeM * numPidN +
          (numPidM - pidM / groupSizeM * groupSizeM) * numPidN := by
        rw [Nat.mul_assoc]
        exact Nat.add_le_add_left (Nat.mul_le_mul_right _ (Nat.min_le_left _ _)) _
    _ = numPidM * numPidN := by rw [← Nat.add_mul, Nat.add_sub_of_le hfirst]

theorem tileOf_pidOf (hgroup : 0 < groupSizeM) (hpidM : pidM < numPidM)
    (hpidN : pidN < numPidN) :
    tileOf numPidM numPidN groupSizeM (pidOf numPidM numPidN groupSizeM pidM pidN) =
      (pidM, pidN) := by
  have hrest := mod_lt_groupHeight hgroup hpidM
  have hinside := (pidOf_group hgroup hpidM hpidN).trans_le
    (Nat.mul_le_mul_right numPidN (Nat.min_le_right _ groupSizeM))
  rw [tileOf_eq, pidOf, grid_div hinside, grid_mod hinside, grid_div hrest, grid_mod hrest,
    Nat.div_add_mod']

end TileOrder

/-- The experts of the rank have weights. -/
def LocalExperts (expertMap : Option (List Int)) (numExperts numLocal : Nat) : Prop :=
  ∀ expert < numExperts, localExpert expertMap expert = -1 ∨
    0 ≤ localExpert expertMap expert ∧ (localExpert expertMap expert).toNat < numLocal

namespace FusedMoeArgs

variable {R : Type}

/-- The arguments describe a matrix of tokens, stacked weights and routed weights. -/
structure Describes (args : FusedMoeArgs R) (aRows numLocal : Nat) (x : Nat → Nat → R)
    (w : Nat → Nat → Nat → R) (weight : Nat → R) : Prop where
  a : Holds args.a aRows args.k x
  b : ∀ e < numLocal, ∀ c < args.n, ∀ h < args.k,
    args.b.data[e * args.strideBe + c * args.strideBn + h]? = some (w e c h)
  topkWeights : ∀ r < args.numValidTokens, args.topkWeights[r]? = some (weight r)
  numValidTokens : args.numValidTokens = aRows * args.topK
  topK : 0 < args.topK
  strideAm : args.strideAm = args.k
  strideAk : args.strideAk = 1
  strideBk : args.strideBk = 1
  strideCm : args.strideCm = args.n
  strideCn : args.strideCn = 1

/-- The sorted tokens are those of a chunk, and the grid reaches all of them. -/
structure Sorts (args : FusedMoeArgs R) (topkIds : List Nat) (numExperts : Nat)
    (expertMap : Option (List Int)) (total : Nat) : Prop where
  aligned : SortedChunk topkIds numExperts args.config.blockSizeM expertMap
    ⟨args.sortedTokenIds, args.expertIds, args.numTokensPostPadded⟩ total
  numValidTokens : topkIds.length = args.numValidTokens
  em : total ≤ args.em

variable {args : FusedMoeArgs R} {aRows numLocal numExperts total : Nat} {x : Nat → Nat → R}
  {w : Nat → Nat → Nat → R} {weight : Nat → R} {topkIds : List Nat}
  {expertMap : Option (List Int)} {offsToken : Nat → Nat} {offExperts pidM pidN turn : Nat}

theorem aLanes_addresses (hargs : args.Describes aRows numLocal x w weight) :
    (args.aLanes offsToken turn).Addresses aRows args.k
      (fun i _ => offsToken i / args.topK) fun _ j => turn * args.config.blockSizeK + j where
  ptr i j _ := by
    simp only [aLanes, hargs.strideAm, hargs.strideAk]
    ring
  row_lt i j hactive := by
    have hmask := hactive.mask
    simp only [aLanes, Bool.and_eq_true, decide_eq_true_eq, hargs.numValidTokens] at hmask
    rw [Nat.mul_comm] at hmask
    exact Nat.div_lt_of_lt_mul hmask.1
  col_lt i j hactive := by
    have hmask := hactive.mask
    simp only [aLanes, Bool.and_eq_true, decide_eq_true_eq] at hmask
    omega

theorem bLanes_load [Zero R] (hargs : args.Describes aRows numLocal x w weight)
    (hexpert : offExperts < numLocal) (hn : 0 < args.n) :
    ∃ tile, (args.bLanes offExperts pidN turn).load args.b.data (fun _ _ => 0) = .ok tile ∧
      (∀ i j, (args.bLanes offExperts pidN turn).Active i j → tile i j =
        w offExperts ((pidN * args.config.blockSizeN + j) % args.n)
          (turn * args.config.blockSizeK + i)) ∧
      ∀ i j, (args.bLanes offExperts pidN turn).mask i j = false → tile i j = 0 := by
  apply Lanes.load_returns
  intro i j hactive
  have hmask := hactive.mask
  simp only [bLanes, decide_eq_true_eq] at hmask
  have hptr : (args.bLanes offExperts pidN turn).ptr i j = offExperts * args.strideBe +
      (pidN * args.config.blockSizeN + j) % args.n * args.strideBn +
      (turn * args.config.blockSizeK + i) := by
    simp only [bLanes, hargs.strideBk]
    ring
  rw [hptr]
  exact hargs.b _ hexpert _ (Nat.mod_lt _ hn) _ (by omega)

/-- A lane of the output that is not masked out. -/
structure Covers (args : FusedMoeArgs R) (offsToken : Nat → Nat) (pidN i j : Nat) : Prop where
  i_lt : i < args.config.blockSizeM
  j_lt : j < args.config.blockSizeN
  token : offsToken i < args.numValidTokens
  col : pidN * args.config.blockSizeN + j < args.n

theorem active_cLanes {i j : Nat} :
    (args.cLanes offsToken pidN).Active i j ↔ args.Covers offsToken pidN i j := by
  constructor
  · rintro ⟨hi, hj, hmask⟩
    simp only [cLanes, Bool.and_eq_true, decide_eq_true_eq] at hmask
    exact ⟨hi, hj, hmask.1, hmask.2⟩
  · rintro ⟨hi, hj, htoken, hcol⟩
    refine ⟨hi, hj, ?_⟩
    simp only [cLanes, Bool.and_eq_true, decide_eq_true_eq]
    exact ⟨htoken, hcol⟩

theorem cLanes_addresses (hargs : args.Describes aRows numLocal x w weight) :
    (args.cLanes offsToken pidN).Addresses args.numValidTokens args.n (fun i _ => offsToken i)
      fun _ j => pidN * args.config.blockSizeN + j where
  ptr i j _ := by
    simp only [cLanes, hargs.strideCm, hargs.strideCn]
    ring
  row_lt i j hactive := (active_cLanes.mp hactive).token
  col_lt i j hactive := (active_cLanes.mp hactive).col

/-- The rows and columns of a tile. -/
def Inside (args : FusedMoeArgs R) (pidM pidN r c : Nat) : Prop :=
  (∃ i < args.config.blockSizeM,
    args.sortedTokenIds[pidM * args.config.blockSizeM + i]? = some r) ∧
  c / args.config.blockSizeN = pidN

/-- The token indices that a program has loaded. -/
def Slots (args : FusedMoeArgs R) (pidM : Nat) (offsToken : Nat → Nat) : Prop :=
  ∀ i < args.config.blockSizeM,
    args.sortedTokenIds[pidM * args.config.blockSizeM + i]? = some (offsToken i)

theorem Covers.inside {i j : Nat} (hslots : args.Slots pidM offsToken)
    (hcovers : args.Covers offsToken pidN i j) :
    args.Inside pidM pidN (offsToken i) (pidN * args.config.blockSizeN + j) :=
  ⟨⟨i, hcovers.i_lt, hslots i hcovers.i_lt⟩, grid_div hcovers.j_lt⟩

theorem Inside.covers {r c : Nat} (hslots : args.Slots pidM offsToken)
    (hinside : args.Inside pidM pidN r c) (hr : r < args.numValidTokens) (hc : c < args.n) :
    ∃ i j, args.Covers offsToken pidN i j ∧ offsToken i = r ∧
      pidN * args.config.blockSizeN + j = c := by
  obtain ⟨⟨i, hi, hget⟩, rfl⟩ := hinside
  have htoken : offsToken i = r := Option.some.inj ((hslots i hi).symm.trans hget)
  have hcol := Nat.div_add_mod' c args.config.blockSizeN
  refine ⟨i, c % args.config.blockSizeN, ⟨hi, Nat.mod_lt c args.config.blockSizeN_pos, ?_, ?_⟩,
    htoken, hcol⟩
  · rwa [htoken]
  · rwa [hcol]

/-- The end of a program, where the tile is written. -/
theorem store_writes (hargs : args.Describes aRows numLocal x w weight)
    (hsorts : args.Sorts topkIds numExperts expertMap total) (hslots : args.Slots pidM offsToken)
    {value final : Nat → Nat → R}
    (hvalue : ∀ i j, args.Covers offsToken pidN i j →
      value i j = final (offsToken i) (pidN * args.config.blockSizeN + j)) :
    Writes ((args.cLanes offsToken pidN).store value) args.numValidTokens args.n
      (args.Inside pidM pidN) final := by
  classical
  intro buffer entry hholds
  have hstore : ∃ next, (args.cLanes offsToken pidN).store value buffer = .ok next ∧
      Holds next args.numValidTokens args.n fun r c =>
        if args.Inside pidM pidN r c then final r c else entry r c := by
    apply (cLanes_addresses hargs).update hholds
    · intro i j k l hactive hother hrow hcol
      have hcovers := active_cLanes.mp hactive
      have hget := hslots k (active_cLanes.mp hother).i_lt
      rw [← hrow] at hget
      have hsame := hsorts.aligned.once _ _ _ (hslots i hcovers.i_lt) hget
        (hsorts.numValidTokens ▸ hcovers.token)
      omega
    · intro i j hactive
      have hcovers := active_cLanes.mp hactive
      rw [if_pos (hcovers.inside hslots), hvalue i j hcovers]
    · intro r hr c hc hnone
      apply if_neg
      intro hinside
      obtain ⟨i, j, hcovers, hrow, hcol⟩ := hinside.covers hslots hr hc
      exact hnone i j (active_cLanes.mpr hcovers) hrow hcol
  obtain ⟨next, hnext, hwritten⟩ := hstore
  exact ⟨next, _, hnext, hwritten, fun r _ c _ => ⟨fun hinside => if_pos hinside,
    fun houtside => if_neg houtside⟩⟩

/-- A block in front of the end of the sorted tokens has all its slots. -/
theorem Sorts.getElem? (hsorts : args.Sorts topkIds numExperts expertMap total)
    (hblock : pidM * args.config.blockSizeM < total) {i : Nat} (hi : i < args.config.blockSizeM) :
    args.sortedTokenIds[pidM * args.config.blockSizeM + i]? =
      some (args.sortedTokenIds.getD (pidM * args.config.blockSizeM + i) 0) := by
  obtain ⟨count, rfl⟩ := hsorts.aligned.dvd
  have hlt : pidM < count := Nat.lt_of_mul_lt_mul_left (Nat.mul_comm pidM _ ▸ hblock)
  have hfits := hsorts.aligned.fits
  rw [Nat.mul_comm] at hfits
  have hin := (Holds.row_lt hlt hi).trans_le hfits
  rw [List.getD_eq_getElem _ _ hin, List.getElem?_eq_getElem hin]

theorem Sorts.slots (hsorts : args.Sorts topkIds numExperts expertMap total)
    (hblock : pidM * args.config.blockSizeM < total) :
    ∃ ids, (args.idLanes pidM).load args.sortedTokenIds (fun _ _ => 0) = .ok ids ∧
      args.Slots pidM fun i => ids i 0 := by
  obtain ⟨ids, hload, hids, -⟩ := @Lanes.load_returns _ (args.idLanes pidM) args.sortedTokenIds _
    (fun i j hactive => hsorts.getElem? hblock hactive.row) fun _ _ => 0
  refine ⟨ids, hload, fun i hi => ?_⟩
  have htoken := hids i 0 ⟨hi, Nat.one_pos, rfl⟩
  dsimp only
  rw [htoken, hsorts.getElem? hblock hi]

/-- A program behind the end of the sorted tokens has nothing to write. -/
theorem Sorts.not_inside (hsorts : args.Sorts topkIds numExperts expertMap total)
    (hbehind : total ≤ pidM * args.config.blockSizeM) {r c : Nat} (hr : r < args.numValidTokens) :
    ¬args.Inside pidM pidN r c := by
  rintro ⟨⟨i, -, hget⟩, -⟩
  rw [← hsorts.numValidTokens] at hr
  obtain ⟨q, hq, hother⟩ := hsorts.aligned.covered r hr
  have hsame := hsorts.aligned.once _ _ _ hget hother hr
  omega

/-- The block of a program. -/
def blockAt (args : FusedMoeArgs R) (pid0 pid1 : Nat) : Nat × Nat :=
  tileOf args.gridM args.gridN args.config.groupSizeM (pid1 * args.gridM + pid0)

/-- Every program has a block of its own, every entry of a token lies in the block of a program,
and no program reads behind the sorted tokens or the labels of their blocks. -/
structure SoundGrid (args : FusedMoeArgs R) : Prop where
  distinct : ∀ pid0 < args.gridM, ∀ pid1 < args.gridN, ∀ other0 < args.gridM,
    ∀ other1 < args.gridN, args.blockAt pid0 pid1 = args.blockAt other0 other1 →
      pid0 = other0 ∧ pid1 = other1
  covered : ∀ r < args.numValidTokens, ∀ c < args.n, ∃ pid0 < args.gridM, ∃ pid1 < args.gridN,
    args.Inside (args.blockAt pid0 pid1).1 (args.blockAt pid0 pid1).2 r c
  reads : ∀ total ∈ args.numTokensPostPadded, ∀ pid0 < args.gridM, ∀ pid1 < args.gridN,
    (args.blockAt pid0 pid1).1 * args.config.blockSizeM < total →
      (args.idLanes (args.blockAt pid0 pid1).1).inBounds args.sortedTokenIds ∧
        (args.blockAt pid0 pid1).1 < args.expertIds.length

theorem pid_lt {width height pid0 pid1 : Nat} (h0 : pid0 < width) (h1 : pid1 < height) :
    pid1 * width + pid0 < width * height := by
  rw [Nat.mul_comm width]
  exact Holds.row_lt h1 h0

/-- Every entry of a token lies in the block of some program. -/
theorem Sorts.covered (hsorts : args.Sorts topkIds numExperts expertMap total) {r c : Nat}
    (hr : r < args.numValidTokens) (hc : c < args.n) :
    ∃ pid < args.gridM * args.gridN,
      args.Inside (tileOf args.gridM args.gridN args.config.groupSizeM pid).1
        (tileOf args.gridM args.gridN args.config.groupSizeM pid).2 r c := by
  obtain ⟨q, hq, hget⟩ := hsorts.aligned.covered r (hsorts.numValidTokens ▸ hr)
  have hrow : q / args.config.blockSizeM < args.gridM :=
    lt_cdiv args.config.blockSizeM_pos ((Nat.div_mul_le_self q _).trans_lt (hq.trans_le hsorts.em))
  have hcol : c / args.config.blockSizeN < args.gridN :=
    lt_cdiv args.config.blockSizeN_pos ((Nat.div_mul_le_self c _).trans_lt hc)
  refine ⟨_, pidOf_lt args.config.groupSizeM_pos hrow hcol, ?_⟩
  rw [tileOf_pidOf args.config.groupSizeM_pos hrow hcol]
  refine ⟨⟨q % args.config.blockSizeM, Nat.mod_lt q args.config.blockSizeM_pos, ?_⟩, rfl⟩
  rw [Nat.div_add_mod', hget]

theorem Sorts.soundGrid (hsorts : args.Sorts topkIds numExperts expertMap total) :
    args.SoundGrid where
  distinct pid0 h0 pid1 h1 other0 hother0 other1 hother1 heq := by
    have hpid := pidOf_tileOf args.config.groupSizeM_pos (pid_lt h0 h1)
    have hother := pidOf_tileOf args.config.groupSizeM_pos (pid_lt hother0 hother1)
    rw [blockAt, blockAt] at heq
    rw [heq, hother] at hpid
    exact ⟨(grid_injective h0 hother0 hpid.symm).2, (grid_injective h0 hother0 hpid.symm).1⟩
  covered r hr c hc := by
    obtain ⟨pid, hpid, hinside⟩ := hsorts.covered hr hc
    have hwidth : 0 < args.gridM := Nat.pos_of_mul_pos_right (Nat.zero_lt_of_lt hpid)
    refine ⟨pid % args.gridM, Nat.mod_lt pid hwidth, pid / args.gridM,
      Nat.div_lt_of_lt_mul hpid, ?_⟩
    rwa [blockAt, Nat.div_add_mod']
  reads other hother pid0 h0 pid1 h1 hblock := by
    have htotal : args.numTokensPostPadded = [total] := hsorts.aligned.numTokensPostPad
    rw [htotal, List.mem_singleton] at hother
    subst hother
    obtain ⟨expert, -, hlabel⟩ := hsorts.aligned.block _ hblock
    refine ⟨fun i hi _ _ _ => ?_, (List.getElem?_eq_some_iff.mp hlabel).1⟩
    exact (List.getElem?_eq_some_iff.mp (hsorts.getElem? hblock hi)).1

section Values

variable [CommSemiring R]

/-- A summand of a product, zero behind the end of the common dimension. -/
def term (args : FusedMoeArgs R) (x : Nat → Nat → R) (w : Nat → Nat → Nat → R) (t e c h : Nat) :
    R :=
  if h < args.k then x t h * w e c h else 0

theorem accumulateTurn_returns (hargs : args.Describes aRows numLocal x w weight)
    (hexpert : offExperts < numLocal) (hn : 0 < args.n) (accumulator : Nat → Nat → R) :
    ∃ next, args.accumulateTurn offsToken offExperts pidN accumulator turn = .ok next ∧
      ∀ i j, args.Covers offsToken pidN i j → next i j = accumulator i j +
        ∑ y ∈ Finset.range args.config.blockSizeK,
          args.term x w (offsToken i / args.topK) offExperts
            (pidN * args.config.blockSizeN + j) (turn * args.config.blockSizeK + y) := by
  obtain ⟨a, hloadA, ha, hzeroA⟩ := (@aLanes_addresses _ _ _ _ _ _ _ offsToken turn hargs).load
    hargs.a fun _ _ => 0
  obtain ⟨b, hloadB, hb, -⟩ := @bLanes_load _ _ _ _ _ _ _ _ pidN turn _ hargs hexpert hn
  refine ⟨_, bind_eq_ok.mpr ⟨a, hloadA, bind_eq_ok.mpr ⟨b, hloadB, rfl⟩⟩, fun i j hcovers => ?_⟩
  apply congrArg (accumulator i j + ·)
  apply Finset.sum_congr rfl
  intro y hy
  have hlt := Finset.mem_range.mp hy
  rw [term]
  split
  case isTrue hk =>
    have hinside : y < args.k - turn * args.config.blockSizeK := by omega
    rw [ha i y ⟨hcovers.i_lt, hlt, by simp [aLanes, hcovers.token, hinside]⟩,
      hb y j ⟨hlt, hcovers.j_lt, by simp [bLanes, hinside]⟩, Nat.mod_eq_of_lt hcovers.col]
  case isFalse hk =>
    have hbehind : ¬y < args.k - turn * args.config.blockSizeK := by omega
    rw [hzeroA i y (by simp [aLanes, hbehind]), zero_mul]

theorem sum_term {count : Nat} (hcount : args.k ≤ count) (t e c : Nat) :
    ∑ h ∈ Finset.range count, args.term x w t e c h =
      ∑ h ∈ Finset.range args.k, x t h * w e c h := by
  rw [← Finset.sum_subset (Finset.range_subset_range.mpr hcount)]
  · apply Finset.sum_congr rfl
    intro h hmem
    rw [term, if_pos (Finset.mem_range.mp hmem)]
  · intro h _ hbehind
    rw [term, if_neg fun hlt => hbehind (Finset.mem_range.mpr hlt)]

/-- The product of a token with an expert, nothing for an expert of another rank. -/
def product (args : FusedMoeArgs R) (x : Nat → Nat → R) (w : Nat → Nat → Nat → R)
    (weight : Nat → R) (expert : Int) (r c : Nat) : R :=
  if expert = -1 then 0
  else (∑ h ∈ Finset.range args.k, x (r / args.topK) h * w expert.toNat c h) *
    if args.mulRoutedWeight then weight r else 1

theorem loop_accumulates (hargs : args.Describes aRows numLocal x w weight)
    (hexpert : offExperts < numLocal) (hn : 0 < args.n) :
    ∃ accumulator, (List.range' 0 (cdiv args.k args.config.blockSizeK)).foldlM
        (args.accumulateTurn offsToken offExperts pidN) (fun _ _ => 0) = .ok accumulator ∧
      ∀ i j, args.Covers offsToken pidN i j → accumulator i j =
        ∑ h ∈ Finset.range args.k, x (offsToken i / args.topK) h *
          w offExperts (pidN * args.config.blockSizeN + j) h := by
  obtain ⟨accumulator, hloop, hvalue⟩ := @loop_returns _ _
    (args.accumulateTurn offsToken offExperts pidN)
    (fun count accumulator => ∀ i j, args.Covers offsToken pidN i j → accumulator i j =
      ∑ turn ∈ Finset.range count, ∑ y ∈ Finset.range args.config.blockSizeK,
        args.term x w (offsToken i / args.topK) offExperts
          (pidN * args.config.blockSizeN + j) (turn * args.config.blockSizeK + y))
    (cdiv args.k args.config.blockSizeK) 1 0 (fun _ _ => 0)
    (fun i j _ => by rw [Finset.sum_range_zero])
    (fun turn _ accumulator hinv => by
      obtain ⟨next, hnext, hadded⟩ := accumulateTurn_returns hargs hexpert hn accumulator
      refine ⟨next, ?_, fun i j hcovers => ?_⟩
      · rw [Nat.one_mul, Nat.zero_add]
        exact hnext
      · rw [hadded i j hcovers, hinv i j hcovers, Finset.sum_range_succ])
  refine ⟨accumulator, hloop, fun i j hcovers => ?_⟩
  rw [hvalue i j hcovers, sum_blocks fun h => args.term x w (offsToken i / args.topK) offExperts
    (pidN * args.config.blockSizeN + j) h]
  exact sum_term (le_roundUp args.config.blockSizeK_pos) _ _ _

theorem accumulate_returns (hargs : args.Describes aRows numLocal x w weight) {expert : Int}
    (hindex : 0 ≤ expert) (hexpert : expert.toNat < numLocal) (hn : 0 < args.n) :
    ∃ accumulator, args.accumulate offsToken expert.toNat pidN = .ok accumulator ∧
      ∀ i j, args.Covers offsToken pidN i j → accumulator i j =
        args.product x w weight expert (offsToken i) (pidN * args.config.blockSizeN + j) := by
  have hne : expert ≠ -1 := by omega
  obtain ⟨accumulator, hloop, hvalue⟩ :=
    @loop_accumulates _ _ _ _ _ _ _ offsToken _ pidN _ hargs hexpert hn
  simp only [accumulate, product, if_neg hne]
  split
  case isTrue hmul =>
    obtain ⟨moeWeight, hload, hweight, -⟩ := @Lanes.load_returns _ (args.weightLanes offsToken)
      args.topkWeights (fun i _ => weight (offsToken i)) (fun i j hactive => by
        have hmask := hactive.mask
        simp only [weightLanes, decide_eq_true_eq] at hmask
        exact hargs.topkWeights _ hmask) fun _ _ => 0
    refine ⟨_, bind_eq_ok.mpr ⟨accumulator, hloop, bind_eq_ok.mpr ⟨moeWeight, hload, rfl⟩⟩,
      fun i j hcovers => ?_⟩
    rw [hvalue i j hcovers, hweight i 0 ⟨hcovers.i_lt, Nat.one_pos, by
      simp [weightLanes, hcovers.token]⟩]
  case isFalse hmul =>
    refine ⟨_, bind_eq_ok.mpr ⟨accumulator, hloop, rfl⟩, fun i j hcovers => ?_⟩
    rw [hvalue i j hcovers, mul_one]

/-- What a launch leaves in its output. -/
def experts (args : FusedMoeArgs R) (topkIds : List Nat) (expertMap : Option (List Int))
    (x : Nat → Nat → R) (w : Nat → Nat → Nat → R) (weight : Nat → R) (r c : Nat) : R :=
  args.product x w weight (localExpert expertMap (topkIds.getD r 0)) r c

/-- All rows of a tile have the expert that the tile is labelled with. -/
theorem experts_tile (hsorts : args.Sorts topkIds numExperts expertMap total)
    (hslots : args.Slots pidM offsToken) {expert : Int} (hlabel : args.expertIds[pidM]? = some expert)
    {i j : Nat} (hcovers : args.Covers offsToken pidN i j) (c : Nat) :
    args.experts topkIds expertMap x w weight (offsToken i) c =
      args.product x w weight expert (offsToken i) c := by
  have hlt : offsToken i < topkIds.length := hsorts.numValidTokens ▸ hcovers.token
  have hown := hsorts.aligned.expert _ _ _ (hslots i hcovers.i_lt) (List.getElem?_eq_getElem hlt)
  rw [grid_div hcovers.i_lt] at hown
  rw [experts, List.getD_eq_getElem _ _ hlt, Option.some.inj (hown.symm.trans hlabel)]

/-- A program in front of the end of the sorted tokens, once it has read what to work on. -/
theorem computeBlock_eq (hsorts : args.Sorts topkIds numExperts expertMap total)
    (hblock : pidM * args.config.blockSizeM < total) {ids : Nat → Nat → Nat}
    (hids : (args.idLanes pidM).load args.sortedTokenIds (fun _ _ => 0) = .ok ids) {expert : Int}
    (hlabel : args.expertIds[pidM]? = some expert) (ops : FusedOps R) (c : List R) :
    args.computeBlock ops pidM pidN c =
      if expert = -1 then ops.writeZerosToOutput (args.cLanes (fun i => ids i 0) pidN) c
      else if expert < 0 then throw .outOfBounds
      else args.accumulate (fun i => ids i 0) expert.toNat pidN >>= fun accumulator =>
        (args.cLanes (fun i => ids i 0) pidN).store accumulator c := by
  have htotal : args.numTokensPostPadded = [total] := hsorts.aligned.numTokensPostPad
  have hfirst : load args.numTokensPostPadded 0 = .ok total := by rw [htotal]; rfl
  rw [computeBlock, hfirst, hids, load_eq_ok hlabel]
  exact if_neg (Nat.not_le_of_lt hblock)

/-- A program behind the end of the sorted tokens. -/
theorem computeBlock_behind (hsorts : args.Sorts topkIds numExperts expertMap total)
    (hbehind : total ≤ pidM * args.config.blockSizeM) (ops : FusedOps R) (c : List R) :
    args.computeBlock ops pidM pidN c = .ok c := by
  have htotal : args.numTokensPostPadded = [total] := hsorts.aligned.numTokensPostPad
  have hfirst : load args.numTokensPostPadded 0 = .ok total := by rw [htotal]; rfl
  rw [computeBlock, hfirst]
  exact if_pos hbehind

theorem computeBlock_writes (hargs : args.Describes aRows numLocal x w weight)
    (hsorts : args.Sorts topkIds numExperts expertMap total)
    (hlocal : LocalExperts expertMap numExperts numLocal) (hn : 0 < args.n) (ops : FusedOps R) :
    Writes (args.computeBlock ops pidM pidN) args.numValidTokens args.n
      (args.Inside pidM pidN) (args.experts topkIds expertMap x w weight) := by
  intro buffer entry hholds
  by_cases hblock : pidM * args.config.blockSizeM < total
  case neg =>
    have hbehind := Nat.le_of_not_lt hblock
    refine ⟨buffer, entry, computeBlock_behind hsorts hbehind ops buffer, hholds,
      fun r hr c _ => ⟨fun hinside => ?_, fun _ => rfl⟩⟩
    exact absurd hinside (hsorts.not_inside hbehind hr)
  case pos =>
    obtain ⟨ids, hids, hslots⟩ := hsorts.slots hblock
    obtain ⟨expert, hexpert, hlabel⟩ := hsorts.aligned.block pidM hblock
    have htile : ∀ i j, args.Covers (fun i => ids i 0) pidN i j →
        args.experts topkIds expertMap x w weight (ids i 0)
            (pidN * args.config.blockSizeN + j) =
          args.product x w weight (localExpert expertMap expert) (ids i 0)
            (pidN * args.config.blockSizeN + j) :=
      fun i j hcovers => experts_tile hsorts hslots hlabel hcovers _
    rcases hlocal expert hexpert with hother | ⟨hindex, hweights⟩
    case inl =>
      obtain ⟨next, written, hstore, hwritten⟩ := @store_writes _ _ _ _ _ _ _ _ _ _ _ _ _ pidN
        hargs hsorts hslots (fun _ _ => 0) (args.experts topkIds expertMap x w weight)
        (fun i j hcovers => by rw [htile i j hcovers, product, if_pos hother]) buffer entry hholds
      refine ⟨next, written, ?_, hwritten⟩
      rw [computeBlock_eq hsorts hblock hids hlabel, if_pos hother, ops.writeZerosToOutput_eq]
      exact hstore
    case inr =>
      obtain ⟨accumulator, haccumulate, hvalue⟩ := accumulate_returns hargs hindex hweights hn
      obtain ⟨next, written, hstore, hwritten⟩ := @store_writes _ _ _ _ _ _ _ _ _ _ _ _ _ pidN
        hargs hsorts hslots accumulator (args.experts topkIds expertMap x w weight)
        (fun i j hcovers => by rw [htile i j hcovers, hvalue i j hcovers]) buffer entry hholds
      refine ⟨next, written, ?_, hwritten⟩
      rw [computeBlock_eq hsorts hblock hids hlabel, if_neg (by omega), if_neg (not_lt.mpr hindex)]
      exact bind_eq_ok.mpr ⟨accumulator, haccumulate, hstore⟩

/-- A launch, in any order of its programs. -/
theorem invokeFusedMoeKernel_returns (hargs : args.Describes aRows numLocal x w weight)
    (hsorts : args.Sorts topkIds numExperts expertMap total)
    (hlocal : LocalExperts expertMap numExperts numLocal) (ops : FusedOps R) (order : LaunchOrder)
    {c : List R} {start : Nat → Nat → R} (hholds : Holds c args.numValidTokens args.n start) :
    ∃ result, invokeFusedMoeKernel ops order args c = .ok result ∧
      Holds result args.numValidTokens args.n (args.experts topkIds expertMap x w weight) := by
  refine @launch_writes _ _ _ _ _ _ _ (fun pid =>
    args.Inside (tileOf args.gridM args.gridN args.config.groupSizeM pid).1
      (tileOf args.gridM args.gridN args.config.groupSizeM pid).2) start _ c ?_ ?_ hholds
  · intro pid hpid
    rw [Nat.mul_one] at hpid
    have hn : 0 < args.n := by
      rcases Nat.eq_zero_or_pos args.n with hzero | hpos
      · have hcols : args.gridN = 0 := by
          rw [gridN, hzero, cdiv, Nat.zero_add]
          exact Nat.div_eq_of_lt (Nat.sub_one_lt_of_lt args.config.blockSizeN_pos)
        rw [hcols] at hpid
        exact absurd hpid (Nat.not_lt_zero pid)
      · exact hpos
    have hblock : args.blockAt (pid % args.gridM) (pid / args.gridM) =
        tileOf args.gridM args.gridN args.config.groupSizeM pid := by
      rw [blockAt, Nat.div_add_mod']
    rw [Nat.mod_eq_of_lt hpid, ← hblock]
    exact computeBlock_writes hargs hsorts hlocal hn ops
  · intro r hr c hc
    rw [Nat.mul_one]
    exact hsorts.covered hr hc

end Values

end FusedMoeArgs

end VllmMlu.Moe
