import VllmMlu.Library.Cuts
import VllmMlu.Library.Machine
import VllmMlu.Moe.AlignedTokens

/-! The sorted tokens of a chunk with the experts of one rank: blocks of experts of other ranks
are labelled −1. -/
namespace VllmMlu.Moe
open VllmMlu.Library VllmMlu.Library.Kernel VllmMlu.Library.Buckets

variable {topkIds : List Nat} {numExperts blockSize : Nat}

/-- The index of an expert on this rank, −1 for one of another rank. -/
def localExpert (expertMap : Option (List Int)) (expert : Nat) : Int :=
  match expertMap with
  | none => expert
  | some expertMap => expertMap.getD expert (-1)

/-- What the kernels rely on. -/
structure SortedChunk (topkIds : List Nat) (numExperts blockSize : Nat)
    (expertMap : Option (List Int)) (aligned : AlignedTokens Int) (total : Nat) : Prop where
  numTokensPostPad : aligned.numTokensPostPad = [total]
  dvd : blockSize ∣ total
  fits : total ≤ aligned.sortedTokenIds.length
  small : total ≤ topkIds.length * blockSize
  slot : ∀ q < total, ∃ i ≤ topkIds.length, aligned.sortedTokenIds[q]? = some i
  block : ∀ block, block * blockSize < total →
    ∃ expert < numExperts, aligned.expertIds[block]? = some (localExpert expertMap expert)
  covered : ∀ i < topkIds.length, ∃ q < total, aligned.sortedTokenIds[q]? = some i
  once : ∀ (q r : Nat) i, aligned.sortedTokenIds[q]? = some i → aligned.sortedTokenIds[r]? = some i →
    i < topkIds.length → q = r
  expert : ∀ (q : Nat) i id, aligned.sortedTokenIds[q]? = some i → topkIds[i]? = some id →
    aligned.expertIds[q / blockSize]? = some (localExpert expertMap id)

theorem roundUp_le_mul (count : Nat) (hblock : 0 < blockSize) :
    roundUp count blockSize ≤ count * blockSize := by
  apply Nat.mul_le_mul_right
  rcases Nat.eq_zero_or_pos count with rfl | hpos
  · rw [cdiv, Nat.zero_add, Nat.div_eq_of_lt (by omega)]
  · rw [cdiv]
    apply Nat.div_le_of_le_mul
    obtain ⟨rest, rfl⟩ : ∃ rest, blockSize = rest + 1 := ⟨blockSize - 1, by omega⟩
    rw [Nat.add_sub_assoc (by omega), Nat.add_sub_cancel, Nat.add_one_mul]
    have hle := Nat.le_mul_of_pos_right rest hpos
    omega

theorem offset_paddedCount_le_mul (hids : ∀ id ∈ topkIds, id < numExperts)
    (hblock : 0 < blockSize) :
    offset (paddedCount topkIds blockSize) numExperts ≤ topkIds.length * blockSize := by
  rw [← offset_count topkIds numExperts hids]
  exact offset_le_mul (fun expert => roundUp_le_mul (topkIds.count expert) hblock) numExperts

/-! The labels of blocks are experts, also of blocks behind the last token. -/

theorem stage4_bounded {cumsum : List Nat} {numel tokensPerThread pid : Nat}
    (hpid : pid < numExperts) {buffers next : Placement}
    (hbounded : ∀ expert ∈ buffers.expertIds, expert < numExperts)
    (hok : moeAlignBlockSizeStage4 topkIds cumsum numExperts blockSize numel tokensPerThread pid
      buffers = .ok next) : ∀ expert ∈ next.expertIds, expert < numExperts := by
  obtain ⟨startIdx, -, hok⟩ := bind_eq_ok.mp hok
  obtain ⟨endIdx, -, hok⟩ := bind_eq_ok.mp hok
  obtain ⟨labels, hlabels, hok⟩ := bind_eq_ok.mp hok
  have hstored : ∀ expert ∈ labels, expert < numExperts := by
    refine @foldlM_invariant _ _ _ _ (fun labels => ∀ expert ∈ labels, expert < numExperts) _ _ _
      hbounded (fun i _ state next hstate hstore expert hmem => ?_) hlabels
    rw [store] at hstore
    split at hstore
    · cases hstore
      rcases List.mem_or_eq_of_mem_set hmem with hmem | rfl
      · exact hstate expert hmem
      · exact hpid
    · cases hstore
  refine @foldlM_invariant _ _ _ _ (fun buffers : Placement =>
    ∀ expert ∈ buffers.expertIds, expert < numExperts) _ _ _ hstored
    (fun i _ state next hstate hturn => ?_) hok
  obtain ⟨expertId, -, hturn⟩ := bind_eq_ok.mp hturn
  obtain ⟨tokenCnt, -, hturn⟩ := bind_eq_ok.mp hturn
  obtain ⟨expertStart, -, hturn⟩ := bind_eq_ok.mp hturn
  obtain ⟨sortedTokenIds, -, hturn⟩ := bind_eq_ok.mp hturn
  obtain ⟨tokensCnts, -, hturn⟩ := bind_eq_ok.mp hturn
  cases hturn
  exact hstate

theorem triton_bounded {orders : GridOrders numExperts} {sortedTokenIds expertIds : List Nat}
    {numTokensPostPad : List Nat} {aligned : AlignedTokens Nat} (hexperts : 0 < numExperts)
    (hok : moeAlignBlockSizeTriton orders topkIds blockSize sortedTokenIds expertIds
      numTokensPostPad = .ok aligned) : ∀ expert ∈ aligned.expertIds, expert < numExperts := by
  obtain ⟨counted, -, hok⟩ := bind_eq_ok.mp hok
  obtain ⟨summed, -, hok⟩ := bind_eq_ok.mp hok
  obtain ⟨⟨total, cumsum⟩, -, hok⟩ := bind_eq_ok.mp hok
  obtain ⟨buffers, hlaunch, hok⟩ := bind_eq_ok.mp hok
  cases hok
  refine @foldlM_invariant _ _ _ _ (fun buffers : Placement =>
    ∀ expert ∈ buffers.expertIds, expert < numExperts) _ _ _ ?_
    (fun pid hmem state next hstate hnext => ?_) hlaunch
  · intro expert hmem
    rw [List.eq_of_mem_replicate hmem]
    exact hexperts
  · have hpid := List.mem_range.mp (orders.stage4.perm.mem_iff.mp hmem)
    exact stage4_bounded hpid hstate hnext

/-- A map of all experts to those of the rank. -/
def MapsExperts (expertMap : Option (List Int)) (numExperts : Nat) : Prop :=
  ∀ map ∈ expertMap, map.length = numExperts

theorem mapExperts_returns {expertMap : Option (List Int)}
    (hmap : MapsExperts expertMap numExperts) {expertIds : List Nat}
    (hbounded : ∀ expert ∈ expertIds, expert < numExperts) :
    mapExperts expertMap expertIds = .ok (expertIds.map (localExpert expertMap)) := by
  cases expertMap with
  | none => rfl
  | some map =>
      refine Cuts.mapM_ok_eq_map fun expert hmem => ?_
      have hlt : expert < map.length := hmap map rfl ▸ hbounded expert hmem
      exact load_getD hlt (-1)

/-- The results of the alignment, with the labels of the rank's own experts. -/
theorem align_returns (orders : GridOrders numExperts) (hexperts : 0 < numExperts)
    (hblock : 0 < blockSize) (hids : ∀ id ∈ topkIds, id < numExperts)
    {expertMap : Option (List Int)} (hmap : MapsExperts expertMap numExperts) :
    ∃ aligned total, moeAlignBlockSize orders topkIds blockSize expertMap false = .ok aligned ∧
      SortedChunk topkIds numExperts blockSize expertMap aligned total := by
  have hpadded := offset_paddedCount_le hids hblock
  obtain ⟨aligned, htriton, htotal, hlabelled, hplaced⟩ := @triton_returns topkIds numExperts
    blockSize orders hids hblock
    (List.replicate (topkIds.length + numExperts * (blockSize - 1)) topkIds.length)
    (List.replicate (cdiv (topkIds.length + numExperts * (blockSize - 1)) blockSize) 0)
    (by rwa [List.length_replicate]) (fun block hlt => by
      rw [List.length_replicate]
      exact lt_cdiv hblock (hlt.trans_le hpadded)) hexperts
  rw [List.length_replicate] at hplaced
  have hmapped := mapExperts_returns hmap (triton_bounded hexperts htriton)
  have haligned := aligned_of_placed hblock hids htotal hpadded hlabelled hplaced
  refine ⟨_, offset (paddedCount topkIds blockSize) numExperts,
    bind_eq_ok.mpr ⟨aligned, htriton, bind_eq_ok.mpr ⟨_, hmapped, rfl⟩⟩, ?_⟩
  constructor
  case numTokensPostPad => exact htotal
  case dvd => exact dvd_offset topkIds blockSize numExperts
  case fits => exact haligned.fits
  case small => exact offset_paddedCount_le_mul hids hblock
  case slot =>
    intro q hq
    have hlt : q < aligned.sortedTokenIds.length := hq.trans_le haligned.fits
    have hget := List.getElem?_eq_getElem hlt
    exact ⟨_, hplaced.le hget, hget⟩
  case block =>
    intro block hlt
    obtain ⟨expert, hexpert, hle, hlt⟩ := exists_bucket hlt
    refine ⟨expert, hexpert, ?_⟩
    rw [List.getElem?_map, hlabelled.label expert (Finset.mem_range.mpr hexpert) block hle hlt]
    rfl
  case covered =>
    intro i hi
    have hget := List.getElem?_eq_getElem hi
    have hplace := (@place_mem topkIds (paddedCount topkIds blockSize) i _
      (fun other => le_roundUp hblock) hget).2
    have hend := offset_mono (paddedCount topkIds blockSize)
      (show topkIds[i] + 1 ≤ numExperts from hids _ (List.getElem_mem hi))
    exact ⟨_, hplace.trans_le hend, hplaced.filled i hi trivial⟩
  case once =>
    intro q r i hq hr hi
    rw [hplaced.eq_place hq hi, hplaced.eq_place hr hi]
  case expert =>
    intro q i id hq hid
    have hi := (List.getElem?_eq_some_iff.mp hid).1
    rw [List.getElem?_map, hplaced.eq_place hq hi, label_of_place hblock hids hlabelled hid]
    rfl

end VllmMlu.Moe
