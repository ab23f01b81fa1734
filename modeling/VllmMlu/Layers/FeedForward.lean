import Mathlib.Algebra.BigOperators.Group.Finset.Basic
import Mathlib.Algebra.BigOperators.Ring.Finset
import Mathlib.Tactic.Ring
import VllmMlu.Layers.KeptWeights
import VllmMlu.Library.Tiles

/-! The gated feed-forward network, with the full weights and with the ranks' copies of them. -/
namespace VllmMlu.Layers
open VllmMlu.Library

variable {α : Type}

section Cover

/-- Every row of a shard is in the slice of exactly one rank, once. -/
def CoversOnce (size tpSize : Nat) : Prop :=
  ∀ row < size, ∃! place : Nat × Nat, place.1 < tpSize ∧ place.2 < size / tpSize ∧
    place.1 * (size / tpSize) + place.2 = row

theorem coversOnce_iff {size tpSize : Nat} :
    CoversOnce size tpSize ↔ size % tpSize = 0 := by
  have hsplit := Nat.div_add_mod size tpSize
  constructor
  · intro hcovers
    by_contra hmod
    obtain ⟨⟨rank, i⟩, ⟨hrank, hi, hrow⟩, -⟩ := hcovers (tpSize * (size / tpSize)) (by omega)
    dsimp only at hrank hi hrow
    have hle := Nat.mul_le_mul_right (size / tpSize) (Nat.succ_le_of_lt hrank)
    rw [Nat.succ_mul] at hle
    omega
  · intro hmod row hrow
    have hsize : size / tpSize * tpSize = size := by
      rw [Nat.mul_comm]
      omega
    have hblock : 0 < size / tpSize := Nat.pos_of_ne_zero fun hzero => by
      rw [hzero] at hsize
      omega
    refine ⟨(row / (size / tpSize), row % (size / tpSize)), ?_, ?_⟩
    · refine ⟨?_, Nat.mod_lt _ hblock, Nat.div_add_mod' row _⟩
      rw [Nat.div_lt_iff_lt_mul hblock, Nat.mul_comm, hsize]
      exact hrow
    · rintro ⟨rank, i⟩ ⟨-, hi, rfl⟩
      dsimp only at hi ⊢
      rw [Nat.mul_comm rank, Nat.mul_add_div hblock, Nat.mul_add_mod, Nat.div_eq_of_lt hi,
        Nat.mod_eq_of_lt hi, Nat.add_zero]

end Cover

/-- The copies on a rank have the shapes of its slices, and for every shard exactly its slice. -/
structure SlicesHeld (layers : Projections) (checkpoint : Checkpoint α) (tpRank : Nat)
    (params : Params α) : Prop where
  tpUpWeight : HasShape params.up.tpWeight (layers.up.outputSizes.sum / layers.tpSize)
      (layers.quant.weightCols layers.up.inputSize) false ∧
    RowsLoaded layers.up.outputSizes layers.tpSize tpRank (checkpoint.up .weight) (fun _ => True)
      params.up.tpWeight
  tpUpScale : LinearParam.registered layers.quant .perChannelScale = true →
    HasShape params.up.tpPerChannelScale (layers.up.outputSizes.sum / layers.tpSize)
      (layers.quant.scaleCols layers.up.inputSize) layers.quant.groupSize.isNone ∧
    RowsLoaded layers.up.outputSizes layers.tpSize tpRank (checkpoint.up .perChannelScale)
      (fun _ => True) params.up.tpPerChannelScale
  tpDownWeight : HasShape params.down.tpWeight layers.down.outputSize
      (layers.quant.weightCols layers.down.inputSize / layers.tpSize) false ∧
    ∀ i j, params.down.tpWeight.entry i j = (checkpoint.down .weight).entry i
      (tpRank * (layers.quant.weightCols layers.down.inputSize / layers.tpSize) + j)
  tpDownSmooth : LinearParam.registered layers.quant .smooth = true →
    HasShape params.down.tpSmooth (layers.down.inputSize / layers.tpSize) 1 true ∧
    ∀ i j, params.down.tpSmooth.entry i j = (checkpoint.down .smooth).entry
      (tpRank * (layers.down.inputSize / layers.tpSize) + i) j

/-- The slices of all ranks cover what they are cut from once. -/
structure SlicesCover (layers : Projections) : Prop where
  up : ∀ size ∈ layers.up.outputSizes, CoversOnce size layers.tpSize
  downWeight : CoversOnce (layers.quant.weightCols layers.down.inputSize) layers.tpSize
  downSmooth : LinearParam.registered layers.quant .smooth = true →
    CoversOnce layers.down.inputSize layers.tpSize

section Forward

variable {R : Type} [CommRing R]

/-- How the entries are read: as numbers, and as the numbers that are packed into one entry. -/
structure Numbers (α R : Type) where
  number : α → R
  unpack : α → Nat → R

/-- A gated activation and the second projection of an output. -/
def gatedSum (act : R → R → R) (size : Nat) (fc1 : Nat → R) (weight : Nat → R) : R :=
  ∑ j ∈ Finset.range size, act (fc1 j) (fc1 (size + j)) * weight j

/-- The scale of an output, at an input. -/
def scaleAt (num : Numbers α R) (quant : QuantMethod) (scale : Tensor α) (out input : Nat) : R :=
  match quant.groupSize with
  | none => num.number (scale.entry out 0)
  | some groupSize => num.number (scale.entry out (input / groupSize))

/-- `FeedForward.forward` on a row of the hidden states, without bias and residual and before the
reduction; `none` where it raises. -/
def feedForward (num : Numbers α R) (act : R → R → R) (layers : Projections) (params : Params α)
    (useTpWeight : Bool) (hidden : Nat → R) : Option (Nat → R) :=
  let upWeight := if useTpWeight then params.up.tpWeight else params.up.weight
  let downWeight := if useTpWeight then params.down.tpWeight else params.down.weight
  let size := upWeight.rows / 2
  match layers.quant with
  | .unquantized =>
      if upWeight.cols = layers.up.inputSize ∧ downWeight.cols = size then
        let fc1 := fun out =>
          ∑ input ∈ Finset.range layers.up.inputSize,
            hidden input * num.number (upWeight.entry out input)
        some fun out => gatedSum act size fc1 fun j => num.number (downWeight.entry out j)
      else none
  | .smoothQuant config =>
      let upScale := if useTpWeight then params.up.tpPerChannelScale else params.up.perChannelScale
      let downSmooth := if useTpWeight then params.down.tpSmooth else params.down.smooth
      -- without fp8 the attribute `smooth` of the second layer is read
      if upWeight.cols * config.packFactor = layers.up.inputSize ∧
          downWeight.cols * config.packFactor = size ∧
          (config.hasSmooth = true → downSmooth.rows = size) ∧
          (config.hasSmooth = true ∨ config.isFp8 = true) then
        let upSmooth := fun input =>
          if config.hasSmooth then num.number (params.up.smooth.entry input 0) else 1
        let smooth := fun j =>
          if config.hasSmooth then num.number (downSmooth.entry j 0) else 1
        let fc1 := fun out =>
          ∑ input ∈ Finset.range layers.up.inputSize, hidden input * upSmooth input *
            num.unpack (upWeight.entry out (input / config.packFactor))
              (input % config.packFactor) *
            scaleAt num layers.quant upScale out input
        some fun out => gatedSum act size fc1 fun j => smooth j *
          num.unpack (downWeight.entry out (j / config.packFactor)) (j % config.packFactor) *
          scaleAt num layers.quant params.down.perChannelScale out j
      else none

/-- The ranks' results add up to the result with the full weights, or both raise. -/
def FeedForwardSums (num : Numbers α R) (act : R → R → R) (layers : Projections)
    (final : Nat → Params α) : Prop :=
  ∀ hidden : Nat → R,
    (∀ rank < layers.tpSize, feedForward num act layers (final rank) true hidden = none ∧
      feedForward num act layers (final rank) false hidden = none) ∨
    ∃ (full : Nat → R) (part : Nat → Nat → R), ∀ rank < layers.tpSize,
      feedForward num act layers (final rank) false hidden = some full ∧
      feedForward num act layers (final rank) true hidden = some (part rank) ∧
      ∀ out, ∑ rank ∈ Finset.range layers.tpSize, part rank out = full out

theorem gatedSum_blocks (act : R → R → R) {count size : Nat} {fc1 weight : Nat → R}
    {fc1Part weightPart : Nat → Nat → R}
    (hgate : ∀ rank < count, ∀ j < size, fc1Part rank j = fc1 (rank * size + j))
    (hup : ∀ rank < count, ∀ j < size,
      fc1Part rank (size + j) = fc1 (count * size + (rank * size + j)))
    (hweight : ∀ rank < count, ∀ j < size, weightPart rank j = weight (rank * size + j)) :
    ∑ rank ∈ Finset.range count, gatedSum act size (fc1Part rank) (weightPart rank) =
      gatedSum act (count * size) fc1 weight := by
  rw [gatedSum, ← Kernel.sum_blocks]
  apply Finset.sum_congr rfl
  intro rank hrank
  apply Finset.sum_congr rfl
  intro j hj
  have hrank := Finset.mem_range.mp hrank
  have hj := Finset.mem_range.mp hj
  rw [hgate rank hrank j hj, hup rank hrank j hj, hweight rank hrank j hj]

/-- Ranks that have their parts of everything add up. -/
theorem feedForwardSums_of_parts {num : Numbers α R} {act : R → R → R} {layers : Projections}
    {final : Nat → Params α} {block : Nat} {fc1 : (Nat → R) → Nat → R} {weight : Nat → Nat → R}
    {fc1Full fc1Part : (Nat → R) → Nat → Nat → R} {weightFull weightPart : Nat → Nat → Nat → R}
    (hidden : Nat → R)
    (hfull : ∀ rank < layers.tpSize, feedForward num act layers (final rank) false hidden =
      some fun out => gatedSum act (layers.tpSize * block) (fc1Full hidden rank)
        (weightFull rank out))
    (hpart : ∀ rank < layers.tpSize, feedForward num act layers (final rank) true hidden =
      some fun out => gatedSum act block (fc1Part hidden rank) (weightPart rank out))
    (hfc1Full : ∀ rank < layers.tpSize, ∀ i < layers.tpSize * block + layers.tpSize * block,
      fc1Full hidden rank i = fc1 hidden i)
    (hfc1Part : ∀ rank < layers.tpSize, ∀ j < block,
      fc1Part hidden rank j = fc1 hidden (rank * block + j) ∧
      fc1Part hidden rank (block + j) =
        fc1 hidden (layers.tpSize * block + (rank * block + j)))
    (hweightFull : ∀ rank < layers.tpSize, ∀ out, ∀ i < layers.tpSize * block,
      weightFull rank out i = weight out i)
    (hweightPart : ∀ rank < layers.tpSize, ∀ out, ∀ j < block,
      weightPart rank out j = weight out (rank * block + j)) :
    ∃ (full : Nat → R) (part : Nat → Nat → R), ∀ rank < layers.tpSize,
      feedForward num act layers (final rank) false hidden = some full ∧
      feedForward num act layers (final rank) true hidden = some (part rank) ∧
      ∀ out, ∑ rank ∈ Finset.range layers.tpSize, part rank out = full out := by
  refine ⟨fun out => gatedSum act (layers.tpSize * block) (fc1 hidden) (weight out),
    fun rank out => gatedSum act block (fc1Part hidden rank) (weightPart rank out), ?_⟩
  intro rank hrank
  refine ⟨?_, hpart rank hrank, ?_⟩
  · rw [hfull rank hrank]
    apply congrArg some
    funext out
    apply Finset.sum_congr rfl
    intro j hj
    have hj := Finset.mem_range.mp hj
    rw [hfc1Full rank hrank j (by omega), hfc1Full rank hrank _ (by omega),
      hweightFull rank hrank out j hj]
  · intro out
    exact gatedSum_blocks act (fun rank hrank j hj => (hfc1Part rank hrank j hj).1)
      (fun rank hrank j hj => (hfc1Part rank hrank j hj).2)
      fun rank hrank j hj => hweightPart rank hrank out j hj

end Forward

section Halves

/-- The rows of two shards of equal size. -/
def twoShards (size : Nat) (shards : Nat → Tensor α) (row col : Nat) : α :=
  if row < size then (shards 0).entry row col else (shards 1).entry (row - size) col

variable {size tpSize tpRank : Nat} {shards : Nat → Tensor α} {seen : Nat → Prop}
  {dst : Tensor α}

theorem full_rows (hloaded : RowsLoaded [size, size] 1 0 shards seen dst) (hseen : ∀ i < 2, seen i)
    {row : Nat} (hrow : row < size + size) (col : Nat) :
    dst.entry row col = twoShards size shards row col := by
  rw [twoShards]
  split
  · rename_i hlt
    have hentry := hloaded 0 size rfl (hseen 0 (by decide)) row (by simpa using hlt) col
    simpa [shardStart] using hentry
  · rename_i hge
    have hentry := hloaded 1 size rfl (hseen 1 (by decide)) (row - size)
      (by rw [Nat.div_one]; omega) col
    have hsplit : size + (row - size) = row := by omega
    simpa [shardStart, hsplit] using hentry

theorem part_rows (hloaded : RowsLoaded [size, size] tpSize tpRank shards seen dst)
    (hseen : ∀ i < 2, seen i) (hrank : tpRank < tpSize) {j : Nat} (hj : j < size / tpSize)
    (col : Nat) :
    dst.entry j col = twoShards size shards (tpRank * (size / tpSize) + j) col ∧
      dst.entry (size / tpSize + j) col =
        twoShards size shards (size + (tpRank * (size / tpSize) + j)) col := by
  have hfits := @slice_fits tpSize tpRank size hrank
  constructor
  · have hentry := hloaded 0 size rfl (hseen 0 (by decide)) j hj col
    rw [twoShards, if_pos (by omega)]
    simpa [shardStart] using hentry
  · have hentry := hloaded 1 size rfl (hseen 1 (by decide)) j hj col
    rw [twoShards, if_neg (by omega), Nat.add_sub_cancel_left]
    simpa [shardStart] using hentry

end Halves

section Sums

variable {R : Type} [CommRing R] {layers : Projections} {checkpoint : Checkpoint α}
  {loads : List Load} {final : Nat → Params α}

/-- All tensors of a checkpoint are in place on all ranks. -/
structure AllLoaded (layers : Projections) (checkpoint : Checkpoint α) (loads : List Load)
    (final : Nat → Params α) : Prop where
  loaded : ∀ rank < layers.tpSize, Loaded layers checkpoint rank loads (final rank)
  order : LoadOrder layers loads
  sharded : ∀ load ∈ loads, load.Sharded layers
  group : layers.quant.groupSize = none
  divides : ∀ size ∈ layers.up.outputSizes, size % layers.tpSize = 0

theorem AllLoaded.up (hall : AllLoaded layers checkpoint loads final) {param : LinearParam}
    (hparam : param ≠ .smooth) (hreg : param.registered layers.quant = true) {i : Nat}
    (hi : i < layers.up.outputSizes.length) : .up param (some i) ∈ loads :=
  (hall.order.upLoaded param hparam hreg i hi).resolve_right fun hmem => hall.sharded _ hmem

/-- The sizes of two equal shards and of their copies. -/
theorem AllLoaded.sizes (hall : AllLoaded layers checkpoint loads final)
    (hsizes : layers.up.outputSizes = [layers.down.inputSize, layers.down.inputSize]) :
    layers.up.outputSizes.sum / 2 = layers.down.inputSize ∧
      layers.up.outputSizes.sum / layers.tpSize / 2 = layers.down.inputSize / layers.tpSize ∧
      layers.tpSize * (layers.down.inputSize / layers.tpSize) = layers.down.inputSize := by
  have hmod : layers.down.inputSize % layers.tpSize = 0 :=
    hall.divides _ (by rw [hsizes]; exact List.mem_cons_self)
  have hblock := Nat.mul_div_cancel' (Nat.dvd_of_mod_eq_zero hmod)
  have hsum : layers.up.outputSizes.sum = layers.down.inputSize + layers.down.inputSize := by
    rw [hsizes]
    simp
  rw [hsum, Nat.add_div_of_dvd_left (Nat.dvd_of_mod_eq_zero hmod)]
  exact ⟨by omega, by omega, hblock⟩

theorem feedForwardSums_unquantized (hall : AllLoaded layers checkpoint loads final)
    (hsizes : layers.up.outputSizes = [layers.down.inputSize, layers.down.inputSize])
    (hquant : layers.quant = .unquantized) (num : Numbers α R) (act : R → R → R) :
    FeedForwardSums num act layers final := by
  intro hidden
  right
  obtain ⟨hfullRows, hpartRows, hblock⟩ := hall.sizes hsizes
  have hseen : ∀ i < 2, Load.up .weight (some i) ∈ loads := fun i hi =>
    hall.up (by decide) rfl (by rw [hsizes]; exact hi)
  have hdown : Load.down .weight ∈ loads := hall.order.downLoaded .weight rfl
  refine @feedForwardSums_of_parts α R _ num act layers final
    (layers.down.inputSize / layers.tpSize)
    (fun hidden i => ∑ input ∈ Finset.range layers.up.inputSize, hidden input *
      num.number (twoShards layers.down.inputSize (checkpoint.up .weight) i input))
    (fun out j => num.number ((checkpoint.down .weight).entry out j))
    (fun hidden rank i => ∑ input ∈ Finset.range layers.up.inputSize, hidden input *
      num.number ((final rank).up.weight.entry i input))
    (fun hidden rank i => ∑ input ∈ Finset.range layers.up.inputSize, hidden input *
      num.number ((final rank).up.tpWeight.entry i input))
    (fun rank out j => num.number ((final rank).down.weight.entry out j))
    (fun rank out j => num.number ((final rank).down.tpWeight.entry out j)) hidden
    ?_ ?_ ?_ ?_ ?_ ?_
  · intro rank hrank
    have hshaped := (hall.loaded rank hrank).up.shaped
    have hshapedDown := (hall.loaded rank hrank).down.shaped
    have hcols := hshaped.weight.cols
    have hdownCols := hshapedDown.weight.cols
    rw [hquant] at hcols hdownCols
    unfold feedForward
    simp only [hquant, Bool.false_eq_true, if_false, hshaped.weight.rows, hfullRows, hblock]
    exact if_pos ⟨hcols, hdownCols⟩
  · intro rank hrank
    have hshaped := (hall.loaded rank hrank).up.shaped
    have hshapedDown := (hall.loaded rank hrank).down.shaped
    have hcols := hshaped.tpWeight.cols
    have hdownCols := hshapedDown.tpWeight.cols
    rw [hquant] at hcols hdownCols
    unfold feedForward
    simp only [hquant, if_true, hshaped.tpWeight.rows, hpartRows]
    exact if_pos ⟨hcols, hdownCols⟩
  · intro rank hrank i hi
    have hloaded := (hall.loaded rank hrank).up.weight
    rw [hsizes] at hloaded
    rw [hblock] at hi
    simp only [full_rows hloaded hseen hi]
  · intro rank hrank j hj
    have hloaded := (hall.loaded rank hrank).up.tpWeight
    rw [hsizes] at hloaded
    rw [hblock]
    constructor
    · simp only [(part_rows hloaded hseen hrank hj _).1]
    · simp only [(part_rows hloaded hseen hrank hj _).2]
  · intro rank hrank out i _
    rw [(hall.loaded rank hrank).down.weight hdown]
  · intro rank hrank out j _
    rw [(hall.loaded rank hrank).down.tpWeight hdown, hquant]
    rfl

/-- All ranks have the smoothing that was loaded last. -/
theorem AllLoaded.exists_smooth (hall : AllLoaded layers checkpoint loads final)
    (hreg : LinearParam.registered layers.quant .smooth = true) :
    ∃ last, ∀ rank < layers.tpSize,
      (final rank).up.smooth.entry = (checkpoint.up .smooth last).entry := by
  obtain ⟨shardId, hmem⟩ := hall.order.upSmooth hreg
  cases shardId with
  | none => exact (hall.sharded _ hmem).elim
  | some shardId =>
      cases hlast : lastSmooth loads with
      | none =>
          rw [lastSmooth, List.getLast?_eq_none_iff, List.filterMap_eq_nil_iff] at hlast
          cases hlast _ hmem
      | some last => exact ⟨last, fun rank hrank => (hall.loaded rank hrank).smooth last hlast⟩

/-- A block of a rank, in packed entries. -/
theorem packed_block {tpSize packFactor cols block rank j : Nat} (hpack : 0 < packFactor)
    (hblock : cols / tpSize * packFactor = block) :
    (rank * block + j) / packFactor = rank * (cols / tpSize) + j / packFactor ∧
      (rank * block + j) % packFactor = j % packFactor := by
  have hrow : rank * block + j = packFactor * (rank * (cols / tpSize)) + j := by
    rw [← hblock]
    ring
  rw [hrow, Nat.mul_add_div hpack, Nat.mul_add_mod]
  exact ⟨rfl, rfl⟩

theorem feedForwardSums_smoothQuant (hall : AllLoaded layers checkpoint loads final)
    (hsizes : layers.up.outputSizes = [layers.down.inputSize, layers.down.inputSize])
    {config : SmoothQuantConfig} (hquant : layers.quant = .smoothQuant config) (num : Numbers α R) (act : R → R → R) :
    FeedForwardSums num act layers final := by
  intro hidden
  obtain ⟨hfullRows, hpartRows, hblock⟩ := hall.sizes hsizes
  have hgroup := hall.group
  rw [hquant] at hgroup
  have hscaleReg : LinearParam.registered layers.quant .perChannelScale = true := by
    rw [hquant]
    rfl
  have hseen : ∀ param, param ≠ LinearParam.smooth → param.registered layers.quant = true →
      ∀ i < 2, Load.up param (some i) ∈ loads := fun param hparam hreg i hi =>
    hall.up hparam hreg (by rw [hsizes]; exact hi)
  have hdownMod := layers.down_eq.2.2.2.1
  rw [hquant] at hdownMod
  have hcolsBlock : layers.tpSize * (layers.down.inputSize / config.packFactor / layers.tpSize) =
      layers.down.inputSize / config.packFactor :=
    Nat.mul_div_cancel' (Nat.dvd_of_mod_eq_zero hdownMod)
  have hpartPack :
      layers.down.inputSize / config.packFactor / layers.tpSize * config.packFactor =
        layers.down.inputSize / layers.tpSize ↔
      layers.down.inputSize / config.packFactor * config.packFactor = layers.down.inputSize := by
    rw [← Nat.mul_left_cancel_iff layers.tpSize_pos, ← Nat.mul_assoc, hcolsBlock, hblock]
  by_cases hruns : layers.up.inputSize / config.packFactor * config.packFactor =
      layers.up.inputSize ∧
    layers.down.inputSize / config.packFactor * config.packFactor = layers.down.inputSize ∧
    (config.hasSmooth = true ∨ config.isFp8 = true)
  · right
    obtain ⟨hupPack, hdownPack, hsmoothed⟩ := hruns
    have hblockPack := hpartPack.mpr hdownPack
    obtain ⟨upSmooth, hupSmooth⟩ : ∃ upSmooth : Nat → R, ∀ rank < layers.tpSize, ∀ input,
        (if config.hasSmooth then num.number ((final rank).up.smooth.entry input 0) else 1) =
          upSmooth input := by
      cases hhas : config.hasSmooth with
      | false => exact ⟨fun _ => 1, fun _ _ _ => rfl⟩
      | true =>
          obtain ⟨last, hlast⟩ := hall.exists_smooth (by
            rw [hquant]
            exact hhas)
          exact ⟨fun input => num.number ((checkpoint.up .smooth last).entry input 0),
            fun rank hrank input => by rw [hlast rank hrank, if_pos rfl]⟩
    refine @feedForwardSums_of_parts α R _ num act layers final
      (layers.down.inputSize / layers.tpSize)
      (fun hidden i => ∑ input ∈ Finset.range layers.up.inputSize, hidden input *
        upSmooth input *
        num.unpack (twoShards layers.down.inputSize (checkpoint.up .weight) i
          (input / config.packFactor)) (input % config.packFactor) *
        num.number (twoShards layers.down.inputSize (checkpoint.up .perChannelScale) i 0))
      (fun out j =>
        (if config.hasSmooth then num.number ((checkpoint.down .smooth).entry j 0) else 1) *
        num.unpack ((checkpoint.down .weight).entry out (j / config.packFactor))
          (j % config.packFactor) *
        num.number ((checkpoint.down .perChannelScale).entry out 0))
      (fun hidden rank i => ∑ input ∈ Finset.range layers.up.inputSize, hidden input *
        (if config.hasSmooth then num.number ((final rank).up.smooth.entry input 0) else 1) *
        num.unpack ((final rank).up.weight.entry i (input / config.packFactor))
          (input % config.packFactor) *
        num.number ((final rank).up.perChannelScale.entry i 0))
      (fun hidden rank i => ∑ input ∈ Finset.range layers.up.inputSize, hidden input *
        (if config.hasSmooth then num.number ((final rank).up.smooth.entry input 0) else 1) *
        num.unpack ((final rank).up.tpWeight.entry i (input / config.packFactor))
          (input % config.packFactor) *
        num.number ((final rank).up.tpPerChannelScale.entry i 0))
      (fun rank out j =>
        (if config.hasSmooth then num.number ((final rank).down.smooth.entry j 0) else 1) *
        num.unpack ((final rank).down.weight.entry out (j / config.packFactor))
          (j % config.packFactor) *
        num.number ((final rank).down.perChannelScale.entry out 0))
      (fun rank out j =>
        (if config.hasSmooth then num.number ((final rank).down.tpSmooth.entry j 0) else 1) *
        num.unpack ((final rank).down.tpWeight.entry out (j / config.packFactor))
          (j % config.packFactor) *
        num.number ((final rank).down.perChannelScale.entry out 0)) hidden ?_ ?_ ?_ ?_ ?_ ?_
    · intro rank hrank
      have hshaped := (hall.loaded rank hrank).up.shaped
      have hshapedDown := (hall.loaded rank hrank).down.shaped
      have hcols := hshaped.weight.cols
      have hdownCols := hshapedDown.weight.cols
      rw [hquant, QuantMethod.weightCols] at hcols hdownCols
      unfold feedForward
      simp only [hquant, Bool.false_eq_true, if_false, hshaped.weight.rows, hfullRows, hblock,
        scaleAt, hgroup]
      exact if_pos ⟨by rw [hcols, hupPack], by rw [hdownCols, hdownPack],
        fun _ => hshapedDown.smooth.rows, hsmoothed⟩
    · intro rank hrank
      have hshaped := (hall.loaded rank hrank).up.shaped
      have hshapedDown := (hall.loaded rank hrank).down.shaped
      have hcols := hshaped.tpWeight.cols
      have hdownCols := hshapedDown.tpWeight.cols
      rw [hquant, QuantMethod.weightCols] at hcols hdownCols
      unfold feedForward
      simp only [hquant, if_true, hshaped.tpWeight.rows, hpartRows, scaleAt, hgroup]
      exact if_pos ⟨by rw [hcols, hupPack], by rw [hdownCols, hblockPack],
        fun _ => hshapedDown.tpSmooth.rows, hsmoothed⟩
    · intro rank hrank i hi
      have hweight := (hall.loaded rank hrank).up.weight
      have hscale := (hall.loaded rank hrank).up.perChannelScale
      rw [hsizes] at hweight hscale
      rw [hblock] at hi
      simp only [full_rows hweight (hseen .weight (by decide) rfl) hi,
        full_rows hscale (hseen .perChannelScale (by decide) hscaleReg) hi, hupSmooth rank hrank]
    · intro rank hrank j hj
      have hweight := (hall.loaded rank hrank).up.tpWeight
      have hscale := (hall.loaded rank hrank).up.tpPerChannelScale
      rw [hsizes] at hweight hscale
      rw [hblock]
      constructor
      · simp only [(part_rows hweight (hseen .weight (by decide) rfl) hrank hj _).1,
          (part_rows hscale (hseen .perChannelScale (by decide) hscaleReg) hrank hj _).1,
          hupSmooth rank hrank]
      · simp only [(part_rows hweight (hseen .weight (by decide) rfl) hrank hj _).2,
          (part_rows hscale (hseen .perChannelScale (by decide) hscaleReg) hrank hj _).2,
          hupSmooth rank hrank]
    · intro rank hrank out i _
      have hloaded := (hall.loaded rank hrank).down
      rw [hloaded.weight (hall.order.downLoaded .weight rfl),
        hloaded.perChannelScale (hall.order.downLoaded .perChannelScale hscaleReg)]
      by_cases hhas : config.hasSmooth = true
      · rw [if_pos hhas, if_pos hhas, hloaded.smooth (hall.order.downLoaded .smooth (by
          rw [hquant]
          exact hhas))]
      · rw [if_neg hhas, if_neg hhas]
    · intro rank hrank out j _
      have hloaded := (hall.loaded rank hrank).down
      have hentry := @packed_block layers.tpSize config.packFactor
        (layers.down.inputSize / config.packFactor) _ rank j config.packFactor_pos hblockPack
      rw [hloaded.tpWeight (hall.order.downLoaded .weight rfl),
        hloaded.perChannelScale (hall.order.downLoaded .perChannelScale hscaleReg), hentry.1,
        hentry.2, hquant]
      by_cases hhas : config.hasSmooth = true
      · rw [if_pos hhas, if_pos hhas, hloaded.tpSmooth (hall.order.downLoaded .smooth (by
          rw [hquant]
          exact hhas))]
        rfl
      · rw [if_neg hhas, if_neg hhas]
        rfl
  · left
    intro rank hrank
    have hshaped := (hall.loaded rank hrank).up.shaped
    have hshapedDown := (hall.loaded rank hrank).down.shaped
    have hcols := hshaped.weight.cols
    have hdownCols := hshapedDown.weight.cols
    have htpCols := hshaped.tpWeight.cols
    have htpDownCols := hshapedDown.tpWeight.cols
    rw [hquant, QuantMethod.weightCols] at hcols hdownCols htpCols htpDownCols
    constructor
    · unfold feedForward
      simp only [hquant, if_true, hshaped.tpWeight.rows, hpartRows, htpCols, htpDownCols]
      exact if_neg fun h => hruns ⟨h.1, hpartPack.mp h.2.1, h.2.2.2⟩
    · unfold feedForward
      simp only [hquant, Bool.false_eq_true, if_false, hshaped.weight.rows, hfullRows, hcols,
        hdownCols]
      exact if_neg fun h => hruns ⟨h.1, h.2.1, h.2.2.2⟩

/-- The slices of a rank on which everything is loaded. -/
theorem AllLoaded.slicesHeld (hall : AllLoaded layers checkpoint loads final) {rank : Nat}
    (hrank : rank < layers.tpSize) : SlicesHeld layers checkpoint rank (final rank) := by
  have hloaded := hall.loaded rank hrank
  have hseen : ∀ {param i size}, param ≠ LinearParam.smooth →
      param.registered layers.quant = true → layers.up.outputSizes[i]? = some size →
      Load.up param (some i) ∈ loads := fun hparam hreg hi =>
    hall.up hparam hreg (List.getElem?_eq_some_iff.mp hi).1
  have hscaleShape := hloaded.up.shaped.tpPerChannelScale
  exact
    { tpUpWeight := ⟨hloaded.up.shaped.tpWeight, fun i size hi _ =>
        hloaded.up.tpWeight i size hi (hseen (by decide) rfl hi)⟩
      tpUpScale := fun hreg => ⟨by
          rw [QuantMethod.scaleCols, hall.group]
          exact hscaleShape, fun i size hi _ =>
        hloaded.up.tpPerChannelScale i size hi (hseen (by decide) hreg hi)⟩
      tpDownWeight := ⟨hloaded.down.shaped.tpWeight,
        hloaded.down.tpWeight (hall.order.downLoaded .weight rfl)⟩
      tpDownSmooth := fun hreg => ⟨hloaded.down.shaped.tpSmooth,
        hloaded.down.tpSmooth (hall.order.downLoaded .smooth hreg)⟩ }

end Sums

/-- Loading returns on all ranks, the copies are the ranks' slices, the slices cover the shards,
and a gated network on them adds up to the one on the full weights. -/
def KeptRight (layers : Projections) (org : OriginalLoaders α) (checkpoint : Checkpoint α)
    (loads : List Load) (init : Nat → Params α) : Prop :=
  ∃ final : Nat → Params α,
    (∀ rank < layers.tpSize,
      loadAll layers org checkpoint rank loads (init rank) = some (final rank) ∧
        SlicesHeld layers checkpoint rank (final rank)) ∧
    SlicesCover layers ∧
    (layers.up.outputSizes = [layers.down.inputSize, layers.down.inputSize] →
      ∀ (R : Type) [CommRing R] (num : Numbers α R) (act : R → R → R),
        FeedForwardSums num act layers final)

/-- The kept weights are right exactly when every shard is divisible by the world size, no tensor
comes fused, and there are no group scales. -/
theorem kept_weights_iff {layers : Projections} {org : OriginalLoaders α} (horg : org.FillWeights)
    {checkpoint : Checkpoint α} (hfits : checkpoint.Fits layers) {loads : List Load}
    (horder : LoadOrder layers loads) {init : Nat → Params α}
    (hinit : ∀ rank < layers.tpSize, (init rank).Shaped layers) :
    KeptRight layers org checkpoint loads init ↔
      (∀ size ∈ layers.up.outputSizes, size % layers.tpSize = 0) ∧
      (∀ param, .up param none ∉ loads) ∧ layers.quant.groupSize = none := by
  constructor
  · rintro ⟨final, hranks, hcover, -⟩
    refine ⟨fun size hmem => coversOnce_iff.mp (hcover.up size hmem), ?_, ?_⟩
    · intro param hmem
      have hnone := @loadAll_fused α layers org checkpoint 0 loads param hmem (init 0)
      rw [(hranks 0 layers.tpSize_pos).1] at hnone
      cases hnone
    · obtain ⟨hfinal, hheld⟩ := hranks 0 layers.tpSize_pos
      have hvector := (loadAll_isVector hfinal).trans
        (hinit 0 layers.tpSize_pos).up.tpPerChannelScale.isVector
      cases hquant : layers.quant with
      | unquantized => rfl
      | smoothQuant config =>
          have hshape := (hheld.tpUpScale (by rw [hquant]; rfl)).1.isVector
          rw [hvector, hquant] at hshape
          exact Option.isNone_iff_eq_none.mp hshape.symm
  · rintro ⟨hdvd, hfused, hgroup⟩
    have hsharded : ∀ load ∈ loads, load.Sharded layers := by
      intro load hmem
      cases load with
      | up param shardId =>
          cases shardId with
          | none => exact hfused param hmem
          | some shardId => exact horder.shard param shardId hmem
      | down param => exact horder.down param hmem
    have hruns : ∀ rank, ∃ final, rank < layers.tpSize →
        loadAll layers org checkpoint rank loads (init rank) = some final ∧
          Loaded layers checkpoint rank loads final := by
      intro rank
      by_cases hrank : rank < layers.tpSize
      · obtain ⟨final, hfinal, hloaded⟩ := loadAll_loaded horg hfits hgroup hrank hdvd
          (loaded_nil (hinit rank hrank)) hsharded
        exact ⟨final, fun _ => ⟨hfinal, hloaded⟩⟩
      · exact ⟨init rank, fun h => absurd h hrank⟩
    choose final hfinal using hruns
    have hall : AllLoaded layers checkpoint loads final :=
      ⟨fun rank hrank => (hfinal rank hrank).2, horder, hsharded, hgroup, hdvd⟩
    refine ⟨final, fun rank hrank => ⟨(hfinal rank hrank).1, hall.slicesHeld hrank⟩, ?_, ?_⟩
    · exact
        { up := fun size hmem => coversOnce_iff.mpr (hdvd size hmem)
          downWeight := coversOnce_iff.mpr layers.down_eq.2.2.2.1
          downSmooth := fun hreg => coversOnce_iff.mpr (layers.down_eq.2.2.2.2 hreg) }
    · intro hsizes R _ num act
      cases hquant : layers.quant with
      | unquantized => exact feedForwardSums_unquantized hall hsizes hquant num act
      | smoothQuant config => exact feedForwardSums_smoothQuant hall hsizes hquant num act

namespace Samples

/-- Loaders that copy what fits. -/
def plainLoaders : OriginalLoaders Int where
  fillShard outputSizes param shardId loaded := do
    let size ← outputSizes[shardId]?
    if loaded.rows = size then
      some (writeRows param (shardStart outputSizes shardId) size loaded.entry)
    else none
  fillWhole param loaded :=
    if loaded.rows = param.rows then some { param with entry := loaded.entry } else none

theorem plainLoaders_fillWeights : plainLoaders.FillWeights where
  fillShard outputSizes param shardId loaded size hsize _ hrows _ _ := by
    simp only [plainLoaders, hsize, Option.bind_eq_bind, Option.bind_some, if_pos hrows]
    rfl
  fillWhole param loaded hsame := if_pos hsame.rows

/-- Two inputs, two shards of two features, two ranks. -/
def smallLayers : Projections where
  up := { inputSize := 2, outputSizes := [2, 2], quantMethod := .unquantized, tpWorldSizeOrg := 2 }
  down := { inputSize := 2, outputSize := 2, quantMethod := .unquantized, tpWorldSizeOrg := 2 }
  quant := .unquantized
  tpSize := 2
  upInit := rfl
  downInit := rfl
  tpSize_pos := by decide

def blank (rows cols : Nat) (isVector : Bool) : Tensor Int := ⟨⟨rows, cols, fun _ _ => 0⟩, isVector⟩

def smallCheckpoint : Checkpoint Int where
  up param i := match param with
    | .weight => ⟨⟨2, 2, fun row col => 10 * i + 2 * row + col⟩, false⟩
    | .perChannelScale => blank 2 1 true
    | .smooth => blank 2 1 true
  upFused _ := ⟨⟨4, 2, fun row col => 10 * (row / 2) + 2 * (row % 2) + col⟩, false⟩
  down param := match param with
    | .weight => ⟨⟨2, 2, fun row col => row + 3 * col⟩, false⟩
    | .perChannelScale => blank 2 1 true
    | .smooth => blank 2 1 true

theorem smallCheckpoint_fits : smallCheckpoint.Fits smallLayers where
  upWeight i size hi := by
    have hsize : size = 2 := by
      have hmem := List.mem_of_getElem? hi
      simpa [smallLayers] using hmem
    subst hsize
    exact ⟨rfl, rfl, rfl⟩
  upScale i size hi := by
    have hsize : size = 2 := by
      have hmem := List.mem_of_getElem? hi
      simpa [smallLayers] using hmem
    subst hsize
    exact ⟨rfl, rfl, rfl⟩
  upSmooth _ := ⟨rfl, rfl, rfl⟩
  downWeight := ⟨rfl, rfl, rfl⟩
  downScale := ⟨rfl, rfl, rfl⟩
  downSmooth := ⟨rfl, rfl, rfl⟩

def smallInit : Params Int where
  up := ⟨blank 4 2 false, blank 4 1 true, blank 2 1 true, blank 2 2 false, blank 2 1 true⟩
  down := ⟨blank 2 2 false, blank 2 1 true, blank 2 1 true, blank 2 1 false, blank 1 1 true⟩

theorem smallInit_shaped : smallInit.Shaped smallLayers where
  up := ⟨⟨rfl, rfl, rfl⟩, ⟨rfl, rfl, rfl⟩, ⟨rfl, rfl, rfl⟩, ⟨rfl, rfl, rfl⟩, ⟨rfl, rfl, rfl⟩⟩
  down := ⟨⟨rfl, rfl, rfl⟩, ⟨rfl, rfl, rfl⟩, ⟨rfl, rfl, rfl⟩, ⟨rfl, rfl, rfl⟩, ⟨rfl, rfl, rfl⟩⟩

def shardedLoads : List Load := [.up .weight (some 1), .down .weight, .up .weight (some 0)]

def fusedLoads : List Load := [.up .weight none, .down .weight]

theorem shardedLoads_order : LoadOrder smallLayers shardedLoads where
  shard param shardId hmem := by
    simp only [shardedLoads, List.mem_cons, Load.up.injEq, Option.some.injEq, reduceCtorEq,
      List.not_mem_nil, or_false, false_or] at hmem
    rcases hmem with ⟨rfl, rfl⟩ | ⟨rfl, rfl⟩
    · exact ⟨rfl, by decide⟩
    · exact ⟨rfl, by decide⟩
  down param hmem := by
    simp only [shardedLoads, List.mem_cons, Load.down.injEq, reduceCtorEq, List.not_mem_nil,
      or_false, false_or] at hmem
    subst hmem
    rfl
  upLoaded param hparam hreg i hi := by
    cases param with
    | weight =>
        left
        have hcases : i = 0 ∨ i = 1 := by
          have hlt : i < 2 := hi
          omega
        rcases hcases with rfl | rfl <;> decide
    | perChannelScale => cases hreg
    | smooth => cases hreg
  upSmooth hreg := by cases hreg
  downLoaded param hreg := by
    cases param with
    | weight => decide
    | perChannelScale => cases hreg
    | smooth => cases hreg

theorem fusedLoads_order : LoadOrder smallLayers fusedLoads where
  shard param shardId hmem := by
    simp [fusedLoads] at hmem
  down param hmem := by
    simp only [fusedLoads, List.mem_cons, Load.down.injEq, reduceCtorEq, List.not_mem_nil,
      or_false, false_or] at hmem
    subst hmem
    rfl
  upLoaded param hparam hreg i hi := by
    cases param with
    | weight => exact .inr (by decide)
    | perChannelScale => cases hreg
    | smooth => cases hreg
  upSmooth hreg := by cases hreg
  downLoaded param hreg := by
    cases param with
    | weight => decide
    | perChannelScale => cases hreg
    | smooth => cases hreg

end Samples

open Samples in
theorem kept_weights_two_ranks :
    KeptRight smallLayers plainLoaders smallCheckpoint shardedLoads fun _ => smallInit :=
  (kept_weights_iff plainLoaders_fillWeights smallCheckpoint_fits shardedLoads_order
    fun _ _ => smallInit_shaped).mpr
      ⟨by decide, fun param => by cases param <;> decide, rfl⟩

open Samples in
/-- A fused tensor is a way to load this checkpoint, but it makes the loader raise. -/
theorem fused_tensor_raises : LoadOrder smallLayers fusedLoads ∧
    ¬KeptRight smallLayers plainLoaders smallCheckpoint fusedLoads fun _ => smallInit := by
  refine ⟨fusedLoads_order, ?_⟩
  rintro ⟨final, hranks, -⟩
  have hnone := @loadAll_fused Int smallLayers plainLoaders smallCheckpoint 0 fusedLoads .weight
    List.mem_cons_self smallInit
  rw [(hranks 0 smallLayers.tpSize_pos).1] at hnone
  cases hnone

end VllmMlu.Layers
