import Mathlib.Data.Nat.ModEq
import VllmMlu.Layers.Linear

/-! Loading a checkpoint into a pair of layers that keep their full weights. -/
namespace VllmMlu.Layers
open VllmMlu.Library

variable {α : Type}

/-- The parameters that a method registers. -/
def LinearParam.registered (quant : QuantMethod) : LinearParam → Bool
  | weight => true
  | perChannelScale => match quant with
    | .unquantized => false
    | .smoothQuant _ => true
  | smooth => quant.hasSmooth

/-- The shape of a parameter of a layer. -/
structure HasShape (tensor : Tensor α) (rows cols : Nat) (isVector : Bool) : Prop where
  rows : tensor.rows = rows
  cols : tensor.cols = cols
  isVector : tensor.isVector = isVector

/-- The tensors of a checkpoint; a fused tensor may stand in for the shards. -/
structure Checkpoint (α : Type) where
  up : LinearParam → Nat → Tensor α
  upFused : LinearParam → Tensor α
  down : LinearParam → Tensor α

/-- The two layers, as their constructors make them. -/
structure Projections where
  up : MergedColumnParallelLinear
  down : RowParallelLinear
  quant : QuantMethod
  tpSize : Nat
  upInit : MergedColumnParallelLinear.init up.inputSize up.outputSizes quant tpSize = some up
  downInit : RowParallelLinear.init down.inputSize up.inputSize quant tpSize = some down
  tpSize_pos : 0 < tpSize

/-- The shapes of the tensors on disk. -/
structure Checkpoint.Fits (checkpoint : Checkpoint α) (layers : Projections) : Prop where
  upWeight : ∀ i size, layers.up.outputSizes[i]? = some size →
    HasShape (checkpoint.up .weight i) size (layers.quant.weightCols layers.up.inputSize) false
  upScale : ∀ i size, layers.up.outputSizes[i]? = some size →
    HasShape (checkpoint.up .perChannelScale i) size (layers.quant.scaleCols layers.up.inputSize)
      layers.quant.groupSize.isNone
  upSmooth : ∀ i, HasShape (checkpoint.up .smooth i) layers.up.inputSize 1 true
  downWeight : HasShape (checkpoint.down .weight) layers.down.outputSize
    (layers.quant.weightCols layers.down.inputSize) false
  downScale : HasShape (checkpoint.down .perChannelScale) layers.down.outputSize
    (layers.quant.scaleCols layers.down.inputSize) layers.quant.groupSize.isNone
  downSmooth : HasShape (checkpoint.down .smooth) layers.down.inputSize 1 true

/-- The parameters of both layers on a rank. -/
structure Params (α : Type) where
  up : MergedParams α
  down : RowParams α

/-- The registered shapes, with any contents. -/
structure MergedParams.Shaped (params : MergedParams α) (layers : Projections) : Prop where
  weight : HasShape params.weight layers.up.outputSizes.sum
    (layers.quant.weightCols layers.up.inputSize) false
  perChannelScale : HasShape params.perChannelScale layers.up.outputSizes.sum
    (layers.quant.scaleCols layers.up.inputSize) layers.quant.groupSize.isNone
  smooth : HasShape params.smooth layers.up.inputSize 1 true
  tpWeight : HasShape params.tpWeight (layers.up.outputSizes.sum / layers.tpSize)
    (layers.quant.weightCols layers.up.inputSize) false
  tpPerChannelScale : HasShape params.tpPerChannelScale
    (layers.up.outputSizes.sum / layers.tpSize) 1 true

structure RowParams.Shaped (params : RowParams α) (layers : Projections) : Prop where
  weight : HasShape params.weight layers.down.outputSize
    (layers.quant.weightCols layers.down.inputSize) false
  perChannelScale : HasShape params.perChannelScale layers.down.outputSize
    (layers.quant.scaleCols layers.down.inputSize) layers.quant.groupSize.isNone
  smooth : HasShape params.smooth layers.down.inputSize 1 true
  tpWeight : HasShape params.tpWeight layers.down.outputSize
    (layers.quant.weightCols layers.down.inputSize / layers.tpSize) false
  tpSmooth : HasShape params.tpSmooth (layers.down.inputSize / layers.tpSize) 1 true

structure Params.Shaped (params : Params α) (layers : Projections) : Prop where
  up : params.up.Shaped layers
  down : params.down.Shaped layers

/-- One call of a loader. -/
inductive Load where
  | up (param : LinearParam) (shardId : Option Nat)
  | down (param : LinearParam)
  deriving DecidableEq

def loadOne (layers : Projections) (org : OriginalLoaders α) (checkpoint : Checkpoint α)
    (tpRank : Nat) (params : Params α) (load : Load) : Option (Params α) :=
  match load with
  | .up param (some shardId) => do
      let up ← layers.up.weightLoader org tpRank param (checkpoint.up param shardId) (some shardId)
        params.up
      some { params with up }
  | .up param none => do
      let up ← layers.up.weightLoader org tpRank param (checkpoint.upFused param) none params.up
      some { params with up }
  | .down param => do
      let down ← layers.down.weightLoader org tpRank param (checkpoint.down param) params.down
      some { params with down }

def loadAll (layers : Projections) (org : OriginalLoaders α) (checkpoint : Checkpoint α)
    (tpRank : Nat) (loads : List Load) (params : Params α) : Option (Params α) :=
  loads.foldlM (loadOne layers org checkpoint tpRank) params

/-- The calls for one checkpoint, in any order: only of registered parameters, and every tensor is
loaded, by shards or fused. -/
structure LoadOrder (layers : Projections) (loads : List Load) : Prop where
  shard : ∀ param shardId, .up param (some shardId) ∈ loads →
    param.registered layers.quant = true ∧ shardId < layers.up.outputSizes.length
  down : ∀ param, .down param ∈ loads → param.registered layers.quant = true
  upLoaded : ∀ param, param ≠ .smooth → param.registered layers.quant = true →
    ∀ i < layers.up.outputSizes.length, .up param (some i) ∈ loads ∨ .up param none ∈ loads
  upSmooth : LinearParam.registered layers.quant .smooth = true →
    ∃ shardId, .up .smooth shardId ∈ loads
  downLoaded : ∀ param, param.registered layers.quant = true → .down param ∈ loads

section Layers

variable (layers : Projections)

theorem Projections.up_quant : layers.up.quantMethod = layers.quant := by
  have hinit := layers.upInit
  rw [MergedColumnParallelLinear.init] at hinit
  split at hinit
  · rw [← Option.some.inj hinit]
  · cases hinit

theorem Projections.up_tpSize : layers.up.tpWorldSizeOrg = layers.tpSize := by
  have hinit := layers.upInit
  rw [MergedColumnParallelLinear.init] at hinit
  split at hinit
  · rw [← Option.some.inj hinit]
  · cases hinit

/-- What the constructor of the second layer has checked. -/
theorem Projections.down_eq : layers.down.quantMethod = layers.quant ∧
    layers.down.tpWorldSizeOrg = layers.tpSize ∧ layers.down.outputSize = layers.up.inputSize ∧
    layers.quant.weightCols layers.down.inputSize % layers.tpSize = 0 ∧
    (layers.quant.hasSmooth = true → layers.down.inputSize % layers.tpSize = 0) := by
  have hinit := layers.downInit
  rw [RowParallelLinear.init] at hinit
  split at hinit
  · rename_i hchecks
    simp only [Bool.and_eq_true, Bool.or_eq_true, Bool.not_eq_true', beq_iff_eq] at hchecks
    obtain ⟨⟨-, hcols⟩, hsmooth⟩ := hchecks
    have hdown := Option.some.inj hinit
    refine ⟨by rw [← hdown], by rw [← hdown], by rw [← hdown], hcols, ?_⟩
    intro hhas
    exact hsmooth.resolve_left (by simp [hhas])
  · cases hinit

theorem Projections.total_mod : layers.up.outputSizes.sum % layers.tpSize = 0 := by
  have hinit := layers.upInit
  rw [MergedColumnParallelLinear.init] at hinit
  split at hinit
  · rename_i hchecks
    simp only [Bool.and_eq_true, beq_iff_eq] at hchecks
    exact hchecks.2
  · cases hinit

end Layers

section Shards

variable {outputSizes : List Nat} {i k size other : Nat}

theorem shardStart_succ (h : outputSizes[i]? = some size) :
    shardStart outputSizes (i + 1) = shardStart outputSizes i + size := by
  rw [shardStart, List.take_add_one, h, List.sum_append, shardStart]
  simp

theorem shardStart_mono (outputSizes : List Nat) (hle : i ≤ k) :
    shardStart outputSizes i ≤ shardStart outputSizes k := by
  have hsplit : outputSizes.take k = outputSizes.take i ++ (outputSizes.take k).drop i := by
    rw [← Nat.min_eq_left hle, ← List.take_take, Nat.min_eq_left hle, List.take_append_drop]
  rw [shardStart, shardStart, hsplit, List.sum_append]
  exact Nat.le_add_right _ _

theorem shardStart_le_sum (h : outputSizes[i]? = some size) :
    shardStart outputSizes i + size ≤ outputSizes.sum := by
  have hmono := shardStart_mono outputSizes (Nat.le_max_left (i + 1) outputSizes.length)
  rw [shardStart_succ h] at hmono
  apply Nat.le_trans hmono
  rw [shardStart, List.take_of_length_le (Nat.le_max_right _ _)]

/-- Two shards do not overlap. -/
theorem shardStart_disjoint (hi : outputSizes[i]? = some size) (hk : outputSizes[k]? = some other)
    (hne : i ≠ k) :
    shardStart outputSizes i + size ≤ shardStart outputSizes k ∨
      shardStart outputSizes k + other ≤ shardStart outputSizes i := by
  rcases Nat.lt_or_gt_of_ne hne with hlt | hgt
  · left
    rw [← shardStart_succ hi]
    exact shardStart_mono outputSizes hlt
  · right
    rw [← shardStart_succ hk]
    exact shardStart_mono outputSizes hgt

theorem shardStart_mod {tpSize : Nat} (hdvd : ∀ size ∈ outputSizes, size % tpSize = 0) (i : Nat) :
    shardStart outputSizes i % tpSize = 0 := by
  have hall : ∀ sizes : List Nat, (∀ size ∈ sizes, size % tpSize = 0) → sizes.sum % tpSize = 0 := by
    intro sizes hsizes
    induction sizes with
    | nil => exact Nat.zero_mod _
    | cons size rest ih =>
        rw [List.sum_cons, Nat.add_mod, hsizes size List.mem_cons_self,
          ih fun other hmem => hsizes other (List.mem_cons_of_mem _ hmem), Nat.zero_add,
          Nat.zero_mod]
  exact hall _ fun size hmem => hdvd size (List.mem_of_mem_take hmem)

/-- The ranks' copies of two shards do not overlap either. -/
theorem tpStart_disjoint {tpSize : Nat} (hdvd : ∀ size ∈ outputSizes, size % tpSize = 0)
    (hi : outputSizes[i]? = some size) (hk : outputSizes[k]? = some other) (hne : i ≠ k) :
    shardStart outputSizes i / tpSize + size / tpSize ≤ shardStart outputSizes k / tpSize ∨
      shardStart outputSizes k / tpSize + other / tpSize ≤ shardStart outputSizes i / tpSize := by
  have hend : ∀ m length, outputSizes[m]? = some length →
      shardStart outputSizes m / tpSize + length / tpSize =
        (shardStart outputSizes m + length) / tpSize := fun m length hm =>
    (Nat.add_div_of_dvd_left (Nat.dvd_of_mod_eq_zero
      (hdvd length (List.mem_of_getElem? hm)))).symm
  rw [hend i size hi, hend k other hk]
  rcases shardStart_disjoint hi hk hne with hle | hle
  · exact .inl (Nat.div_le_div_right hle)
  · exact .inr (Nat.div_le_div_right hle)

/-- The copy of a shard stays inside the copy. -/
theorem tpStart_le {tpSize : Nat} (hdvd : ∀ size ∈ outputSizes, size % tpSize = 0)
    (hi : outputSizes[i]? = some size) :
    shardStart outputSizes i / tpSize + size / tpSize ≤ outputSizes.sum / tpSize := by
  rw [← Nat.add_div_of_dvd_left (Nat.dvd_of_mod_eq_zero (hdvd size (List.mem_of_getElem? hi)))]
  exact Nat.div_le_div_right (shardStart_le_sum hi)

end Shards

section Rows

/-- Rows from `offset` on come from somewhere else. -/
def writeRows (dst : Tensor α) (offset length : Nat) (rows : Nat → Nat → α) : Tensor α :=
  { dst with
    entry := fun i j =>
      if offset ≤ i ∧ i < offset + length then rows (i - offset) j else dst.entry i j }

/-- The shards that have been seen are in their places, each with the rows of a rank. -/
def RowsLoaded (outputSizes : List Nat) (tpSize tpRank : Nat) (shards : Nat → Tensor α)
    (seen : Nat → Prop) (dst : Tensor α) : Prop :=
  ∀ i size, outputSizes[i]? = some size → seen i → ∀ j < size / tpSize, ∀ col,
    dst.entry (shardStart outputSizes i / tpSize + j) col =
      (shards i).entry (tpRank * (size / tpSize) + j) col

variable {outputSizes : List Nat} {tpSize tpRank : Nat} {shards : Nat → Tensor α}
  {seen : Nat → Prop} {dst : Tensor α}

/-- Another shard is written. -/
theorem RowsLoaded.write (hdvd : ∀ size ∈ outputSizes, size % tpSize = 0)
    (h : RowsLoaded outputSizes tpSize tpRank shards seen dst) {k other : Nat}
    (hk : outputSizes[k]? = some other) :
    RowsLoaded outputSizes tpSize tpRank shards (fun i => seen i ∨ i = k)
      (writeRows dst (shardStart outputSizes k / tpSize) (other / tpSize) fun i j =>
        (shards k).entry (tpRank * (other / tpSize) + i) j) := by
  intro i size hi hseen j hj col
  by_cases hik : i = k
  · subst i
    rw [hk] at hi
    cases hi
    rw [writeRows]
    dsimp only
    rw [if_pos ⟨Nat.le_add_right _ _, Nat.add_lt_add_left hj _⟩, Nat.add_sub_cancel_left]
  · have hold := h i size hi (hseen.resolve_right hik) j hj col
    rw [writeRows]
    dsimp only
    rw [if_neg, hold]
    have hdisjoint := tpStart_disjoint hdvd hi hk hik
    omega

theorem slice_fits {size : Nat} (hrank : tpRank < tpSize) :
    tpRank * (size / tpSize) + size / tpSize ≤ size := by
  rw [← Nat.succ_mul]
  exact Nat.le_trans (Nat.mul_le_mul_right _ hrank) (Nat.mul_div_le size tpSize)

end Rows

section Up

variable {layers : Projections} {org : OriginalLoaders α} {checkpoint : Checkpoint α}
  {tpRank shardId size : Nat} {params : MergedParams α}

/-- The copy of a weight's rows. -/
theorem loadTp_weight (hrank : tpRank < layers.tpSize)
    (hdvd : ∀ size ∈ layers.up.outputSizes, size % layers.tpSize = 0)
    (hshard : layers.up.outputSizes[shardId]? = some size) {loaded : Tensor α}
    (hloaded : HasShape loaded size (layers.quant.weightCols layers.up.inputSize) false)
    (hshaped : params.Shaped layers) :
    layers.up.loadTp tpRank .weight loaded (some shardId) params = some
      { params with
        tpWeight := writeRows params.tpWeight
          (shardStart layers.up.outputSizes shardId / layers.tpSize) (size / layers.tpSize)
          fun i j => loaded.entry (tpRank * (size / layers.tpSize) + i) j } := by
  have hslice := @Tensor.narrow_rows α loaded (tpRank * (size / layers.tpSize))
    (size / layers.tpSize) (by rw [hloaded.rows]; exact slice_fits hrank)
  have hcopy := @Tensor.copyInto_rows α params.tpWeight
    ⟨⟨size / layers.tpSize, loaded.cols, fun i j =>
      loaded.entry (tpRank * (size / layers.tpSize) + i) j⟩, loaded.isVector⟩
    (shardStart layers.up.outputSizes shardId / layers.tpSize) (size / layers.tpSize)
    (by rw [hshaped.tpWeight.rows]; exact tpStart_le hdvd hshard) rfl
    (hloaded.cols.trans hshaped.tpWeight.cols.symm)
    (hloaded.isVector.trans hshaped.tpWeight.isVector.symm)
  have hndim : loaded.ndim ≠ 1 := by simp [Tensor.ndim, hloaded.isVector]
  unfold MergedColumnParallelLinear.loadTp
  rw [layers.up_tpSize]
  simp only [Option.bind_eq_bind, Option.bind_some, hshard, LinearParam.outputDim, hslice, hcopy,
    if_neg hndim]
  cases layers.up.quantMethod <;> rfl

/-- The copy of the scales of a shard's rows. -/
theorem loadTp_scale (hrank : tpRank < layers.tpSize)
    (hdvd : ∀ size ∈ layers.up.outputSizes, size % layers.tpSize = 0)
    (hshard : layers.up.outputSizes[shardId]? = some size) {loaded : Tensor α}
    (hloaded : HasShape loaded size 1 true) (hshaped : params.Shaped layers)
    (hreg : LinearParam.registered layers.quant .perChannelScale = true) :
    layers.up.loadTp tpRank .perChannelScale loaded (some shardId) params = some
      { params with
        tpPerChannelScale := writeRows params.tpPerChannelScale
          (shardStart layers.up.outputSizes shardId / layers.tpSize) (size / layers.tpSize)
          fun i j => loaded.entry (tpRank * (size / layers.tpSize) + i) j } := by
  have hslice := @Tensor.narrow_rows α loaded (tpRank * (size / layers.tpSize))
    (size / layers.tpSize) (by rw [hloaded.rows]; exact slice_fits hrank)
  have hcopy := @Tensor.copyInto_rows α params.tpPerChannelScale
    ⟨⟨size / layers.tpSize, loaded.cols, fun i j =>
      loaded.entry (tpRank * (size / layers.tpSize) + i) j⟩, loaded.isVector⟩
    (shardStart layers.up.outputSizes shardId / layers.tpSize) (size / layers.tpSize)
    (by rw [hshaped.tpPerChannelScale.rows]; exact tpStart_le hdvd hshard) rfl
    (hloaded.cols.trans hshaped.tpPerChannelScale.cols.symm)
    (hloaded.isVector.trans hshaped.tpPerChannelScale.isVector.symm)
  have hndim : loaded.ndim = 1 := by simp [Tensor.ndim, hloaded.isVector]
  unfold MergedColumnParallelLinear.loadTp
  rw [layers.up_tpSize, layers.up_quant]
  simp only [Option.bind_eq_bind, Option.bind_some, hshard, LinearParam.outputDim, hslice, hcopy,
    if_pos hndim]
  cases hquant : layers.quant with
  | unquantized => simp [hquant, LinearParam.registered] at hreg
  | smoothQuant config => rfl

theorem loadTp_smooth (hshard : layers.up.outputSizes[shardId]? = some size) {loaded : Tensor α}
    (hreg : LinearParam.registered layers.quant .smooth = true) :
    layers.up.loadTp tpRank .smooth loaded (some shardId) params = some params := by
  unfold MergedColumnParallelLinear.loadTp
  rw [layers.up_quant]
  simp only [Option.bind_eq_bind, Option.bind_some, hshard, LinearParam.outputDim]
  cases hquant : layers.quant with
  | unquantized => simp [hquant, LinearParam.registered, QuantMethod.hasSmooth] at hreg
  | smoothQuant config => rfl

theorem HasShape.writeRows {dst : Tensor α} {rows cols : Nat} {isVector : Bool}
    (h : HasShape dst rows cols isVector) (offset length : Nat) (source : Nat → Nat → α) :
    HasShape (writeRows dst offset length source) rows cols isVector :=
  ⟨h.rows, h.cols, h.isVector⟩

theorem MergedParams.Shaped.writeTpWeight (h : params.Shaped layers) (offset length : Nat)
    (source : Nat → Nat → α) :
    MergedParams.Shaped
      { params with tpWeight := writeRows params.tpWeight offset length source } layers :=
  ⟨h.weight, h.perChannelScale, h.smooth, h.tpWeight.writeRows offset length source,
    h.tpPerChannelScale⟩

theorem MergedParams.Shaped.writeTpScale (h : params.Shaped layers) (offset length : Nat)
    (source : Nat → Nat → α) :
    MergedParams.Shaped
      { params with
        tpPerChannelScale := writeRows params.tpPerChannelScale offset length source } layers :=
  ⟨h.weight, h.perChannelScale, h.smooth, h.tpWeight,
    h.tpPerChannelScale.writeRows offset length source⟩

/-- What is in place after some loads of the first layer. -/
structure UpLoaded (layers : Projections) (checkpoint : Checkpoint α) (tpRank : Nat)
    (seen : LinearParam → Nat → Prop) (params : MergedParams α) : Prop where
  shaped : params.Shaped layers
  weight : RowsLoaded layers.up.outputSizes 1 0 (checkpoint.up .weight) (seen .weight)
    params.weight
  tpWeight : RowsLoaded layers.up.outputSizes layers.tpSize tpRank (checkpoint.up .weight)
    (seen .weight) params.tpWeight
  perChannelScale : RowsLoaded layers.up.outputSizes 1 0 (checkpoint.up .perChannelScale)
    (seen .perChannelScale) params.perChannelScale
  tpPerChannelScale : RowsLoaded layers.up.outputSizes layers.tpSize tpRank
    (checkpoint.up .perChannelScale) (seen .perChannelScale) params.tpPerChannelScale

theorem RowsLoaded.mono {outputSizes : List Nat} {tpSize : Nat} {shards : Nat → Tensor α}
    {seen more : Nat → Prop} {dst : Tensor α}
    (h : RowsLoaded outputSizes tpSize tpRank shards seen dst) (hmore : ∀ i, more i → seen i) :
    RowsLoaded outputSizes tpSize tpRank shards more dst :=
  fun i size hi hseen => h i size hi (hmore i hseen)

/-- The full parameter has all rows of a shard. -/
theorem RowsLoaded.writeFull {outputSizes : List Nat} {shards : Nat → Tensor α}
    {seen : Nat → Prop} {dst : Tensor α} (h : RowsLoaded outputSizes 1 0 shards seen dst)
    (hk : outputSizes[shardId]? = some size) :
    RowsLoaded outputSizes 1 0 shards (fun i => seen i ∨ i = shardId)
      (writeRows dst (shardStart outputSizes shardId) size (shards shardId).entry) := by
  have hwrite := h.write (fun length _ => Nat.mod_one length) hk
  simpa using hwrite

variable {seen : LinearParam → Nat → Prop}

/-- One shard more is in place. -/
theorem loadShard_loaded (horg : org.FillWeights) (hfits : checkpoint.Fits layers)
    (hgroup : layers.quant.groupSize = none) (hrank : tpRank < layers.tpSize)
    (hdvd : ∀ size ∈ layers.up.outputSizes, size % layers.tpSize = 0)
    (hloaded : UpLoaded layers checkpoint tpRank seen params) {param : LinearParam}
    (hreg : param.registered layers.quant = true)
    (hshard : layers.up.outputSizes[shardId]? = some size) :
    ∃ next, layers.up.loadShard org tpRank param (checkpoint.up param shardId) shardId params =
        some next ∧
      UpLoaded layers checkpoint tpRank (fun p i => seen p i ∨ p = param ∧ i = shardId) next ∧
      next.smooth.entry = if param = .smooth then (checkpoint.up .smooth shardId).entry
        else params.smooth.entry := by
  have hshaped := hloaded.shaped
  have hsame : ∀ other, other ≠ param → ∀ i, (seen other i ∨ other = param ∧ i = shardId) →
      seen other i := fun other hne i h => h.resolve_right fun h => hne h.1
  have hgrow : ∀ i, (seen param i ∨ param = param ∧ i = shardId) → seen param i ∨ i = shardId :=
    fun i h => h.imp_right And.right
  unfold MergedColumnParallelLinear.loadShard
  cases param with
  | weight =>
      have hshape := hfits.upWeight shardId size hshard
      have hfill : org.fillShard layers.up.outputSizes params.weight shardId
          (checkpoint.up .weight shardId) = some (writeRows params.weight
            (shardStart layers.up.outputSizes shardId) size
            (checkpoint.up .weight shardId).entry) :=
        horg.fillShard _ _ _ _ size hshard hshaped.weight.rows hshape.rows
          (hshape.cols.trans hshaped.weight.cols.symm)
          (hshape.isVector.trans hshaped.weight.isVector.symm)
      have hfilled : MergedParams.Shaped
          { params with
            weight := writeRows params.weight (shardStart layers.up.outputSizes shardId) size
              (checkpoint.up .weight shardId).entry } layers :=
        ⟨hshaped.weight.writeRows _ _ _, hshaped.perChannelScale, hshaped.smooth,
          hshaped.tpWeight, hshaped.tpPerChannelScale⟩
      rw [MergedColumnParallelLinear.fillParam, hfill]
      simp only [Option.bind_eq_bind, Option.bind_some]
      rw [loadTp_weight hrank hdvd hshard hshape hfilled]
      refine ⟨_, rfl, ?_, rfl⟩
      exact
        { shaped := hfilled.writeTpWeight _ _ _
          weight := (hloaded.weight.writeFull hshard).mono hgrow
          tpWeight := (hloaded.tpWeight.write hdvd hshard).mono hgrow
          perChannelScale := hloaded.perChannelScale.mono (hsame _ (by decide))
          tpPerChannelScale := hloaded.tpPerChannelScale.mono (hsame _ (by decide)) }
  | perChannelScale =>
      have hshape := hfits.upScale shardId size hshard
      have hfill : org.fillShard layers.up.outputSizes params.perChannelScale shardId
          (checkpoint.up .perChannelScale shardId) = some (writeRows params.perChannelScale
            (shardStart layers.up.outputSizes shardId) size
            (checkpoint.up .perChannelScale shardId).entry) :=
        horg.fillShard _ _ _ _ size hshard hshaped.perChannelScale.rows hshape.rows
          (hshape.cols.trans hshaped.perChannelScale.cols.symm)
          (hshape.isVector.trans hshaped.perChannelScale.isVector.symm)
      have hfilled : MergedParams.Shaped
          { params with
            perChannelScale := writeRows params.perChannelScale
              (shardStart layers.up.outputSizes shardId) size
              (checkpoint.up .perChannelScale shardId).entry } layers :=
        ⟨hshaped.weight, hshaped.perChannelScale.writeRows _ _ _, hshaped.smooth,
          hshaped.tpWeight, hshaped.tpPerChannelScale⟩
      rw [QuantMethod.scaleCols, hgroup] at hshape
      rw [MergedColumnParallelLinear.fillParam, hfill]
      simp only [Option.bind_eq_bind, Option.bind_some]
      rw [loadTp_scale hrank hdvd hshard hshape hfilled hreg]
      refine ⟨_, rfl, ?_, rfl⟩
      exact
        { shaped := hfilled.writeTpScale _ _ _
          weight := hloaded.weight.mono (hsame _ (by decide))
          tpWeight := hloaded.tpWeight.mono (hsame _ (by decide))
          perChannelScale := (hloaded.perChannelScale.writeFull hshard).mono hgrow
          tpPerChannelScale := (hloaded.tpPerChannelScale.write hdvd hshard).mono hgrow }
  | smooth =>
      have hshape := hfits.upSmooth shardId
      rw [MergedColumnParallelLinear.fillParam, horg.fillWhole _ _
        ⟨hshape.rows.trans hshaped.smooth.rows.symm, hshape.cols.trans hshaped.smooth.cols.symm,
          hshape.isVector.trans hshaped.smooth.isVector.symm⟩]
      simp only [Option.bind_eq_bind, Option.bind_some]
      rw [loadTp_smooth hshard hreg]
      refine ⟨_, rfl, ?_, rfl⟩
      exact
        { shaped := ⟨hshaped.weight, hshaped.perChannelScale,
            ⟨hshaped.smooth.rows, hshaped.smooth.cols, hshaped.smooth.isVector⟩,
            hshaped.tpWeight, hshaped.tpPerChannelScale⟩
          weight := hloaded.weight.mono (hsame _ (by decide))
          tpWeight := hloaded.tpWeight.mono (hsame _ (by decide))
          perChannelScale := hloaded.perChannelScale.mono (hsame _ (by decide))
          tpPerChannelScale := hloaded.tpPerChannelScale.mono (hsame _ (by decide)) }

end Up

section Down

variable {layers : Projections} {org : OriginalLoaders α} {checkpoint : Checkpoint α}
  {tpRank : Nat} {params : RowParams α}

/-- What is in place after some loads of the second layer. -/
structure DownLoaded (layers : Projections) (checkpoint : Checkpoint α) (tpRank : Nat)
    (seen : LinearParam → Prop) (params : RowParams α) : Prop where
  shaped : params.Shaped layers
  weight : seen .weight → ∀ i j,
    params.weight.entry i j = (checkpoint.down .weight).entry i j
  tpWeight : seen .weight → ∀ i j, params.tpWeight.entry i j =
    (checkpoint.down .weight).entry i
      (tpRank * (layers.quant.weightCols layers.down.inputSize / layers.tpSize) + j)
  perChannelScale : seen .perChannelScale → ∀ i j,
    params.perChannelScale.entry i j = (checkpoint.down .perChannelScale).entry i j
  smooth : seen .smooth → ∀ i j, params.smooth.entry i j = (checkpoint.down .smooth).entry i j
  tpSmooth : seen .smooth → ∀ i j, params.tpSmooth.entry i j =
    (checkpoint.down .smooth).entry (tpRank * (layers.down.inputSize / layers.tpSize) + i) j

variable {seen : LinearParam → Prop}

/-- One tensor more is in place. -/
theorem weightLoader_loaded (horg : org.FillWeights) (hfits : checkpoint.Fits layers)
    (hgroup : layers.quant.groupSize = none) (hrank : tpRank < layers.tpSize)
    (hloaded : DownLoaded layers checkpoint tpRank seen params) {param : LinearParam}
    (hreg : param.registered layers.quant = true) :
    ∃ next, layers.down.weightLoader org tpRank param (checkpoint.down param) params = some next ∧
      DownLoaded layers checkpoint tpRank (fun p => seen p ∨ p = param) next := by
  have hshaped := hloaded.shaped
  obtain ⟨hquant, htp, -, hcolsMod, hsmoothMod⟩ := layers.down_eq
  have hsame : ∀ other, other ≠ param → seen other ∨ other = param → seen other :=
    fun other hne h => h.resolve_right hne
  unfold RowParallelLinear.weightLoader
  rw [hquant, htp]
  cases param with
  | weight =>
      have hshape := hfits.downWeight
      have hslice := @Tensor.narrow_cols α
        { params.weight with entry := (checkpoint.down .weight).entry }
        (tpRank * (layers.quant.weightCols layers.down.inputSize / layers.tpSize))
        (layers.quant.weightCols layers.down.inputSize / layers.tpSize) hshaped.weight.isVector
        (by
          change _ ≤ params.weight.cols
          rw [hshaped.weight.cols]
          exact slice_fits hrank)
      have hcopy := @Tensor.copy_eq α params.tpWeight
        ⟨⟨params.weight.rows, layers.quant.weightCols layers.down.inputSize / layers.tpSize,
          fun i j => (checkpoint.down .weight).entry i
            (tpRank * (layers.quant.weightCols layers.down.inputSize / layers.tpSize) + j)⟩,
          params.weight.isVector⟩
        ⟨hshaped.weight.rows.trans hshaped.tpWeight.rows.symm, hshaped.tpWeight.cols.symm,
          hshaped.weight.isVector.trans hshaped.tpWeight.isVector.symm⟩
      have hndim : (checkpoint.down .weight).ndim ≠ 1 := by simp [Tensor.ndim, hshape.isVector]
      have hsize : (checkpoint.down .weight).size? 1 =
          some (layers.quant.weightCols layers.down.inputSize) := by
        simp [Tensor.size?, hshape.isVector, hshape.cols]
      have hnext : DownLoaded layers checkpoint tpRank (fun p => seen p ∨ p = .weight)
          { params with
            weight := { params.weight with entry := (checkpoint.down .weight).entry }
            tpWeight := { params.tpWeight with
              entry := fun i j => (checkpoint.down .weight).entry i
                (tpRank * (layers.quant.weightCols layers.down.inputSize / layers.tpSize) + j) } } :=
        { shaped := ⟨⟨hshaped.weight.rows, hshaped.weight.cols, hshaped.weight.isVector⟩,
            hshaped.perChannelScale, hshaped.smooth,
            ⟨hshaped.tpWeight.rows, hshaped.tpWeight.cols, hshaped.tpWeight.isVector⟩,
            hshaped.tpSmooth⟩
          weight := fun _ _ _ => rfl
          tpWeight := fun _ _ _ => rfl
          perChannelScale := fun h => hloaded.perChannelScale (hsame _ (by decide) h)
          smooth := fun h => hloaded.smooth (hsame _ (by decide) h)
          tpSmooth := fun h => hloaded.tpSmooth (hsame _ (by decide) h) }
      rw [RowParallelLinear.fillParam, horg.fillWhole _ _
        ⟨hshape.rows.trans hshaped.weight.rows.symm, hshape.cols.trans hshaped.weight.cols.symm,
          hshape.isVector.trans hshaped.weight.isVector.symm⟩]
      simp only [Option.bind_eq_bind, Option.bind_some, LinearParam.inputDim, hsize, hcolsMod,
        ne_eq, not_true_eq_false, if_false, if_neg hndim, hslice, hcopy]
      refine ⟨_, ?_, hnext⟩
      cases layers.quant <;> rfl
  | perChannelScale =>
      have hshape := hfits.downScale
      rw [RowParallelLinear.fillParam, horg.fillWhole _ _
        ⟨hshape.rows.trans hshaped.perChannelScale.rows.symm,
          hshape.cols.trans hshaped.perChannelScale.cols.symm,
          hshape.isVector.trans hshaped.perChannelScale.isVector.symm⟩]
      simp only [Option.bind_eq_bind, Option.bind_some, LinearParam.inputDim, hgroup,
        Option.map_none]
      refine ⟨_, rfl, ?_⟩
      exact
        { shaped := ⟨hshaped.weight, ⟨hshaped.perChannelScale.rows, hshaped.perChannelScale.cols,
            hshaped.perChannelScale.isVector⟩, hshaped.smooth, hshaped.tpWeight, hshaped.tpSmooth⟩
          weight := fun h => hloaded.weight (hsame _ (by decide) h)
          tpWeight := fun h => hloaded.tpWeight (hsame _ (by decide) h)
          perChannelScale := fun _ _ _ => rfl
          smooth := fun h => hloaded.smooth (hsame _ (by decide) h)
          tpSmooth := fun h => hloaded.tpSmooth (hsame _ (by decide) h) }
  | smooth =>
      have hshape := hfits.downSmooth
      have hslice := @Tensor.narrow_rows α
        { params.smooth with entry := (checkpoint.down .smooth).entry }
        (tpRank * (layers.down.inputSize / layers.tpSize)) (layers.down.inputSize / layers.tpSize)
        (by
          change _ ≤ params.smooth.rows
          rw [hshaped.smooth.rows]
          exact slice_fits hrank)
      have hcopy := @Tensor.copy_eq α params.tpSmooth
        ⟨⟨layers.down.inputSize / layers.tpSize, params.smooth.cols,
          fun i j => (checkpoint.down .smooth).entry
            (tpRank * (layers.down.inputSize / layers.tpSize) + i) j⟩, params.smooth.isVector⟩
        ⟨hshaped.tpSmooth.rows.symm, hshaped.smooth.cols.trans hshaped.tpSmooth.cols.symm,
          hshaped.smooth.isVector.trans hshaped.tpSmooth.isVector.symm⟩
      have hndim : (checkpoint.down .smooth).ndim = 1 := by simp [Tensor.ndim, hshape.isVector]
      have hsize : (checkpoint.down .smooth).size? 0 = some layers.down.inputSize := by
        simp [Tensor.size?, hshape.rows]
      have hmod := hsmoothMod hreg
      have hnext : DownLoaded layers checkpoint tpRank (fun p => seen p ∨ p = .smooth)
          { params with
            smooth := { params.smooth with entry := (checkpoint.down .smooth).entry }
            tpSmooth := { params.tpSmooth with
              entry := fun i j => (checkpoint.down .smooth).entry
                (tpRank * (layers.down.inputSize / layers.tpSize) + i) j } } :=
        { shaped := ⟨hshaped.weight, hshaped.perChannelScale,
            ⟨hshaped.smooth.rows, hshaped.smooth.cols, hshaped.smooth.isVector⟩,
            hshaped.tpWeight,
            ⟨hshaped.tpSmooth.rows, hshaped.tpSmooth.cols, hshaped.tpSmooth.isVector⟩⟩
          weight := fun h => hloaded.weight (hsame _ (by decide) h)
          tpWeight := fun h => hloaded.tpWeight (hsame _ (by decide) h)
          perChannelScale := fun h => hloaded.perChannelScale (hsame _ (by decide) h)
          smooth := fun _ _ _ => rfl
          tpSmooth := fun _ _ _ => rfl }
      rw [RowParallelLinear.fillParam, horg.fillWhole _ _
        ⟨hshape.rows.trans hshaped.smooth.rows.symm, hshape.cols.trans hshaped.smooth.cols.symm,
          hshape.isVector.trans hshaped.smooth.isVector.symm⟩]
      simp only [Option.bind_eq_bind, Option.bind_some, LinearParam.inputDim, hsize, hmod,
        ne_eq, not_true_eq_false, if_false, if_pos hndim, hslice, hcopy]
      refine ⟨_, ?_, hnext⟩
      cases hmethod : layers.quant with
      | unquantized => simp [hmethod, LinearParam.registered, QuantMethod.hasSmooth] at hreg
      | smoothQuant config => rfl

end Down

section Runs

variable {layers : Projections} {org : OriginalLoaders α} {checkpoint : Checkpoint α}
  {tpRank : Nat}

/-- The shard whose smoothing was loaded last. -/
def lastSmooth (done : List Load) : Option Nat :=
  (done.filterMap fun
    | .up .smooth shardId => shardId
    | _ => none).getLast?

/-- What is in place after the loads `done`. -/
structure Loaded (layers : Projections) (checkpoint : Checkpoint α) (tpRank : Nat)
    (done : List Load) (params : Params α) : Prop where
  up : UpLoaded layers checkpoint tpRank (fun p i => .up p (some i) ∈ done) params.up
  down : DownLoaded layers checkpoint tpRank (fun p => .down p ∈ done) params.down
  smooth : ∀ shardId, lastSmooth done = some shardId →
    params.up.smooth.entry = (checkpoint.up .smooth shardId).entry

/-- A load of a shard or of a whole parameter. -/
def Load.Sharded (layers : Projections) : Load → Prop
  | up param (some shardId) =>
    param.registered layers.quant = true ∧ shardId < layers.up.outputSizes.length
  | up _ none => False
  | down param => param.registered layers.quant = true

theorem loaded_nil {params : Params α} (hshaped : params.Shaped layers) :
    Loaded layers checkpoint tpRank [] params where
  up :=
    { shaped := hshaped.up
      weight := fun _ _ _ hseen => by simp at hseen
      tpWeight := fun _ _ _ hseen => by simp at hseen
      perChannelScale := fun _ _ _ hseen => by simp at hseen
      tpPerChannelScale := fun _ _ _ hseen => by simp at hseen }
  down :=
    { shaped := hshaped.down
      weight := fun hseen => by simp at hseen
      tpWeight := fun hseen => by simp at hseen
      perChannelScale := fun hseen => by simp at hseen
      smooth := fun hseen => by simp at hseen
      tpSmooth := fun hseen => by simp at hseen }
  smooth := fun _ hlast => by simp [lastSmooth] at hlast

theorem UpLoaded.mono {seen more : LinearParam → Nat → Prop} {params : MergedParams α}
    (h : UpLoaded layers checkpoint tpRank seen params) (hmore : ∀ p i, more p i → seen p i) :
    UpLoaded layers checkpoint tpRank more params :=
  ⟨h.shaped, h.weight.mono (hmore _), h.tpWeight.mono (hmore _), h.perChannelScale.mono (hmore _),
    h.tpPerChannelScale.mono (hmore _)⟩

theorem DownLoaded.mono {seen more : LinearParam → Prop} {params : RowParams α}
    (h : DownLoaded layers checkpoint tpRank seen params) (hmore : ∀ p, more p → seen p) :
    DownLoaded layers checkpoint tpRank more params :=
  ⟨h.shaped, fun hseen => h.weight (hmore _ hseen), fun hseen => h.tpWeight (hmore _ hseen),
    fun hseen => h.perChannelScale (hmore _ hseen), fun hseen => h.smooth (hmore _ hseen),
    fun hseen => h.tpSmooth (hmore _ hseen)⟩

theorem lastSmooth_append_up (done : List Load) (param : LinearParam) (shardId : Nat) :
    lastSmooth (done ++ [.up param (some shardId)]) =
      if param = .smooth then some shardId else lastSmooth done := by
  cases param <;> simp [lastSmooth]

theorem loadOne_loaded (horg : org.FillWeights) (hfits : checkpoint.Fits layers)
    (hgroup : layers.quant.groupSize = none) (hrank : tpRank < layers.tpSize)
    (hdvd : ∀ size ∈ layers.up.outputSizes, size % layers.tpSize = 0) {done : List Load}
    {params : Params α} (hloaded : Loaded layers checkpoint tpRank done params) {load : Load}
    (hsharded : load.Sharded layers) :
    ∃ next, loadOne layers org checkpoint tpRank params load = some next ∧
      Loaded layers checkpoint tpRank (done ++ [load]) next := by
  cases load with
  | up param shardId =>
      cases shardId with
      | none => exact hsharded.elim
      | some shardId =>
          have hshard : layers.up.outputSizes[shardId]? =
              some (layers.up.outputSizes.get ⟨shardId, hsharded.2⟩) :=
            List.getElem?_eq_getElem hsharded.2
          obtain ⟨next, hnext, hup, hsmooth⟩ := loadShard_loaded horg hfits hgroup hrank hdvd
            hloaded.up hsharded.1 hshard
          refine ⟨{ params with up := next }, ?_, ?_⟩
          · simp only [loadOne, MergedColumnParallelLinear.weightLoader, hnext,
              Option.bind_eq_bind, Option.bind_some]
          · exact
              { up := hup.mono fun p i hmem => by simpa using hmem
                down := hloaded.down.mono fun p hmem => by simpa using hmem
                smooth := fun last hlast => by
                  rw [lastSmooth_append_up] at hlast
                  dsimp only
                  rw [hsmooth]
                  split at hlast
                  · rename_i hparam
                    cases hlast
                    rw [if_pos hparam]
                  · rename_i hparam
                    rw [if_neg hparam]
                    exact hloaded.smooth last hlast }
  | down param =>
      obtain ⟨next, hnext, hdown⟩ := weightLoader_loaded horg hfits hgroup hrank hloaded.down
        hsharded
      refine ⟨{ params with down := next }, ?_, ?_⟩
      · simp only [loadOne, hnext, Option.bind_eq_bind, Option.bind_some]
      · exact
          { up := hloaded.up.mono fun p i hmem => by simpa using hmem
            down := hdown.mono fun p hmem => by simpa using hmem
            smooth := fun last hlast => hloaded.smooth last (by
              simpa [lastSmooth] using hlast) }

/-- A run of sharded loads returns, and everything that it loads is in place. -/
theorem loadAll_loaded (horg : org.FillWeights) (hfits : checkpoint.Fits layers)
    (hgroup : layers.quant.groupSize = none) (hrank : tpRank < layers.tpSize)
    (hdvd : ∀ size ∈ layers.up.outputSizes, size % layers.tpSize = 0) {done loads : List Load}
    {params : Params α} (hloaded : Loaded layers checkpoint tpRank done params)
    (hsharded : ∀ load ∈ loads, load.Sharded layers) :
    ∃ final, loadAll layers org checkpoint tpRank loads params = some final ∧
      Loaded layers checkpoint tpRank (done ++ loads) final := by
  induction loads generalizing done params with
  | nil => exact ⟨params, rfl, by simpa using hloaded⟩
  | cons load rest ih =>
      obtain ⟨next, hnext, hloaded⟩ := loadOne_loaded horg hfits hgroup hrank hdvd hloaded
        (hsharded load List.mem_cons_self)
      obtain ⟨final, hfinal, hloaded⟩ := ih hloaded fun other hmem =>
        hsharded other (List.mem_cons_of_mem _ hmem)
      refine ⟨final, ?_, by simpa using hloaded⟩
      rw [loadAll, List.foldlM_cons, hnext]
      exact hfinal

/-- A fused tensor has no shard id to look up. -/
theorem loadOne_fused (param : LinearParam) (params : Params α) :
    loadOne layers org checkpoint tpRank params (.up param none) = none := by
  have htp : ∀ loaded next, layers.up.loadTp tpRank param loaded none next =
      (none : Option (MergedParams α)) := fun _ _ => rfl
  simp only [loadOne, MergedColumnParallelLinear.weightLoader, htp, Option.bind_eq_bind,
    Option.bind_fun_none, Option.bind_none]

theorem loadAll_fused {loads : List Load} {param : LinearParam} (hmem : .up param none ∈ loads)
    (params : Params α) : loadAll layers org checkpoint tpRank loads params = none := by
  induction loads generalizing params with
  | nil => cases hmem
  | cons load rest ih =>
      rw [loadAll, List.foldlM_cons]
      rcases List.mem_cons.mp hmem with rfl | hmem
      · rw [loadOne_fused]
        rfl
      · cases loadOne layers org checkpoint tpRank params load with
        | none => rfl
        | some next => exact ih hmem next

/-- The copy of the scales is a vector whatever is copied into it. -/
theorem loadTp_isVector {param : LinearParam} {loaded : Tensor α} {shardId : Option Nat}
    {params next : MergedParams α}
    (h : layers.up.loadTp tpRank param loaded shardId params = some next) :
    next.tpPerChannelScale.isVector = params.tpPerChannelScale.isVector := by
  unfold MergedColumnParallelLinear.loadTp at h
  simp only [Option.bind_eq_bind, Option.bind_eq_some_iff] at h
  obtain ⟨shard, -, size, -, h⟩ := h
  split at h
  · simp only [Option.bind_eq_some_iff] at h
    obtain ⟨dim, -, slice, -, weight, -, h⟩ := h
    cases h
    rfl
  · split at h
    · cases h
      rfl
    · obtain ⟨slice, -, h⟩ := Option.bind_eq_some_iff.mp h
      split at h
      · obtain ⟨scale, hscale, h⟩ := Option.bind_eq_some_iff.mp h
        cases h
        exact (Tensor.copyInto_shape hscale).isVector
      · obtain ⟨weight, -, h⟩ := Option.bind_eq_some_iff.mp h
        cases h
        rfl

theorem fillParam_isVector {param : LinearParam} {loaded : Tensor α} {shardId : Nat}
    {params next : MergedParams α}
    (h : layers.up.fillParam org param loaded shardId params = some next) :
    next.tpPerChannelScale = params.tpPerChannelScale := by
  unfold MergedColumnParallelLinear.fillParam at h
  cases param with
  | weight =>
      obtain ⟨filled, -, h⟩ := Option.bind_eq_some_iff.mp h
      cases h
      rfl
  | perChannelScale =>
      obtain ⟨filled, -, h⟩ := Option.bind_eq_some_iff.mp h
      cases h
      rfl
  | smooth =>
      obtain ⟨filled, -, h⟩ := Option.bind_eq_some_iff.mp h
      cases h
      rfl

theorem loadOne_isVector {params next : Params α} {load : Load}
    (h : loadOne layers org checkpoint tpRank params load = some next) :
    next.up.tpPerChannelScale.isVector = params.up.tpPerChannelScale.isVector := by
  cases load with
  | up param shardId =>
      cases shardId with
      | none =>
          rw [loadOne_fused] at h
          cases h
      | some shardId =>
          obtain ⟨up, hup, h⟩ := Option.bind_eq_some_iff.mp h
          obtain ⟨filled, hfill, htp⟩ := Option.bind_eq_some_iff.mp hup
          cases h
          exact (loadTp_isVector htp).trans (congrArg Tensor.isVector (fillParam_isVector hfill))
  | down param =>
      obtain ⟨down, -, h⟩ := Option.bind_eq_some_iff.mp h
      cases h
      rfl

theorem loadAll_isVector {loads : List Load} {params final : Params α}
    (h : loadAll layers org checkpoint tpRank loads params = some final) :
    final.up.tpPerChannelScale.isVector = params.up.tpPerChannelScale.isVector := by
  induction loads generalizing params with
  | nil =>
      cases h
      rfl
  | cons load rest ih =>
      rw [loadAll, List.foldlM_cons] at h
      obtain ⟨next, hnext, hrest⟩ := Option.bind_eq_some_iff.mp h
      exact (ih hrest).trans (loadOne_isVector hnext)

end Runs

end VllmMlu.Layers
