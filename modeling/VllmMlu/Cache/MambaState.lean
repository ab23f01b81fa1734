import VllmMlu.Cache.KVCacheInterface
import VllmMlu.Library.Strided
import VllmMlu.Library.Packed

/-! The states of a linear attention layer under `enable_mamba_split_page_size`: how many
attention pages a state takes, and the views of the state components. -/
namespace VllmMlu.Cache
open Library Library.Strided

/-- What `verify_and_update_config` computes the pages of a hybrid model from. -/
structure HybridConfig where
  kernelBlockAlignmentSize : Nat
  attnPageSize1Token : Nat
  blockSize : Nat
  enablePrefixCaching : Bool
  /-- `mamba_block_size or model_config.get_mamba_chunk_size()`. -/
  baseChunkSize : Nat

def attnBlockSize (config : HybridConfig) (mambaPageSize : Nat) : Nat :=
  if config.enablePrefixCaching then
    let attnTokensPerMambaState := mambaPageSize ⌈/⌉ config.attnPageSize1Token
    let chunkSize := config.baseChunkSize.lcm config.kernelBlockAlignmentSize
    chunkSize * (attnTokensPerMambaState ⌈/⌉ chunkSize)
  else
    config.kernelBlockAlignmentSize *
      (mambaPageSize ⌈/⌉ (config.kernelBlockAlignmentSize * config.attnPageSize1Token))

/-- `mamba_to_attn_block_ratio` and `mamba_page_size_padded`; a model without states returns
before them. -/
def splitPageSize (config : HybridConfig) (mambaPageSize : Nat) : Option (Nat × Nat) :=
  if mambaPageSize = 0 then none
  else some (attnBlockSize config mambaPageSize ⌈/⌉ config.blockSize,
    config.blockSize * config.attnPageSize1Token)

/-- The state components from `storageOffsetBytes` on, each as a view of the tensor. -/
def stateViews (tensorSize pageSizeBytes ratio numBlocks : Nat) :
    Nat → List (List Nat × TorchDType) → Option (List View)
  | _, [] => some []
  | storageOffsetBytes, (shape, dtype) :: rest => do
      let numElementPerPage := pageSizeBytes / dtype.size * ratio
      let targetShape := numBlocks :: shape
      let stride := contiguousStride targetShape
      let targetStride := numElementPerPage :: stride.tail
      if storageOffsetBytes % dtype.size ≠ 0 then none
      -- `raw_tensor.view(dtype)`
      else if tensorSize % dtype.size ≠ 0 then none
      else do
        let view ← asStrided (tensorSize / dtype.size) dtype.size targetShape targetStride
          (storageOffsetBytes / dtype.size)
        let views ← stateViews tensorSize pageSizeBytes ratio numBlocks
          (storageOffsetBytes + stride.headD 0 * dtype.size) rest
        pure (view :: views)

/-- The branch of `_reshape_kv_cache_tensors` for a linear attention layer. -/
def reshapeMambaStates (tensorSize scaleNumel indexNumel ratio numBlocks : Nat)
    (spec : MambaSpec) : Option (List View) :=
  if spec.pageSizeBytes = 0 then none
  else if (tensorSize + scaleNumel + indexNumel) % spec.pageSizeBytes ≠ 0 then none
  else stateViews tensorSize spec.pageSizeBytes ratio numBlocks 0 (spec.shapes.zip spec.dtypes)

/-- A linear attention layer of a hybrid model. -/
structure SplitLayer where
  config : HybridConfig
  shapes : List (List Nat)
  dtypes : List TorchDType
  /-- `mamba_support_max_batch_size`. -/
  numBlocks : Nat
  /-- The page of the full attention group. -/
  attnPageSizeBytes : Nat
  scaleNumel : Nat
  indexNumel : Nat
  alignment_pos : 0 < config.kernelBlockAlignmentSize
  attnPage_pos : 0 < config.attnPageSize1Token
  blockSize_pos : 0 < config.blockSize
  baseChunk_pos : 0 < config.baseChunkSize
  dims_pos : ∀ shape ∈ shapes, ∀ dim ∈ shape, 0 < dim
  dtype_dvd : ∀ dtype ∈ dtypes, dtype.size ∣ config.blockSize * config.attnPageSize1Token
  /-- Beside the tokens of a block, the page may hold scales or an index cache. -/
  attnPage_le : config.blockSize * config.attnPageSize1Token ≤ attnPageSizeBytes

def stateBytes (state : List Nat × TorchDType) : Nat := state.1.prod * state.2.size

/-- What the loop makes of the state `i`: its bytes start behind those of the states before it. -/
theorem stateViews_spec {tensorSize page ratio numBlocks : Nat}
    {states : List (List Nat × TorchDType)}
    (hpos : ∀ state ∈ states, ∀ dim ∈ state.1, 0 < dim) {start : Nat} {views : List View}
    (h : stateViews tensorSize page ratio numBlocks start states = some views) :
    views.length = states.length ∧ ∀ (i : Nat) (view : View), views[i]? = some view →
      ∃ state, states[i]? = some state ∧ view.elementSize = state.2.size ∧
        view.size = numBlocks :: state.1 ∧
        view.stride = page / state.2.size * ratio :: contiguousStride state.1 ∧
        view.elementSize * view.storageOffset =
          start + ((states.take i).map stateBytes).sum := by
  induction states generalizing start views with
  | nil =>
      cases h
      exact ⟨rfl, by simp⟩
  | cons state rest ih =>
      rw [stateViews] at h
      split at h
      · cases h
      rename_i hstart
      split at h
      · cases h
      simp only [Option.bind_eq_bind, Option.bind_eq_some_iff, Option.pure_def,
        Option.some.injEq] at h
      obtain ⟨first, hview, others, hrest, rfl⟩ := h
      rw [asStrided] at hview
      split at hview
      swap
      · cases hview
      cases hview
      obtain ⟨hlength, hviews⟩ := ih (fun s hs => hpos s (List.mem_cons_of_mem _ hs)) hrest
      have hbytes : (contiguousStride (numBlocks :: state.1)).headD 0 * state.2.size =
          stateBytes state := by
        rw [contiguousStride, List.headD_cons, stateBytes,
          prod_map_max (hpos state List.mem_cons_self)]
      refine ⟨by simp [hlength], ?_⟩
      intro i view hi
      cases i with
      | zero =>
          cases hi
          exact ⟨state, rfl, rfl, rfl, rfl,
            Nat.mul_div_cancel' (Nat.dvd_of_mod_eq_zero (not_not.mp hstart))⟩
      | succ i =>
          obtain ⟨other, hother, helem, hsize, hstride, hoffset⟩ := hviews i view hi
          refine ⟨other, hother, helem, hsize, hstride, ?_⟩
          rw [hoffset, hbytes, List.take_succ_cons, List.map_cons, List.sum_cons,
            Nat.add_assoc]

namespace SplitLayer

variable (layer : SplitLayer)

def states : List (List Nat × TorchDType) := layer.shapes.zip layer.dtypes

/-- The sum of all state components of one block. -/
def mambaPageSize : Nat := (MambaSpec.mk layer.shapes layer.dtypes none).pageSizeBytes

/-- `mamba_tensor_size`. -/
def tensorSize (ratio : Nat) : Nat := layer.attnPageSizeBytes * ratio * layer.numBlocks

def views (ratio padded : Nat) : Option (List View) :=
  reshapeMambaStates (layer.tensorSize ratio) layer.scaleNumel layer.indexNumel ratio
    layer.numBlocks ⟨layer.shapes, layer.dtypes, some padded⟩

variable {layer}

theorem mambaPageSize_le_attnBlock :
    layer.mambaPageSize ≤
      attnBlockSize layer.config layer.mambaPageSize * layer.config.attnPageSize1Token := by
  rw [attnBlockSize]
  split
  · have hlcm : 0 < layer.config.baseChunkSize.lcm layer.config.kernelBlockAlignmentSize :=
      Nat.lcm_pos layer.baseChunk_pos layer.alignment_pos
    have hpages := le_smul_ceilDiv (b := layer.mambaPageSize) layer.attnPage_pos
    have hchunks := le_smul_ceilDiv
      (b := layer.mambaPageSize ⌈/⌉ layer.config.attnPageSize1Token) hlcm
    rw [smul_eq_mul] at hpages hchunks
    calc layer.mambaPageSize
        ≤ layer.config.attnPageSize1Token *
            (layer.mambaPageSize ⌈/⌉ layer.config.attnPageSize1Token) := hpages
      _ ≤ layer.config.attnPageSize1Token * _ := Nat.mul_le_mul_left _ hchunks
      _ = _ := Nat.mul_comm _ _
  · have hunits := le_smul_ceilDiv (b := layer.mambaPageSize)
      (Nat.mul_pos layer.alignment_pos layer.attnPage_pos)
    rw [smul_eq_mul] at hunits
    calc layer.mambaPageSize
        ≤ layer.config.kernelBlockAlignmentSize * layer.config.attnPageSize1Token * _ := hunits
      _ = _ := Nat.mul_right_comm _ _ _

/-- The pages of a block have room for its states. -/
theorem mambaPageSize_le {ratio padded : Nat}
    (h : splitPageSize layer.config layer.mambaPageSize = some (ratio, padded)) :
    layer.mambaPageSize ≤ ratio * padded := by
  rw [splitPageSize] at h
  split at h
  · cases h
  · cases h
    have hratio := le_smul_ceilDiv (b := attnBlockSize layer.config layer.mambaPageSize)
      layer.blockSize_pos
    rw [smul_eq_mul, Nat.mul_comm] at hratio
    calc layer.mambaPageSize
        ≤ attnBlockSize layer.config layer.mambaPageSize * layer.config.attnPageSize1Token :=
          mambaPageSize_le_attnBlock
      _ ≤ _ * layer.config.blockSize * layer.config.attnPageSize1Token :=
          Nat.mul_le_mul_right _ hratio
      _ = _ := Nat.mul_assoc _ _ _

theorem padded_eq {ratio padded : Nat}
    (h : splitPageSize layer.config layer.mambaPageSize = some (ratio, padded)) :
    padded = layer.config.blockSize * layer.config.attnPageSize1Token := by
  rw [splitPageSize] at h
  split at h
  · cases h
  · cases h
    rfl

theorem padded_le {ratio padded : Nat}
    (h : splitPageSize layer.config layer.mambaPageSize = some (ratio, padded)) :
    padded ≤ layer.attnPageSizeBytes := by
  rw [padded_eq h]
  exact layer.attnPage_le

theorem views_spec {ratio padded : Nat} {views : List View}
    (h : layer.views ratio padded = some views) :
    views.length = layer.states.length ∧ ∀ (i : Nat) (view : View), views[i]? = some view →
      ∃ state, layer.states[i]? = some state ∧ view.elementSize = state.2.size ∧
        view.size = layer.numBlocks :: state.1 ∧
        view.stride = padded / state.2.size * ratio :: contiguousStride state.1 ∧
        view.elementSize * view.storageOffset =
          0 + ((layer.states.take i).map stateBytes).sum := by
  rw [SplitLayer.views, reshapeMambaStates] at h
  split at h
  · cases h
  · split at h
    · cases h
    · apply stateViews_spec _ h
      intro state hmem
      exact layer.dims_pos state.1 (List.of_mem_zip hmem).1

/-- Each view takes its own bytes of every block's pages. -/
theorem range_of_views {ratio padded : Nat}
    (hconfig : splitPageSize layer.config layer.mambaPageSize = some (ratio, padded))
    {views : List View} (hviews : layer.views ratio padded = some views) {i row byte : Nat}
    {view : View} (hview : views[i]? = some view) (h : view.Touches row byte) :
    row < layer.numBlocks ∧ ∃ len, (layer.states.map stateBytes)[i]? = some len ∧
      row * (padded * ratio) + ((layer.states.map stateBytes).take i).sum ≤ byte ∧
      byte < row * (padded * ratio) + (((layer.states.map stateBytes).take i).sum + len) := by
  obtain ⟨state, hstate, helem, hsize, hstride, hoffset⟩ := (views_spec hviews).2 i view hview
  have hdvd : state.2.size ∣ padded := by
    rw [padded_eq hconfig]
    exact layer.dtype_dvd state.2 (List.of_mem_zip (List.mem_of_getElem? hstate)).2
  obtain ⟨hrow, hle, hlt⟩ := View.range_of_touches hsize hstride h
  have hstart : view.elementSize * (view.storageOffset + row * (padded / state.2.size * ratio)) =
      row * (padded * ratio) + ((layer.states.map stateBytes).take i).sum := by
    calc view.elementSize * (view.storageOffset + row * (padded / state.2.size * ratio))
        = view.elementSize * view.storageOffset +
            row * (state.2.size * (padded / state.2.size) * ratio) := by rw [helem]; ring
      _ = row * (padded * ratio) + ((layer.states.map stateBytes).take i).sum := by
          rw [hoffset, Nat.mul_div_cancel' hdvd, Nat.zero_add, Nat.add_comm, List.map_take]
  rw [hstart] at hle hlt
  have hbytes : view.elementSize * state.1.prod = stateBytes state := by
    rw [helem, stateBytes, Nat.mul_comm]
  refine ⟨hrow, stateBytes state, by rw [List.getElem?_map, hstate]; rfl, hle, ?_⟩
  rw [hbytes] at hlt
  omega

/-- A byte of a block's states tells the block. -/
theorem block_of_byte {width row start len byte : Nat} (hend : start + len ≤ width)
    (hle : row * width + start ≤ byte) (hlt : byte < row * width + (start + len)) :
    byte / width = row := by
  apply Nat.div_eq_of_lt_le
  · omega
  · rw [Nat.succ_mul]
    omega

theorem sum_stateBytes : (layer.states.map stateBytes).sum = layer.mambaPageSize := rfl

/-- The states of a block have room in its pages, distinct states of distinct blocks share no
byte, and none lies behind the end of the tensor. -/
theorem state_views_disjoint (layer : SplitLayer) {ratio padded : Nat}
    (hconfig : splitPageSize layer.config layer.mambaPageSize = some (ratio, padded))
    {views : List View} (hviews : layer.views ratio padded = some views) :
    views.length = layer.states.length ∧
    (∀ (i i' row row' byte : Nat) (view view' : View),
      views[i]? = some view → views[i']? = some view' →
      view.Touches row byte → view'.Touches row' byte → row = row' ∧ i = i') ∧
    (∀ view ∈ views, ∀ row byte, view.Touches row byte → byte < layer.tensorSize ratio) ∧
    layer.mambaPageSize ≤ ratio * padded := by
  have hroom := mambaPageSize_le hconfig
  rw [Nat.mul_comm ratio] at hroom ⊢
  have hend : ∀ {i len : Nat}, (layer.states.map stateBytes)[i]? = some len →
      ((layer.states.map stateBytes).take i).sum + len ≤ padded * ratio := by
    intro i len hlen
    obtain ⟨hi, -⟩ := List.getElem?_eq_some_iff.mp hlen
    have hle := Packed.sum_take_add_le hlen hi
    rw [List.take_length, sum_stateBytes] at hle
    exact hle.trans hroom
  refine ⟨(views_spec hviews).1, ?_, ?_, hroom⟩
  · intro i i' row row' byte view view' hview hview' h h'
    obtain ⟨-, len, hlen, hle, hlt⟩ := range_of_views hconfig hviews hview h
    obtain ⟨-, len', hlen', hle', hlt'⟩ := range_of_views hconfig hviews hview' h'
    have hrow : row = row' := by
      rw [← block_of_byte (hend hlen) hle hlt]
      exact block_of_byte (hend hlen') hle' hlt'
    subst hrow
    exact ⟨rfl, @Packed.part_unique _ _ _ _ _ (byte - row * (padded * ratio)) hlen hlen'
      (by omega) (by omega) (by omega) (by omega)⟩
  · intro view hmem row byte h
    obtain ⟨i, hi⟩ := List.getElem?_of_mem hmem
    obtain ⟨hrow, len, hlen, hle, hlt⟩ := range_of_views hconfig hviews hi h
    have hlast := hend hlen
    have hblocks : (row + 1) * (padded * ratio) ≤ layer.numBlocks * (padded * ratio) :=
      Nat.mul_le_mul_right _ hrow
    rw [Nat.succ_mul] at hblocks
    calc byte
        < layer.numBlocks * (padded * ratio) := by omega
      _ = padded * ratio * layer.numBlocks := Nat.mul_comm _ _
      _ ≤ layer.tensorSize ratio :=
          Nat.mul_le_mul_right _ (Nat.mul_le_mul_right _ (padded_le hconfig))

/-- A convolution state and a recurrent state of different dtypes, for three requests. -/
def twoStates : SplitLayer where
  config := ⟨16, 4, 16, false, 1⟩
  shapes := [[3, 2], [2, 5]]
  dtypes := [.bfloat16, .float32]
  numBlocks := 3
  attnPageSizeBytes := 64
  scaleNumel := 0
  indexNumel := 0
  alignment_pos := by decide
  attnPage_pos := by decide
  blockSize_pos := by decide
  baseChunk_pos := by decide
  dims_pos := by decide
  dtype_dvd := by decide
  attnPage_le := by decide

theorem state_views_disjoint_two :
    ∃ views, twoStates.views 1 64 = some views ∧ views.length = 2 ∧
      (∀ (i i' row row' byte : Nat) (view view' : View),
        views[i]? = some view → views[i']? = some view' →
        view.Touches row byte → view'.Touches row' byte → row = row' ∧ i = i') ∧
      (∀ view ∈ views, ∀ row byte, view.Touches row byte → byte < 192) ∧
      twoStates.mambaPageSize ≤ 1 * 64 :=
  ⟨[⟨2, [3, 3, 2], [32, 2, 1], 0⟩, ⟨4, [3, 2, 5], [16, 5, 1], 3⟩], by decide,
    @state_views_disjoint twoStates 1 64 (by decide) _ (by decide)⟩

end SplitLayer

end VllmMlu.Cache
