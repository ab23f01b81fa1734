import VllmMlu.Cache.KVCacheInterface

/-! The memory that a worker allocates for a hybrid model's KV cache configuration, and
when it stays within the memory that was available. -/
namespace VllmMlu.Cache
open VllmMlu.Library

/-- The byte sizes of the three tensors of a layer. -/
structure RawTensor where
  cache : Int
  scale : Int
  indexCache : Int

def RawTensor.bytes (raw : RawTensor) : Int := raw.cache + raw.scale + raw.indexCache

/-- `kv_cache_raw_tensors`, and the bytes of all tensors allocated so far. -/
structure KVCacheMemory where
  rawTensors : Dict String RawTensor := Dict.empty
  allocated : Int := 0

/-- `'linear_attn' in layer_name`. -/
def isLinearAttn (layerName : String) : Bool :=
  decide ("linear_attn".toList <:+: layerName.toList)

/-- The group whose specification sizes the tensors: the first full attention one. -/
def specGroup (groups : List KVCacheGroupSpec) : Option KVCacheGroupSpec :=
  (groups.find? fun group => group.kvCacheSpec.isFullAttention).or groups.head?

/-- The tensors of one position; a specification without these sizes has no `dtype`. -/
def allocateTensor (spec : KVCacheSpec) (size : Int) : Except CacheError RawTensor :=
  if spec.pageSizeBytes = 0 then .error .zeroDivisionError
  else if size % spec.pageSizeBytes ≠ 0 then .error .assertionError
  else
    match spec with
    | .attention spec =>
        let numBlocks := size / spec.pageSizeBytes
        .ok {
          cache := numBlocks * spec.cacheSizeBytes
          scale := if spec.dtype.isKv8 then numBlocks * spec.scaleSizeBytes else 0
          indexCache :=
            if spec.kind = .mla ∧ 0 < spec.indexNHeads then numBlocks * spec.indexCacheSizeBytes
            else 0 }
    | _ => .error .attributeError

/-- A linear attention layer gets a state tensor of its own. -/
def KVCacheMemory.addLayer (mambaTensorSize : Int) (raw : RawTensor) (memory : KVCacheMemory)
    (layerName : String) : KVCacheMemory :=
  if isLinearAttn layerName then
    { rawTensors := memory.rawTensors.set layerName { raw with cache := mambaTensorSize }
      allocated := memory.allocated + mambaTensorSize }
  else { memory with rawTensors := memory.rawTensors.set layerName raw }

def KVCacheMemory.addTensor (spec : KVCacheSpec) (mambaTensorSize : Int) (memory : KVCacheMemory)
    (tensor : KVCacheTensor) : Except CacheError KVCacheMemory := do
  let raw ← allocateTensor spec tensor.size
  pure (tensor.sharedBy.foldl (addLayer mambaTensorSize raw)
    { memory with allocated := memory.allocated + raw.bytes })

/-- The layers that need a tensor. -/
def cachedLayers (runnerOnlyAttnLayers : List String) (groups : List KVCacheGroupSpec) :
    List String :=
  (groups.flatMap (·.layerNames)).filter (· ∉ runnerOnlyAttnLayers)

/-- `_allocate_kv_cache_tensors` with `enable_mamba_split_page_size`. -/
def allocateKvCacheTensors (mlu : MluConfig) (runnerOnlyAttnLayers : List String)
    (config : KVCacheConfig) : Except CacheError KVCacheMemory :=
  match specGroup config.kvCacheGroups with
  | none => .error .indexError
  | some group => do
      let mambaTensorSize := group.kvCacheSpec.pageSizeBytes * mlu.mambaToAttnBlockRatio *
        mlu.mambaSupportMaxBatchSize
      let memory ← config.kvCacheTensors.foldlM
        (KVCacheMemory.addTensor group.kvCacheSpec mambaTensorSize) {}
      if (∀ name ∈ cachedLayers runnerOnlyAttnLayers config.kvCacheGroups,
            name ∈ memory.rawTensors.keys) ∧
          ∀ name ∈ memory.rawTensors.keys,
            name ∈ cachedLayers runnerOnlyAttnLayers config.kvCacheGroups then
        pure memory
      else .error .assertionError

/-! What one tensor and the layers that share it take. -/

theorem AttentionSpec.allocated_eq (spec : AttentionSpec) (numBlocks : Int) :
    numBlocks * spec.cacheSizeBytes +
        (if spec.dtype.isKv8 then numBlocks * spec.scaleSizeBytes else 0) +
      (if spec.kind = .mla ∧ 0 < spec.indexNHeads then numBlocks * spec.indexCacheSizeBytes
        else 0) = numBlocks * spec.pageSizeBytes := by
  have hscale : (if spec.dtype.isKv8 = true then numBlocks * (spec.scaleSizeBytes : Int) else 0) =
      numBlocks * spec.scaleSizeBytes := by
    unfold scaleSizeBytes
    split <;> simp
  have hindex : 0 < spec.indexNHeads ∨ spec.indexCacheSizeBytes = 0 := by
    rcases Nat.eq_zero_or_pos spec.indexNHeads with hzero | hpositive
    · exact .inr (by simp [indexCacheSizeBytes, hzero])
    · exact .inl hpositive
  rw [hscale]
  unfold pageSizeBytes
  cases hkind : spec.kind with
  | full | slidingWindow =>
      simp only [reduceCtorEq, false_and, if_false]
      push_cast
      ring
  | mla =>
      simp only [true_and]
      rcases hindex with hpositive | hzero
      · rw [if_pos hpositive]
        push_cast
        ring
      · rw [hzero]
        split <;> push_cast <;> ring

/-- What is allocated for a position is exactly the tensor's size. -/
theorem allocateTensor_bytes {spec : KVCacheSpec} {size : Int} {raw : RawTensor}
    (hok : allocateTensor spec size = .ok raw) : raw.bytes = size := by
  unfold allocateTensor at hok
  split at hok
  · cases hok
  · split at hok
    · cases hok
    · rename_i hdivides
      split at hok
      · rename_i attention _
        cases hok
        rw [RawTensor.bytes, attention.allocated_eq]
        exact Int.ediv_mul_cancel (Int.dvd_of_emod_eq_zero (not_not.mp hdivides))
      · cases hok

theorem KVCacheMemory.addLayer_allocated (mambaTensorSize : Int) (raw : RawTensor)
    (layerNames : List String) (memory : KVCacheMemory) :
    (layerNames.foldl (addLayer mambaTensorSize raw) memory).allocated =
      memory.allocated + (layerNames.countP isLinearAttn : Int) * mambaTensorSize := by
  induction layerNames generalizing memory with
  | nil => simp
  | cons layerName rest ih =>
      rw [List.foldl_cons, ih, List.countP_cons, addLayer]
      split
      · push_cast
        ring
      · simp

theorem KVCacheMemory.addTensor_allocated {spec : KVCacheSpec} {mambaTensorSize : Int}
    {memory next : KVCacheMemory} {tensor : KVCacheTensor}
    (hok : memory.addTensor spec mambaTensorSize tensor = .ok next) :
    next.allocated = memory.allocated + tensor.size +
      (tensor.sharedBy.countP isLinearAttn : Int) * mambaTensorSize := by
  obtain ⟨raw, hraw, hpure⟩ := bind_eq_ok.mp hok
  rw [← pure_eq_ok.mp hpure, addLayer_allocated, allocateTensor_bytes hraw]

theorem KVCacheMemory.addTensors_allocated {spec : KVCacheSpec} {mambaTensorSize : Int}
    (tensors : List KVCacheTensor) {memory next : KVCacheMemory}
    (hok : tensors.foldlM (addTensor spec mambaTensorSize) memory = .ok next) :
    next.allocated = memory.allocated + (tensors.map KVCacheTensor.size).sum +
      ((tensors.map fun tensor => tensor.sharedBy.countP isLinearAttn).sum : Nat) *
        mambaTensorSize := by
  induction tensors generalizing memory with
  | nil =>
      cases hok
      simp
  | cons tensor rest ih =>
      rw [List.foldlM_cons] at hok
      obtain ⟨first, hfirst, hrest⟩ := bind_eq_ok.mp hok
      rw [ih hrest, addTensor_allocated hfirst, List.map_cons, List.map_cons, List.sum_cons,
        List.sum_cons]
      push_cast
      ring

/-! Every layer of every group stands at one position. -/

theorem countP_getElem? (p : String → Bool) (names : List String) (n : Nat)
    (hlength : names.length ≤ n) :
    ((List.range n).map fun i => names[i]?.toList.countP p).sum = names.countP p := by
  induction names generalizing n with
  | nil => simp
  | cons name rest ih =>
      cases n with
      | zero => simp at hlength
      | succ n =>
          rw [List.range_succ_eq_map, List.map_cons, List.sum_cons, List.map_map]
          have hrest := ih n (by simpa using hlength)
          simp only [Function.comp_def, List.getElem?_cons_succ, List.getElem?_cons_zero,
            Option.toList_some, hrest, List.countP_cons, List.countP_nil]
          omega

/-- The linear attention layers of all groups. -/
def numLinear (groups : List KVCacheGroupSpec) : Nat :=
  (groups.map fun group => group.layerNames.countP isLinearAttn).sum

theorem sharedBy_countP (groups : List KVCacheGroupSpec) (n : Nat)
    (hlength : ∀ group ∈ groups, group.layerNames.length ≤ n) :
    ((List.range n).map fun i => (sharedBy groups i).countP isLinearAttn).sum =
      numLinear groups := by
  induction groups with
  | nil => simp [sharedBy, numLinear]
  | cons group rest ih =>
      have hsplit : ∀ i, (sharedBy (group :: rest) i).countP isLinearAttn =
          group.layerNames[i]?.toList.countP isLinearAttn +
            (sharedBy rest i).countP isLinearAttn := by
        intro i
        unfold sharedBy
        rw [List.filterMap_cons]
        split
        · rename_i hnone
          simp [hnone]
        · rename_i name hsome
          rw [hsome, Option.toList_some, List.countP_cons, List.countP_cons, List.countP_nil]
          omega
      simp only [hsplit, List.sum_map_add]
      rw [countP_getElem? _ _ _ (hlength group List.mem_cons_self),
        ih fun other hmem => hlength other (List.mem_cons_of_mem _ hmem)]
      simp [numLinear]

theorem length_le_groupSize {groups : List KVCacheGroupSpec} {group : KVCacheGroupSpec}
    (hmem : group ∈ groups) : group.layerNames.length ≤ groupSize groups := by
  unfold groupSize
  induction groups with
  | nil => cases hmem
  | cons head rest ih =>
      rw [List.map_cons, List.foldr_cons]
      rcases List.mem_cons.mp hmem with rfl | hrest
      · exact le_max_left _ _
      · exact (ih hrest).trans (le_max_right _ _)

/-! The whole allocation against the memory that was available. -/

/-- The page size of the specification that sizes the tensors. -/
def specPageSize (groups : List KVCacheGroupSpec) : Nat :=
  ((specGroup groups).map fun group => group.kvCacheSpec.pageSizeBytes).getD 0

/-- The states of one linear attention layer. -/
def mambaTensorSize (mlu : MluConfig) (groups : List KVCacheGroupSpec) : Nat :=
  specPageSize groups * mlu.mambaToAttnBlockRatio * mlu.mambaSupportMaxBatchSize

/-- The states of all linear attention layers fit in what is set aside for three of them
at each position, and in what the division into blocks leaves over; where that much is not
available, they fit in what is. -/
def StatesFit (mlu : MluConfig) (groups : List KVCacheGroupSpec) (availableMemory : Int) : Prop :=
  let reserved := (mambaPageSize mlu (specPageSize groups) (groupSize groups) : Int)
  (numLinear groups * mambaTensorSize mlu groups : Int) ≤
    if availableMemory < reserved then availableMemory
    else reserved + (availableMemory - reserved) %
      ((specPageSize groups : Int) * groupSize groups)

instance (mlu : MluConfig) (groups : List KVCacheGroupSpec) (availableMemory : Int) :
    Decidable (StatesFit mlu groups availableMemory) := by
  unfold StatesFit
  infer_instance

theorem blocks_within_iff {available reserved page groups states numBlocks : Int}
    (hpage : 0 < page) (hgroups : 0 < groups)
    (hblocks : numBlocks = max ((available - reserved) / page / groups) 0) :
    groups * (page * numBlocks) + states ≤ available ↔
      states ≤ if available < reserved then available
        else reserved + (available - reserved) % (page * groups) := by
  rw [Int.ediv_ediv_of_nonneg hpage.le] at hblocks
  have hpositive : 0 < page * groups := Int.mul_pos hpage hgroups
  have hdivision := Int.emod_add_mul_ediv (available - reserved) (page * groups)
  have hproduct : groups * (page * numBlocks) = page * groups * numBlocks := by ring
  split
  · have hnegative : (available - reserved) / (page * groups) < 0 :=
      Int.ediv_neg_of_neg_of_pos (by omega) hpositive
    rw [max_eq_right hnegative.le] at hblocks
    rw [hblocks]
    simp
  · have hnonneg : 0 ≤ (available - reserved) / (page * groups) :=
      Int.ediv_nonneg (by omega) hpositive.le
    rw [max_eq_left hnonneg] at hblocks
    rw [hproduct, hblocks]
    omega

theorem mem_of_specGroup {groups : List KVCacheGroupSpec} {group : KVCacheGroupSpec}
    (hgroup : specGroup groups = some group) : group ∈ groups := by
  unfold specGroup at hgroup
  rcases Option.or_eq_some_iff.mp hgroup with hfound | ⟨-, hhead⟩
  · exact List.mem_of_find?_eq_some hfound
  · exact List.mem_of_head? hhead

variable {utils : KVCacheUtils} {mlu : MluConfig} {groups : List KVCacheGroupSpec}
  {specs : List (String × KVCacheSpec)} {availableMemory : Int} {config : KVCacheConfig}
  {runnerOnlyAttnLayers : List String} {memory : KVCacheMemory}

theorem allocateKvCacheTensors_allocated
    (hworker : allocateKvCacheTensors mlu runnerOnlyAttnLayers config = .ok memory) :
    memory.allocated = (config.kvCacheTensors.map KVCacheTensor.size).sum +
      ((config.kvCacheTensors.map fun tensor => tensor.sharedBy.countP isLinearAttn).sum : Nat) *
        mambaTensorSize mlu config.kvCacheGroups := by
  unfold allocateKvCacheTensors at hworker
  split at hworker
  · cases hworker
  · rename_i group hgroup
    obtain ⟨filled, hfilled, hchecked⟩ := bind_eq_ok.mp hworker
    split at hchecked
    · cases hchecked
      rw [KVCacheMemory.addTensors_allocated _ hfilled]
      simp [mambaTensorSize, specPageSize, hgroup]
    · cases hchecked

/-- The worker sizes tensors by an attention specification only. -/
theorem specGroup_attention (hworker : allocateKvCacheTensors mlu runnerOnlyAttnLayers config =
    .ok memory) (hnonempty : config.kvCacheTensors ≠ []) :
    ∃ group spec, specGroup config.kvCacheGroups = some group ∧
      group.kvCacheSpec = .attention spec ∧ 0 < spec.pageSizeBytes := by
  unfold allocateKvCacheTensors at hworker
  split at hworker
  · cases hworker
  · rename_i group hgroup
    obtain ⟨filled, hfilled, -⟩ := bind_eq_ok.mp hworker
    cases htensors : config.kvCacheTensors with
    | nil => exact absurd htensors hnonempty
    | cons tensor rest =>
        rw [htensors, List.foldlM_cons] at hfilled
        obtain ⟨first, hfirst, -⟩ := bind_eq_ok.mp hfilled
        obtain ⟨raw, hraw, -⟩ := bind_eq_ok.mp hfirst
        unfold allocateTensor at hraw
        split at hraw
        · cases hraw
        · rename_i hpage
          split at hraw
          · cases hraw
          · split at hraw
            · rename_i spec heq
              rw [heq] at hpage
              exact ⟨group, spec, hgroup, heq, Nat.pos_of_ne_zero hpage⟩
            · cases hraw

theorem generalConfig_ok (documented : utils.Documented)
    (henabled : mlu.enableMambaSplitPageSize = true)
    (hconfig : generalConfig utils mlu groups specs availableMemory = .ok config) :
    0 < groupSize groups ∧ config.kvCacheGroups = groups ∧
      ∃ page, utils.getUniformPageSize specs = .ok page ∧
        config.numBlocks = max ((availableMemory - mambaPageSize mlu page (groupSize groups)) /
          page / groupSize groups) 0 ∧
        config.kvCacheTensors = (List.range (groupSize groups)).map fun i =>
          ⟨page * config.numBlocks, sharedBy groups i⟩ := by
  obtain ⟨page, hpage, hconfig⟩ := bind_eq_ok.mp hconfig
  dsimp only at hconfig
  rw [if_pos henabled] at hconfig
  split at hconfig
  · cases hconfig
  · rename_i hpositive
    cases hconfig
    exact ⟨Nat.pos_of_ne_zero hpositive, rfl, page, hpage, documented.numBlocks .., rfl⟩

/-- The groups are made of layers: the attention specification of a group has the page
size of one of them. -/
def MadeOfLayers (specs : List (String × KVCacheSpec)) (groups : List KVCacheGroupSpec) : Prop :=
  ∀ group ∈ groups, ∀ spec, group.kvCacheSpec = .attention spec →
    ∃ layer ∈ specs, layer.2.pageSizeBytes = spec.pageSizeBytes

/-- A general configuration stays within the memory exactly when the states fit. -/
theorem generalConfig_within_iff (documented : utils.Documented)
    (henabled : mlu.enableMambaSplitPageSize = true)
    (hlayers : MadeOfLayers specs groups)
    (hconfig : generalConfig utils mlu groups specs availableMemory = .ok config)
    (hworker : allocateKvCacheTensors mlu runnerOnlyAttnLayers config = .ok memory) :
    memory.allocated ≤ availableMemory ↔ StatesFit mlu groups availableMemory := by
  obtain ⟨hgroups, hsame, page, hpage, hblocks, htensors⟩ :=
    generalConfig_ok documented henabled hconfig
  have hnonempty : config.kvCacheTensors ≠ [] := by
    rw [htensors]
    simp [hgroups.ne']
  obtain ⟨group, spec, hgroup, hattention, hpositive⟩ := specGroup_attention hworker hnonempty
  have hallocated := allocateKvCacheTensors_allocated hworker
  rw [hsame] at hgroup hallocated
  obtain ⟨layer, hlayer, hpageLayer⟩ := hlayers group (mem_of_specGroup hgroup) spec hattention
  have hpageSpec : spec.pageSizeBytes = page :=
    hpageLayer.symm.trans (documented.uniform specs page hpage layer hlayer)
  have hspec : specPageSize groups = page := by
    simp [specPageSize, hgroup, hattention, KVCacheSpec.pageSizeBytes, hpageSpec]
  have hsizes : (config.kvCacheTensors.map KVCacheTensor.size).sum =
      groupSize groups * (page * config.numBlocks) := by
    rw [htensors, List.map_map]
    simp [Function.comp_def]
  have hlinear : (config.kvCacheTensors.map fun tensor =>
      tensor.sharedBy.countP isLinearAttn).sum = numLinear groups := by
    rw [htensors, List.map_map]
    exact sharedBy_countP groups _ fun group hmem => length_le_groupSize hmem
  rw [hallocated, hsizes, hlinear, blocks_within_iff (by omega) (by omega) hblocks]
  unfold StatesFit
  rw [hspec]

/-- The worker takes no uniform type specification, unless it has no layer. -/
theorem uniformTypeConfig_within_iff {group : KVCacheGroupSpec} {pageSizeBytes : Nat}
    {kvCacheSpecs : List (String × Nat)}
    (hspec : group.kvCacheSpec = .uniformType pageSizeBytes kvCacheSpecs)
    (hconfig : uniformTypeConfig utils group pageSizeBytes kvCacheSpecs availableMemory =
      .ok config)
    (hworker : allocateKvCacheTensors mlu runnerOnlyAttnLayers config = .ok memory) :
    memory.allocated ≤ availableMemory ↔ StatesFit mlu [group] availableMemory := by
  unfold uniformTypeConfig at hconfig
  split at hconfig
  · cases hconfig
  · obtain ⟨tensors, htensors, hpure⟩ := bind_eq_ok.mp hconfig
    cases pure_eq_ok.mp hpure
    have hgroup : specGroup [group] = some group := by
      simp [specGroup, hspec, KVCacheSpec.isFullAttention]
    have hnone : tensors = [] := by
      unfold allocateKvCacheTensors at hworker
      rw [hgroup] at hworker
      obtain ⟨filled, hfilled, -⟩ := bind_eq_ok.mp hworker
      cases tensors with
      | nil => rfl
      | cons tensor rest =>
          rw [List.foldlM_cons] at hfilled
          obtain ⟨first, hfirst, -⟩ := bind_eq_ok.mp hfilled
          obtain ⟨raw, hraw, -⟩ := bind_eq_ok.mp hfirst
          rw [hspec] at hraw
          unfold allocateTensor at hraw
          split at hraw
          · cases hraw
          · split at hraw <;> cases hraw
    have hlayers : group.layerNames = [] := by
      cases hnames : group.layerNames with
      | nil => rfl
      | cons name rest =>
          rw [hnone, hnames, List.mapM_cons] at htensors
          obtain ⟨_, -, hrest⟩ := bind_eq_ok.mp htensors
          obtain ⟨_, -, hlast⟩ := bind_eq_ok.mp hrest
          cases hlast
    have hallocated := allocateKvCacheTensors_allocated hworker
    rw [hallocated, hnone]
    simp only [StatesFit, numLinear, groupSize, mambaPageSize, hlayers, List.map_cons,
      List.map_nil, List.countP_nil, List.sum_cons, List.sum_nil, List.length_nil,
      List.foldr_cons, List.foldr_nil, Nat.max_self, Nat.cast_zero, zero_mul, mul_zero, add_zero,
      sub_zero, zero_add, Int.emod_zero]
    split <;> omega

/-- The bytes that the worker allocates for a hybrid model stay within the available
memory exactly when the linear attention states fit in what is set aside for them. -/
theorem hybrid_memory_within_iff (documented : utils.Documented)
    (henabled : mlu.enableMambaSplitPageSize = true)
    (hlayers : MadeOfLayers specs groups)
    (hconfig : getKvCacheConfigFromGroups utils mlu groups specs availableMemory = .ok config)
    (hworker : allocateKvCacheTensors mlu runnerOnlyAttnLayers config = .ok memory) :
    memory.allocated ≤ availableMemory ↔ StatesFit mlu groups availableMemory := by
  unfold getKvCacheConfigFromGroups at hconfig
  split at hconfig
  · cases hconfig
    cases hworker
  · rename_i group
    split at hconfig
    · rename_i pageSizeBytes kvCacheSpecs hspec
      exact uniformTypeConfig_within_iff hspec hconfig hworker
    · exact generalConfig_within_iff documented henabled hlayers hconfig hworker
  · exact generalConfig_within_iff documented henabled hlayers hconfig hworker

namespace Samples

/-- The functions of `kv_cache_utils` as they are documented. -/
def kvCacheUtils : KVCacheUtils where
  getUniformPageSize := fun specs =>
    match (specs.map fun spec => spec.2.pageSizeBytes).dedup with
    | [page] => .ok page
    | _ => .error .assertionError
  getNumBlocks := fun numLayers available page => max (available / page / numLayers) 0
  mayOverrideNumBlocks := id

theorem kvCacheUtils_documented : kvCacheUtils.Documented where
  uniform := by
    intro specs page hpage spec hmem
    simp only [kvCacheUtils] at hpage
    split at hpage
    · rename_i only hdedup
      cases hpage
      have hone := List.mem_dedup.mpr (List.mem_map_of_mem (f := fun spec : String × KVCacheSpec =>
        spec.2.pageSizeBytes) hmem)
      rw [hdedup] at hone
      exact List.mem_singleton.mp hone
    · cases hpage
  numBlocks := fun _ _ _ => rfl
  keeps := fun _ => rfl

def splitConfig : MluConfig where
  enableMambaSplitPageSize := true
  mambaToAttnBlockRatio := 1
  mambaSupportMaxBatchSize := 1

/-- Pages of four bytes. -/
def fullSpec : KVCacheSpec := .attention ⟨.full, 1, 1, 1, .float16, 0, 0⟩

def linearSpec : KVCacheSpec := .mamba ⟨[[2]], [.float16], none⟩

/-- One full attention layer in front of some linear ones, each a group. -/
def hybridGroups (linear : List String) : List KVCacheGroupSpec :=
  ⟨["self_attn"], fullSpec⟩ :: linear.map fun name => ⟨[name], linearSpec⟩

def hybridSpecs (linear : List String) : List (String × KVCacheSpec) :=
  ("self_attn", fullSpec) :: linear.map fun name => (name, linearSpec)

/-- The bytes that the worker allocates for sixteen available ones. -/
def allocatedOf (linear : List String) : Option Int :=
  match getKvCacheConfigFromGroups kvCacheUtils splitConfig (hybridGroups linear) (hybridSpecs linear)
    16 with
  | .error _ => none
  | .ok config =>
      match allocateKvCacheTensors splitConfig [] config with
      | .error _ => none
      | .ok memory => some memory.allocated

theorem exists_of_allocatedOf {linear : List String} {bytes : Int}
    (hallocated : allocatedOf linear = some bytes) : ∃ config memory,
    getKvCacheConfigFromGroups kvCacheUtils splitConfig (hybridGroups linear)
        (hybridSpecs linear) 16 = .ok config ∧
      allocateKvCacheTensors splitConfig [] config = .ok memory ∧ memory.allocated = bytes := by
  unfold allocatedOf at hallocated
  split at hallocated
  · cases hallocated
  · rename_i config hconfig
    split at hallocated
    · cases hallocated
    · rename_i memory hmemory
      exact ⟨config, memory, hconfig, hmemory, Option.some.inj hallocated⟩

theorem hybrid_madeOfLayers (linear : List String) :
    MadeOfLayers (hybridSpecs linear) (hybridGroups linear) := by
  intro group hmem spec hspec
  rcases List.mem_cons.mp hmem with rfl | htail
  · cases hspec
    exact ⟨_, List.mem_cons_self, rfl⟩
  · obtain ⟨name, -, rfl⟩ := List.mem_map.mp htail
    cases hspec

def threeLinear : List String := ["0.linear_attn", "1.linear_attn", "2.linear_attn"]

end Samples

open Samples in
/-- Three linear attention layers for one full one are what is set aside for. -/
theorem hybrid_memory_within_three : ∃ config memory,
    getKvCacheConfigFromGroups kvCacheUtils splitConfig (hybridGroups threeLinear)
        (hybridSpecs threeLinear) 16 = .ok config ∧
      allocateKvCacheTensors splitConfig [] config = .ok memory ∧
      (memory.allocated ≤ 16 ↔ StatesFit splitConfig (hybridGroups threeLinear) 16) := by
  obtain ⟨config, memory, hconfig, hmemory, -⟩ :=
    exists_of_allocatedOf (show allocatedOf threeLinear = some 16 by decide +kernel)
  exact ⟨config, memory, hconfig, hmemory, hybrid_memory_within_iff kvCacheUtils_documented rfl
    (hybrid_madeOfLayers _) hconfig hmemory⟩

open Samples in
/-- A fourth one takes more than is available. -/
theorem four_linear_layers_exceed : ∃ config memory,
    getKvCacheConfigFromGroups kvCacheUtils splitConfig
        (hybridGroups ("3.linear_attn" :: threeLinear))
        (hybridSpecs ("3.linear_attn" :: threeLinear)) 16 = .ok config ∧
      allocateKvCacheTensors splitConfig [] config = .ok memory ∧ 16 < memory.allocated := by
  obtain ⟨config, memory, hconfig, hmemory, hbytes⟩ := exists_of_allocatedOf
    (show allocatedOf ("3.linear_attn" :: threeLinear) = some 20 by decide +kernel)
  exact ⟨config, memory, hconfig, hmemory, by rw [hbytes]; decide⟩

end VllmMlu.Cache
