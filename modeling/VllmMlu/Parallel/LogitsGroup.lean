import VllmMlu.Library.Spmd
import VllmMlu.Parallel.DPUtils
import VllmMlu.Parallel.GraphInfo

/-! The step of all ranks where embedding and logits may be split over a group of their own:
what the ranks announce, and the group-wide operations of the target and the draft model. -/
namespace VllmMlu.Parallel
open Library Worker

/-- The sizes of the groups; the logits groups are contiguous cards and divide the world. -/
structure DPConfig where
  dpSize : Nat
  tpSize : Nat
  logitsTpSize : Nat
  denseMlpTpSize : Nat
  numSpecTokens : Nat
  maxNumSeqs : Nat
  prefillDispatchUseRSAG : Bool
  dp_pos : 0 < dpSize
  tp_pos : 0 < tpSize
  logits_pos : 0 < logitsTpSize
  logits_dvd : logitsTpSize ∣ dpSize * tpSize
  seqs_pos : 0 < maxNumSeqs

namespace DPConfig

/-- `get_tp_world_rank()`. -/
def tpWorldRank (cfg : DPConfig) (rank : Rank cfg.dpSize cfg.tpSize) : Nat :=
  rank.1 * cfg.tpSize + rank.2

/-- `get_logits_tp_rank()`. -/
def logitsTpRank (cfg : DPConfig) (rank : Rank cfg.dpSize cfg.tpSize) : Nat :=
  cfg.tpWorldRank rank % cfg.logitsTpSize

/-- `enable_emb_logits_custom_parallel()`. -/
def enableEmbLogitsCustomParallel (cfg : DPConfig) : Bool := cfg.logitsTpSize ≠ cfg.tpSize

/-- The slice of a group of `groupSize` contiguous cards out of a list over all cards. -/
def groupSlice (groupSize tpWorldRank : Nat) (lens : List Nat) : List Nat :=
  Rows.slice (tpWorldRank / groupSize * groupSize) groupSize lens

/-- `get_deepseek_layer_split_list`: the split lists of embedding, logits and dense layers. -/
def getDeepseekLayerSplitList (cfg : DPConfig) (tpWorldRank : Nat) (dpQueryLens dpGroupBs : List Nat) :
    Option (List Nat) × Option (List Nat) × Option (List Nat) :=
  if dpQueryLens.length ≠ dpGroupBs.length ∨ dpQueryLens.length ≠ cfg.dpSize then
    (none, none, none)
  else
    let allDpQueryLens := dpQueryLens.flatMap (List.replicate cfg.tpSize)
    let allDpGroupBs := dpGroupBs.flatMap (List.replicate cfg.tpSize)
    (if cfg.enableEmbLogitsCustomParallel then
        some (groupSlice cfg.logitsTpSize tpWorldRank allDpQueryLens) else none,
      if cfg.enableEmbLogitsCustomParallel then
        some (groupSlice cfg.logitsTpSize tpWorldRank allDpGroupBs) else none,
      if cfg.denseMlpTpSize ≠ cfg.dpSize * cfg.tpSize then
        some (groupSlice cfg.denseMlpTpSize tpWorldRank allDpQueryLens) else none)

/-- `_get_data_parallel_metadata` from the triples that the ranks have gathered. -/
def dataParallelMetadata (cfg : DPConfig) (rank : Rank cfg.dpSize cfg.tpSize)
    (outputs : List Nat) : Option MLUDPMetadata :=
  let infos := runtimeInfos outputs
  let lists := cfg.getDeepseekLayerSplitList (cfg.tpWorldRank rank) (infos.map (·.1))
    (infos.map (·.2.1))
  MLUDPMetadata.makeOot rank.1 cfg.dpSize cfg.tpSize (infos.map (·.1)) (infos.map (·.2.2))
    cfg.prefillDispatchUseRSAG
    { batchSizes := some (infos.map (·.2.1))
      embQueryLens := lists.1
      logitsBatchSizes := lists.2.1
      denseAttnTokenSplitList := lists.2.2 }

/-- The cards of the logits group of a rank. -/
def logitsMembers (cfg : DPConfig) (rank : Rank cfg.dpSize cfg.tpSize) :
    List (Rank cfg.dpSize cfg.tpSize) :=
  Rows.slice (cfg.tpWorldRank rank / cfg.logitsTpSize * cfg.logitsTpSize) cfg.logitsTpSize
    (Group.world.members rank)

end DPConfig

/-- The group-wide operations of a step; a forward pass or the logits stand for all the
collectives in them. -/
inductive StepCall where
  | metadataAllGather
  | logitsSizeAllGather
  | targetForward
  | targetLogits
  | draftForward
  | draftLogits
deriving DecidableEq, Repr

/-- What a rank brings to an operation: numbers, or a tensor and the `dp_params` it is called
with. -/
structure StepInput where
  nums : List Nat := []
  rows : Nat := 0
  dpParams : Option MLUDPMetadata := none

namespace DPConfig

/-- The rank's entry in a split list, where there is one. -/
def announces (splits : Option (List Nat)) (position rows : Nat) : Bool :=
  match splits with
  | none => true
  | some splits => splits[position]? == some rows

/-- The `dp_params` of a forward pass announce its rows for this rank. -/
def forwardAnnounced (cfg : DPConfig) (rank : Rank cfg.dpSize cfg.tpSize) (input : StepInput) :
    Bool :=
  match input.dpParams with
  | none => true
  | some dpParams =>
      announces (some dpParams.tokenSplitList) rank.1 input.rows &&
        announces dpParams.embTokenSplitList (cfg.logitsTpRank rank) input.rows

/-- The `dp_params` of the logits announce their rows for this rank. -/
def logitsAnnounced (cfg : DPConfig) (rank : Rank cfg.dpSize cfg.tpSize) (input : StepInput) :
    Bool :=
  match input.dpParams with
  | none => true
  | some dpParams => announces dpParams.logitsBatchSplitList (cfg.logitsTpRank rank) input.rows

/-- What the ranks receive; `none` where the tensor of a rank has not the announced rows. -/
def exchange (cfg : DPConfig) : StepCall → (Rank cfg.dpSize cfg.tpSize → StepInput) →
    Option (Rank cfg.dpSize cfg.tpSize → StepInput)
  | .metadataAllGather, inputs => some fun rank =>
      { nums := ((Group.dp.members rank).map fun member => (inputs member).nums).flatten }
  | .logitsSizeAllGather, inputs => some fun rank =>
      { nums := ((cfg.logitsMembers rank).map fun member => (inputs member).nums).flatten }
  | .targetForward, inputs | .draftForward, inputs =>
      if ∀ rank, cfg.forwardAnnounced rank (inputs rank) = true then some fun _ => {} else none
  | .targetLogits, inputs | .draftLogits, inputs =>
      if ∀ rank, cfg.logitsAnnounced rank (inputs rank) = true then some fun _ => {} else none

end DPConfig

/-- A scheduled request; drafts come only after the prompt, and next to the token they follow. -/
structure StepRequest (numSpecTokens : Nat) where
  numTokens : Nat
  numComputedTokens : Nat
  numDraftTokens : Nat
  drafts_lt : numDraftTokens < numTokens
  drafts_le : numDraftTokens ≤ numSpecTokens
  begun : 0 < numDraftTokens → 0 < numComputedTokens

/-- What a data parallel rank runs in a step. -/
inductive StepBatch (numSpecTokens : Nat) where
  /-- `execute_dummy_batch` of an idle rank: one token. -/
  | dummy
  | scheduled (first : StepRequest numSpecTokens) (rest : List (StepRequest numSpecTokens))

namespace StepBatch

variable {numSpecTokens : Nat}

def requests : StepBatch numSpecTokens → List (StepRequest numSpecTokens)
  | .dummy => []
  | .scheduled first rest => first :: rest

def numReqs (batch : StepBatch numSpecTokens) : Nat := batch.requests.length

/-- The rows that go into the target model. -/
def numTokens : StepBatch numSpecTokens → Nat
  | .dummy => 1
  | batch => (batch.requests.map StepRequest.numTokens).sum

def inferMode (batch : StepBatch numSpecTokens) : MLUInferMode :=
  .build ((batch.requests.map StepRequest.numTokens).foldl max 0)
    ((batch.requests.map StepRequest.numComputedTokens).foldl max 0 : Nat) (1 + numSpecTokens)

/-- The rows of `logits_indices`, or of the dummy batch. -/
def logitsRows : StepBatch numSpecTokens → Nat
  | .dummy => 1
  | batch => (batch.requests.map fun request => request.numDraftTokens + 1).sum

/-- `scheduled_spec_decode_tokens` is not empty. -/
def hasDrafts (batch : StepBatch numSpecTokens) : Bool :=
  batch.requests.any fun request => 0 < request.numDraftTokens

/-- Either every request begins its prompt, or every request has all its drafts. -/
def FullDrafts (batch : StepBatch numSpecTokens) : Prop :=
  batch.inferMode.isPrefillOnly = true ∨
    ∀ request ∈ batch.requests, request.numDraftTokens = numSpecTokens

end StepBatch

namespace DPConfig

/-- `cur_num_reqs` of `_prepare_inputs`, and the requests of the dummy batch. -/
def announcedReqs (cfg : DPConfig) : StepBatch cfg.numSpecTokens → Nat
  | .dummy => min 1 cfg.maxNumSeqs
  | batch =>
      if batch.inferMode.isPrefillOnly then batch.numReqs
      else batch.numReqs * (1 + cfg.numSpecTokens)

/-- The dummy batch announces a prefill, so that no rank runs a graph. -/
def announcedPrefill (cfg : DPConfig) : StepBatch cfg.numSpecTokens → Bool
  | .dummy => true
  | batch => !batch.inferMode.isDecodeOnly

/-- What a rank announces at the start of a step. -/
def announcement (cfg : DPConfig) (batch : StepBatch cfg.numSpecTokens) : List Nat :=
  [batch.numTokens, cfg.announcedReqs batch, (cfg.announcedPrefill batch).toNat]

/-- The metadata of a rank in the main model step or the dummy batch. -/
def stepMetadata (cfg : DPConfig) (rank : Rank cfg.dpSize cfg.tpSize)
    (batch : StepBatch cfg.numSpecTokens) : Program StepCall StepInput MLUDPMetadata :=
  .collective .metadataAllGather { nums := cfg.announcement batch } fun outputs =>
    .ofOption (cfg.dataParallelMetadata rank outputs.nums)

end DPConfig

/-! ### The announced logits -/

theorem sum_drafts_le {numSpecTokens : Nat} (requests : List (StepRequest numSpecTokens)) :
    (requests.map fun request => request.numDraftTokens + 1).sum ≤
      requests.length * (1 + numSpecTokens) := by
  induction requests with
  | nil => simp
  | cons request rest ih =>
      have := request.drafts_le
      rw [List.map_cons, List.sum_cons, List.length_cons, Nat.succ_mul]
      omega

theorem sum_drafts_eq_iff {numSpecTokens : Nat} (requests : List (StepRequest numSpecTokens)) :
    requests.length * (1 + numSpecTokens) =
        (requests.map fun request => request.numDraftTokens + 1).sum ↔
      ∀ request ∈ requests, request.numDraftTokens = numSpecTokens := by
  induction requests with
  | nil => simp
  | cons request rest ih =>
      have hle := request.drafts_le
      have hrest := sum_drafts_le rest
      rw [List.map_cons, List.sum_cons, List.length_cons, Nat.succ_mul, List.forall_mem_cons, ← ih]
      constructor
      · intro heq
        omega
      · rintro ⟨hrequest, heq⟩
        omega

/-- The announced number of logits is the right one exactly for these batches. -/
theorem DPConfig.announcedReqs_eq_iff (cfg : DPConfig) (batch : StepBatch cfg.numSpecTokens) :
    cfg.announcedReqs batch = batch.logitsRows ↔ batch.FullDrafts := by
  cases batch with
  | dummy =>
      have := cfg.seqs_pos
      refine iff_of_true ?_ (.inr fun request hmem => nomatch hmem)
      simp only [announcedReqs, StepBatch.logitsRows]
      omega
  | scheduled first rest =>
      generalize hbatch : StepBatch.scheduled first rest = batch
      have hreqs : cfg.announcedReqs batch =
          if batch.inferMode.isPrefillOnly then batch.numReqs
          else batch.numReqs * (1 + cfg.numSpecTokens) := hbatch ▸ rfl
      have hrows : batch.logitsRows =
          (batch.requests.map fun request => request.numDraftTokens + 1).sum := hbatch ▸ rfl
      rw [hreqs, hrows, StepBatch.FullDrafts]
      by_cases hprefill : batch.inferMode.isPrefillOnly = true
      · rw [if_pos hprefill]
        refine iff_of_true ?_ (.inl hprefill)
        have hmax := MLUInferMode.maxComputedTokens_of_prefillOnly (beq_iff_eq.mp hprefill)
        have hzero := ((foldl_max_le_iff (batch.requests.map StepRequest.numComputedTokens) 0 0).mp
          (by omega)).2
        have hones : (batch.requests.map fun request => request.numDraftTokens + 1) =
            batch.requests.map fun _ => 1 := by
          apply List.map_congr_left
          intro request hmem
          have hcomputed := hzero _ (List.mem_map_of_mem hmem)
          have := request.begun
          omega
        rw [hones]
        simp [StepBatch.numReqs]
      · rw [if_neg hprefill, StepBatch.numReqs, sum_drafts_eq_iff]
        simp [hprefill]

/-! ### The cards of a group -/

/-- Every card stands at its number. -/
theorem getElem?_members_world {dpSize tpSize : Nat} (rank : Rank dpSize tpSize)
    (card : Rank dpSize tpSize) :
    (Group.world.members rank)[card.1.val * tpSize + card.2.val]? = some card := by
  have hblocks : ∀ block ∈ (List.finRange dpSize).map fun dpRank =>
      (List.finRange tpSize).map fun tpRank => (dpRank, tpRank), block.length = tpSize := by
    intro block hmem
    obtain ⟨dpRank, -, rfl⟩ := List.mem_map.mp hmem
    simp
  have hslice := Rows.slice_flatten hblocks (show card.1.val < _ by simp)
  have hentry := Rows.getElem?_slice (card.1.val * tpSize) card.2.isLt
    (Group.world.members rank)
  rw [← hentry, Group.members, List.flatMap_def, hslice]
  simp

namespace DPConfig

variable (cfg : DPConfig)

theorem tpWorldRank_lt (rank : Rank cfg.dpSize cfg.tpSize) :
    cfg.tpWorldRank rank < cfg.dpSize * cfg.tpSize := by
  have hdp : (rank.1.val + 1) * cfg.tpSize ≤ cfg.dpSize * cfg.tpSize :=
    Nat.mul_le_mul_right _ rank.1.isLt
  rw [Nat.succ_mul] at hdp
  have := rank.2.isLt
  unfold tpWorldRank
  omega

theorem tpWorldRank_of_getElem? {rank card : Rank cfg.dpSize cfg.tpSize} {i : Nat}
    (h : (Group.world.members rank)[i]? = some card) : cfg.tpWorldRank card = i := by
  have hi : i < cfg.dpSize * cfg.tpSize := by
    have := (List.getElem?_eq_some_iff.mp h).1
    rwa [length_members_world] at this
  have hdp : i / cfg.tpSize < cfg.dpSize := Nat.div_lt_of_lt_mul (by rwa [Nat.mul_comm])
  have htp := Nat.mod_lt i cfg.tp_pos
  have hcard := getElem?_members_world rank
    ((⟨i / cfg.tpSize, hdp⟩, ⟨i % cfg.tpSize, htp⟩) : Rank cfg.dpSize cfg.tpSize)
  rw [Nat.div_add_mod'] at hcard
  rw [hcard] at h
  cases h
  exact Nat.div_add_mod' i cfg.tpSize

/-- A logits group has all its cards in the world. -/
theorem group_le (rank : Rank cfg.dpSize cfg.tpSize) :
    cfg.tpWorldRank rank / cfg.logitsTpSize * cfg.logitsTpSize + cfg.logitsTpSize ≤
      cfg.dpSize * cfg.tpSize := by
  obtain ⟨groups, hgroups⟩ := cfg.logits_dvd
  have hlt := cfg.tpWorldRank_lt rank
  rw [hgroups, Nat.mul_comm] at hlt
  have hgroup : cfg.tpWorldRank rank / cfg.logitsTpSize < groups :=
    Nat.div_lt_of_lt_mul (by rwa [Nat.mul_comm])
  rw [hgroups, ← Nat.succ_mul, Nat.mul_comm cfg.logitsTpSize]
  exact Nat.mul_le_mul_right _ hgroup

theorem length_logitsMembers (rank : Rank cfg.dpSize cfg.tpSize) :
    (cfg.logitsMembers rank).length = cfg.logitsTpSize := by
  have := cfg.group_le rank
  rw [logitsMembers, Rows.length_slice, length_members_world]
  omega

theorem logitsTpRank_lt (rank : Rank cfg.dpSize cfg.tpSize) :
    cfg.logitsTpRank rank < cfg.logitsTpSize :=
  Nat.mod_lt _ cfg.logits_pos

/-- A card finds itself in its group at its rank. -/
theorem getElem?_logitsMembers (rank : Rank cfg.dpSize cfg.tpSize) :
    (cfg.logitsMembers rank)[cfg.logitsTpRank rank]? = some rank := by
  rw [logitsMembers, Rows.getElem?_slice _ (cfg.logitsTpRank_lt rank), logitsTpRank, Nat.div_add_mod']
  exact getElem?_members_world rank rank

/-- The cards of a group are in the same group, each at its rank. -/
theorem of_getElem?_logitsMembers {rank card : Rank cfg.dpSize cfg.tpSize} {position : Nat}
    (h : (cfg.logitsMembers rank)[position]? = some card) :
    cfg.logitsTpRank card = position ∧ cfg.logitsMembers card = cfg.logitsMembers rank := by
  have hlt : position < cfg.logitsTpSize := by
    have := (List.getElem?_eq_some_iff.mp h).1
    rwa [length_logitsMembers] at this
  rw [logitsMembers, Rows.getElem?_slice _ hlt] at h
  have hcard := cfg.tpWorldRank_of_getElem? h
  constructor
  · rw [logitsTpRank, hcard, Nat.mul_comm, Nat.mul_add_mod, Nat.mod_eq_of_lt hlt]
  · rw [logitsMembers, logitsMembers, hcard, Nat.add_comm, Nat.add_mul_div_right _ _ cfg.logits_pos,
      Nat.div_eq_of_lt hlt, Nat.zero_add]
    rfl

/-- A number of each data parallel rank, listed for the cards of a group. -/
theorem groupSlice_logits (rank : Rank cfg.dpSize cfg.tpSize) (nums : Fin cfg.dpSize → Nat) :
    groupSlice cfg.logitsTpSize (cfg.tpWorldRank rank)
        (((List.finRange cfg.dpSize).map nums).flatMap (List.replicate cfg.tpSize)) =
      (cfg.logitsMembers rank).map fun card => nums card.1 := by
  have hall : ((List.finRange cfg.dpSize).map nums).flatMap (List.replicate cfg.tpSize) =
      (Group.world.members rank).map fun card => nums card.1 := by
    rw [Group.members, List.map_flatMap, List.flatMap_map]
    congr 1
    funext dpRank
    rw [List.map_map]
    simp [Function.comp_def]
  rw [groupSlice, hall, logitsMembers, Rows.map_slice]

/-- The metadata of a rank from what all ranks have announced. -/
theorem dataParallelMetadata_spec (rank : Rank cfg.dpSize cfg.tpSize)
    (numTokens numReqs : Fin cfg.dpSize → Nat) (allPrefill : Fin cfg.dpSize → Bool) :
    ∃ params, cfg.dataParallelMetadata rank (((List.finRange cfg.dpSize).map fun dpRank =>
        [numTokens dpRank, numReqs dpRank, (allPrefill dpRank).toNat]).flatten) = some params ∧
      params.tokenSplitList = (List.finRange cfg.dpSize).map numTokens ∧
      (params.embTokenSplitList = if cfg.enableEmbLogitsCustomParallel then
        some ((cfg.logitsMembers rank).map fun card => numTokens card.1) else none) ∧
      (params.logitsBatchSplitList = if cfg.enableEmbLogitsCustomParallel then
        some ((cfg.logitsMembers rank).map fun card => numReqs card.1) else none) := by
  unfold dataParallelMetadata
  rw [runtimeInfos_flatten]
  simp only [List.map_map, Function.comp_def]
  have hlists : ¬(((List.finRange cfg.dpSize).map numTokens).length ≠
      ((List.finRange cfg.dpSize).map numReqs).length ∨
      ((List.finRange cfg.dpSize).map numTokens).length ≠ cfg.dpSize) := by simp
  simp only [getDeepseekLayerSplitList, if_neg hlists, groupSlice_logits]
  obtain ⟨params, hparams⟩ := Option.isSome_iff_exists.mp ((MLUDPMetadata.makeOot_isSome rank.1
    cfg.dpSize cfg.tpSize ((List.finRange cfg.dpSize).map numTokens)
    ((List.finRange cfg.dpSize).map allPrefill) cfg.prefillDispatchUseRSAG _).trans (by simp))
  refine ⟨params, hparams, ?_⟩
  obtain ⟨own, layer, pad, attn, moe, -, rfl⟩ := MLUDPMetadata.makeOot_eq_plain hparams
  exact ⟨rfl, rfl, rfl⟩

end DPConfig

end VllmMlu.Parallel
