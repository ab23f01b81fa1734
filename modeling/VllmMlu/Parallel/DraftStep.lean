import VllmMlu.Parallel.LogitsGroup

/-! The group-wide operations of one step with a draft model, on busy and on idle ranks. -/
namespace VllmMlu.Parallel
open Library

namespace DPConfig

variable (cfg : DPConfig)

/-- A forward pass or the logits of a tensor with so many rows. -/
def compute (call : StepCall) (rows : Nat) (dpParams : Option MLUDPMetadata) :
    Program StepCall StepInput Unit :=
  .collective call { rows := rows, dpParams := dpParams } fun _ => .done ()

/-- `get_logits_batch_sizes`. -/
def getLogitsBatchSizes (batchSize : Nat) : Program StepCall StepInput (Option (List Nat)) :=
  if cfg.enableEmbLogitsCustomParallel then
    .collective .logitsSizeAllGather { nums := [batchSize] } fun outputs =>
      .done (some (outputs.nums.take cfg.logitsTpSize))
  else .done none

/-- `runner._get_data_parallel_metadata` in a draft step. -/
def draftMetadata (rank : Rank cfg.dpSize cfg.tpSize) (numTokens : Nat) (isDecodeOnly : Bool) :
    Program StepCall StepInput MLUDPMetadata :=
  .collective .metadataAllGather { nums := [numTokens, numTokens, (!isDecodeOnly).toNat] }
    fun outputs => .ofOption (cfg.dataParallelMetadata rank outputs.nums)

/-- The loop of `propose_ds_execute_dummy_batch` over the further draft tokens. -/
def dummyDraftSteps (rank : Rank cfg.dpSize cfg.tpSize) (numTokens : Nat) :
    Nat → Program StepCall StepInput Unit
  | 0 => .done ()
  | steps + 1 => do
      let newDpParams ← cfg.draftMetadata rank numTokens true
      compute .draftForward numTokens (some newDpParams)
      compute .draftLogits numTokens (some newDpParams)
      dummyDraftSteps rank numTokens steps

/-- `propose_ds_execute_dummy_batch`. -/
def proposeDsExecuteDummyBatch (rank : Rank cfg.dpSize cfg.tpSize) (numTokens : Nat)
    (dpParams : MLUDPMetadata) : Program StepCall StepInput Unit := do
  compute .draftForward numTokens (some dpParams)
  let sizes ← cfg.getLogitsBatchSizes numTokens
  compute .draftLogits numTokens (some { dpParams with logitsBatchSplitList := sizes })
  if cfg.numSpecTokens = 1 then .done ()
  else cfg.dummyDraftSteps rank numTokens (cfg.numSpecTokens - 1)

/-- The loop of `propose` over the further draft tokens. -/
def draftSteps (rank : Rank cfg.dpSize cfg.tpSize) (batchSize : Nat) (isDecodeOnly : Bool) :
    Nat → Program StepCall StepInput Unit
  | 0 => .done ()
  | steps + 1 => do
      let dpParams ← cfg.draftMetadata rank batchSize isDecodeOnly
      compute .draftForward batchSize (some dpParams)
      compute .draftLogits batchSize (some dpParams)
      draftSteps rank batchSize isDecodeOnly steps

/-- `DPMluEagleProposer.propose`. -/
def propose (rank : Rank cfg.dpSize cfg.tpSize) (numTokens batchSize : Nat) (isDecodeOnly : Bool)
    (mainModelDpParams : MLUDPMetadata) : Program StepCall StepInput Unit := do
  compute .draftForward numTokens (some mainModelDpParams)
  let sizes ← cfg.getLogitsBatchSizes batchSize
  compute .draftLogits batchSize (some { mainModelDpParams with logitsBatchSplitList := sizes })
  if cfg.numSpecTokens = 1 then .done ()
  else cfg.draftSteps rank batchSize isDecodeOnly (cfg.numSpecTokens - 1)

/-- `propose_draft_token_ids`. The padded drafter batch keeps all scheduled tokens; without
padding `prepare_inputs` is called with one argument too many as soon as there are drafts. -/
def proposeDraftTokenIds (disablePaddedDrafterBatch : Bool) (rank : Rank cfg.dpSize cfg.tpSize)
    (batch : StepBatch cfg.numSpecTokens) (mainModelDpParams : MLUDPMetadata) :
    Program StepCall StepInput Unit :=
  if disablePaddedDrafterBatch && batch.hasDrafts then .abort
  else cfg.propose rank batch.numTokens batch.numReqs batch.inferMode.isDecodeOnly
    mainModelDpParams

/-- The target model and its logits, which get `dp_params` only with a logits group of its
own. -/
def targetStep (rank : Rank cfg.dpSize cfg.tpSize) (batch : StepBatch cfg.numSpecTokens) :
    Program StepCall StepInput MLUDPMetadata := do
  let dpMetadata ← cfg.stepMetadata rank batch
  compute .targetForward batch.numTokens (some dpMetadata)
  compute .targetLogits batch.logitsRows
    (if cfg.enableEmbLogitsCustomParallel then some dpMetadata else none)
  pure dpMetadata

/-- What a rank does after the target model. -/
def draftPart (disablePaddedDrafterBatch : Bool) (rank : Rank cfg.dpSize cfg.tpSize)
    (batch : StepBatch cfg.numSpecTokens) (dpMetadata : MLUDPMetadata) :
    Program StepCall StepInput Unit :=
  match batch with
  | .dummy => cfg.proposeDsExecuteDummyBatch rank 1 dpMetadata
  | .scheduled .. => cfg.proposeDraftTokenIds disablePaddedDrafterBatch rank batch dpMetadata

/-- One step of a rank: `execute_model` and `sample_tokens`, or `moe_dp_execute_dummy_batch`. -/
def step (disablePaddedDrafterBatch : Bool) (rank : Rank cfg.dpSize cfg.tpSize)
    (batch : StepBatch cfg.numSpecTokens) : Program StepCall StepInput Unit := do
  let dpMetadata ← cfg.targetStep rank batch
  cfg.draftPart disablePaddedDrafterBatch rank batch dpMetadata

/-- All ranks take the same operations in the same order, and every tensor has the rows that its
`dp_params` announce: the step runs to its end on all ranks. -/
def StepsMatch (disablePaddedDrafterBatch : Bool) (lead : Rank cfg.dpSize cfg.tpSize)
    (batches : Fin cfg.dpSize → StepBatch cfg.numSpecTokens) : Prop :=
  (Program.run cfg.exchange lead fun rank =>
    cfg.step disablePaddedDrafterBatch rank (batches rank.1)).isSome = true

/-- The idle rank replays the draft steps of a busy one. -/
theorem dummyDraftSteps_eq (rank : Rank cfg.dpSize cfg.tpSize) (numTokens steps : Nat) :
    cfg.dummyDraftSteps rank numTokens steps = cfg.draftSteps rank numTokens true steps := by
  induction steps with
  | zero => rfl
  | succ steps ih => simp only [dummyDraftSteps, draftSteps, ih]

theorem proposeDsExecuteDummyBatch_eq (rank : Rank cfg.dpSize cfg.tpSize) (numTokens : Nat)
    (dpParams : MLUDPMetadata) :
    cfg.proposeDsExecuteDummyBatch rank numTokens dpParams =
      cfg.propose rank numTokens numTokens true dpParams := by
  simp only [proposeDsExecuteDummyBatch, propose, dummyDraftSteps_eq]

section Runs

variable {cfg} (lead : Rank cfg.dpSize cfg.tpSize)

/-- Metadata that announces these tokens and logits. -/
structure Announces (rank : Rank cfg.dpSize cfg.tpSize) (numTokens numReqs : Fin cfg.dpSize → Nat)
    (params : MLUDPMetadata) : Prop where
  tokens : params.tokenSplitList = (List.finRange cfg.dpSize).map numTokens
  emb : params.embTokenSplitList = if cfg.enableEmbLogitsCustomParallel then
    some ((cfg.logitsMembers rank).map fun card => numTokens card.1) else none
  logits : params.logitsBatchSplitList = if cfg.enableEmbLogitsCustomParallel then
    some ((cfg.logitsMembers rank).map fun card => numReqs card.1) else none

variable {numTokens numReqs : Fin cfg.dpSize → Nat}

theorem announces_logitsMembers (rank : Rank cfg.dpSize cfg.tpSize) (rows : Nat) :
    announces (if cfg.enableEmbLogitsCustomParallel then
        some ((cfg.logitsMembers rank).map fun card => numReqs card.1) else none)
      (cfg.logitsTpRank rank) rows =
        (!cfg.enableEmbLogitsCustomParallel || numReqs rank.1 == rows) := by
  cases cfg.enableEmbLogitsCustomParallel with
  | false => rfl
  | true => simp [announces, List.getElem?_map, cfg.getElem?_logitsMembers]

theorem Announces.forward {rank : Rank cfg.dpSize cfg.tpSize} {params : MLUDPMetadata}
    (h : Announces rank numTokens numReqs params) :
    cfg.forwardAnnounced rank { rows := numTokens rank.1, dpParams := some params } = true := by
  simp only [forwardAnnounced, h.tokens, h.emb, announces_logitsMembers]
  simp [announces]

theorem Announces.logitsAnnounced {rank : Rank cfg.dpSize cfg.tpSize} {params : MLUDPMetadata}
    (h : Announces rank numTokens numReqs params) (rows : Nat) :
    cfg.logitsAnnounced rank { rows := rows, dpParams := some params } =
      (!cfg.enableEmbLogitsCustomParallel || numReqs rank.1 == rows) := by
  simp only [DPConfig.logitsAnnounced, h.logits, announces_logitsMembers]

theorem run_metadata (numTokens numReqs : Fin cfg.dpSize → Nat)
    (allPrefill : Fin cfg.dpSize → Bool) :
    ∃ params : Rank cfg.dpSize cfg.tpSize → MLUDPMetadata,
      Program.run cfg.exchange lead (fun rank : Rank cfg.dpSize cfg.tpSize =>
        (.collective .metadataAllGather
          { nums := [numTokens rank.1, numReqs rank.1, (allPrefill rank.1).toNat] }
          fun outputs => .ofOption (cfg.dataParallelMetadata rank outputs.nums) :
            Program StepCall StepInput MLUDPMetadata)) = some params ∧
      ∀ rank, Announces rank numTokens numReqs (params rank) := by
  choose params hparams htokens hemb hlogits using fun rank : Rank cfg.dpSize cfg.tpSize =>
    cfg.dataParallelMetadata_spec rank numTokens numReqs allPrefill
  refine ⟨params, ?_, fun rank => ⟨htokens rank, hemb rank, hlogits rank⟩⟩
  rw [Program.run_collective]
  simp only [exchange, Group.members, List.map_map, Function.comp_def, Option.bind_some, hparams,
    Program.ofOption, Program.run_done]

theorem run_forward {params : Rank cfg.dpSize cfg.tpSize → MLUDPMetadata}
    (h : ∀ rank, Announces rank numTokens numReqs (params rank)) :
    Program.run cfg.exchange lead (fun rank : Rank cfg.dpSize cfg.tpSize =>
      compute .draftForward (numTokens rank.1) (some (params rank))) = some fun _ => () := by
  simp only [compute, Program.run_collective, exchange]
  rw [if_pos fun rank => (h rank).forward, Option.bind_some, Program.run_done]

theorem run_targetForward {params : Rank cfg.dpSize cfg.tpSize → MLUDPMetadata}
    (h : ∀ rank, Announces rank numTokens numReqs (params rank)) :
    Program.run cfg.exchange lead (fun rank : Rank cfg.dpSize cfg.tpSize =>
      compute .targetForward (numTokens rank.1) (some (params rank))) = some fun _ => () := by
  simp only [compute, Program.run_collective, exchange]
  rw [if_pos fun rank => (h rank).forward, Option.bind_some, Program.run_done]

theorem run_logits {params : Rank cfg.dpSize cfg.tpSize → MLUDPMetadata}
    (h : ∀ rank, Announces rank numTokens numReqs (params rank)) :
    Program.run cfg.exchange lead (fun rank : Rank cfg.dpSize cfg.tpSize =>
      compute .draftLogits (numReqs rank.1) (some (params rank))) = some fun _ => () := by
  simp only [compute, Program.run_collective, exchange]
  rw [if_pos fun rank => by rw [(h rank).logitsAnnounced]; simp, Option.bind_some,
    Program.run_done]

/-- The loop over the further draft tokens ends on all ranks. -/
theorem run_draftSteps (batchSize : Fin cfg.dpSize → Nat) (isDecodeOnly : Fin cfg.dpSize → Bool)
    (steps : Nat) :
    Program.run cfg.exchange lead (fun rank : Rank cfg.dpSize cfg.tpSize =>
      cfg.draftSteps rank (batchSize rank.1) (isDecodeOnly rank.1) steps) =
        some fun _ => () := by
  induction steps with
  | zero => exact Program.run_done _ _ _
  | succ steps ih =>
      obtain ⟨params, hmetadata, hparams⟩ := run_metadata lead batchSize batchSize
        fun dpRank => !isDecodeOnly dpRank
      have hrun := Program.run_bind cfg.exchange lead hmetadata fun rank dpParams => do
        compute .draftForward (batchSize rank.1) (some dpParams)
        compute .draftLogits (batchSize rank.1) (some dpParams)
        cfg.draftSteps rank (batchSize rank.1) (isDecodeOnly rank.1) steps
      refine hrun.trans ?_
      rw [Program.run_bind cfg.exchange lead (run_forward lead hparams),
        Program.run_bind cfg.exchange lead (run_logits lead hparams)]
      exact ih

theorem run_getLogitsBatchSizes (batchSize : Fin cfg.dpSize → Nat) :
    Program.run cfg.exchange lead (fun rank : Rank cfg.dpSize cfg.tpSize =>
      cfg.getLogitsBatchSizes (batchSize rank.1)) = some fun rank =>
        if cfg.enableEmbLogitsCustomParallel then
          some ((cfg.logitsMembers rank).map fun card => batchSize card.1) else none := by
  cases hcustom : cfg.enableEmbLogitsCustomParallel with
  | false => simp [getLogitsBatchSizes, hcustom]
  | true =>
      simp only [getLogitsBatchSizes, hcustom, if_true, Program.run_collective, exchange,
        Option.bind_some, Program.run_done]
      congr 1
      funext rank
      have hflatten : ((cfg.logitsMembers rank).map fun card => [batchSize card.1]).flatten =
          (cfg.logitsMembers rank).map fun card => batchSize card.1 := by
        rw [← List.flatMap_def]
        exact List.map_eq_flatMap.symm
      rw [hflatten, List.take_of_length_le (by rw [List.length_map, length_logitsMembers])]

/-- The draft model runs on all ranks, whatever the sizes of their batches. -/
theorem run_propose {params : Rank cfg.dpSize cfg.tpSize → MLUDPMetadata}
    (h : ∀ rank, Announces rank numTokens numReqs (params rank))
    (batchSize : Fin cfg.dpSize → Nat) (isDecodeOnly : Fin cfg.dpSize → Bool) :
    Program.run cfg.exchange lead (fun rank : Rank cfg.dpSize cfg.tpSize =>
      cfg.propose rank (numTokens rank.1) (batchSize rank.1) (isDecodeOnly rank.1)
        (params rank)) = some fun _ => () := by
  have hsized : ∀ rank, Announces rank numTokens batchSize
      { params rank with logitsBatchSplitList := (if cfg.enableEmbLogitsCustomParallel then
          some ((cfg.logitsMembers rank).map fun card => batchSize card.1) else none) } :=
    fun rank => ⟨(h rank).tokens, (h rank).emb, rfl⟩
  simp only [propose]
  rw [Program.run_bind cfg.exchange lead (run_forward lead h),
    Program.run_bind cfg.exchange lead (run_getLogitsBatchSizes lead batchSize),
    Program.run_bind cfg.exchange lead (run_logits lead hsized)]
  by_cases hone : cfg.numSpecTokens = 1
  · simp [hone]
  · simp only [if_neg hone]
    exact run_draftSteps lead batchSize isDecodeOnly _

end Runs

/-- The requests and the mode of the draft steps, on a busy or an idle rank. -/
def draftBatchSize : StepBatch cfg.numSpecTokens → Nat
  | .dummy => 1
  | batch => batch.numReqs

def draftDecodeOnly : StepBatch cfg.numSpecTokens → Bool
  | .dummy => true
  | batch => batch.inferMode.isDecodeOnly

theorem draftPart_eq (disablePaddedDrafterBatch : Bool) (rank : Rank cfg.dpSize cfg.tpSize)
    (batch : StepBatch cfg.numSpecTokens) (dpMetadata : MLUDPMetadata) :
    cfg.draftPart disablePaddedDrafterBatch rank batch dpMetadata =
      if disablePaddedDrafterBatch && batch.hasDrafts then .abort
      else cfg.propose rank batch.numTokens (cfg.draftBatchSize batch) (cfg.draftDecodeOnly batch)
        dpMetadata := by
  cases batch with
  | dummy =>
      rw [draftPart, proposeDsExecuteDummyBatch_eq]
      simp [StepBatch.hasDrafts, StepBatch.requests, StepBatch.numTokens, draftBatchSize,
        draftDecodeOnly]
  | scheduled first rest => rfl

end DPConfig

def DPConfig.firstRank (cfg : DPConfig) : Rank cfg.dpSize cfg.tpSize :=
  (⟨0, cfg.dp_pos⟩, ⟨0, cfg.tp_pos⟩)

/-- Two data parallel ranks with one card each, and one draft token. -/
def twoRanks (logitsTpSize : Nat) (logits_pos : 0 < logitsTpSize)
    (logits_dvd : logitsTpSize ∣ 2 * 1) : DPConfig where
  dpSize := 2
  tpSize := 1
  logitsTpSize := logitsTpSize
  denseMlpTpSize := 2
  numSpecTokens := 1
  maxNumSeqs := 4
  prefillDispatchUseRSAG := false
  dp_pos := Nat.two_pos
  tp_pos := by decide
  logits_pos := logits_pos
  logits_dvd := logits_dvd
  seqs_pos := by decide

/-- One decode with so many drafts next to an idle rank. -/
def decodeAndIdle (numDraftTokens : Nat) (drafts_le : numDraftTokens ≤ 1) : Fin 2 → StepBatch 1 :=
  ![.scheduled {
      numTokens := numDraftTokens + 1
      numComputedTokens := 4
      numDraftTokens := numDraftTokens
      drafts_lt := Nat.lt_succ_self _
      drafts_le := drafts_le
      begun := fun _ => by decide } [], .dummy]

end VllmMlu.Parallel
