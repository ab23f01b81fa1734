import VllmMlu.Library.Cuts
import VllmMlu.Library.Spmd
import VllmMlu.Parallel.DPMetadata
import VllmMlu.Worker.InferMode

/-! The decision between captured graph and eager execution: every data parallel
rank gathers what the others run, and then decides for itself. -/
namespace VllmMlu.Parallel

open Library Worker

/-- `BatchDescriptor`. -/
structure BatchDescriptor where
  numTokens : Nat
  uniformDecode : Bool
  hasLora : Bool
deriving DecidableEq, Repr

/-- vLLM's dispatcher under `FULL_DECODE_ONLY`: a captured descriptor selects its
graph, and every other batch runs without one. -/
structure CudagraphDispatcher where
  captured : BatchDescriptor → Bool
  dispatch : BatchDescriptor → Bool → Option BatchDescriptor
  captured_uniform : ∀ descriptor, captured descriptor = true → descriptor.uniformDecode = true
  dispatch_captured : ∀ descriptor, captured descriptor = true →
    dispatch descriptor false = some descriptor
  dispatch_none : ∀ descriptor, captured descriptor = false →
    ∀ useCascadeAttn, dispatch descriptor useCascadeAttn = none
  dispatch_cascade : ∀ descriptor, dispatch descriptor true = none

/-- What the ranks share: configuration and captured graphs. -/
structure GraphConfig where
  tensorParallelSize : Nat
  useCudaGraph : Bool
  numSpecTokens : Nat
  /-- `self.scheduler_config.max_num_seqs`. -/
  maxNumSeqs : Nat
  prefillDispatchUseRSAG : Bool
  /-- `self.cudagraph_batch_sizes[-1]`. -/
  maxCudagraphBatchSize : Nat
  /-- `self.vllm_config.pad_for_cudagraph`. -/
  padForCudagraph : Nat → Nat
  dispatcher : CudagraphDispatcher

/-- What one rank executes in a step. -/
inductive RankBatch where
  /-- `moe_dp_execute_dummy_batch` of an idle rank. -/
  | dummy (numTokens : Nat)
  /-- A batch with at least one request. -/
  | scheduled (firstTokens : Nat) (restTokens : List Nat) (maxComputedTokens : Int)
      (hasLora useCascadeAttn calculateKvScales : Bool)
deriving Repr

inductive Execution where
  | graph (numTokens : Nat)
  | eager
deriving DecidableEq, Repr

inductive DPCollective where
  | allGather
deriving DecidableEq

variable {dpSize : Nat}

def DPCollective.exchange : DPCollective → (Fin dpSize → List Nat) → Option (Fin dpSize → List Nat)
  | .allGather, inputs => some fun _ => ((List.finRange dpSize).map inputs).flatten

/-- `dp_query_lens` and `dp_is_prefill` out of the gathered triples. -/
def runtimeInfos : List Nat → List (Nat × Nat × Bool)
  | numTokens :: numRequests :: allPrefill :: rest =>
      (numTokens, numRequests, allPrefill != 0) :: runtimeInfos rest
  | _ => []

def getRuntimeInfosPerDpGroup (numTokens numRequests : Nat) (allPrefill : Bool) :
    Program DPCollective (List Nat) (List (Nat × Nat × Bool)) :=
  .collective .allGather [numTokens, numRequests, allPrefill.toNat] fun outputs =>
    .done (runtimeInfos outputs)

def getDataParallelMetadata (cfg : GraphConfig) (rank : Fin dpSize) (numTokens numReqs : Nat)
    (isDecodeOnly : Bool) : Program DPCollective (List Nat) MLUDPMetadata := do
  let infos ← getRuntimeInfosPerDpGroup numTokens numReqs (!isDecodeOnly)
  .ofOption (MLUDPMetadata.makeOot rank dpSize cfg.tensorParallelSize (infos.map (·.1))
    (infos.map (·.2.2)) cfg.prefillDispatchUseRSAG
    { batchSizes := some (infos.map (·.2.1)) })

/-- `use_graph` of `_get_dp_graph_info`. -/
def dpCanUseGraph (cfg : GraphConfig) (dpMetadata : MLUDPMetadata) : Bool :=
  cfg.useCudaGraph && dpMetadata.dpIsPrefill.all (!·) &&
    dpMetadata.tokenSplitList.all (· ≤ cfg.maxCudagraphBatchSize)

/-- `none` where an assertion fails. -/
def getDpGraphInfo (cfg : GraphConfig) (numReqs numScheduledTokens : Nat)
    (dpMetadata : MLUDPMetadata) : Option (Nat × Nat × Bool) := do
  if dpCanUseGraph cfg dpMetadata then
    let most ← dpMetadata.tokenSplitList.max?
    let numInputTokens := cfg.padForCudagraph most
    if numInputTokens % (cfg.numSpecTokens + 1) = 0 then
      return (numInputTokens, numInputTokens / (1 + cfg.numSpecTokens), true)
    else
      none
  else
    return (numScheduledTokens, numReqs, false)

namespace RankBatch

def tokens : RankBatch → List Nat
  | .dummy numTokens => [numTokens]
  | .scheduled first rest _ _ _ _ => first :: rest

def maxQueryLen : RankBatch → Nat
  | .dummy numTokens => numTokens
  | .scheduled first rest _ _ _ _ => rest.foldl max first

def inferMode (cfg : GraphConfig) : RankBatch → MLUInferMode
  | .dummy _ => .prefillOnly
  | batch@(.scheduled _ _ maxComputedTokens _ _ _) =>
      .build batch.maxQueryLen maxComputedTokens (1 + cfg.numSpecTokens)

/-- `uniform_decode` of `execute_model`. -/
def uniformDecode (cfg : GraphConfig) (batch : RankBatch) : Bool :=
  batch.maxQueryLen == 1 + cfg.numSpecTokens &&
    batch.tokens.sum == batch.tokens.length * batch.maxQueryLen

def descriptor (cfg : GraphConfig) (batch : RankBatch) (numInputTokens : Nat) : BatchDescriptor :=
  { numTokens := numInputTokens
    uniformDecode := batch.uniformDecode cfg
    hasLora := match batch with
      | .dummy _ => false
      | .scheduled _ _ _ hasLora _ _ => hasLora }

/-- From the metadata of the step to the execution of the own batch. -/
def execute (cfg : GraphConfig) (dpMetadata : MLUDPMetadata) : RankBatch → Option Execution
  | .dummy _ => some .eager
  | batch@(.scheduled _ _ _ _ useCascadeAttn calculateKvScales) => do
      let numScheduledTokens := batch.tokens.sum
      let (numInputTokens, canUseGraph) ←
        if cfg.useCudaGraph then do
          let (numInputTokensDp, _, canUseGraph) ←
            getDpGraphInfo cfg batch.tokens.length numScheduledTokens dpMetadata
          pure (if canUseGraph then numInputTokensDp else numScheduledTokens, canUseGraph)
        else pure (numScheduledTokens, false)
      let selected := cfg.dispatcher.dispatch (batch.descriptor cfg numInputTokens) useCascadeAttn
      -- the dispatcher is overruled twice
      let selected := if canUseGraph then selected else none
      let selected := if calculateKvScales then none else selected
      return match selected with
        | some descriptor => .graph descriptor.numTokens
        | none => .eager

/-- A rank's step: `execute_model`, or the dummy batch. -/
def step (cfg : GraphConfig) (rank : Fin dpSize) (batch : RankBatch) :
    Program DPCollective (List Nat) Execution := do
  let numReqs := match batch with
    | .dummy numTokens => min numTokens cfg.maxNumSeqs
    | .scheduled .. =>
        if (batch.inferMode cfg).isPrefillOnly then batch.tokens.length
        else batch.tokens.length * (1 + cfg.numSpecTokens)
  let dpMetadata ← getDataParallelMetadata cfg rank batch.tokens.sum numReqs
    (batch.inferMode cfg).isDecodeOnly
  .ofOption (batch.execute cfg dpMetadata)

end RankBatch

/-! ### What the ranks learn of each other -/

theorem runtimeInfos_flatten {ι : Type} (ranks : List ι) (numTokens numRequests : ι → Nat)
    (allPrefill : ι → Bool) :
    runtimeInfos ((ranks.map fun rank =>
        [numTokens rank, numRequests rank, (allPrefill rank).toNat]).flatten) =
      ranks.map fun rank => (numTokens rank, numRequests rank, allPrefill rank) := by
  induction ranks with
  | nil => rfl
  | cons rank rest ih =>
      rw [List.map_cons, List.flatten_cons, List.map_cons, ← ih]
      cases hprefill : allPrefill rank <;> rfl

section Agreement

variable (cfg : GraphConfig) (batches : Fin dpSize → RankBatch)

/-- The tokens of all ranks, as every one of them has gathered them. -/
def stepTokens : List Nat := (List.finRange dpSize).map fun rank => (batches rank).tokens.sum

/-- Every rank decodes, with no more tokens than the largest captured batch. -/
def graphAllowed : Bool :=
  cfg.useCudaGraph &&
    ((List.finRange dpSize).map fun rank => !((batches rank).inferMode cfg).isDecodeOnly).all (!·) &&
    (stepTokens batches).all (· ≤ cfg.maxCudagraphBatchSize)

/-- The padded token count of the step. -/
def paddedTokens : Nat := cfg.padForCudagraph ((stepTokens batches).max?.getD 0)

/-- The rank's own batch selects a captured graph at the padded token count. -/
def RankBatch.SelectsGraph (numInputTokens : Nat) : RankBatch → Prop
  | .dummy _ => False
  | batch@(.scheduled _ _ _ _ useCascadeAttn calculateKvScales) =>
      cfg.dispatcher.captured (batch.descriptor cfg numInputTokens) = true ∧
        useCascadeAttn = false ∧ calculateKvScales = false

theorem stepTokens_ne_nil (lead : Fin dpSize) : stepTokens batches ≠ [] :=
  List.ne_nil_of_mem (List.mem_map.mpr ⟨lead, List.mem_finRange _, rfl⟩)

/-- All ranks decide from the same lists. -/
theorem run_getDataParallelMetadata (lead : Fin dpSize) (numReqs : Fin dpSize → Nat) :
    ∃ params : Fin dpSize → MLUDPMetadata,
      Program.run DPCollective.exchange lead (fun rank =>
          getDataParallelMetadata cfg rank (batches rank).tokens.sum (numReqs rank)
            ((batches rank).inferMode cfg).isDecodeOnly) = some params ∧
      ∀ rank, (params rank).tokenSplitList = stepTokens batches ∧
        (params rank).dpIsPrefill =
          (List.finRange dpSize).map fun rank => !((batches rank).inferMode cfg).isDecodeOnly := by
  have hmake : ∀ rank : Fin dpSize, ∃ params, MLUDPMetadata.makeOot rank dpSize
      cfg.tensorParallelSize (stepTokens batches)
      ((List.finRange dpSize).map fun rank => !((batches rank).inferMode cfg).isDecodeOnly)
      cfg.prefillDispatchUseRSAG { batchSizes := some ((List.finRange dpSize).map numReqs) } =
        some params := by
    intro rank
    apply Option.isSome_iff_exists.mp
    rw [MLUDPMetadata.makeOot_isSome]
    simp [stepTokens]
  choose params hparams using hmake
  refine ⟨params, ?_, ?_⟩
  · simp only [stepTokens] at hparams
    simp only [getDataParallelMetadata, getRuntimeInfosPerDpGroup, Program.collective_bind,
      Program.done_bind, Program.run_collective, DPCollective.exchange, Option.bind_some,
      runtimeInfos_flatten, List.map_map, Function.comp_def]
    simp only [hparams, Program.ofOption, Program.run_done]
  · intro rank
    obtain ⟨-, htokens, hprefill, -⟩ := MLUDPMetadata.makeOot_eq_some (hparams rank)
    exact ⟨htokens, hprefill⟩

/-- The metadata of a step, as far as the decision reads it. -/
def Describes (dpMetadata : MLUDPMetadata) : Prop :=
  dpMetadata.tokenSplitList = stepTokens batches ∧
    dpMetadata.dpIsPrefill =
      (List.finRange dpSize).map fun rank => !((batches rank).inferMode cfg).isDecodeOnly

variable {cfg batches} {dpMetadata : MLUDPMetadata}

theorem Describes.dpCanUseGraph_eq (h : Describes cfg batches dpMetadata) :
    dpCanUseGraph cfg dpMetadata = graphAllowed cfg batches := by
  rw [dpCanUseGraph, h.1, h.2]
  rfl

theorem Describes.getDpGraphInfo_eq (lead : Fin dpSize) (h : Describes cfg batches dpMetadata)
    (hallowed : graphAllowed cfg batches = true) (numReqs numScheduledTokens : Nat) :
    getDpGraphInfo cfg numReqs numScheduledTokens dpMetadata =
      if paddedTokens cfg batches % (cfg.numSpecTokens + 1) = 0 then
        some (paddedTokens cfg batches, paddedTokens cfg batches / (1 + cfg.numSpecTokens), true)
      else none := by
  obtain ⟨most, hmost, -⟩ := Cuts.exists_max? (stepTokens_ne_nil batches lead)
  rw [getDpGraphInfo, h.dpCanUseGraph_eq, if_pos hallowed, h.1, paddedTokens, hmost]
  rfl

/-- Where the graph is out of the question, every rank is eager. -/
theorem Describes.execute_of_not_allowed (h : Describes cfg batches dpMetadata)
    (hallowed : graphAllowed cfg batches = false) (batch : RankBatch) :
    batch.execute cfg dpMetadata = some .eager := by
  cases batch with
  | dummy numTokens => rfl
  | scheduled first rest maxComputed hasLora useCascadeAttn calculateKvScales =>
      have hinfo : ∀ numReqs numScheduledTokens,
          getDpGraphInfo cfg numReqs numScheduledTokens dpMetadata =
            some (numScheduledTokens, numReqs, false) := by
        intro numReqs numScheduledTokens
        rw [getDpGraphInfo, h.dpCanUseGraph_eq, if_neg (by simp [hallowed])]
        rfl
      simp only [RankBatch.execute, hinfo]
      split <;> simp

/-- Where it is allowed, the own batch decides between graph and eager. -/
theorem Describes.execute_of_allowed (lead : Fin dpSize) (h : Describes cfg batches dpMetadata)
    (hallowed : graphAllowed cfg batches = true)
    (hdivides : paddedTokens cfg batches % (cfg.numSpecTokens + 1) = 0) (batch : RankBatch) :
    (batch.SelectsGraph cfg (paddedTokens cfg batches) ∧
      batch.execute cfg dpMetadata = some (.graph (paddedTokens cfg batches))) ∨
    (¬batch.SelectsGraph cfg (paddedTokens cfg batches) ∧
      batch.execute cfg dpMetadata = some .eager) := by
  have hgraph : cfg.useCudaGraph = true := by
    simp only [graphAllowed, Bool.and_eq_true] at hallowed
    exact hallowed.1.1
  cases batch with
  | dummy numTokens => exact .inr ⟨fun hselects => hselects, rfl⟩
  | scheduled first rest maxComputed hasLora useCascadeAttn calculateKvScales =>
      simp only [RankBatch.execute, if_pos hgraph, h.getDpGraphInfo_eq lead hallowed,
        if_pos hdivides, Option.bind_eq_bind, Option.bind_some, Option.pure_def, if_true]
      generalize hbatch : RankBatch.scheduled first rest maxComputed hasLora useCascadeAttn
        calculateKvScales = batch
      by_cases hselects : cfg.dispatcher.captured
          (batch.descriptor cfg (paddedTokens cfg batches)) = true ∧
          useCascadeAttn = false ∧ calculateKvScales = false
      · obtain ⟨hcaptured, rfl, rfl⟩ := hselects
        refine .inl ⟨?_, ?_⟩
        · rw [← hbatch] at hcaptured ⊢
          exact ⟨hcaptured, rfl, rfl⟩
        · rw [cfg.dispatcher.dispatch_captured _ hcaptured]
          rfl
      · refine .inr ⟨?_, ?_⟩
        · rw [← hbatch] at hselects ⊢
          exact hselects
        · cases calculateKvScales with
          | true => rfl
          | false =>
              cases useCascadeAttn with
              | true =>
                  rw [cfg.dispatcher.dispatch_cascade]
                  rfl
              | false =>
                  have hnot : cfg.dispatcher.captured
                      (batch.descriptor cfg (paddedTokens cfg batches)) = false := by
                    simpa using hselects
                  rw [cfg.dispatcher.dispatch_none _ hnot]
                  rfl

/-- No rank passes the assertion of `_get_dp_graph_info` if one fails it. -/
theorem Describes.execute_of_assertion (lead : Fin dpSize) (h : Describes cfg batches dpMetadata)
    (hallowed : graphAllowed cfg batches = true)
    (hdivides : paddedTokens cfg batches % (cfg.numSpecTokens + 1) ≠ 0) (rank : Fin dpSize) :
    (batches rank).execute cfg dpMetadata = none := by
  have hgraph : cfg.useCudaGraph = true := by
    simp only [graphAllowed, Bool.and_eq_true] at hallowed
    exact hallowed.1.1
  have hdecode : ((batches rank).inferMode cfg).isDecodeOnly = true := by
    simp only [graphAllowed, Bool.and_eq_true, List.all_map, List.all_eq_true] at hallowed
    simpa using hallowed.1.2 rank (List.mem_finRange _)
  cases hbatch : batches rank with
  | dummy numTokens =>
      rw [hbatch] at hdecode
      cases hdecode
  | scheduled first rest maxComputed hasLora useCascadeAttn calculateKvScales =>
      simp only [RankBatch.execute, if_pos hgraph, h.getDpGraphInfo_eq lead hallowed,
        if_neg hdivides, Option.bind_eq_bind, Option.bind_none]

end Agreement

/-- Every rank runs the graph of one token count, or every rank runs eagerly. -/
def Agrees (executions : Option (Fin dpSize → Execution)) : Prop :=
  ∃ execution, executions = some execution ∧
    ((∃ numTokens, ∀ rank, execution rank = .graph numTokens) ∨ ∀ rank, execution rank = .eager)

/-- A batch that selects a graph gives every request all its draft tokens. -/
theorem RankBatch.SelectsGraph.uniform {cfg : GraphConfig} {batch : RankBatch}
    {numInputTokens : Nat} (h : batch.SelectsGraph cfg numInputTokens) :
    batch.uniformDecode cfg = true := by
  cases batch with
  | dummy numTokens => exact h.elim
  | scheduled first rest maxComputed hasLora useCascadeAttn calculateKvScales =>
      exact cfg.dispatcher.captured_uniform _ h.1

/-- One captured graph: two tokens of a uniform decode batch. -/
def twoTokenDispatcher : CudagraphDispatcher where
  captured descriptor := descriptor == ⟨2, true, false⟩
  dispatch descriptor useCascadeAttn :=
    if useCascadeAttn then none
    else if descriptor == ⟨2, true, false⟩ then some descriptor else none
  captured_uniform descriptor h := by
    rw [beq_iff_eq] at h
    rw [h]
  dispatch_captured descriptor h := by
    rw [if_neg Bool.false_ne_true, if_pos h]
  dispatch_none descriptor h useCascadeAttn := by
    rw [h]
    cases useCascadeAttn <;> rfl
  dispatch_cascade _ := rfl

def oneDraft : GraphConfig where
  tensorParallelSize := 1
  useCudaGraph := true
  numSpecTokens := 1
  maxNumSeqs := 4
  prefillDispatchUseRSAG := false
  maxCudagraphBatchSize := 2
  padForCudagraph := fun _ => 2
  dispatcher := twoTokenDispatcher

/-- One request with its draft token on the first rank, one without on the second. -/
def missingDraft : Fin 2 → RankBatch :=
  ![.scheduled 2 [] 7 false false false, .scheduled 1 [] 7 false false false]

end VllmMlu.Parallel
