import VllmMlu.Library.CausalCache
import VllmMlu.Worker.SyncRuns

/-! The model runner with its paged cache: over whole runs, with drafts that are rejected and
overwritten, the cache holds the entries of the computed tokens of every request. -/
namespace VllmMlu.Worker
open VllmMlu.Library VllmMlu.Library.Cuts VllmMlu.Library.Packed VllmMlu.Sched

/-- The slots that a block table gives to the positions it covers. -/
structure BlockLayout (Slot : Type) where
  slotOf : KVCacheBlocks → Nat → Slot
  capacity : KVCacheBlocks → Nat
  /-- New blocks are for positions behind those that are covered. -/
  grows : ∀ blocks newBlocks pos, pos < capacity blocks →
    slotOf (appendBlocks blocks newBlocks) pos = slotOf blocks pos

theorem exists_headD_appendBlocks {blocks : KVCacheBlocks} (newBlocks : KVCacheBlocks)
    (hblocks : blocks ≠ []) :
    ∃ more, (appendBlocks blocks newBlocks).headD [] = blocks.headD [] ++ more := by
  obtain ⟨first, rest, rfl⟩ := List.exists_cons_of_ne_nil hblocks
  rw [appendBlocks]
  split
  · exact ⟨[], (List.append_nil _).symm⟩
  · rename_i hnew
    cases newBlocks with
    | nil => exact absurd rfl hnew
    | cons more others => exact ⟨more, rfl⟩

/-- Blocks of one size, with the table of the first cache group. -/
def BlockLayout.firstGroup (blockSize : Nat) : BlockLayout Nat where
  slotOf blocks pos := (blocks.headD []).getD (pos / blockSize) 0 * blockSize + pos % blockSize
  capacity blocks := (blocks.headD []).length * blockSize
  grows := by
    intro blocks newBlocks pos hpos
    have hblocks : blocks ≠ [] := by
      rintro rfl
      simp at hpos
    obtain ⟨more, hmore⟩ := exists_headD_appendBlocks newBlocks hblocks
    rw [hmore, List.getD_append _ _ _ _ (Nat.div_lt_of_lt_mul (Nat.mul_comm _ _ ▸ hpos))]

/-- `xs[i]`, where a negative index counts from the end. -/
def pyIndex {α : Type} (values : List α) (i : Int) : Except InputError α :=
  let place := if 0 ≤ i then i else i + values.length
  if place < 0 then .error .indexError
  else
    match values[place.toNat]? with
    | none => .error .indexError
    | some value => .ok value

variable {Slot κ η : Type}

/-- The forward pass over the cache, with the hidden states of its tokens. -/
abbrev ForwardPass (Slot κ η : Type) : Type :=
  ForwardInputs Slot → (Slot → Option κ) → (Slot → Option κ) × List η

def ForwardRow.segment (layout : BlockLayout Slot) (row : ForwardRow) :
    CausalModel.Segment Token Slot :=
  ⟨row.cached, row.fresh, layout.slotOf row.blockTable⟩

/-- The tokens of the sequences that the attention metadata tells apart, each behind those that are
in the cache. -/
def ForwardInputs.segments (slotOf : KVCacheBlocks → Nat → Slot) (inputs : ForwardInputs Slot) :
    List (CausalModel.Segment Token Slot) :=
  List.zipWith
    (fun fresh (entry : Int × KVCacheBlocks) =>
      ⟨List.replicate (entry.1.toNat - fresh.length) 0, fresh, slotOf entry.2⟩)
    ((diffs inputs.queryStartLoc).splitLengths inputs.inputIds)
    (inputs.seqLens.zip inputs.blockTables)

/-- The forward pass, token by token. -/
def runForward [DecidableEq Slot] (layout : BlockLayout Slot) (model : CausalModel Token κ η) :
    ForwardPass Slot κ η :=
  fun inputs => model.runSegments (inputs.segments layout.slotOf)

/-- The forward pass runs a causal model over its paged cache. -/
def ForwardPass.Computes (forward : ForwardPass Slot κ η) (layout : BlockLayout Slot)
    (model : CausalModel Token κ η) : Prop :=
  ∀ (rows : List ForwardRow) (cache : Slot → Option κ),
    CausalModel.Apart (rows.map (ForwardRow.segment layout)) →
    model.Ready cache (rows.map (ForwardRow.segment layout)) →
    model.Advances (rows.map (ForwardRow.segment layout)) cache
      (forward (.ofRows layout.slotOf rows) cache).1 (forward (.ofRows layout.slotOf rows) cache).2

structure PagedTracking (Slot κ : Type) where
  tracking : Tracking := {}
  kvCache : Slot → Option κ := fun _ => none
  /-- How many tokens of each request are computed, as the scheduler counts them. -/
  computed : ReqId → Nat := fun _ => 0

/-- `update_from_output`: the scheduled tokens are computed, but for the rejected drafts. -/
def countComputed (served : ReqId → Option KnownRequest) (output : SchedulerOutput)
    (results : List (ReqId × List Token)) (computed : ReqId → Nat) (id : ReqId) : Nat :=
  match results.find? (·.1 = id) with
  | none => computed id
  | some result => (served id).elim 0 fun request =>
      let drafts := output.specTokens id
      let numRejected := if drafts = [] then 0 else drafts.length + 1 - result.2.length
      request.numComputedTokens + scheduledOf output id - numRejected

def pagedTracking (cfg : RunnerConfig) (helpers : InputHelpers Slot)
    (forward : ForwardPass Slot κ η) :
    Machine (PagedTracking Slot κ) TrackingEvent WorkerError where
  step state
    | .preempt id => do
        let tracking ← (tracking cfg helpers).step state.tracking (.preempt id)
        return { state with tracking := tracking }
    | .step output reqIds sampled => do
        let result ← state.tracking.runner.step cfg helpers output reqIds sampled
        let served := renew state.tracking.served output
        return {
          tracking := ⟨result.runner, collect served result.results⟩
          kvCache := result.forward.elim state.kvCache fun inputs =>
            (forward inputs state.kvCache).1
          computed := countComputed served output result.results state.computed }

/-- The segments of a step, one for each scheduled request. -/
def segmentsOf (layout : BlockLayout Slot) (served : ReqId → Option KnownRequest)
    (output : SchedulerOutput) (reqIds : List ReqId) : List (CausalModel.Segment Token Slot) :=
  reqIds.map fun id => (forwardRow served output id).segment layout

/-- How the scheduler places the requests of a step in the cache. -/
structure Places (layout : BlockLayout Slot) (model : CausalModel Token κ η)
    (state : PagedTracking Slot κ) (output : SchedulerOutput) (reqIds : List ReqId)
    (sampled : List (List Token)) : Prop where
  continues : ∀ data ∈ output.scheduledCachedReqs, ∀ request,
    state.tracking.served data.reqId = some request → request.preempted = false →
    data.numComputedTokens = state.computed data.reqId
  /-- The entries that a new or resumed request finds in the cache are its own. -/
  hitsNew : ∀ data ∈ output.scheduledNewReqs,
    model.Held state.kvCache (layout.slotOf data.blockIds) (KnownRequest.ofNew data).tokens
      data.numComputedTokens.toNat
  hitsResumed : ∀ data ∈ output.scheduledCachedReqs, ∀ request,
    state.tracking.served data.reqId = some request → request.preempted = true →
    model.Held state.kvCache (layout.slotOf data.newBlockIds) request.tokens
      data.numComputedTokens.toNat
  covered : ∀ id ∈ output.numScheduledTokens.keys, ∀ request,
    renew state.tracking.served output id = some request →
    request.numComputedTokens + scheduledOf output id ≤ layout.capacity request.blocks
  injective : ∀ id ∈ output.numScheduledTokens.keys, ∀ request,
    renew state.tracking.served output id = some request → ∀ pos other,
    pos < request.numComputedTokens + scheduledOf output id →
    other < request.numComputedTokens + scheduledOf output id →
    layout.slotOf request.blocks pos = layout.slotOf request.blocks other → pos = other
  /-- No scheduled token is written to a slot in use by another request. -/
  apart : ∀ id ∈ output.numScheduledTokens.keys, ∀ request,
    renew state.tracking.served output id = some request → ∀ pos, request.numComputedTokens ≤ pos →
    pos < request.numComputedTokens + scheduledOf output id → ∀ other, other ≠ id → ∀ second,
    renew state.tracking.served output other = some second → second.preempted = false →
    ∀ place, place < (if other ∈ output.numScheduledTokens.keys then
      second.numComputedTokens + scheduledOf output other else state.computed other) →
    layout.slotOf request.blocks pos ≠ layout.slotOf second.blocks place
  /-- What is sampled are accepted drafts and one more token. -/
  accepts : List.Forall₂ (fun id ids => ids.dropLast = (output.specTokens id).take (ids.length - 1))
    reqIds sampled

def PagedTracking.Allowed (cfg : RunnerConfig) (layout : BlockLayout Slot)
    (model : CausalModel Token κ η) (state : PagedTracking Slot κ) : TrackingEvent → Prop
  | .preempt _ => True
  | .step output reqIds sampled => Feeds cfg state.tracking.served output reqIds sampled ∧
      Places layout model state output reqIds sampled

/-- The cache holds the entries of the computed tokens. -/
def PagedTracking.Holds (layout : BlockLayout Slot) (model : CausalModel Token κ η)
    (state : PagedTracking Slot κ) : Prop :=
  ∀ id request, state.tracking.served id = some request → request.preempted = false →
    model.Held state.kvCache (layout.slotOf request.blocks) request.tokens (state.computed id) ∧
      state.computed id ≤ layout.capacity request.blocks

/-- The hidden states of the model after the last token of a request and after its drafts. -/
def sampleHiddens (model : CausalModel Token κ η) (served : ReqId → Option KnownRequest)
    (output : SchedulerOutput) (id : ReqId) : List η :=
  (served id).elim [] fun request =>
    (model.hiddens (request.computes output id)).drop
      ((request.computes output id).length - ((output.specTokens id).length + 1))

end VllmMlu.Worker
