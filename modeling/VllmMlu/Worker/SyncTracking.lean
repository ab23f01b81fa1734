import VllmMlu.Worker.SyncRuns

/-! Over whole runs the model runner holds the requests as the scheduler knows them, and prepares
the tokens that the scheduler asks for. -/
namespace VllmMlu.Worker
open VllmMlu.Library VllmMlu.Library.Cuts VllmMlu.Library.Packed VllmMlu.Sched

variable {cfg : RunnerConfig} {output : SchedulerOutput} {reqIds : List ReqId}
  {sampled : List (List Token)} {served : ReqId → Option KnownRequest}

/-! ### What the scheduler knows -/

theorem renew_new (hnodup : (output.scheduledNewReqs.map NewRequestData.reqId).Nodup)
    {data : NewRequestData} (hmem : data ∈ output.scheduledNewReqs) :
    renew served output data.reqId = some (.ofNew data) := by
  rw [renew, find?_key_eq hnodup hmem]

theorem renew_cached (hnodup : (output.scheduledCachedReqs.map CachedRequestData.reqId).Nodup)
    {data : CachedRequestData} (hmem : data ∈ output.scheduledCachedReqs)
    (hnew : data.reqId ∉ output.scheduledNewReqs.map NewRequestData.reqId)
    (hlive : data.reqId ∉ output.finishedReqIds) :
    renew served output data.reqId = (served data.reqId).map (KnownRequest.receive data) := by
  rw [renew, find?_key_eq_none hnew]
  dsimp only
  rw [if_neg hlive, find?_key_eq hnodup hmem]

theorem renew_others {id : ReqId}
    (hid : id ∉ output.scheduledNewReqs.map NewRequestData.reqId ++
      output.scheduledCachedReqs.map CachedRequestData.reqId) :
    renew served output id =
      if id ∈ output.finishedReqIds then none else (served id).map KnownRequest.leave := by
  rw [List.mem_append, not_or] at hid
  rw [renew, find?_key_eq_none hid.1]
  dsimp only
  rw [find?_key_eq_none hid.2]

theorem KnownRequest.Grant.drafts_lt {request : KnownRequest} {numScheduledTokens : Nat}
    {drafts : List Token} (grant : request.Grant cfg numScheduledTokens drafts) :
    drafts.length < numScheduledTokens := by
  have hcomputed := grant.computed_lt
  cases drafts with
  | nil => exact grant.pos
  | cons draft rest =>
      have hlength := grant.verifies (List.cons_ne_nil _ _)
      omega

/-! ### Requests in the batch -/

/-- The state and the row of a scheduled request, with its drafts behind its tokens. -/
structure KnownRequest.LoadedBy (request : KnownRequest) (state : CachedRequestState) (row : Row)
    (drafts : List Token) : Prop where
  prevNumDraftLen_eq : state.prevNumDraftLen = 0
  promptTokenIds_eq : state.promptTokenIds = request.prompt
  outputTokenIds_eq : state.outputTokenIds = request.outputs
  blockIds_eq : state.blockIds = request.blocks
  numPromptTokens_eq : row.numPromptTokens = request.prompt.length
  numTokensNoSpec_eq : row.numTokensNoSpec = request.tokens.length
  numComputedTokensCpu_eq : row.numComputedTokensCpu = request.numComputedTokens
  tokenIdsCpu_eq : ∀ i < (request.tokens ++ drafts).length,
    row.tokenIdsCpu i = (request.tokens ++ drafts).getD i 0
  blockTable_eq : row.blockTable = request.blocks
  inBatch_eq : request.inBatch = true
  preempted_eq : request.preempted = false

/-- The state and the row of a request between the steps. Past the model length the runner drops
tokens. -/
structure KnownRequest.TrackedBy (cfg : RunnerConfig) (request : KnownRequest)
    (state : CachedRequestState) (row : Option Row) : Prop where
  prevNumDraftLen_eq : state.prevNumDraftLen = 0
  promptTokenIds_eq : state.promptTokenIds = request.prompt
  outputTokenIds_eq : request.tokens.length < cfg.maxModelLen →
    state.outputTokenIds = request.outputs
  blockIds_eq : request.preempted = false → state.blockIds = request.blocks
  inBatch_eq : row.isSome = request.inBatch
  numPromptTokens_eq : ∀ entry ∈ row, entry.numPromptTokens = request.prompt.length
  numTokensNoSpec_eq : ∀ entry ∈ row, request.tokens.length < cfg.maxModelLen →
    entry.numTokensNoSpec = request.tokens.length
  tokenIdsCpu_eq : ∀ entry ∈ row, request.tokens.length < cfg.maxModelLen →
    ∀ i < request.tokens.length, entry.tokenIdsCpu i = request.tokens.getD i 0
  blockTable_eq : ∀ entry ∈ row, request.preempted = false → entry.blockTable = request.blocks

/-- Tokens that are written behind those of a row. -/
theorem Row.tokenIdsCpu_write {row : Row} {tokens more : List Token}
    (htokens : ∀ i < tokens.length, row.tokenIdsCpu i = tokens.getD i 0) :
    ∀ i < (tokens ++ more).length,
      (row.write tokens.length more).tokenIdsCpu i = (tokens ++ more).getD i 0 := by
  intro i hi
  rw [List.length_append] at hi
  rw [write]
  dsimp only
  by_cases hbefore : i < tokens.length
  · rw [if_neg (by omega), htokens i hbefore, List.getD_append _ _ _ _ hbefore]
  · have hmore : i - tokens.length < more.length := by omega
    rw [if_pos (by omega), List.getD_append_right _ _ _ _ (by omega),
      List.getD_eq_getElem _ _ hmore, List.getD_eq_getElem _ _ hmore]

theorem joining_loaded {request : KnownRequest} {state : CachedRequestState}
    (hprev : state.prevNumDraftLen = 0) (hprompt : state.promptTokenIds = request.prompt)
    (houtputs : state.outputTokenIds = request.outputs) (hblocks : state.blockIds = request.blocks)
    (hcomputed : state.numComputedTokens = request.numComputedTokens)
    (hin : request.inBatch = true) (hpreempted : request.preempted = false)
    (drafts : List Token) : request.LoadedBy state (.joining state drafts) drafts := by
  have htokens : state.promptTokenIds ++ state.outputTokenIds = request.tokens := by
    rw [hprompt, houtputs]
    rfl
  have hlength : state.promptTokenIds.length + state.outputTokenIds.length =
      request.tokens.length := by
    rw [← htokens, List.length_append]
  refine ⟨hprev, hprompt, houtputs, hblocks, congrArg _ hprompt, hlength, hcomputed, ?_, hblocks,
    hin, hpreempted⟩
  have hwrite := @Row.tokenIdsCpu_write (.ofRequest state) request.tokens drafts fun i _ => by
    rw [← htokens]
    rfl
  rw [← hlength] at hwrite
  exact hwrite

theorem staying_loaded {request : KnownRequest} {state : CachedRequestState} {row : Row}
    {data : CachedRequestData} (tracked : request.TrackedBy cfg state (some row))
    (hlength : request.tokens.length < cfg.maxModelLen)
    (houtput : data.numOutputTokens = request.outputs.length)
    (hpreempted : request.preempted = false) (hresumed : data.resumed = false)
    (hcomputed : 0 ≤ data.numComputedTokens) (drafts : List Token) :
    (request.receive data).LoadedBy (state.receive data) (row.staying data state drafts)
      drafts := by
  have houtputs := tracked.outputTokenIds_eq hlength
  have hkept : ¬data.numOutputTokens < state.outputTokenIds.length := by
    rw [houtput, houtputs]
    omega
  have hnoSpec := tracked.numTokensNoSpec_eq row rfl hlength
  have hrow : row.staying data state drafts = row.update data data.numComputedTokens drafts := by
    rw [Row.staying, Row.align, if_neg hkept]
  have hstate : state.receive data = { state with
      numComputedTokens := data.numComputedTokens
      blockIds := appendBlocks state.blockIds data.newBlockIds } := by
    rw [CachedRequestState.receive, StatesPass.recover, CachedRequestState.align, if_neg hkept,
      hresumed]
    rfl
  have hblocks : (request.receive data).blocks = appendBlocks request.blocks data.newBlockIds := by
    rw [KnownRequest.receive, hresumed]
    rfl
  rw [hrow, hstate]
  refine ⟨tracked.prevNumDraftLen_eq, tracked.promptTokenIds_eq, houtputs, ?_,
    tracked.numPromptTokens_eq row rfl, hnoSpec, (Int.toNat_of_nonneg hcomputed).symm, ?_, ?_, rfl,
    rfl⟩
  · rw [hblocks, ← tracked.blockIds_eq hpreempted]
  · have hwrite := @Row.tokenIdsCpu_write row request.tokens drafts
      (tracked.tokenIdsCpu_eq row rfl hlength)
    rw [← hnoSpec] at hwrite
    exact hwrite
  · rw [hblocks, ← tracked.blockTable_eq row rfl hpreempted]
    rfl

/-- A request outside the batch is loaded from its state. -/
theorem rejoining_loaded {request : KnownRequest} {state : CachedRequestState}
    {data : CachedRequestData} (tracked : request.TrackedBy cfg state none)
    (hlength : request.tokens.length < cfg.maxModelLen)
    (houtput : data.numOutputTokens = request.outputs.length)
    (hresumed : data.resumed = request.preempted)
    (hcomputed : 0 ≤ data.numComputedTokens) (drafts : List Token) :
    (request.receive data).LoadedBy (state.receive data) (.joining (state.receive data) drafts)
      drafts := by
  have houtputs := tracked.outputTokenIds_eq hlength
  have hkept : ¬data.numOutputTokens < state.outputTokenIds.length := by
    rw [houtput, houtputs]
    omega
  have hstate : state.receive data = { state with
      numComputedTokens := data.numComputedTokens
      blockIds := if data.resumed then data.newBlockIds
        else appendBlocks state.blockIds data.newBlockIds } := by
    rw [CachedRequestState.receive, StatesPass.recover, CachedRequestState.align, if_neg hkept]
  rw [hstate]
  apply joining_loaded
  · exact tracked.prevNumDraftLen_eq
  · exact tracked.promptTokenIds_eq
  · exact houtputs
  · rw [KnownRequest.receive]
    dsimp only
    cases hcase : request.preempted with
    | true => rw [hresumed, hcase, if_pos rfl, if_pos rfl]
    | false => rw [tracked.blockIds_eq hcase]
  · exact (Int.toNat_of_nonneg hcomputed).symm
  · rfl
  · rfl

/-! ### The states after `_update_states` -/

/-- The runner holds the requests as the scheduler knows them. -/
def Tracking.Tracks (cfg : RunnerConfig) (state : Tracking) : Prop :=
  ∀ id request, state.served id = some request → ∃ known, state.runner.requests id = some known ∧
    request.TrackedBy cfg known (state.runner.inputBatch id)

section States

variable {state : Tracking} {next : ModelRunner} (tracks : state.Tracks cfg)
  (feeds : Feeds cfg state.served output reqIds sampled)
include tracks feeds

theorem Tracking.Tracks.known : state.runner.Known output := by
  refine ⟨feeds.nodup, feeds.keys_iff, ?_, ?_⟩
  · intro data hmem
    obtain ⟨hlive, -, request, hserved, -⟩ := feeds.cached data hmem
    obtain ⟨known, hknown, tracked⟩ := tracks _ _ hserved
    exact ⟨hlive, known, hknown, tracked.prevNumDraftLen_eq⟩
  · intro data hmem hresumed
    obtain ⟨-, -, request, hserved, -, hpreempted, hout⟩ := feeds.cached data hmem
    obtain ⟨known, -, tracked⟩ := tracks _ _ hserved
    have hrow := tracked.inBatch_eq
    rw [hout (hpreempted ▸ hresumed), Option.isSome_eq_false_iff, Option.isNone_iff_eq_none] at hrow
    exact hrow

theorem Tracking.Tracks.loaded (updated : state.runner.Updated next output) {id : ReqId}
    (hid : id ∈ output.numScheduledTokens.keys) :
    ∃ request known row, renew state.served output id = some request ∧
      next.requests id = some known ∧ next.inputBatch id = some row ∧
      request.LoadedBy known row (output.specTokens id) := by
  obtain ⟨hnew, hcached, hapart⟩ := List.nodup_append.mp feeds.nodup
  rcases List.mem_append.mp ((feeds.keys_iff id).mp hid) with hmem | hmem
  · obtain ⟨data, hdata, rfl⟩ := List.mem_map.mp hmem
    obtain ⟨hrequests, hrow⟩ := updated.new data hdata
    refine ⟨_, _, _, renew_new hnew hdata, hrequests, hrow, ?_⟩
    apply joining_loaded rfl rfl (List.append_nil _).symm rfl _ rfl rfl
    exact (Int.toNat_of_nonneg (feeds.new data hdata)).symm
  · obtain ⟨data, hdata, rfl⟩ := List.mem_map.mp hmem
    obtain ⟨hlive, hcomputed, request, hserved, houtput, hresumed, hout⟩ := feeds.cached data hdata
    obtain ⟨known, hknown, tracked⟩ := tracks _ _ hserved
    obtain ⟨hrequests, hrow⟩ := updated.cached data hdata known hknown
    have hrenew := @renew_cached _ state.served hcached _ hdata
      (fun hin => hapart _ hin _ hmem rfl) hlive
    rw [hserved] at hrenew
    have hlength : request.tokens.length < cfg.maxModelLen :=
      (feeds.grants _ hid _ hrenew).length_lt
    refine ⟨_, _, _, hrenew, hrequests, hrow, ?_⟩
    cases hbatch : state.runner.inputBatch data.reqId with
    | none =>
        rw [hbatch] at tracked
        exact rejoining_loaded tracked hlength houtput hresumed hcomputed _
    | some row =>
        rw [hbatch] at tracked
        have hkept : request.preempted = false := by
          cases hcase : request.preempted with
          | false => rfl
          | true =>
              have hin := tracked.inBatch_eq
              rw [hout hcase] at hin
              cases hin
        exact staying_loaded tracked hlength houtput hkept (hresumed.trans hkept) hcomputed _

end States

/-! ### The rows -/

/-- What the forward pass gets of a row. -/
def InputRow.forwardRow (entry : InputRow) : ForwardRow where
  cached := (List.range entry.computed).map entry.row.tokenIdsCpu
  fresh := entry.inputIds
  blockTable := entry.row.blockTable

theorem PreparedInputs.LaysOut.forwardInputs_eq {Slot : Type}
    {slotOf : KVCacheBlocks → Nat → Slot} {prepared : PreparedInputs Slot} {rows : List InputRow}
    (lays : prepared.LaysOut slotOf output rows) :
    prepared.forwardInputs rows = .ofRows slotOf (rows.map InputRow.forwardRow) := by
  rw [PreparedInputs.forwardInputs, lays.inputIds_eq, lays.positions_eq, lays.slotMapping_eq,
    lays.queryStartLoc_eq, lays.seqLens_eq]
  simp [ForwardInputs.ofRows, List.flatMap_map, InputRow.forwardRow, InputRow.positions,
    Function.comp_def]

/-- The row of a scheduled request, as `_prepare_inputs` gets it. -/
structure RowFor (cfg : RunnerConfig) (served : ReqId → Option KnownRequest)
    (output : SchedulerOutput) (runner : ModelRunner) (id : ReqId) (request : KnownRequest)
    (known : CachedRequestState) (entry : InputRow) : Prop where
  reqId_eq : entry.reqId = id
  renew_eq : renew served output id = some request
  requests_eq : runner.requests id = some known
  inputBatch_eq : runner.inputBatch id = some entry.row
  loaded : request.LoadedBy known entry.row (output.specTokens id)
  grant : request.Grant cfg (scheduledOf output id) (output.specTokens id)
  numTokens_eq : entry.numTokens = request.tokens.length
  numScheduledTokens_eq : entry.numScheduledTokens = scheduledOf output id

namespace RowFor

variable {runner : ModelRunner} {id : ReqId} {request : KnownRequest} {known : CachedRequestState}
  {entry : InputRow} (row : RowFor cfg served output runner id request known entry)
include row

theorem computed_eq : entry.computed = request.numComputedTokens := by
  rw [InputRow.computed, row.loaded.numComputedTokensCpu_eq, Int.toNat_natCast]

theorem fits : entry.Fits cfg := by
  refine ⟨?_, ?_, ?_⟩
  · rw [row.loaded.numComputedTokensCpu_eq]
    exact Int.natCast_nonneg _
  · rw [row.numScheduledTokens_eq]
    exact row.grant.pos
  · rw [row.computed_eq, row.numScheduledTokens_eq]
    exact row.grant.computed_le

theorem drafts_lt : (entry.drafts output).length < entry.numScheduledTokens := by
  rw [InputRow.drafts, row.reqId_eq, row.numScheduledTokens_eq]
  exact row.grant.drafts_lt

/-- The tokens of the row are those of the request, then the drafts. -/
theorem map_tokenIdsCpu :
    (List.range (request.numComputedTokens + scheduledOf output id)).map entry.row.tokenIdsCpu =
      request.computes output id := by
  have hwithin := row.grant.within
  rw [KnownRequest.computes]
  apply List.ext_getElem
  · simp
    omega
  · intro i hi _
    have hplace : i < (request.tokens ++ output.specTokens id).length := by
      rw [List.length_map, List.length_range] at hi
      rw [List.length_append]
      omega
    have hget := row.loaded.tokenIdsCpu_eq _ hplace
    rw [List.getD_eq_getElem _ _ hplace] at hget
    simpa using hget

theorem forwardRow_eq : entry.forwardRow = request.forwardRow output id := by
  have hcached : (List.range (request.numComputedTokens + scheduledOf output id)).take
      request.numComputedTokens = List.range request.numComputedTokens := by
    rw [List.take_range, Nat.min_eq_left (Nat.le_add_right _ _)]
  have hfresh : (List.range (request.numComputedTokens + scheduledOf output id)).drop
      request.numComputedTokens =
        List.range' request.numComputedTokens (scheduledOf output id) := by
    rw [List.range_eq_range', List.drop_range']
    simp
  rw [InputRow.forwardRow, KnownRequest.forwardRow, ← row.map_tokenIdsCpu, ← List.map_take,
    ← List.map_drop, hcached, hfresh, row.computed_eq, row.loaded.blockTable_eq,
    InputRow.inputIds, InputRow.positions, row.computed_eq, row.numScheduledTokens_eq]

end RowFor

theorem values_eq_map_get? {κ ν : Type} [DecidableEq κ] {dict : Dict κ ν} (default : ν) :
    dict.values = dict.keys.map fun key => (dict.get? key).getD default := by
  rw [Dict.values, Dict.keys, List.map_map]
  apply List.map_congr_left
  intro entry hmem
  rw [Function.comp_apply, (Dict.get?_eq_some_iff dict entry.1 entry.2).mpr hmem]
  rfl

section Step

variable {state : Tracking} {next : ModelRunner} (tracks : state.Tracks cfg)
  (feeds : Feeds cfg state.served output reqIds sampled)
include tracks feeds

theorem Tracking.Tracks.inputRows (updated : state.runner.Updated next output) :
    ∃ rows, next.inputRows output reqIds = .ok rows ∧
      List.Forall₂ (fun id entry => ∃ request known,
        RowFor cfg state.served output next id request known entry) reqIds rows := by
  apply exists_mapM_ok
  intro id hmem
  have hid := feeds.order.subset hmem
  obtain ⟨request, known, row, hrenew, hrequests, hrow, loaded⟩ := tracks.loaded feeds updated hid
  obtain ⟨count, hcount⟩ := (Dict.mem_keys_iff _ _).mp hid
  have grant := feeds.grants id hid request hrenew
  have hpos := grant.pos
  rw [scheduledOf, hcount, Option.getD_some] at hpos
  rw [hrequests, hrow, hcount]
  dsimp only
  rw [if_neg (by omega)]
  refine ⟨_, rfl, request, known, rfl, hrenew, hrequests, hrow, loaded, grant, ?_, ?_⟩
  · rw [KnownRequest.tokens, List.length_append, loaded.promptTokenIds_eq, loaded.outputTokenIds_eq]
  · rw [scheduledOf, hcount, Option.getD_some]

theorem Tracking.Tracks.total_eq (updated : state.runner.Updated next output) :
    output.totalNumScheduledTokens = ((reqIds.map (scheduledOf output)).sum : Nat) := by
  have hcounts : ∀ id ∈ reqIds, ((scheduledOf output id : Nat) : Int) =
      (output.numScheduledTokens.get? id).getD 0 := by
    intro id hmem
    have hid := feeds.order.subset hmem
    obtain ⟨request, -, -, hrenew, -⟩ := tracks.loaded feeds updated hid
    have hpos := (feeds.grants id hid request hrenew).pos
    rw [scheduledOf] at hpos ⊢
    omega
  calc output.totalNumScheduledTokens
      = (output.numScheduledTokens.keys.map fun id =>
          (output.numScheduledTokens.get? id).getD 0).sum := by
        rw [feeds.total, Dict.total, values_eq_map_get? 0]
    _ = (reqIds.map fun id => (output.numScheduledTokens.get? id).getD 0).sum :=
        ((feeds.order.map _).sum_eq).symm
    _ = (reqIds.map fun id => ((scheduledOf output id : Nat) : Int)).sum := by
        rw [List.map_congr_left hcounts]
    _ = ((reqIds.map (scheduledOf output)).sum : Nat) := by
        rw [Nat.cast_list_sum, List.map_map]
        rfl

end Step

section Rows

variable {state : Tracking} {next : ModelRunner} {rows : List InputRow}
  (feeds : Feeds cfg state.served output reqIds sampled)
  (hrows : List.Forall₂ (fun id entry => ∃ request known,
    RowFor cfg state.served output next id request known entry) reqIds rows)
include hrows

theorem exists_rowFor {entry : InputRow} (hmem : entry ∈ rows) :
    ∃ id request known, RowFor cfg state.served output next id request known entry := by
  obtain ⟨i, hi⟩ := List.mem_iff_getElem?.mp hmem
  obtain ⟨id, -, hrow⟩ := getElem?_of_forall₂ hrows.flip hi
  exact ⟨id, hrow⟩

theorem map_reqId_rows : rows.map InputRow.reqId = reqIds := by
  have hmap := map_eq_map_of_forall₂ (hrows.imp fun id entry hrow => by
    obtain ⟨_, _, row⟩ := hrow
    exact row.reqId_eq.trans (id_eq id).symm)
  rwa [List.map_id] at hmap

theorem map_numScheduledTokens_rows :
    rows.map InputRow.numScheduledTokens = reqIds.map (scheduledOf output) := by
  apply map_eq_map_of_forall₂
  apply hrows.imp
  rintro id entry ⟨_, _, row⟩
  exact row.numScheduledTokens_eq

include feeds in
theorem rows_covered
    (htotal : output.totalNumScheduledTokens = ((reqIds.map (scheduledOf output)).sum : Nat)) :
    SchedulerOutput.Covers output rows := by
  refine ⟨?_, ?_, ?_, ?_⟩
  · rw [map_reqId_rows hrows, feeds.order.nodup_iff]
    exact output.numScheduledTokens.keys_nodup
  · rw [htotal, map_numScheduledTokens_rows hrows]
  · intro entry hmem
    obtain ⟨_, _, _, row⟩ := exists_rowFor hrows hmem
    exact row.drafts_lt
  · intro id hid
    have hreq := feeds.order.symm.subset (feeds.drafts_keys id hid)
    rw [← map_reqId_rows hrows] at hreq
    exact List.mem_map.mp hreq

end Rows

/-! ### The sampled tokens -/

section Bookkeeping

variable {request : KnownRequest} {known : CachedRequestState} {row : Row} {drafts ids : List Token}

/-- Between the steps the drafts behind the tokens do not count. -/
theorem KnownRequest.LoadedBy.tracked (loaded : request.LoadedBy known row drafts) :
    request.TrackedBy cfg known (some row) := by
  refine ⟨loaded.prevNumDraftLen_eq, loaded.promptTokenIds_eq, fun _ => loaded.outputTokenIds_eq,
    fun _ => loaded.blockIds_eq, loaded.inBatch_eq.symm, ?_, ?_, ?_, ?_⟩
  all_goals
    intro entry hentry
    cases hentry
  · exact loaded.numPromptTokens_eq
  · exact fun _ => loaded.numTokensNoSpec_eq
  · intro _ i hi
    rw [loaded.tokenIdsCpu_eq i (by rw [List.length_append]; omega),
      List.getD_append _ _ _ _ hi]
  · exact fun _ => loaded.blockTable_eq

theorem KnownRequest.TrackedBy.preempt {batchRow : Option Row}
    (tracked : request.TrackedBy cfg known batchRow) :
    request.preempt.TrackedBy cfg known batchRow :=
  ⟨tracked.prevNumDraftLen_eq, tracked.promptTokenIds_eq, tracked.outputTokenIds_eq,
    fun heq => Bool.noConfusion heq, tracked.inBatch_eq, tracked.numPromptTokens_eq,
    tracked.numTokensNoSpec_eq, tracked.tokenIdsCpu_eq, fun _ _ heq => Bool.noConfusion heq⟩

@[simp] theorem KnownRequest.emit_nil : request.emit [] = request := by
  simp [emit]

theorem KnownRequest.tokens_emit : (request.emit ids).tokens = request.tokens ++ ids := by
  simp [emit, tokens, outputs]

theorem KnownRequest.outputs_emit : (request.emit ids).outputs = request.outputs ++ ids := by
  simp [emit, outputs]

theorem bookkeepRow_ok (loaded : request.LoadedBy known row drafts)
    (hlength : request.tokens.length < cfg.maxModelLen) (hids : ids.length ≤ drafts.length + 1)
    (hdrafts : drafts.length ≤ cfg.numSpecTokens) :
    ∃ after, bookkeepRow cfg row known ids = .ok after ∧
      (request.emit ids).TrackedBy cfg after.2 (some after.1) := by
  by_cases hnil : ids = []
  · subst hnil
    refine ⟨(row, known), if_pos rfl, ?_⟩
    rw [KnownRequest.emit_nil]
    exact loaded.tracked
  · have hend : ¬cfg.numSpecTokens + cfg.maxModelLen < row.numTokensNoSpec + ids.length := by
      rw [loaded.numTokensNoSpec_eq]
      omega
    have htracked := @KnownRequest.LoadedBy.tracked cfg _ _ _ _ loaded
    rw [bookkeepRow, if_neg hnil]
    dsimp only
    rw [if_neg hend]
    refine ⟨_, rfl, loaded.prevNumDraftLen_eq, loaded.promptTokenIds_eq, ?_,
      fun _ => loaded.blockIds_eq, loaded.inBatch_eq.symm, ?_, ?_, ?_, ?_⟩
    · intro hfits
      rw [KnownRequest.tokens_emit, List.length_append] at hfits
      dsimp only
      rw [if_neg (by rw [loaded.numTokensNoSpec_eq]; omega), loaded.outputTokenIds_eq,
        KnownRequest.outputs_emit]
    all_goals
      intro entry hentry
      cases hentry
    · exact loaded.numPromptTokens_eq
    · intro hfits
      rw [KnownRequest.tokens_emit, List.length_append] at hfits ⊢
      dsimp only
      rw [loaded.numTokensNoSpec_eq]
      omega
    · intro hfits
      have hwrite := @Row.tokenIdsCpu_write row request.tokens ids
        (htracked.tokenIdsCpu_eq row rfl hlength)
      rw [KnownRequest.tokens_emit, List.length_append] at hfits
      rw [KnownRequest.tokens_emit, if_neg (by rw [loaded.numTokensNoSpec_eq]; omega),
        loaded.numTokensNoSpec_eq]
      exact hwrite
    · exact fun _ => loaded.blockTable_eq

/-- What a turn of the loop over the requests reads and writes. -/
def ModelRunner.entryOf (runner : ModelRunner) (id : ReqId) :
    Option CachedRequestState × Option Row := (runner.requests id, runner.inputBatch id)

/-- Each request of the loop enters its own tokens. -/
theorem foldlM_bookkeepTurn {runner : ModelRunner} {items : List (ReqId × List Token)}
    (hnodup : (items.map Prod.fst).Nodup)
    (hready : ∀ item ∈ items, ∃ known row after, runner.entryOf item.1 = (some known, some row) ∧
      bookkeepRow cfg row known item.2 = .ok after) :
    ∃ next, items.foldlM (bookkeepTurn cfg) runner = .ok next ∧
      (∀ item ∈ items, ∀ known row after, runner.entryOf item.1 = (some known, some row) →
        bookkeepRow cfg row known item.2 = .ok after →
        next.entryOf item.1 = (some after.2, some after.1)) ∧
      ∀ id, id ∉ items.map Prod.fst → next.entryOf id = runner.entryOf id := by
  obtain ⟨next, hnext, -, heffect, hkept⟩ := @foldlM_pointwise InputError ModelRunner
    (ReqId × List Token) ReqId (Option CachedRequestState × Option Row) Prod.fst
    ModelRunner.entryOf (fun _ => True) (bookkeepTurn cfg)
    (fun item before => ∃ known row after, before = (some known, some row) ∧
      bookkeepRow cfg row known item.2 = .ok after)
    (fun item before after => ∀ known row entered, before = (some known, some row) →
      bookkeepRow cfg row known item.2 = .ok entered → after = (some entered.2, some entered.1))
    (by
      rintro runner item - ⟨known, row, after, hbefore, hafter⟩
      obtain ⟨hrequests, hrow⟩ := Prod.ext_iff.mp hbefore
      change runner.requests item.1 = some known at hrequests
      change runner.inputBatch item.1 = some row at hrow
      refine ⟨(runner.setRow item.1 after.1).setState item.1 after.2, ?_, trivial, ?_, ?_⟩
      · rw [bookkeepTurn, hrequests, hrow]
        dsimp only
        rw [hafter]
      · intro other otherRow entered hother hentered
        cases hbefore.symm.trans hother
        cases hafter.symm.trans hentered
        simp [ModelRunner.entryOf]
      · intro other hne
        simp [ModelRunner.entryOf, hne])
    items hnodup runner trivial hready
  exact ⟨next, hnext, heffect, hkept⟩

end Bookkeeping

/-! ### A step -/

theorem collect_of_mem {results : List (ReqId × List Token)}
    (hnodup : (results.map Prod.fst).Nodup) {result : ReqId × List Token}
    (hmem : result ∈ results) :
    collect served results result.1 = (served result.1).map (KnownRequest.emit result.2) := by
  rw [collect, find?_key_eq hnodup hmem]

theorem collect_of_not_mem {results : List (ReqId × List Token)} {id : ReqId}
    (hid : id ∉ results.map Prod.fst) : collect served results id = served id := by
  rw [collect, find?_key_eq_none hid]

section Step

variable {state : Tracking} {next : ModelRunner} (tracks : state.Tracks cfg)
  (feeds : Feeds cfg state.served output reqIds sampled)
  (updated : state.runner.Updated next output)
include tracks feeds updated

/-- A request that is not scheduled stays as it was, outside the batch. -/
theorem Tracking.Tracks.left {id : ReqId} (hid : id ∉ output.numScheduledTokens.keys)
    {request : KnownRequest} (hrenew : renew state.served output id = some request) :
    ∃ known, next.requests id = some known ∧
      request.TrackedBy cfg known (next.inputBatch id) := by
  obtain ⟨hrequests, hrow⟩ := updated.others id hid
  rw [renew_others ((feeds.keys_iff id).not.mp hid)] at hrenew
  by_cases hfinished : id ∈ output.finishedReqIds
  · rw [if_pos hfinished] at hrenew
    cases hrenew
  · rw [if_neg hfinished] at hrenew hrequests
    obtain ⟨before, hserved, rfl⟩ := Option.map_eq_some_iff.mp hrenew
    obtain ⟨known, hknown, tracked⟩ := tracks id before hserved
    refine ⟨known, hrequests.trans hknown, ?_⟩
    rw [hrow]
    exact ⟨tracked.prevNumDraftLen_eq, tracked.promptTokenIds_eq, tracked.outputTokenIds_eq,
      tracked.blockIds_eq, rfl, by simp, by simp, by simp, by simp⟩

/-- A scheduled request takes in what is sampled for it. -/
theorem Tracking.Tracks.enters {id : ReqId} (hid : id ∈ output.numScheduledTokens.keys)
    {ids : List Token} (hids : ids.length ≤ (output.specTokens id).length + 1) :
    ∃ request known row after, renew state.served output id = some request ∧
      next.entryOf id = (some known, some row) ∧ bookkeepRow cfg row known ids = .ok after ∧
      (request.emit ids).TrackedBy cfg after.2 (some after.1) := by
  obtain ⟨request, known, row, hrenew, hrequests, hrow, loaded⟩ := tracks.loaded feeds updated hid
  have grant := feeds.grants id hid request hrenew
  obtain ⟨after, hafter, tracked⟩ := bookkeepRow_ok loaded grant.length_lt hids grant.drafts_le
  exact ⟨request, known, row, after, hrenew, Prod.ext hrequests hrow, hafter, tracked⟩

omit tracks updated in
theorem length_sampled : sampled.length = reqIds.length := feeds.sampled.length_eq.symm

omit tracks updated in
theorem mem_results {served : ReqId → Option KnownRequest} {item : ReqId × List Token}
    (hmem : item ∈ List.zipWith
      (fun id ids => (id, if completes served output id then ids else [])) reqIds sampled) :
    item.1 ∈ output.numScheduledTokens.keys ∧
      item.2.length ≤ (output.specTokens item.1).length + 1 := by
  obtain ⟨i, hi⟩ := List.mem_iff_getElem?.mp hmem
  rw [List.getElem?_zipWith] at hi
  cases hid : reqIds[i]? with
  | none =>
      rw [hid] at hi
      cases hi
  | some id =>
      obtain ⟨ids, hids, -, hlength⟩ := getElem?_of_forall₂ feeds.sampled hid
      rw [hid, hids] at hi
      cases hi
      refine ⟨feeds.order.subset (List.mem_of_getElem? hid), ?_⟩
      dsimp only
      split
      · exact hlength
      · exact Nat.zero_le _

omit tracks updated in
theorem map_fst_results {served : ReqId → Option KnownRequest} :
    (List.zipWith (fun id ids => (id, if completes served output id then ids else [])) reqIds
      sampled).map Prod.fst = reqIds := by
  have hzip := List.map_fst_zip (Nat.le_of_eq (length_sampled feeds).symm)
  rw [List.zip, List.map_zipWith] at hzip
  rw [List.map_zipWith]
  exact hzip

/-- After the results have come back the runner holds them too. -/
theorem Tracking.Tracks.bookkept :
    ∃ after, (List.zipWith
        (fun id ids => (id, if completes (renew state.served output) output id then ids else []))
        reqIds sampled).foldlM (bookkeepTurn cfg) next = .ok after ∧
      Tracking.Tracks cfg ⟨after, collect (renew state.served output) (List.zipWith
        (fun id ids => (id, if completes (renew state.served output) output id then ids else []))
        reqIds sampled)⟩ := by
  have hfst := @map_fst_results cfg output reqIds sampled state feeds (renew state.served output)
  have hitems := fun item => @mem_results cfg output reqIds sampled state feeds
    (renew state.served output) item
  generalize List.zipWith _ reqIds sampled = items at hfst hitems ⊢
  have hnodup : (items.map Prod.fst).Nodup := by
    rw [hfst, feeds.order.nodup_iff]
    exact output.numScheduledTokens.keys_nodup
  obtain ⟨after, hafter, hentered, hkept⟩ := @foldlM_bookkeepTurn cfg next items hnodup
    fun item hmem => by
      obtain ⟨hid, hids⟩ := hitems item hmem
      obtain ⟨_, known, row, entered, -, hentry, hrow, -⟩ := tracks.enters feeds updated hid hids
      exact ⟨known, row, entered, hentry, hrow⟩
  refine ⟨after, hafter, ?_⟩
  intro id request hcollect
  change collect _ items id = some request at hcollect
  by_cases hid : id ∈ items.map Prod.fst
  · obtain ⟨item, hmem, rfl⟩ := List.mem_map.mp hid
    obtain ⟨hkey, hids⟩ := hitems item hmem
    obtain ⟨old, known, row, entered, hrenew, hentry, hrow, tracked⟩ :=
      tracks.enters feeds updated hkey hids
    obtain ⟨hrequests, hbatch⟩ := Prod.ext_iff.mp (hentered item hmem known row entered hentry hrow)
    rw [collect_of_mem hnodup hmem, hrenew] at hcollect
    cases hcollect
    change after.requests item.1 = some entered.2 at hrequests
    change after.inputBatch item.1 = some entered.1 at hbatch
    exact ⟨entered.2, hrequests, hbatch ▸ tracked⟩
  · have hkey : id ∉ output.numScheduledTokens.keys := by
      rw [← feeds.order.mem_iff, ← hfst]
      exact hid
    obtain ⟨hrequests, hbatch⟩ := Prod.ext_iff.mp (hkept id hid)
    change after.requests id = next.requests id at hrequests
    change after.inputBatch id = next.inputBatch id at hbatch
    rw [collect_of_not_mem hid] at hcollect
    obtain ⟨known, hknown, tracked⟩ := tracks.left feeds updated hkey hcollect
    exact ⟨known, hrequests.trans hknown, hbatch ▸ tracked⟩

end Step

section Serve

variable {Slot : Type} {slotOf : KVCacheBlocks → Nat → Slot} {helpers : InputHelpers Slot}
  {state : Tracking}

theorem completes_of_some {id : ReqId} {request : KnownRequest} (h : served id = some request) :
    completes served output id =
      decide (request.tokens.length ≤ request.numComputedTokens + scheduledOf output id) := by
  rw [completes, h]
  rfl

/-- The valid tokens are those of the requests that are complete. -/
theorem zip_validSampledTokens {next : ModelRunner} {rows : List InputRow}
    {prepared : PreparedInputs Slot}
    (hrows : List.Forall₂ (fun id entry => ∃ request known,
      RowFor cfg state.served output next id request known entry) reqIds rows)
    (lays : prepared.LaysOut slotOf output rows) (sampled : List (List Token)) :
    reqIds.zip (validSampledTokens prepared.discardRequestIndices sampled) =
      List.zipWith
        (fun id ids => (id, if completes (renew state.served output) output id then ids else []))
        reqIds sampled := by
  apply List.ext_getElem?
  intro i
  rw [List.zip, List.getElem?_zipWith, List.getElem?_zipWith, validSampledTokens,
    List.getElem?_mapIdx]
  cases hid : reqIds[i]? with
  | none => rfl
  | some id =>
      obtain ⟨entry, hentry, request, known, row⟩ := getElem?_of_forall₂ hrows hid
      cases hids : sampled[i]? with
      | none => rfl
      | some ids =>
          have hdiscarded := lays.discarded_iff i entry hentry
          rw [row.computed_eq, row.numScheduledTokens_eq, row.numTokens_eq] at hdiscarded
          rw [Option.map_some]
          dsimp only
          rw [completes_of_some row.renew_eq]
          by_cases hin : i ∈ prepared.discardRequestIndices
          · have hlt := hdiscarded.mp hin
            rw [if_pos hin, decide_eq_false (by omega)]
            rfl
          · have hge := hdiscarded.not.mp hin
            rw [if_neg hin, decide_eq_true (by omega)]
            rfl

theorem map_forwardRow {next : ModelRunner} {rows : List InputRow}
    (hrows : List.Forall₂ (fun id entry => ∃ request known,
      RowFor cfg state.served output next id request known entry) reqIds rows) :
    rows.map InputRow.forwardRow = reqIds.map (forwardRow (renew state.served output) output) := by
  apply map_eq_map_of_forall₂
  apply hrows.imp
  rintro id entry ⟨request, known, row⟩
  rw [row.forwardRow_eq, forwardRow, row.renew_eq]
  rfl

theorem map_drafts_rows {next : ModelRunner} {rows : List InputRow}
    (hrows : List.Forall₂ (fun id entry => ∃ request known,
      RowFor cfg state.served output next id request known entry) reqIds rows) :
    (rows.map fun entry => (entry.drafts output).length + 1) =
      reqIds.map fun id => (output.specTokens id).length + 1 := by
  apply map_eq_map_of_forall₂
  apply hrows.imp
  rintro id entry ⟨request, known, row⟩
  rw [InputRow.drafts, row.reqId_eq]

/-- A step that the scheduler may ask for does not raise, does what it is asked for, and leaves
the runner with the requests as the scheduler knows them. -/
theorem Tracking.Tracks.step (documented : helpers.Documented slotOf) (tracks : state.Tracks cfg)
    (feeds : Feeds cfg state.served output reqIds sampled) :
    ∃ result, state.runner.step cfg helpers output reqIds sampled = .ok result ∧
      result.Serves slotOf (renew state.served output) output reqIds sampled ∧
      Tracking.Tracks cfg ⟨result.runner, collect (renew state.served output) result.results⟩ := by
  obtain ⟨next, hnext, updated⟩ := ModelRunner.updateStates_ok (tracks.known feeds)
  obtain ⟨rows, hinputRows, hrows⟩ := tracks.inputRows feeds updated
  obtain ⟨after, hafter, tracked⟩ := tracks.bookkept feeds updated
  have htotal := tracks.total_eq feeds updated
  unfold ModelRunner.step
  rw [hnext]
  simp only [Except.mapError, bind, Except.bind]
  by_cases hempty : reqIds = []
  · subst hempty
    have hzero : output.totalNumScheduledTokens = 0 := by simpa using htotal
    rw [List.zipWith_nil_left] at hafter
    cases hafter
    rw [if_pos hzero]
    exact ⟨_, rfl, ⟨rfl, rfl, rfl⟩, tracked⟩
  · have hne : rows ≠ [] := by
      rintro rfl
      exact hempty (List.forall₂_nil_right_iff.mp hrows)
    have hfits : ∀ entry ∈ rows, entry.Fits cfg := by
      intro entry hmem
      obtain ⟨_, _, _, row⟩ := exists_rowFor hrows hmem
      exact row.fits
    have hcovers := rows_covered feeds hrows htotal
    have hpositive : output.totalNumScheduledTokens ≠ 0 := by
      obtain ⟨entry, rest, rfl⟩ := List.exists_cons_of_ne_nil hne
      have hpos := (hfits entry List.mem_cons_self).scheduled_pos
      rw [hcovers.total, List.map_cons, List.sum_cons]
      omega
    obtain ⟨prepared, hprepared, lays⟩ := prepareInputs_ok documented hcovers hfits hne
    rw [if_neg hpositive, hinputRows]
    dsimp only
    rw [hprepared]
    dsimp only
    rw [bookkeepingSync, zip_validSampledTokens hrows lays, hafter]
    refine ⟨_, rfl, ⟨?_, ?_, ?_⟩, ?_⟩
    · dsimp only
      rw [lays.forwardInputs_eq, map_forwardRow hrows, if_neg hempty]
    · dsimp only
      rw [lays.logitsIndices_eq, map_numScheduledTokens_rows hrows, map_drafts_rows hrows]
    · exact zip_validSampledTokens hrows lays sampled
    · dsimp only
      rw [zip_validSampledTokens hrows lays]
      exact tracked

end Serve

/-! ### Runs -/

theorem Tracking.Tracks.preempt {state : Tracking} (tracks : state.Tracks cfg) (id : ReqId) :
    Tracking.Tracks cfg { state with
      served := Function.update state.served id ((state.served id).map KnownRequest.preempt) } := by
  intro other request hserved
  change Function.update state.served id _ other = some request at hserved
  by_cases hother : other = id
  · subst hother
    rw [Function.update_self] at hserved
    obtain ⟨old, hold, rfl⟩ := Option.map_eq_some_iff.mp hserved
    obtain ⟨known, hknown, tracked⟩ := tracks other old hold
    exact ⟨known, hknown, tracked.preempt⟩
  · rw [Function.update_of_ne hother] at hserved
    exact tracks other request hserved

/-- In every run the runner holds the requests as the scheduler knows them. -/
theorem Tracking.tracks_of_run {Slot : Type} {helpers : InputHelpers Slot}
    {slotOf : KVCacheBlocks → Nat → Slot} (documented : helpers.Documented slotOf)
    {state : Tracking}
    (run : (tracking cfg helpers).Run (fun state event => event.Allowed cfg state) {} state) :
    state.Tracks cfg := by
  apply run.invariant
  · intro id request hserved
    cases hserved
  · intro before event after tracks hallowed hafter
    cases event with
    | preempt id =>
        cases hafter
        exact tracks.preempt id
    | step output reqIds sampled =>
        obtain ⟨result, hresult, -, tracked⟩ := tracks.step documented hallowed
        obtain ⟨other, hother, hnext⟩ := bind_eq_ok.mp hafter
        cases hresult.symm.trans hother
        cases hnext
        exact tracked

namespace DraftRun

def config : RunnerConfig := ⟨4, 8, 1, 10⟩

def slotAt (blocks : KVCacheBlocks) (pos : Nat) : Nat :=
  (blocks.flatten.getD (pos / 2) 0) * 2 + pos % 2

def prefill : SchedulerOutput where
  scheduledNewReqs := [⟨0, [5, 6], [[3]], 0, none, []⟩]
  numScheduledTokens := Dict.empty.set 0 2
  totalNumScheduledTokens := 2

def verification : SchedulerOutput where
  scheduledCachedReqs := [⟨0, false, [[4]], 2, 1, []⟩]
  numScheduledTokens := Dict.empty.set 0 2
  totalNumScheduledTokens := 2
  scheduledSpecDecodeTokens := Dict.empty.set 0 [8]

def request : KnownRequest where
  prompt := [5, 6]
  received := []
  emitted := [7]
  numComputedTokens := 0
  blocks := [[3]]

theorem prefill_feeds : Feeds config (fun _ => none) prefill [0] [[7]] where
  nodup := by decide
  keys_iff _ := Iff.rfl
  total := by decide
  drafts_keys := by simp [prefill]
  order := List.Perm.refl _
  new := by decide
  cached := by simp [prefill]
  grants := by
    intro id hid request hrenew
    cases List.mem_singleton.mp hid
    cases hrenew
    exact ⟨by decide, by decide, by decide, by decide, by decide, by decide, by decide⟩
  sampled := .cons ⟨by decide, by decide⟩ .nil

theorem renew_verification {served : ReqId → Option KnownRequest}
    (hserved : served 0 = some request) :
    renew served verification 0 =
      some { request with numComputedTokens := 2, blocks := [[3, 4]] } := by
  change (served 0).map _ = _
  rw [hserved]
  rfl

theorem verification_feeds {served : ReqId → Option KnownRequest}
    (hserved : served 0 = some request) :
    Feeds config served verification [0] [[8, 9]] where
  nodup := by decide
  keys_iff _ := Iff.rfl
  total := by decide
  drafts_keys := by decide
  order := List.Perm.refl _
  new := by decide
  cached := by
    intro data hmem
    cases List.mem_singleton.mp hmem
    exact ⟨by decide, by decide, request, hserved, rfl, rfl, fun heq => Bool.noConfusion heq⟩
  grants := by
    intro id hid other hrenew
    cases List.mem_singleton.mp hid
    rw [renew_verification hserved] at hrenew
    cases hrenew
    exact ⟨by decide, by decide, by decide, by decide, by decide, by decide, by decide⟩
  sampled := .cons ⟨by decide, by decide⟩ .nil

end DraftRun

end VllmMlu.Worker
