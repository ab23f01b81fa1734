import VllmMlu.Worker.PagedRuns
import VllmMlu.Worker.SyncTracking

/-! Over whole runs the paged cache holds the entries of the computed tokens, though rejected
drafts are overwritten, and the hidden states that are sampled from are those of the model. -/
namespace VllmMlu.Worker
open VllmMlu.Library VllmMlu.Library.Cuts VllmMlu.Library.Packed VllmMlu.Sched

variable {Slot κ η : Type} {layout : BlockLayout Slot} {model : CausalModel Token κ η}
  {cfg : RunnerConfig} {output : SchedulerOutput} {reqIds : List ReqId}
  {sampled : List (List Token)} {served : ReqId → Option KnownRequest}

/-! ### The segments of a request -/

section Segments

variable {request : KnownRequest} {id : ReqId}
  (grant : request.Grant cfg (scheduledOf output id) (output.specTokens id))
include grant

theorem KnownRequest.length_computes :
    (request.computes output id).length = request.numComputedTokens + scheduledOf output id := by
  rw [computes, List.length_take, List.length_append, Nat.min_eq_left grant.within]

theorem KnownRequest.length_cached :
    (request.forwardRow output id).cached.length = request.numComputedTokens := by
  rw [forwardRow, List.length_take, length_computes grant, Nat.min_eq_left (Nat.le_add_right _ _)]

omit grant in
theorem KnownRequest.tokens_segment :
    ((request.forwardRow output id).segment layout).tokens = request.computes output id :=
  List.take_append_drop _ _

/-- The computed tokens are tokens of the request, none of its drafts. -/
theorem KnownRequest.cached_eq :
    (request.forwardRow output id).cached = request.tokens.take request.numComputedTokens := by
  rw [forwardRow, computes, List.take_take, Nat.min_eq_left (Nat.le_add_right _ _),
    List.take_append_of_le_length (Nat.le_of_lt grant.computed_lt)]

theorem KnownRequest.writes_iff (slot : Slot) :
    ((request.forwardRow output id).segment layout).Writes slot ↔
      ∃ pos, request.numComputedTokens ≤ pos ∧
        pos < request.numComputedTokens + scheduledOf output id ∧
        layout.slotOf request.blocks pos = slot := by
  rw [CausalModel.Segment.Writes, tokens_segment, length_computes grant]
  change (∃ pos, (request.forwardRow output id).cached.length ≤ pos ∧ _) ↔ _
  rw [length_cached grant]
  rfl

/-- A request whose tokens are not all computed has no drafts. -/
theorem KnownRequest.Grant.drafts_eq_nil
    (hprefill : request.numComputedTokens + scheduledOf output id < request.tokens.length) :
    output.specTokens id = [] := by
  by_contra hdrafts
  have hverifies := grant.verifies hdrafts
  omega

omit grant in
theorem KnownRequest.computes_prefill
    (hprefill : request.numComputedTokens + scheduledOf output id < request.tokens.length) :
    request.computes output id =
      request.tokens.take (request.numComputedTokens + scheduledOf output id) := by
  rw [computes, List.take_append_of_le_length (Nat.le_of_lt hprefill)]

theorem KnownRequest.Grant.count_eq
    (hcomplete : request.tokens.length ≤ request.numComputedTokens + scheduledOf output id) :
    request.numComputedTokens + scheduledOf output id =
      request.tokens.length + (output.specTokens id).length := by
  have hwithin := grant.within
  by_cases hdrafts : output.specTokens id = []
  · rw [hdrafts, List.length_nil] at hwithin ⊢
    omega
  · exact grant.verifies hdrafts

theorem KnownRequest.Grant.computes_complete
    (hcomplete : request.tokens.length ≤ request.numComputedTokens + scheduledOf output id) :
    request.computes output id = request.tokens ++ output.specTokens id := by
  rw [computes, grant.count_eq hcomplete, ← List.length_append, List.take_length]

end Segments

theorem forwardRow_of_some {id : ReqId} {request : KnownRequest} (h : served id = some request) :
    forwardRow served output id = request.forwardRow output id := by
  rw [forwardRow, h]
  rfl

/-! ### The cache before a step -/

theorem Tracking.Tracks.exists_renew {state : Tracking} (tracks : state.Tracks cfg)
    (feeds : Feeds cfg state.served output reqIds sampled) {id : ReqId}
    (hid : id ∈ output.numScheduledTokens.keys) :
    ∃ request, renew state.served output id = some request ∧ request.preempted = false ∧
      request.Grant cfg (scheduledOf output id) (output.specTokens id) := by
  obtain ⟨_, -, updated⟩ := ModelRunner.updateStates_ok (tracks.known feeds)
  obtain ⟨request, _, _, hrenew, -, -, loaded⟩ := tracks.loaded feeds updated hid
  exact ⟨request, hrenew, loaded.preempted_eq, feeds.grants id hid request hrenew⟩

section Ready

variable {state : PagedTracking Slot κ} (tracks : state.tracking.Tracks cfg)
  (holds : state.Holds layout model)
  (feeds : Feeds cfg state.tracking.served output reqIds sampled)
  (places : Places layout model state output reqIds sampled)

include holds feeds places in
/-- The entries of the computed tokens of a scheduled request are in the cache. -/
theorem PagedTracking.Holds.hits {id : ReqId} (hid : id ∈ output.numScheduledTokens.keys)
    {request : KnownRequest} (hrenew : renew state.tracking.served output id = some request) :
    model.Held state.kvCache (layout.slotOf request.blocks) request.tokens
      request.numComputedTokens := by
  obtain ⟨hnew, hcached, hapart⟩ := List.nodup_append.mp feeds.nodup
  rcases List.mem_append.mp ((feeds.keys_iff id).mp hid) with hmem | hmem
  · obtain ⟨data, hdata, rfl⟩ := List.mem_map.mp hmem
    rw [renew_new hnew hdata] at hrenew
    cases hrenew
    exact places.hitsNew data hdata
  · obtain ⟨data, hdata, rfl⟩ := List.mem_map.mp hmem
    obtain ⟨hlive, -, old, hserved, -, hresumed, -⟩ := feeds.cached data hdata
    rw [renew_cached hcached hdata (fun hin => hapart _ hin _ hmem rfl) hlive, hserved] at hrenew
    cases hrenew
    cases hpreempted : old.preempted with
    | true =>
        have hblocks : (old.receive data).blocks = data.newBlockIds :=
          if_pos (hresumed.trans hpreempted)
        rw [hblocks]
        exact places.hitsResumed data hdata old hserved hpreempted
    | false =>
        obtain ⟨hheld, hcapacity⟩ := holds _ _ hserved hpreempted
        have hblocks : (old.receive data).blocks = appendBlocks old.blocks data.newBlockIds := by
          rw [KnownRequest.receive, hresumed, hpreempted]
          rfl
        have hcount : (old.receive data).numComputedTokens = state.computed data.reqId := by
          change data.numComputedTokens.toNat = _
          rw [places.continues data hdata old hserved hpreempted, Int.toNat_natCast]
        rw [hcount, hblocks]
        apply hheld.congr _ rfl
        intro pos hpos
        rw [layout.grows _ _ _ (Nat.lt_of_lt_of_le hpos hcapacity)]

include tracks feeds places in
theorem segment_avoids {left right : ReqId} (hleft : left ∈ output.numScheduledTokens.keys)
    (hright : right ∈ output.numScheduledTokens.keys) (hne : left ≠ right) :
    ((forwardRow (renew state.tracking.served output) output left).segment layout).Avoids
      ((forwardRow (renew state.tracking.served output) output right).segment layout) := by
  obtain ⟨first, hfirst, -, grant⟩ := tracks.exists_renew feeds hleft
  obtain ⟨second, hsecond, hlive, other⟩ := tracks.exists_renew feeds hright
  rw [forwardRow_of_some hfirst, forwardRow_of_some hsecond]
  intro pos hpos hwrites
  rw [KnownRequest.tokens_segment, KnownRequest.length_computes other] at hpos
  obtain ⟨place, hstart, hend, heq⟩ := (KnownRequest.writes_iff grant _).mp hwrites
  apply places.apart left hleft first hfirst place hstart hend right hne.symm second hsecond hlive
    pos _ heq
  rw [if_pos hright]
  exact hpos

include tracks feeds places in
theorem segments_apart :
    CausalModel.Apart (segmentsOf layout (renew state.tracking.served output) output reqIds) := by
  refine ⟨?_, ?_⟩
  · intro segment hmem
    obtain ⟨id, hid, rfl⟩ := List.mem_map.mp hmem
    have hkey := feeds.order.subset hid
    obtain ⟨request, hrenew, -, grant⟩ := tracks.exists_renew feeds hkey
    rw [forwardRow_of_some hrenew, KnownRequest.tokens_segment,
      KnownRequest.length_computes grant]
    exact places.injective id hkey request hrenew
  · have hnodup : reqIds.Nodup :=
      feeds.order.nodup_iff.mpr output.numScheduledTokens.keys_nodup
    rw [segmentsOf, List.pairwise_map]
    apply List.Pairwise.imp_of_mem _ hnodup
    intro left right hleft hright hne
    have hfirst := feeds.order.subset hleft
    have hsecond := feeds.order.subset hright
    exact ⟨segment_avoids tracks feeds places hfirst hsecond hne,
      segment_avoids tracks feeds places hsecond hfirst hne.symm⟩

include tracks holds feeds places in
theorem segments_ready :
    model.Ready state.kvCache
      (segmentsOf layout (renew state.tracking.served output) output reqIds) := by
  intro segment hmem
  obtain ⟨id, hid, rfl⟩ := List.mem_map.mp hmem
  have hkey := feeds.order.subset hid
  obtain ⟨request, hrenew, -, grant⟩ := tracks.exists_renew feeds hkey
  have hlength : ((request.forwardRow output id).segment layout).cached.length =
      request.numComputedTokens := KnownRequest.length_cached grant
  rw [forwardRow_of_some hrenew, hlength]
  apply (holds.hits feeds places hkey hrenew).congr (fun _ _ => rfl)
  change _ = (request.forwardRow output id).cached.take _
  rw [KnownRequest.cached_eq grant, List.take_take, Nat.min_self]

end Ready

/-! ### The cache after a step -/

section Kept

variable {request : KnownRequest} {id : ReqId} {ids : List Token}
  (grant : request.Grant cfg (scheduledOf output id) (output.specTokens id))
include grant

/-- A complete request keeps what is computed of its tokens and of the accepted drafts. -/
theorem KnownRequest.Grant.take_emit
    (hcomplete : request.tokens.length ≤ request.numComputedTokens + scheduledOf output id)
    (hids : ids ≠ []) (hlength : ids.length ≤ (output.specTokens id).length + 1)
    (haccepts : ids.dropLast = (output.specTokens id).take (ids.length - 1)) {count : Nat}
    (hcount : count = request.numComputedTokens + scheduledOf output id -
      if output.specTokens id = [] then 0 else (output.specTokens id).length + 1 - ids.length) :
    (request.computes output id).take count = (request.emit ids).tokens.take count := by
  have hpos := List.length_pos_iff.mpr hids
  have hkept : count = request.tokens.length + (ids.length - 1) := by
    rw [hcount, grant.count_eq hcomplete]
    split
    · rename_i hdrafts
      rw [hdrafts, List.length_nil] at hlength ⊢
      omega
    · omega
  rw [hkept, grant.computes_complete hcomplete, KnownRequest.tokens_emit,
    List.take_length_add_append, List.take_length_add_append, ← haccepts, List.dropLast_eq_take]

theorem KnownRequest.Grant.take_results (hserved : served id = some request) (hids : ids ≠ [])
    (hlength : ids.length ≤ (output.specTokens id).length + 1)
    (haccepts : ids.dropLast = (output.specTokens id).take (ids.length - 1)) {count : Nat}
    (hcount : count = request.numComputedTokens + scheduledOf output id -
      if output.specTokens id = [] then 0 else (output.specTokens id).length + 1 -
        (if completes served output id then ids else []).length) :
    (request.computes output id).take count =
      (request.emit (if completes served output id then ids else [])).tokens.take count := by
  rw [completes_of_some hserved] at hcount ⊢
  by_cases hcomplete : request.tokens.length ≤ request.numComputedTokens + scheduledOf output id
  · rw [decide_eq_true hcomplete, if_pos rfl] at hcount ⊢
    exact grant.take_emit hcomplete hids hlength haccepts hcount
  · have hprefill := Nat.lt_of_not_le hcomplete
    rw [grant.drafts_eq_nil hprefill, if_pos rfl, Nat.sub_zero] at hcount
    rw [decide_eq_false hcomplete, if_neg Bool.false_ne_true, KnownRequest.emit_nil, hcount,
      KnownRequest.computes_prefill hprefill, List.take_take, Nat.min_self]

end Kept

section Count

variable {results : List (ReqId × List Token)} {computed : ReqId → Nat}

theorem countComputed_of_mem (hnodup : (results.map Prod.fst).Nodup)
    {result : ReqId × List Token} (hmem : result ∈ results) {request : KnownRequest}
    (hserved : served result.1 = some request) :
    countComputed served output results computed result.1 =
      request.numComputedTokens + scheduledOf output result.1 -
        if output.specTokens result.1 = [] then 0
        else (output.specTokens result.1).length + 1 - result.2.length := by
  rw [countComputed, find?_key_eq hnodup hmem]
  dsimp only
  rw [hserved]
  rfl

theorem countComputed_of_not_mem {id : ReqId} (hid : id ∉ results.map Prod.fst) :
    countComputed served output results computed id = computed id := by
  rw [countComputed, find?_key_eq_none hid]

end Count

section Results

variable {state : Tracking} {result : StepResult Slot} {slotOf : KVCacheBlocks → Nat → Slot}
  (serves : result.Serves slotOf (renew state.served output) output reqIds sampled)
  (feeds : Feeds cfg state.served output reqIds sampled)
include serves feeds

theorem StepResult.Serves.map_fst_results : result.results.map Prod.fst = reqIds := by
  rw [serves.results]
  exact Worker.map_fst_results feeds

theorem StepResult.Serves.nodup_results : (result.results.map Prod.fst).Nodup := by
  rw [serves.map_fst_results feeds, feeds.order.nodup_iff]
  exact output.numScheduledTokens.keys_nodup

end Results

section Advance

variable {state : PagedTracking Slot κ} (tracks : state.tracking.Tracks cfg)
  (holds : state.Holds layout model)
  (feeds : Feeds cfg state.tracking.served output reqIds sampled)
  (places : Places layout model state output reqIds sampled)

include feeds places in
theorem exists_result (served : ReqId → Option KnownRequest) {id : ReqId} (hid : id ∈ reqIds) :
    ∃ ids, (id, if completes served output id then ids else []) ∈ List.zipWith
        (fun id ids => (id, if completes served output id then ids else [])) reqIds sampled ∧
      (∃ i : Nat, reqIds[i]? = some id ∧ sampled[i]? = some ids) ∧ ids ≠ [] ∧
      ids.length ≤ (output.specTokens id).length + 1 ∧
      ids.dropLast = (output.specTokens id).take (ids.length - 1) := by
  obtain ⟨i, hi⟩ := List.mem_iff_getElem?.mp hid
  obtain ⟨ids, hids, hne, hlength⟩ := getElem?_of_forall₂ feeds.sampled hi
  obtain ⟨other, hother, haccepts⟩ := getElem?_of_forall₂ places.accepts hi
  cases hids.symm.trans hother
  refine ⟨ids, ?_, ⟨i, hi, hids⟩, hne, hlength, haccepts⟩
  apply List.mem_of_getElem?
  rw [List.getElem?_zipWith, hi, hids]

include tracks holds feeds places in
/-- What the model adds to the cache leaves it with the entries of the computed tokens. -/
theorem PagedTracking.Holds.step {result : StepResult Slot}
    (serves : result.Serves layout.slotOf (renew state.tracking.served output) output reqIds
      sampled)
    {cache : Slot → Option κ} {hiddens : List η}
    (advances : model.Advances
      (segmentsOf layout (renew state.tracking.served output) output reqIds) state.kvCache cache
      hiddens) :
    PagedTracking.Holds layout model
      ⟨⟨result.runner, collect (renew state.tracking.served output) result.results⟩, cache,
        countComputed (renew state.tracking.served output) output result.results
          state.computed⟩ := by
  have hfst := serves.map_fst_results feeds
  have hnodup := serves.nodup_results feeds
  intro id request hcollect hlive
  change collect _ result.results id = some request at hcollect
  change model.Held cache (layout.slotOf request.blocks) request.tokens
    (countComputed _ output result.results state.computed id) ∧
      countComputed _ output result.results state.computed id ≤ layout.capacity request.blocks
  by_cases hid : id ∈ reqIds
  · have hkey := feeds.order.subset hid
    obtain ⟨old, hrenew, -, grant⟩ := tracks.exists_renew feeds hkey
    obtain ⟨ids, hmem, -, hne, hlength, haccepts⟩ :=
      exists_result feeds places (renew state.tracking.served output) hid
    rw [← serves.results] at hmem
    have hcount := @countComputed_of_mem output _ _ state.computed hnodup _ hmem _ hrenew
    have hheld := advances.held _ (List.mem_map_of_mem hid)
    rw [forwardRow_of_some hrenew, KnownRequest.tokens_segment,
      KnownRequest.length_computes grant] at hheld
    rw [collect_of_mem hnodup hmem, hrenew] at hcollect
    cases hcollect
    refine ⟨?_, ?_⟩
    · rw [hcount]
      apply (hheld.mono (Nat.sub_le _ _)).congr (fun _ _ => rfl)
      exact grant.take_results hrenew hne hlength haccepts rfl
    · rw [hcount]
      exact (Nat.sub_le _ _).trans (places.covered id hkey old hrenew)
  · have hkey : id ∉ output.numScheduledTokens.keys := feeds.order.mem_iff.not.mp hid
    rw [← hfst] at hid
    rw [collect_of_not_mem hid] at hcollect
    rw [countComputed_of_not_mem hid]
    have hrenew := hcollect
    rw [renew_others ((feeds.keys_iff id).not.mp hkey)] at hrenew
    by_cases hfinished : id ∈ output.finishedReqIds
    · rw [if_pos hfinished] at hrenew
      cases hrenew
    · rw [if_neg hfinished] at hrenew
      obtain ⟨old, hserved, rfl⟩ := Option.map_eq_some_iff.mp hrenew
      obtain ⟨hheld, hcapacity⟩ := holds id old hserved hlive
      refine ⟨hheld.congr ?_ rfl, hcapacity⟩
      intro pos hpos
      apply advances.kept
      intro segment hmem hwrites
      obtain ⟨other, hother, rfl⟩ := List.mem_map.mp hmem
      have hotherKey := feeds.order.subset hother
      obtain ⟨first, hfirst, -, grant⟩ := tracks.exists_renew feeds hotherKey
      rw [forwardRow_of_some hfirst] at hwrites
      obtain ⟨place, hstart, hend, heq⟩ := (KnownRequest.writes_iff grant _).mp hwrites
      have hne : id ≠ other := by
        rintro rfl
        exact hkey hotherKey
      apply places.apart other hotherKey first hfirst place hstart hend id hne old.leave hcollect
        hlive pos _ heq
      rw [if_neg hkey]
      exact hpos

include tracks holds feeds places in
/-- The forward pass of a step advances over its segments. -/
theorem exists_advances {forward : ForwardPass Slot κ η} (computes : forward.Computes layout model)
    {result : StepResult Slot}
    (serves : result.Serves layout.slotOf (renew state.tracking.served output) output reqIds
      sampled) :
    ∃ hiddens, model.Advances
        (segmentsOf layout (renew state.tracking.served output) output reqIds) state.kvCache
        (result.forward.elim state.kvCache fun inputs => (forward inputs state.kvCache).1)
        hiddens ∧
      ∀ inputs ∈ result.forward, (forward inputs state.kvCache).2 = hiddens := by
  by_cases hempty : reqIds = []
  · subst hempty
    rw [serves.forward, if_pos rfl]
    exact ⟨[], ⟨by simp [segmentsOf], fun _ _ => rfl, rfl⟩, by simp⟩
  · have hadvances := computes
      (reqIds.map (forwardRow (renew state.tracking.served output) output)) state.kvCache
    have hsegments : (reqIds.map (forwardRow (renew state.tracking.served output) output)).map
        (ForwardRow.segment layout) =
          segmentsOf layout (renew state.tracking.served output) output reqIds := List.map_map
    rw [hsegments] at hadvances
    rw [serves.forward, if_neg hempty]
    refine ⟨_, hadvances (segments_apart tracks feeds places)
      (segments_ready tracks holds feeds places), ?_⟩
    intro inputs hinputs
    cases hinputs
    rfl

end Advance

/-! ### The hidden states -/

theorem mapM_pyIndex {α : Type} {values : List α} {indices : List Nat} {result : List α}
    (h : indices.mapM (fun i => values[i]?) = some result) :
    (indices.map Int.ofNat).mapM (pyIndex values) = .ok result := by
  induction indices generalizing result with
  | nil =>
      cases h
      rfl
  | cons i rest ih =>
      rw [List.mapM_cons] at h
      obtain ⟨value, hvalue, h⟩ := Option.bind_eq_some_iff.mp h
      obtain ⟨others, hothers, h⟩ := Option.bind_eq_some_iff.mp h
      cases h
      have hfirst : pyIndex values (Int.ofNat i) = .ok value := by
        simp [pyIndex, hvalue]
      rw [List.map_cons, List.mapM_cons, hfirst, ih hothers]
      rfl

/-- The hidden states of the tokens that a step computes for a request. -/
def freshHiddens (model : CausalModel Token κ η) (served : ReqId → Option KnownRequest)
    (output : SchedulerOutput) (id : ReqId) : List η :=
  (served id).elim [] fun request =>
    (model.hiddens (request.computes output id)).drop request.numComputedTokens

section Hiddens

variable {state : Tracking} (tracks : state.Tracks cfg)
  (feeds : Feeds cfg state.served output reqIds sampled)
include tracks feeds

theorem flatMap_segmentsOf :
    ((segmentsOf layout (renew state.served output) output reqIds).flatMap
        fun segment => (model.hiddens segment.tokens).drop segment.cached.length) =
      (reqIds.map (freshHiddens model (renew state.served output) output)).flatten := by
  rw [segmentsOf, List.flatMap_map, List.flatMap_def]
  congr 1
  apply List.map_congr_left
  intro id hid
  obtain ⟨request, hrenew, -, grant⟩ := tracks.exists_renew feeds (feeds.order.subset hid)
  have hlength : ((request.forwardRow output id).segment layout).cached.length =
      request.numComputedTokens := KnownRequest.length_cached grant
  rw [forwardRow_of_some hrenew, KnownRequest.tokens_segment, hlength, freshHiddens, hrenew]
  rfl

theorem length_freshHiddens {id : ReqId} (hid : id ∈ reqIds) :
    (freshHiddens model (renew state.served output) output id).length = scheduledOf output id := by
  obtain ⟨request, hrenew, -, grant⟩ := tracks.exists_renew feeds (feeds.order.subset hid)
  rw [freshHiddens, hrenew, Option.elim_some, List.length_drop, CausalModel.length_hiddens,
    KnownRequest.length_computes grant, Nat.add_sub_cancel_left]

theorem drop_freshHiddens {id : ReqId} (hid : id ∈ reqIds) :
    (freshHiddens model (renew state.served output) output id).drop
        (scheduledOf output id - ((output.specTokens id).length + 1)) =
      sampleHiddens model (renew state.served output) output id := by
  obtain ⟨request, hrenew, -, grant⟩ := tracks.exists_renew feeds (feeds.order.subset hid)
  have hdrafts := grant.drafts_lt
  rw [freshHiddens, sampleHiddens, hrenew, Option.elim_some, Option.elim_some, List.drop_drop,
    KnownRequest.length_computes grant, Nat.add_sub_assoc hdrafts]

/-- The last hidden states of each segment, one more than its drafts, are those of the model after
the tokens that are sampled from. -/
theorem mapM_sampleHiddens :
    ((ends (startLocs (reqIds.map (scheduledOf output))).tail
        (reqIds.map fun id => (output.specTokens id).length + 1)).map Int.ofNat).mapM
      (pyIndex (reqIds.map (freshHiddens model (renew state.served output) output)).flatten) =
      .ok (reqIds.flatMap (sampleHiddens model (renew state.served output) output)) := by
  have hlengths : reqIds.map (scheduledOf output) =
      (reqIds.map (freshHiddens model (renew state.served output) output)).map List.length := by
    rw [List.map_map]
    apply List.map_congr_left
    intro id hid
    exact (length_freshHiddens tracks feeds hid).symm
  have hle : List.Forall₂ (· ≤ ·) (reqIds.map fun id => (output.specTokens id).length + 1)
      ((reqIds.map (freshHiddens model (renew state.served output) output)).map List.length) := by
    rw [← hlengths, List.forall₂_map_left_iff, List.forall₂_map_right_iff, List.forall₂_same]
    intro id hid
    obtain ⟨_, -, -, grant⟩ := tracks.exists_renew feeds (feeds.order.subset hid)
    exact grant.drafts_lt
  apply mapM_pyIndex
  rw [hlengths, mapM_ends hle, List.zipWith_map, List.zipWith_self, List.flatMap_def]
  congr 2
  apply List.map_congr_left
  intro id hid
  rw [length_freshHiddens tracks feeds hid, drop_freshHiddens tracks feeds hid]

end Hiddens

/-! ### Runs -/

section Runs

variable {helpers : InputHelpers Slot} {forward : ForwardPass Slot κ η}
  {state : PagedTracking Slot κ}

/-- What a step keeps. -/
theorem PagedTracking.step_keeps (documented : helpers.Documented layout.slotOf)
    (computes : forward.Computes layout model) {event : TrackingEvent}
    {after : PagedTracking Slot κ} (tracks : state.tracking.Tracks cfg)
    (holds : state.Holds layout model) (hallowed : state.Allowed cfg layout model event)
    (hafter : (pagedTracking cfg helpers forward).step state event = .ok after) :
    after.tracking.Tracks cfg ∧ after.Holds layout model := by
  cases event with
  | preempt id =>
      cases hafter
      refine ⟨tracks.preempt id, ?_⟩
      intro other request hserved hlive
      change Function.update state.tracking.served id _ other = some request at hserved
      by_cases hother : other = id
      · subst hother
        rw [Function.update_self] at hserved
        obtain ⟨old, -, rfl⟩ := Option.map_eq_some_iff.mp hserved
        cases hlive
      · rw [Function.update_of_ne hother] at hserved
        exact holds other request hserved hlive
  | step output reqIds sampled =>
      obtain ⟨feeds, places⟩ := hallowed
      obtain ⟨result, hresult, serves, tracked⟩ := tracks.step documented feeds
      obtain ⟨hiddens, advances, -⟩ := exists_advances tracks holds feeds places computes serves
      obtain ⟨other, hother, hnext⟩ := bind_eq_ok.mp hafter
      cases hresult.symm.trans hother
      cases hnext
      exact ⟨tracked, holds.step tracks feeds places serves advances⟩

theorem PagedTracking.holds_of_run (documented : helpers.Documented layout.slotOf)
    (computes : forward.Computes layout model)
    (run : (pagedTracking cfg helpers forward).Run
      (fun state event => state.Allowed cfg layout model event) {} state) :
    state.tracking.Tracks cfg ∧ state.Holds layout model := by
  apply run.invariant
  · refine ⟨?_, ?_⟩
    all_goals
      intro id request hserved
      cases hserved
  · rintro before event after ⟨tracks, holds⟩ hallowed hafter
    exact step_keeps documented computes tracks holds hallowed hafter

theorem PagedTracking.exists_step (documented : helpers.Documented layout.slotOf)
    (tracks : state.tracking.Tracks cfg)
    (feeds : Feeds cfg state.tracking.served output reqIds sampled) :
    ∃ after, (pagedTracking cfg helpers forward).step state (.step output reqIds sampled) =
        .ok after ∧
      after.tracking.served = collect (renew state.tracking.served output) (List.zipWith
        (fun id ids => (id, if completes (renew state.tracking.served output) output id
          then ids else [])) reqIds sampled) ∧
      after.computed = countComputed (renew state.tracking.served output) output (List.zipWith
        (fun id ids => (id, if completes (renew state.tracking.served output) output id
          then ids else [])) reqIds sampled) state.computed := by
  obtain ⟨result, hresult, serves, -⟩ := tracks.step documented feeds
  refine ⟨{
    tracking := ⟨result.runner, collect (renew state.tracking.served output) result.results⟩
    kvCache := result.forward.elim state.kvCache fun inputs => (forward inputs state.kvCache).1
    computed := countComputed (renew state.tracking.served output) output result.results
      state.computed }, ?_, ?_, ?_⟩
  · change (state.tracking.runner.step _ _ _ _ _ >>= _) = _
    rw [hresult]
    rfl
  · rw [← serves.results]
  · rw [← serves.results]

/-- The hidden states that a step samples from. -/
theorem PagedTracking.samples_from (documented : helpers.Documented layout.slotOf)
    (computes : forward.Computes layout model) (tracks : state.tracking.Tracks cfg)
    (holds : state.Holds layout model)
    (feeds : Feeds cfg state.tracking.served output reqIds sampled)
    (places : Places layout model state output reqIds sampled) :
    ∃ result, state.tracking.runner.step cfg helpers output reqIds sampled = .ok result ∧
      result.Serves layout.slotOf (renew state.tracking.served output) output reqIds sampled ∧
      ∀ inputs ∈ result.forward,
        result.logitsIndices.mapM (pyIndex (forward inputs state.kvCache).2) = .ok
          (reqIds.flatMap (sampleHiddens model (renew state.tracking.served output) output)) := by
  obtain ⟨result, hresult, serves, -⟩ := tracks.step documented feeds
  obtain ⟨hiddens, advances, hforward⟩ :=
    exists_advances tracks holds feeds places computes serves
  refine ⟨result, hresult, serves, fun inputs hinputs => ?_⟩
  rw [hforward inputs hinputs, advances.hiddens_eq, flatMap_segmentsOf tracks feeds,
    serves.logitsIndices]
  exact mapM_sampleHiddens tracks feeds

end Runs

/-! ### The forward pass token by token -/

theorem splitLengths_flatMap {ι α : Type} {num : ι → Nat} {part : ι → List α} {items : List ι}
    (h : ∀ item ∈ items, (part item).length = num item) :
    (items.map num).splitLengths (items.flatMap part) = items.map part := by
  induction items with
  | nil => rfl
  | cons item rest ih =>
      rw [List.map_cons, List.flatMap_cons, List.splitLengths_cons, ← h item List.mem_cons_self,
        List.take_left, List.drop_left, ih fun other hmem => h other (List.mem_cons_of_mem _ hmem)]
      rfl

theorem ForwardInputs.segments_ofRows (slotOf : KVCacheBlocks → Nat → Slot)
    (rows : List ForwardRow) :
    (ForwardInputs.ofRows slotOf rows).segments slotOf =
      rows.map fun row => ⟨.replicate row.cached.length 0, row.fresh, slotOf row.blockTable⟩ := by
  rw [segments, ofRows]
  dsimp only
  rw [diffs_startLocs, splitLengths_flatMap fun _ _ => rfl, List.zip_map', List.zipWith_map,
    List.zipWith_self]
  apply List.map_congr_left
  intro row _
  rw [Int.toNat_natCast, Nat.add_sub_cancel]

theorem runForward_computes [DecidableEq Slot] (layout : BlockLayout Slot)
    (model : CausalModel Token κ η) : (runForward layout model).Computes layout model := by
  intro rows cache apart ready
  have hrun : runForward layout model (.ofRows layout.slotOf rows) cache =
      model.runSegments (rows.map (ForwardRow.segment layout)) cache := by
    rw [runForward, ForwardInputs.segments_ofRows]
    apply CausalModel.runSegments_congr
    rw [List.forall₂_map_left_iff, List.forall₂_map_right_iff, List.forall₂_same]
    exact fun row _ => ⟨List.length_replicate, rfl, rfl⟩
  rw [hrun]
  exact CausalModel.runSegments_advances apart ready

/-! ### A prefill and the verification of a draft, with blocks of two -/

namespace DraftRun

def twoSlotBlocks : BlockLayout Nat := .firstGroup 2

def runningSums : CausalModel Token Int Int where
  entry entries token := entries.sum + token
  hidden entries token := 10 * entries.sum + token

def forward : ForwardPass Nat Int Int := runForward twoSlotBlocks runningSums

theorem renew_prefill_of_ne {id : ReqId} (hid : id ≠ 0) :
    renew (fun _ => none) prefill id = none := by
  rw [renew_others (by simpa [prefill] using hid)]
  rfl

theorem prefill_places : Places twoSlotBlocks runningSums {} prefill [0] [[7]] where
  continues := by simp [prefill]
  hitsNew := by
    intro data hmem
    cases List.mem_singleton.mp hmem
    exact fun pos hpos => absurd hpos (Nat.not_lt_zero pos)
  hitsResumed := by simp [prefill]
  covered := by
    intro id hid request hrenew
    cases List.mem_singleton.mp hid
    cases hrenew
    decide
  injective := by
    intro id hid request hrenew pos other hpos hother
    cases List.mem_singleton.mp hid
    cases hrenew
    have hall : ∀ pos < 2, ∀ other < 2,
        twoSlotBlocks.slotOf [[3]] pos = twoSlotBlocks.slotOf [[3]] other → pos = other := by decide
    exact hall pos hpos other hother
  apart := by
    intro id hid request hrenew pos _ _ other hne second hsecond
    cases List.mem_singleton.mp hid
    cases (renew_prefill_of_ne hne).symm.trans hsecond
  accepts := .cons rfl .nil

theorem verification_places {state : PagedTracking Nat Int}
    (hserved : state.tracking.served 0 = some request)
    (hothers : ∀ id, id ≠ 0 → state.tracking.served id = none) (hcomputed : state.computed 0 = 2) :
    Places twoSlotBlocks runningSums state verification [0] [[8, 9]] where
  continues := by
    intro data hmem _ _ _
    cases List.mem_singleton.mp hmem
    rw [hcomputed]
    rfl
  hitsNew := by simp [verification]
  hitsResumed := by
    intro data hmem other hother hpreempted
    cases List.mem_singleton.mp hmem
    change state.tracking.served 0 = some other at hother
    cases hserved.symm.trans hother
    cases hpreempted
  covered := by
    intro id hid other hrenew
    cases List.mem_singleton.mp hid
    rw [renew_verification hserved] at hrenew
    cases hrenew
    decide
  injective := by
    intro id hid other hrenew pos place hpos hplace
    cases List.mem_singleton.mp hid
    rw [renew_verification hserved] at hrenew
    cases hrenew
    have hall : ∀ pos < 4, ∀ place < 4,
        twoSlotBlocks.slotOf [[3, 4]] pos = twoSlotBlocks.slotOf [[3, 4]] place → pos = place := by
      decide
    exact hall pos hpos place hplace
  apart := by
    intro id hid other hrenew pos _ _ place hne second hsecond
    cases List.mem_singleton.mp hid
    rw [renew_others (by simpa [verification] using hne), hothers place hne] at hsecond
    cases hsecond
  accepts := .cons rfl .nil

theorem forward_computes : forward.Computes twoSlotBlocks runningSums := runForward_computes _ _

theorem tracks_start : Tracking.Tracks config {} := by
  intro id request hserved
  cases hserved

/-- The state after the prefill. -/
theorem exists_prefilled :
    ∃ state, (pagedTracking config (.plain twoSlotBlocks.slotOf) forward).step {}
        (.step prefill [0] [[7]]) = .ok state ∧
      state.tracking.served 0 = some request ∧
      (∀ id, id ≠ 0 → state.tracking.served id = none) ∧ state.computed 0 = 2 := by
  have documented := InputHelpers.plain_documented twoSlotBlocks.slotOf
  obtain ⟨state, hstep, hserved, hcomputed⟩ := @PagedTracking.exists_step Nat Int Int
    twoSlotBlocks config prefill [0] [[7]] _ forward {} documented tracks_start prefill_feeds
  refine ⟨state, hstep, ?_, ?_, ?_⟩
  · rw [hserved]
    rfl
  · intro id hid
    have hresult : id ∉ [((0 : ReqId), [(7 : Token)])].map Prod.fst := by simpa using hid
    rw [hserved]
    exact (collect_of_not_mem hresult).trans (renew_prefill_of_ne hid)
  · rw [hcomputed]
    rfl

end DraftRun

end VllmMlu.Worker
