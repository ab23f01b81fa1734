import VllmMlu.Library.Pointwise
import VllmMlu.Worker.ModelRunner

/-! `_update_states` without asynchronous scheduling: what becomes of each request. -/
namespace VllmMlu.Worker
open VllmMlu.Library VllmMlu.Sched

variable {output : SchedulerOutput} {runner : ModelRunner}

/-- The state of a new request. -/
def CachedRequestState.ofNew (data : NewRequestData) : CachedRequestState where
  promptTokenIds := data.promptTokenIds
  outputTokenIds := data.newTokenIds
  blockIds := data.blockIds
  numComputedTokens := data.numComputedTokens

/-- The state of a running or resumed request after the scheduler's data. -/
def CachedRequestState.receive (data : CachedRequestData) (state : CachedRequestState) :
    CachedRequestState :=
  StatesPass.recover data { state with numComputedTokens := data.numComputedTokens }

/-- The row of a request that joins the batch. -/
def Row.joining (state : CachedRequestState) (specTokenIds : List Token) : Row :=
  let row := Row.ofRequest state
  { row.write row.numTokens specTokenIds with numTokens := row.numTokens + specTokenIds.length }

/-- The row of a request that stays in the batch. -/
def Row.staying (data : CachedRequestData) (state : CachedRequestState) (specTokenIds : List Token)
    (row : Row) : Row :=
  (row.align state data.numOutputTokens).update data data.numComputedTokens specTokenIds

/-- The scheduler output is about requests that the runner knows, each at most once. -/
structure ModelRunner.Known (runner : ModelRunner) (output : SchedulerOutput) : Prop where
  nodup : (output.scheduledNewReqs.map NewRequestData.reqId ++
    output.scheduledCachedReqs.map CachedRequestData.reqId).Nodup
  keys_iff : ∀ id, id ∈ output.numScheduledTokens.keys ↔
    id ∈ output.scheduledNewReqs.map NewRequestData.reqId ++
      output.scheduledCachedReqs.map CachedRequestData.reqId
  cached : ∀ data ∈ output.scheduledCachedReqs, data.reqId ∉ output.finishedReqIds ∧
    ∃ state, runner.requests data.reqId = some state ∧ state.prevNumDraftLen = 0
  resumed : ∀ data ∈ output.scheduledCachedReqs, data.resumed = true →
    runner.inputBatch data.reqId = none

/-- The requests and rows after `_update_states`. -/
structure ModelRunner.Updated (runner next : ModelRunner) (output : SchedulerOutput) : Prop where
  new : ∀ data ∈ output.scheduledNewReqs,
    next.requests data.reqId = some (.ofNew data) ∧
      next.inputBatch data.reqId = some (.joining (.ofNew data) (output.specTokens data.reqId))
  cached : ∀ data ∈ output.scheduledCachedReqs, ∀ state,
    runner.requests data.reqId = some state →
    next.requests data.reqId = some (state.receive data) ∧
      next.inputBatch data.reqId = some ((runner.inputBatch data.reqId).elim
        (.joining (state.receive data) (output.specTokens data.reqId))
        (.staying data state (output.specTokens data.reqId)))
  others : ∀ id ∉ output.numScheduledTokens.keys,
    next.requests id = (if id ∈ output.finishedReqIds then none else runner.requests id) ∧
      next.inputBatch id = none

/-- What `_update_states` reads and writes of a request. -/
def StatesPass.view (pass : StatesPass) (id : ReqId) :
    Option CachedRequestState × Option Row × Prop :=
  (pass.runner.requests id, pass.runner.inputBatch id, id ∈ pass.reqsToAdd)

theorem StatesPass.view_eq {pass next : StatesPass} {id : ReqId}
    (hrequests : next.runner.requests id = pass.runner.requests id)
    (hrow : next.runner.inputBatch id = pass.runner.inputBatch id)
    (hadd : id ∈ next.reqsToAdd ↔ id ∈ pass.reqsToAdd) : next.view id = pass.view id := by
  simp [view, hrequests, hrow, hadd]

@[simp] theorem ModelRunner.requests_setState_self {id : ReqId} {state : CachedRequestState} :
    (runner.setState id state).requests id = some state := by
  simp [setState]

@[simp] theorem ModelRunner.requests_setState_of_ne {id other : ReqId}
    {state : CachedRequestState} (hne : other ≠ id) :
    (runner.setState id state).requests other = runner.requests other := by
  simp [setState, hne]

@[simp] theorem ModelRunner.inputBatch_setState {id : ReqId} {state : CachedRequestState} :
    (runner.setState id state).inputBatch = runner.inputBatch := rfl

@[simp] theorem ModelRunner.inputBatch_setRow_self {id : ReqId} {row : Row} :
    (runner.setRow id row).inputBatch id = some row := by
  simp [setRow]

@[simp] theorem ModelRunner.inputBatch_setRow_of_ne {id other : ReqId} {row : Row}
    (hne : other ≠ id) : (runner.setRow id row).inputBatch other = runner.inputBatch other := by
  simp [setRow, hne]

@[simp] theorem ModelRunner.requests_setRow {id : ReqId} {row : Row} :
    (runner.setRow id row).requests = runner.requests := rfl

namespace StatesPass

variable {pass : StatesPass}

@[simp] theorem recover_numComputedTokens (data : CachedRequestData)
    (state : CachedRequestState) :
    (recover data state).numComputedTokens = state.numComputedTokens := by
  simp only [recover, CachedRequestState.align]
  split <;> rfl

/-- A turn of the loop over the running and resumed requests. -/
theorem updateCached_view {data : CachedRequestData} {state : CachedRequestState}
    (hstate : pass.runner.requests data.reqId = some state) (hprev : state.prevNumDraftLen = 0)
    (hresumed : data.resumed = true → pass.runner.inputBatch data.reqId = none) :
    ∃ next, pass.updateCached false data = .ok next ∧ next.output = pass.output ∧
      next.reqsToAdd = pass.reqsToAdd ++
        (if (pass.runner.inputBatch data.reqId).isNone then [data.reqId] else []) ∧
      next.runner.requests data.reqId = some (state.receive data) ∧
      next.runner.inputBatch data.reqId = (pass.runner.inputBatch data.reqId).map
        (.staying data state (pass.output.specTokens data.reqId)) ∧
      ∀ other, other ≠ data.reqId → next.view other = pass.view other := by
  unfold updateCached ModelRunner.correct
  rw [hstate]
  dsimp only
  rw [if_pos hprev]
  dsimp only
  cases hrow : pass.runner.inputBatch data.reqId with
  | none =>
      refine ⟨_, rfl, rfl, rfl, ?_, ?_, fun other hne => ?_⟩
      · simp [readd, CachedRequestState.receive]
      · simp [readd, hrow]
      · exact view_eq (by simp [readd, hne]) rfl (by simp [readd, hne])
  | some row =>
      have hkept : data.resumed = false := by
        cases hcase : data.resumed with
        | false => rfl
        | true => rw [hresumed hcase] at hrow; cases hrow
      simp only [hkept, Bool.false_eq_true, if_false]
      refine ⟨_, rfl, rfl, by simp [keep], ?_, ?_, fun other hne => ?_⟩
      · simp [keep, CachedRequestState.receive]
      · simp only [keep, Bool.false_eq_true, if_false, ModelRunner.inputBatch_setState,
          ModelRunner.inputBatch_setRow_self, recover_numComputedTokens, Option.map_some]
        rfl
      · exact view_eq (by simp [keep, hne]) (by simp [keep, hne]) (by simp [keep])

/-- A request joins the batch from its state. -/
theorem addToBatch_view {id : ReqId} {state : CachedRequestState}
    (hstate : pass.runner.requests id = some state) :
    (pass.addToBatch id).output = pass.output ∧
      (pass.addToBatch id).runner.requests = pass.runner.requests ∧
      (pass.addToBatch id).runner.inputBatch id =
        some (.joining state (pass.output.specTokens id)) ∧
      ∀ other, other ≠ id →
        (pass.addToBatch id).runner.inputBatch other = pass.runner.inputBatch other := by
  unfold addToBatch
  rw [hstate]
  refine ⟨rfl, rfl, ?_, fun other hne => ?_⟩
  · simp [Row.joining]
  · simp [hne]

theorem foldl_addNew (hnodup : (output.scheduledNewReqs.map NewRequestData.reqId).Nodup) :
    let next := output.scheduledNewReqs.foldl addNew
      { runner := runner.removeRequests output, output := output }
    (next.output = output ∧
      next.runner.inputBatch = (runner.removeRequests output).inputBatch) ∧
    next.reqsToAdd = output.scheduledNewReqs.map NewRequestData.reqId ∧
    (∀ data ∈ output.scheduledNewReqs, next.runner.requests data.reqId = some (.ofNew data)) ∧
    ∀ id, id ∉ output.scheduledNewReqs.map NewRequestData.reqId →
      next.runner.requests id = (runner.removeRequests output).requests id := by
  intro next
  have hfold := @foldl_pointwise StatesPass NewRequestData ReqId (Option CachedRequestState)
    NewRequestData.reqId (fun pass id => pass.runner.requests id)
    (fun pass => pass.output = output ∧
      pass.runner.inputBatch = (runner.removeRequests output).inputBatch) addNew
    (fun data _ after => after = some (.ofNew data))
    (fun pass data hinv => ⟨hinv, by simp [addNew, CachedRequestState.ofNew],
      fun other hne => by simp [addNew, hne]⟩) output.scheduledNewReqs hnodup
    { runner := runner.removeRequests output, output := output } ⟨rfl, rfl⟩
  have hadds : ∀ (datas : List NewRequestData) (pass : StatesPass),
      (datas.foldl addNew pass).reqsToAdd =
        pass.reqsToAdd ++ datas.map NewRequestData.reqId := by
    intro datas
    induction datas with
    | nil => simp
    | cons data rest ih =>
        intro pass
        rw [List.foldl_cons, ih, addNew]
        simp
  exact ⟨hfold.1, hadds _ _, hfold.2⟩

/-- The state of a request, its row, and whether it is to be added to the batch. -/
theorem foldlM_updateCached {pass : StatesPass} (houtput : pass.output = output)
    (hadd : pass.reqsToAdd.Nodup)
    (hnodup : (output.scheduledCachedReqs.map CachedRequestData.reqId).Nodup)
    (hready : ∀ data ∈ output.scheduledCachedReqs, data.reqId ∉ pass.reqsToAdd ∧
      (∃ state, pass.runner.requests data.reqId = some state ∧ state.prevNumDraftLen = 0) ∧
      (data.resumed = true → pass.runner.inputBatch data.reqId = none)) :
    ∃ next, output.scheduledCachedReqs.foldlM (updateCached false) pass = .ok next ∧
      next.output = output ∧ next.reqsToAdd.Nodup ∧
      (∀ data ∈ output.scheduledCachedReqs, ∀ state,
        pass.runner.requests data.reqId = some state →
        next.runner.requests data.reqId = some (state.receive data) ∧
          next.runner.inputBatch data.reqId = (pass.runner.inputBatch data.reqId).map
            (.staying data state (output.specTokens data.reqId)) ∧
          (data.reqId ∈ next.reqsToAdd ↔ pass.runner.inputBatch data.reqId = none)) ∧
      ∀ id, id ∉ output.scheduledCachedReqs.map CachedRequestData.reqId →
        next.view id = pass.view id := by
  obtain ⟨next, hnext, ⟨houtput, hadd⟩, heffect, hkept⟩ := @foldlM_pointwise Error StatesPass
    CachedRequestData ReqId (Option CachedRequestState × Option Row × Prop)
    CachedRequestData.reqId view (fun pass => pass.output = output ∧ pass.reqsToAdd.Nodup)
    (updateCached false)
    (fun data before => ¬before.2.2 ∧
      (∃ state, before.1 = some state ∧ state.prevNumDraftLen = 0) ∧
      (data.resumed = true → before.2.1 = none))
    (fun data before after => ∀ state, before.1 = some state →
      after.1 = some (state.receive data) ∧
        after.2.1 = before.2.1.map (.staying data state (output.specTokens data.reqId)) ∧
        (after.2.2 ↔ before.2.1 = none))
    (by
      rintro pass data ⟨houtput, hadd⟩ ⟨hfresh, ⟨state, hstate, hprev⟩, hresumed⟩
      obtain ⟨next, hnext, hsame, hadds, hrequests, hrow, hothers⟩ :=
        updateCached_view hstate hprev hresumed
      refine ⟨next, hnext, ⟨hsame.trans houtput, ?_⟩, ?_, hothers⟩
      · rw [hadds, List.nodup_append]
        refine ⟨hadd, by split <;> simp, ?_⟩
        intro id hid other hother heq
        have hdata : other = data.reqId := by
          split at hother <;> simp at hother
          exact hother
        exact hfresh (hdata ▸ heq ▸ hid)
      · intro other hother
        cases hstate.symm.trans hother
        refine ⟨hrequests, by rw [← houtput]; exact hrow, ?_⟩
        change data.reqId ∈ next.reqsToAdd ↔ _
        have hfresh : data.reqId ∉ pass.reqsToAdd := hfresh
        rw [hadds, List.mem_append, or_iff_right hfresh]
        change _ ↔ pass.runner.inputBatch data.reqId = none
        split <;> simp_all)
    output.scheduledCachedReqs hnodup pass ⟨houtput, hadd⟩ hready
  exact ⟨next, hnext, houtput, hadd, heffect, hkept⟩

theorem foldl_addToBatch {pass : StatesPass} (houtput : pass.output = output)
    {ids : List ReqId} (hnodup : ids.Nodup) :
    let next := ids.foldl addToBatch pass
    (next.output = output ∧ next.runner.requests = pass.runner.requests) ∧
      (∀ id ∈ ids, ∀ state, pass.runner.requests id = some state →
        next.runner.inputBatch id = some (.joining state (output.specTokens id))) ∧
      ∀ id, id ∉ ids → next.runner.inputBatch id = pass.runner.inputBatch id := by
  intro next
  have hfold := @foldl_pointwise StatesPass ReqId ReqId (Option Row) id
    (fun pass id => pass.runner.inputBatch id)
    (fun other => other.output = output ∧ other.runner.requests = pass.runner.requests) addToBatch
    (fun id _ after => ∀ state, pass.runner.requests id = some state →
      after = some (.joining state (output.specTokens id)))
    (by
      rintro other id ⟨houtput, hrequests⟩
      cases hstate : other.runner.requests id with
      | none =>
          have hsame : other.addToBatch id = other := by
            unfold addToBatch
            rw [hstate]
          rw [hsame]
          refine ⟨⟨houtput, hrequests⟩, fun state heq => ?_, fun _ _ => rfl⟩
          rw [hrequests] at hstate
          cases hstate.symm.trans heq
      | some state =>
          obtain ⟨hsame, hkept, hrow, hothers⟩ := addToBatch_view hstate
          refine ⟨⟨hsame.trans houtput, hkept.trans hrequests⟩, fun known heq => ?_, hothers⟩
          rw [hrequests] at hstate
          cases hstate.symm.trans heq
          rw [← houtput]
          exact hrow)
    ids (by simpa using hnodup) pass ⟨houtput, rfl⟩
  exact ⟨hfold.1, hfold.2.1, by simpa using hfold.2.2⟩

end StatesPass

/-- Where the scheduler output is about known requests, `_update_states` takes each of them
over and leaves the scheduler output as it is. -/
theorem ModelRunner.updateStates_ok (known : runner.Known output) :
    ∃ next, runner.updateStates false output = .ok (next, output) ∧
      runner.Updated next output := by
  obtain ⟨hnew, hcached, hapart⟩ := List.nodup_append.mp known.nodup
  have hnotNew : ∀ data ∈ output.scheduledCachedReqs,
      data.reqId ∉ output.scheduledNewReqs.map NewRequestData.reqId :=
    fun data hmem hin => hapart _ hin _ (List.mem_map_of_mem hmem) rfl
  have hnotCached : ∀ data ∈ output.scheduledNewReqs,
      data.reqId ∉ output.scheduledCachedReqs.map CachedRequestData.reqId :=
    fun data hmem hin => hapart _ (List.mem_map_of_mem hmem) _ hin rfl
  have hkeysNew : ∀ data ∈ output.scheduledNewReqs, data.reqId ∈ output.numScheduledTokens.keys :=
    fun data hmem =>
      (known.keys_iff _).mpr (List.mem_append_left _ (List.mem_map_of_mem hmem))
  have hkeysCached : ∀ data ∈ output.scheduledCachedReqs,
      data.reqId ∈ output.numScheduledTokens.keys :=
    fun data hmem =>
      (known.keys_iff _).mpr (List.mem_append_right _ (List.mem_map_of_mem hmem))
  obtain ⟨⟨houtput, hbatch⟩, hadds, haddedNew, hkeptNew⟩ :=
    @StatesPass.foldl_addNew output runner hnew
  generalize hfirst : output.scheduledNewReqs.foldl StatesPass.addNew
    { runner := runner.removeRequests output, output := output } = first at *
  have hcachedFirst : ∀ data ∈ output.scheduledCachedReqs,
      first.runner.requests data.reqId = runner.requests data.reqId ∧
        first.runner.inputBatch data.reqId = runner.inputBatch data.reqId := by
    intro data hmem
    have hlive := (known.cached data hmem).1
    rw [hkeptNew _ (hnotNew data hmem), hbatch]
    simp [removeRequests, hlive, hkeysCached data hmem]
  obtain ⟨second, hsecond, houtputSecond, haddSecond, hupdated, hkeptSecond⟩ :=
    StatesPass.foldlM_updateCached houtput (hadds ▸ hnew) hcached fun data hmem => by
      obtain ⟨hrequests, hrow⟩ := hcachedFirst data hmem
      rw [hadds, hrequests, hrow]
      exact ⟨hnotNew data hmem, (known.cached data hmem).2, known.resumed data hmem⟩
  obtain ⟨⟨houtputThird, hrequestsThird⟩, hjoined, hkeptThird⟩ :=
    StatesPass.foldl_addToBatch houtputSecond haddSecond
  refine ⟨(second.reqsToAdd.foldl StatesPass.addToBatch second).runner, ?_, ?_, ?_, ?_⟩
  · unfold updateStates
    rw [hfirst]
    simp only [hsecond, bind, Except.bind, houtputThird]
    rfl
  · intro data hmem
    have hview := hkeptSecond _ (hnotCached data hmem)
    have hrequests : second.runner.requests data.reqId = some (.ofNew data) := by
      rw [← haddedNew data hmem]
      exact congrArg Prod.fst hview
    have hadd : data.reqId ∈ second.reqsToAdd := by
      have hiff : (data.reqId ∈ second.reqsToAdd) = (data.reqId ∈ first.reqsToAdd) :=
        congrArg (fun view => view.2.2) hview
      rw [hiff, hadds]
      exact List.mem_map_of_mem hmem
    rw [hrequestsThird]
    exact ⟨hrequests, hjoined _ hadd _ hrequests⟩
  · intro data hmem state hstate
    obtain ⟨hfirstRequests, hfirstRow⟩ := hcachedFirst data hmem
    obtain ⟨hrequests, hrow, hadd⟩ :=
      hupdated data hmem state (hfirstRequests.trans hstate)
    rw [hfirstRow] at hrow hadd
    rw [hrequestsThird]
    refine ⟨hrequests, ?_⟩
    cases hold : runner.inputBatch data.reqId with
    | none => exact hjoined _ (hadd.mpr hold) _ hrequests
    | some row =>
        have hout : data.reqId ∉ second.reqsToAdd := by
          rw [hadd, hold]
          simp
        rw [hkeptThird _ hout, hrow, hold]
        rfl
  · intro id hid
    have hids := (known.keys_iff id).not.mp hid
    rw [List.mem_append, not_or] at hids
    have hview := hkeptSecond id hids.2
    have hrequests : second.runner.requests id = first.runner.requests id :=
      congrArg Prod.fst hview
    have hrow : second.runner.inputBatch id = first.runner.inputBatch id :=
      congrArg (fun view => view.2.1) hview
    have hout : id ∉ second.reqsToAdd := by
      have hiff : (id ∈ second.reqsToAdd) = (id ∈ first.reqsToAdd) :=
        congrArg (fun view => view.2.2) hview
      rw [hiff, hadds]
      exact hids.1
    rw [hrequestsThird, hrequests, hkeptNew id hids.1, hkeptThird id hout, hrow, hbatch]
    simp [removeRequests, hid]

end VllmMlu.Worker
