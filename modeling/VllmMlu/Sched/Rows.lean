import VllmMlu.Sched.Update

/-! What `update_from_output` does with one row: it skips it, or changes the one
request the row belongs to. -/
namespace VllmMlu.Sched
open VllmMlu.Library

variable {σ : Type} {cfg : Config} {cls : SchedulerClass} {host : Host σ}

/-- A model runner output has sampled tokens or pooler outputs, not both. -/
def ModelRunnerOutput.OneKind (model : ModelRunnerOutput) : Prop :=
  model.poolerOutput = [] ∨ model.sampledTokenIds = []

/-- How a row leaves its request: stopped and finished, or with its old status. -/
structure Updated (before after : Request) (stopped : Bool) : Prop where
  requestId : after.requestId = before.requestId
  stops : stopped = true → after.isFinished = true
  continues : stopped = false → after.status = before.status

theorem Updated.refl (request : Request) : Updated request request false :=
  ⟨rfl, (fun heq => nomatch heq), fun _ => rfl⟩

theorem hostUpdate_updated (lawful : host.Lawful) (request : Request) (tokens : List Token) :
    Updated request (host.updateRequestWithOutput request tokens).1
      (host.updateRequestWithOutput request tokens).2.2 where
  requestId := by
    rw [lawful.update_tokens]
    rfl
  stops := lawful.update_stops request tokens
  continues := fun hcontinues => (lawful.update_continues request tokens hcontinues).2

theorem updateRequestWithOutput_updated (lawful : host.Lawful) {request : Request}
    {tokens : List Token} {update : OutputUpdate}
    (hok : cls.updateRequestWithOutput host request tokens = .ok update) :
    Updated request update.request update.stopped := by
  have hhost := hostUpdate_updated lawful request tokens
  have hasync : ∀ release, asyncUpdateRequestWithOutput host release request tokens = .ok update →
      Updated request update.request update.stopped := by
    intro release hrelease
    unfold asyncUpdateRequestWithOutput at hrelease
    dsimp only at hrelease
    split at hrelease
    · cases hrelease
    · cases hrelease
      exact ⟨hhost.requestId, hhost.stops, hhost.continues⟩
  cases cls with
  | profiler =>
      cases hok
      exact hhost
  | unchunk =>
      cases hok
      exact hhost
  | async => exact hasync _ hok
  | unchunkAsync => exact hasync _ hok

theorem appendGenerated_updated (lawful : host.Lawful) {drafts generated : List Token}
    {request : Request} {update : OutputUpdate}
    (hok : appendGenerated cls host drafts generated request = .ok update) :
    Updated request update.request update.stopped ∧
      (generated = [] → update.stopped = false) := by
  unfold appendGenerated at hok
  dsimp only at hok
  have hsame : ∀ rolled : Request, rolled = (if drafts = [] then request
      else request.rollBack (drafts.length - (generated.length - 1))) →
      rolled.requestId = request.requestId ∧ rolled.status = request.status := by
    rintro rolled rfl
    split
    · exact ⟨rfl, rfl⟩
    · exact ⟨rfl, rfl⟩
  obtain ⟨hid, hstatus⟩ := hsame _ rfl
  split at hok
  · cases hok
    exact ⟨⟨hid, (fun heq => nomatch heq), fun _ => hstatus⟩, fun _ => rfl⟩
  · rename_i hne
    have hupdated := updateRequestWithOutput_updated lawful hok
    exact ⟨⟨hupdated.requestId.trans hid, hupdated.stops,
      fun hcontinues => (hupdated.continues hcontinues).trans hstatus⟩,
      fun hnil => absurd hnil hne⟩

theorem rowUpdate_updated (lawful : host.Lawful) {output : SchedulerOutput}
    {model : ModelRunnerOutput} (hkind : model.OneKind) {id : ReqId} {reqIndex : Nat}
    {request : Request} {row : RowUpdate}
    (hok : rowUpdate cls host output model id reqIndex request = .ok row) :
    Updated request row.request row.stopped := by
  unfold rowUpdate at hok
  obtain ⟨generated, hgenerated, hrest⟩ := bind_eq_ok.mp hok
  obtain ⟨update, hupdate, hcheck⟩ := bind_eq_ok.mp hrest
  obtain ⟨hupdated, hstopped⟩ := appendGenerated_updated lawful hupdate
  unfold checkPooler at hcheck
  split at hcheck
  · cases hcheck
    exact hupdated
  · rename_i hpooler
    have hsampled := hkind.resolve_left hpooler
    rw [ModelRunnerOutput.generatedTokenIds, if_pos hsampled, Except.ok.injEq] at hgenerated
    split at hcheck
    · cases hcheck
    · rename_i pooled hpooled
      cases hcheck
      have hid : (host.checkStop update.request pooled).1.requestId =
          update.request.requestId := by
        rw [lawful.checkStop_request]
      exact ⟨hid.trans hupdated.requestId, lawful.checkStop_stops _ _,
        fun hcontinues => (lawful.checkStop_continues _ _ hcontinues).trans
          (hupdated.continues (hstopped hgenerated.symm))⟩

/-- A row changes the output, the status and the counters of its request, and nothing else. -/
theorem rowUpdate_fields (lawful : host.Lawful) {output : SchedulerOutput}
    {model : ModelRunnerOutput} {id : ReqId} {reqIndex : Nat} {request : Request} {row : RowUpdate}
    (hok : rowUpdate cls host output model id reqIndex request = .ok row) :
    ∃ outputTokens status stopReason computed placeholders, row.request =
      { request with
        outputTokenIds := outputTokens
        status := status
        stopReason := stopReason
        numComputedTokens := computed
        numOutputPlaceholders := placeholders } := by
  have hasync : ∀ release base tokens (update : OutputUpdate),
      asyncUpdateRequestWithOutput host release base tokens = .ok update →
      ∃ placeholders, update.request =
        { (host.updateRequestWithOutput base tokens).1 with
          numOutputPlaceholders := placeholders } := by
    intro release base tokens update hupdate
    unfold asyncUpdateRequestWithOutput at hupdate
    dsimp only at hupdate
    split at hupdate
    · cases hupdate
    · cases hupdate
      exact ⟨_, rfl⟩
  have hclass : ∀ base tokens (update : OutputUpdate),
      cls.updateRequestWithOutput host base tokens = .ok update →
      ∃ placeholders, update.request =
        { (host.updateRequestWithOutput base tokens).1 with
          numOutputPlaceholders := placeholders } := by
    intro base tokens update hupdate
    cases cls with
    | profiler | unchunk =>
        cases hupdate
        exact ⟨_, rfl⟩
    | async | unchunkAsync => exact hasync _ _ _ _ hupdate
  unfold rowUpdate at hok
  obtain ⟨generated, -, hrest⟩ := bind_eq_ok.mp hok
  obtain ⟨update, hupdate, hcheck⟩ := bind_eq_ok.mp hrest
  have hfields : ∃ outputTokens status stopReason computed placeholders, update.request =
      { request with
        outputTokenIds := outputTokens
        status := status
        stopReason := stopReason
        numComputedTokens := computed
        numOutputPlaceholders := placeholders } := by
    unfold appendGenerated at hupdate
    dsimp only at hupdate
    have hrolled : ∃ computed placeholders, (if output.specTokens id = [] then request
        else request.rollBack ((output.specTokens id).length - (generated.length - 1))) =
        { request with
          numComputedTokens := computed
          numOutputPlaceholders := placeholders } := by
      split
      · exact ⟨_, _, rfl⟩
      · exact ⟨_, _, rfl⟩
    obtain ⟨computed, placeholders, hrolled⟩ := hrolled
    rw [hrolled] at hupdate
    split at hupdate
    · cases hupdate
      exact ⟨_, _, _, _, _, rfl⟩
    · obtain ⟨released, hrequest⟩ := hclass _ _ _ hupdate
      rw [hrequest, lawful.update_tokens]
      exact ⟨_, _, _, _, _, rfl⟩
  obtain ⟨outputTokens, status, stopReason, computed, placeholders, heq⟩ := hfields
  unfold checkPooler at hcheck
  split at hcheck
  · cases hcheck
    exact ⟨_, _, _, _, _, heq⟩
  · split at hcheck
    · cases hcheck
    · cases hcheck
      dsimp only
      rw [lawful.checkStop_request, heq]
      exact ⟨_, _, _, _, _, rfl⟩

/-- What a processed row makes of the local variables of `update_from_output`. -/
structure RowEffect (id : ReqId) (row : RowUpdate) (before next : UpdateLocals σ) : Prop where
  objs : ∃ nans, next.self.objs =
    Function.update before.self.objs id { row.request with numNansInLogits := nans }
  running : next.self.running = before.self.running
  waiting : next.self.waiting = before.self.waiting
  draftTokenIds : next.self.draftTokenIds = before.self.draftTokenIds
  requests : next.self.requests = before.self.requests ∨
    row.stopped = true ∧ next.self.requests = before.self.requests.filter (· ≠ id)
  stoppedRunning : next.stoppedRunningReqs = before.stoppedRunningReqs ++
    if row.stopped = true ∧ (before.self.objs id).status = .running then [id] else []
  stoppedPreempted : next.stoppedPreemptedReqs = before.stoppedPreemptedReqs ++
    if row.stopped = true ∧ (before.self.objs id).status ≠ .running then [id] else []
  cacheBlocksCalls : next.cacheBlocksCalls =
    before.cacheBlocksCalls ++ row.cacheBlocksCall.toList

/-- What freeing a stopped request changes. -/
theorem freeStopped_eq {stopped : Bool} {status : RequestStatus} {reqIndex nextIndex : Nat}
    {id : ReqId} {locals next : UpdateLocals σ} {params : Option KvTransferParams}
    (hok : freeStopped cfg host stopped status reqIndex id locals =
      .ok (nextIndex, params, next)) :
    ∃ st requests finished, next = { locals with
        self := { locals.self with
          host := st
          requests := requests
          finishedReqIds := finished }
        stoppedRunningReqs := locals.stoppedRunningReqs ++
          if stopped = true ∧ status = .running then [id] else []
        stoppedPreemptedReqs := locals.stoppedPreemptedReqs ++
          if stopped = true ∧ status ≠ .running then [id] else [] } ∧
      (requests = locals.self.requests ∨
        stopped = true ∧ requests = locals.self.requests.filter (· ≠ id)) := by
  unfold freeStopped at hok
  split at hok
  · rename_i hstopped
    dsimp only [Scheduler.freeRequest] at hok
    have hrequests : ∀ delay : Bool, (if delay = true then locals.self.requests
        else locals.self.requests.filter (· ≠ id)) = locals.self.requests ∨
        stopped = true ∧ (if delay = true then locals.self.requests
          else locals.self.requests.filter (· ≠ id)) =
            locals.self.requests.filter (· ≠ id) := by
      intro delay
      cases delay with
      | true => exact .inl rfl
      | false => exact .inr ⟨hstopped, rfl⟩
    let freed := host.freeRequest locals.self.host (locals.self.objs id)
    split at hok
    · cases hok
    · by_cases hrunning : status = .running
      · rw [if_pos hrunning] at hok
        cases hok
        refine ⟨freed.1, _, locals.self.finishedReqIds ++ [id], ?_, hrequests freed.2.2⟩
        simp [hstopped, hrunning, freed]
      · rw [if_neg hrunning] at hok
        cases hok
        refine ⟨freed.1, _, locals.self.finishedReqIds ++ [id], ?_, hrequests freed.2.2⟩
        simp [hstopped, hrunning, freed]
  · rename_i hstopped
    cases hok
    refine ⟨locals.self.host, locals.self.requests, locals.self.finishedReqIds, ?_, .inl rfl⟩
    simp [hstopped]

theorem emitRow_eq {model : ModelRunnerOutput} {id : ReqId} {row : RowUpdate} {reqIndex : Nat}
    {params : Option KvTransferParams} {locals next : UpdateLocals σ}
    (hok : emitRow host model id row reqIndex params locals = .ok next) :
    ∃ st nans outputs, next = { locals with
      self := { locals.self with
        host := st
        objs := Function.update locals.self.objs id
          { locals.self.objs id with numNansInLogits := nans } }
      outputs := outputs } := by
  unfold emitRow at hok
  dsimp only at hok
  split at hok
  · cases hok
    exact ⟨_, _, _, rfl⟩
  · split at hok
    · cases hok
    · cases hok
      exact ⟨_, _, _, rfl⟩

/-- A row is skipped, or it changes the request it belongs to. -/
theorem updateRow_cases {output : SchedulerOutput} {model : ModelRunnerOutput}
    {failedKvLoad : List ReqId} {locals next : UpdateLocals σ} {entry : ReqId × Int}
    (hok : updateRow cfg cls host output model failedKvLoad locals entry = .ok next) :
    0 < entry.2 ∧
    ((next = locals ∧ (entry.1 ∈ failedKvLoad ∨ entry.1 ∉ locals.self.requests)) ∨
      (entry.1 ∉ failedKvLoad ∧ entry.1 ∈ locals.self.requests ∧
        ∃ reqIndex row, model.reqIdToIndex.get? entry.1 = some reqIndex ∧
          rowUpdate cls host output model entry.1 reqIndex (locals.self.objs entry.1) =
            .ok row ∧
          RowEffect entry.1 row locals next)) := by
  unfold updateRow at hok
  dsimp only at hok
  split at hok
  · cases hok
  rename_i hpositive
  refine ⟨by omega, ?_⟩
  split at hok
  · rename_i hskip
    cases hok
    exact .inl ⟨rfl, hskip⟩
  rename_i hprocess
  rw [not_or, not_not] at hprocess
  split at hok
  · cases hok
  rename_i reqIndex hindex
  obtain ⟨row, hrow, hok⟩ := bind_eq_ok.mp hok
  obtain ⟨⟨nextIndex, params, freed⟩, hfree, hemit⟩ := bind_eq_ok.mp hok
  obtain ⟨st, requests, finished, rfl, hrequests⟩ := freeStopped_eq hfree
  obtain ⟨stEmit, nans, outputs, rfl⟩ := emitRow_eq hemit
  refine .inr ⟨hprocess.1, hprocess.2, reqIndex, row, hindex, hrow, ?_⟩
  exact {
    objs := by
      refine ⟨nans, ?_⟩
      funext other
      by_cases heq : other = entry.1
      · subst heq
        simp [Scheduler.modify]
      · simp [Scheduler.modify, Function.update_of_ne heq]
    running := rfl
    waiting := rfl
    draftTokenIds := rfl
    requests := hrequests
    stoppedRunning := rfl
    stoppedPreempted := rfl
    cacheBlocksCalls := rfl }

end VllmMlu.Sched
