import VllmMlu.Sched.Pipeline

/-! How `update_from_output` settles a batch row by row: a predicate on a request
and the placeholders in flight for it, which each row carries over to the
batches behind it, holds of every request when the batch is done. -/
namespace VllmMlu.Sched
open VllmMlu.Library

variable {σ : Type} {cls : SchedulerClass} {cfg : Config} {host : Host σ}

/-! Which rows raise the placeholder assertion. -/

theorem ModelRunnerOutput.generatedTokenIds_error {model : ModelRunnerOutput} {reqIndex : Nat}
    {err : Error} (herr : model.generatedTokenIds reqIndex = .error err) : err = .indexError := by
  unfold generatedTokenIds at herr
  split at herr
  · cases herr
  · split at herr
    · cases herr
    · cases herr
      rfl

theorem attachSpecToken_error {drafts : Option DraftTokenIds} {id : ReqId} {request : Request}
    {reqIndex : Nat} {params : Option KvTransferParams} {assertion : Assertion} :
    attachSpecToken cfg drafts id request reqIndex params ≠ .error (.assertionError assertion) := by
  unfold attachSpecToken
  split
  · split
    · simp
    · split <;> simp
  · simp

theorem freeStopped_error {stopped : Bool} {status : RequestStatus} {reqIndex : Nat} {id : ReqId}
    {locals : UpdateLocals σ} {assertion : Assertion} :
    freeStopped cfg host stopped status reqIndex id locals ≠
      .error (.assertionError assertion) := by
  unfold freeStopped
  split
  · dsimp only
    split
    · rename_i err herr
      intro heq
      cases heq
      exact attachSpecToken_error herr
    · simp
  · simp

theorem emitRow_error {model : ModelRunnerOutput} {id : ReqId} {row : RowUpdate} {reqIndex : Nat}
    {params : Option KvTransferParams} {locals : UpdateLocals σ} :
    emitRow host model id row reqIndex params locals ≠
      .error (.assertionError .outputPlaceholders) := by
  unfold emitRow
  dsimp only
  split
  · simp
  · split <;> simp

/-- The placeholder assertion of a row can only be raised by the row's own update. -/
theorem updateRow_ne_outputPlaceholders {output : SchedulerOutput} {model : ModelRunnerOutput}
    {failedKvLoad : List ReqId} {locals : UpdateLocals σ} {entry : ReqId × Int}
    (hrow : entry.1 ∈ locals.self.requests → ∀ reqIndex,
      model.reqIdToIndex.get? entry.1 = some reqIndex →
      rowUpdate cls host output model entry.1 reqIndex (locals.self.objs entry.1) ≠
        .error (.assertionError .outputPlaceholders)) :
    updateRow cfg cls host output model failedKvLoad locals entry ≠
      .error (.assertionError .outputPlaceholders) := by
  unfold updateRow
  dsimp only
  split
  · simp
  split
  · simp
  rename_i hprocess
  rw [not_or, not_not] at hprocess
  split
  · simp
  rename_i reqIndex hindex
  have hrow := hrow hprocess.2 reqIndex hindex
  cases hupdate : rowUpdate cls host output model entry.1 reqIndex (locals.self.objs entry.1) with
  | error err =>
      intro heq
      cases heq
      exact hrow hupdate
  | ok row =>
      simp only [bind, Except.bind]
      split
      · rename_i err hfree
        intro heq
        cases heq
        exact freeStopped_error hfree
      · exact emitRow_error

/-- One row of `batch` turns the books of its request into books without the
batch, and makes only good calls of `cache_blocks`. -/
structure RowRule (cls : SchedulerClass) (host : Host σ) (batch : Batch)
    (model : ModelRunnerOutput) (Books : Request → Int → Prop)
    (Good : Request × Int → Prop) : Prop where
  nans : ∀ request count nans, Books request count →
    Books { request with numNansInLogits := nans } count
  row : ∀ id ∈ batch.reqIds, ∀ reqIndex, model.reqIdToIndex.get? id = some reqIndex →
    ∀ request rest, 0 ≤ rest → Books request (batch.outstanding id + rest) →
    ∀ row, rowUpdate cls host batch.output model id reqIndex request = .ok row →
      Books row.request rest ∧ ∀ call ∈ row.cacheBlocksCall, Good call

/-- The locals of `update_from_output` while `rows` of `batch` are still to come.
The batches behind it hold `rest`. -/
structure Settling (Books : Request → Int → Prop) (Good : Request × Int → Prop)
    (before : Scheduler σ) (batch : Batch) (rest : ReqId → Int) (rows : List (ReqId × Int))
    (locals : UpdateLocals σ) : Prop where
  nodup : (rows.map Prod.fst).Nodup
  ofBatch : ∀ id ∈ rows.map Prod.fst, id ∈ batch.reqIds
  books : ∀ id ∈ locals.self.requests, Books (locals.self.objs id)
    ((if id ∈ rows.map Prod.fst then batch.outstanding id else 0) + rest id)
  calls : ∀ call ∈ locals.cacheBlocksCalls, Good call
  requests : ∀ id ∈ locals.self.requests, id ∈ before.requests
  status : ∀ id, (locals.self.objs id).status = (before.objs id).status ∨
    (locals.self.objs id).isFinished = true

theorem RowEffect.mem_requests {id : ReqId} {row : RowUpdate} {locals next : UpdateLocals σ}
    (heffect : RowEffect id row locals next) {other : ReqId}
    (hmem : other ∈ next.self.requests) : other ∈ locals.self.requests := by
  rcases heffect.requests with heq | ⟨-, heq⟩
  · rwa [← heq]
  · rw [heq] at hmem
    exact (List.mem_filter.mp hmem).1

section Rows

variable {Books : Request → Int → Prop} {Good : Request × Int → Prop} {before : Scheduler σ}
  {batch : Batch} {rest : ReqId → Int} {model : ModelRunnerOutput} {failed : List ReqId}

/-- What processing one row preserves. -/
theorem Settling.row (lawful : host.Lawful) (hkind : model.OneKind)
    (hrule : RowRule cls host batch model Books Good) (hrest : ∀ id, 0 ≤ rest id)
    (hfailed : ∀ id ∈ batch.reqIds, id ∉ failed) {entry : ReqId × Int}
    {rows : List (ReqId × Int)} {locals next : UpdateLocals σ}
    (hsettling : Settling Books Good before batch rest (entry :: rows) locals)
    (hok : updateRow cfg cls host batch.output model failed locals entry = .ok next) :
    Settling Books Good before batch rest rows next := by
  have hnodup := List.nodup_cons.mp hsettling.nodup
  have hofBatch : ∀ id ∈ rows.map Prod.fst, id ∈ batch.reqIds := fun id hmem =>
    hsettling.ofBatch id (List.mem_cons_of_mem _ hmem)
  have hentry : entry.1 ∈ (entry :: rows).map Prod.fst := List.mem_map_of_mem List.mem_cons_self
  have hbatch := hsettling.ofBatch entry.1 hentry
  have hother : ∀ id, id ≠ entry.1 →
      (id ∈ (entry :: rows).map Prod.fst ↔ id ∈ rows.map Prod.fst) := by
    intro id hne
    rw [List.map_cons, List.mem_cons]
    exact ⟨fun hmem => hmem.resolve_left hne, .inr⟩
  obtain ⟨-, ⟨rfl, hskip⟩ | ⟨-, hlive, reqIndex, row, hindex, hupdate, heffect⟩⟩ :=
    updateRow_cases hok
  · have hgone := hskip.resolve_left (hfailed entry.1 hbatch)
    refine ⟨hnodup.2, hofBatch, ?_, hsettling.calls, hsettling.requests, hsettling.status⟩
    intro id hmem
    have hold := hsettling.books id hmem
    rwa [if_congr (hother id fun heq => hgone (heq ▸ hmem)) rfl rfl] at hold
  · have hold := hsettling.books entry.1 hlive
    rw [if_pos hentry] at hold
    obtain ⟨hbooks, hcalls⟩ := hrule.row entry.1 hbatch reqIndex hindex _ (rest entry.1)
      (hrest entry.1) hold row hupdate
    obtain ⟨nans, hobjs⟩ := heffect.objs
    have hupdated := rowUpdate_updated lawful hkind hupdate
    refine ⟨hnodup.2, hofBatch, ?_, ?_, ?_, ?_⟩
    · intro id hmem
      by_cases heq : id = entry.1
      · subst heq
        rw [hobjs, Function.update_self, if_neg hnodup.1, zero_add]
        exact hrule.nans _ _ _ hbooks
      · have holdOther := hsettling.books id (heffect.mem_requests hmem)
        rw [if_congr (hother id heq) rfl rfl] at holdOther
        rw [hobjs, Function.update_of_ne heq]
        exact holdOther
    · intro call hmem
      rw [heffect.cacheBlocksCalls, List.mem_append, Option.mem_toList] at hmem
      exact hmem.elim (hsettling.calls call) (hcalls call)
    · exact fun id hmem => hsettling.requests id (heffect.mem_requests hmem)
    · intro id
      by_cases heq : id = entry.1
      · subst heq
        rw [hobjs, Function.update_self]
        change row.request.status = _ ∨ row.request.isFinished = true
        cases hstopped : row.stopped with
        | true => exact .inr (hupdated.stops hstopped)
        | false =>
            have hsame := hupdated.continues hstopped
            rw [Request.isFinished, hsame]
            exact hsettling.status entry.1
      · rw [hobjs, Function.update_of_ne heq]
        exact hsettling.status id

theorem UpdateLocals.close_objs (cfg : Config) (host : Host σ) (model : ModelRunnerOutput)
    (locals : UpdateLocals σ) :
    (locals.close cfg host model).self.objs = locals.self.objs ∧
      (locals.close cfg host model).cacheBlocksCalls = locals.cacheBlocksCalls ∧
      ∀ id ∈ (locals.close cfg host model).self.requests, id ∈ locals.self.requests := by
  unfold close
  dsimp only
  split
  · exact ⟨rfl, rfl, fun id hmem => hmem⟩
  · exact ⟨rfl, rfl, fun id hmem => (List.mem_filter.mp hmem).1⟩

omit batch rest failed in
/-- What every row keeps of its request, a call of `update_from_output` keeps of all. -/
theorem SchedulerClass.updateFromOutput_objs {Kept : ReqId → Request → Prop}
    {sched : Scheduler σ} {output : SchedulerOutput} {locals : UpdateLocals σ}
    (hcomputed : ∀ id request computed, Kept id request →
      Kept id { request with numComputedTokens := computed })
    (hnans : ∀ id request nans, Kept id request →
      Kept id { request with numNansInLogits := nans })
    (hrow : ∀ id ∈ output.numScheduledTokens.keys, ∀ reqIndex,
      model.reqIdToIndex.get? id = some reqIndex → ∀ request row, Kept id request →
      rowUpdate cls host output model id reqIndex request = .ok row → Kept id row.request)
    (hstart : ∀ id, Kept id (sched.objs id))
    (hok : cls.updateFromOutput cfg host sched output model = .ok locals) (id : ReqId) :
    Kept id (locals.self.objs id) := by
  obtain ⟨-, -, -, -, hobjs⟩ := sched.handleInvalidBlocks_same host model
  unfold updateFromOutput at hok
  generalize sched.handleInvalidBlocks host model = handled at hok hobjs
  obtain ⟨processed, hprocessed, hclose⟩ := bind_eq_ok.mp hok
  have hhandled : ∀ id, Kept id (handled.1.objs id) := by
    intro id
    obtain ⟨computed, heq⟩ := hobjs id
    rw [heq]
    exact hcomputed id _ computed (hstart id)
  have hrows : ∀ id, Kept id (processed.self.objs id) := by
    refine @foldlM_invariant _ _ _ _
      (fun locals : UpdateLocals σ => ∀ id, Kept id (locals.self.objs id)) _ _ _ hhandled ?_
      hprocessed
    intro entry hentry before after hbefore hafter id
    obtain ⟨-, hskip | ⟨-, -, reqIndex, row, hindex, hupdate, heffect⟩⟩ := updateRow_cases hafter
    · rw [hskip.1]
      exact hbefore id
    · obtain ⟨nans, heq⟩ := heffect.objs
      rw [heq, Function.update_apply]
      split
      · rename_i hid
        subst hid
        exact hnans _ _ nans (hrow _ (List.mem_map_of_mem hentry) reqIndex hindex _ row
          (hbefore entry.1) hupdate)
      · exact hbefore id
  rw [pure_eq_ok] at hclose
  rw [← hclose, (processed.close_objs cfg host model).1]
  exact hrows id

/-- The books before the first row. -/
theorem Settling.start {sched : Scheduler σ}
    (hbooks : ∀ id ∈ sched.requests, Books (sched.objs id) (batch.outstanding id + rest id)) :
    Settling Books Good sched batch rest batch.output.numScheduledTokens.entries
      { self := sched } where
  nodup := batch.output.numScheduledTokens.nodup
  ofBatch := fun _ hmem => hmem
  books := by
    intro id hmem
    have hold := hbooks id hmem
    split
    · exact hold
    · rename_i hnone
      rwa [Batch.outstanding_of_not_mem hnone] at hold
  calls := fun _ hmem => nomatch hmem
  requests := fun _ hmem => hmem
  status := fun _ => .inl rfl

/-- A processed batch leaves every request with the books of the batches behind it. -/
theorem SchedulerClass.updateFromOutput_settles (lawful : host.Lawful) (hkind : model.OneKind)
    (hrule : RowRule cls host batch model Books Good) {rest : ReqId → Int}
    (hrest : ∀ id, 0 ≤ rest id) {sched handled : Scheduler σ} (hhandled : sched.handleInvalidBlocks host model =
      (handled, failed)) (hfailed : ∀ id ∈ batch.reqIds, id ∉ failed)
    (hbooks : ∀ id ∈ handled.requests, Books (handled.objs id) (batch.outstanding id + rest id))
    {locals : UpdateLocals σ}
    (hok : cls.updateFromOutput cfg host sched batch.output model = .ok locals) :
    (∀ id ∈ locals.self.requests, Books (locals.self.objs id) (rest id)) ∧
      (∀ call ∈ locals.cacheBlocksCalls, Good call) ∧
      (∀ id ∈ locals.self.requests, id ∈ handled.requests) ∧
      ∀ id, (locals.self.objs id).status = (handled.objs id).status ∨
        (locals.self.objs id).isFinished = true := by
  unfold updateFromOutput at hok
  rw [hhandled] at hok
  obtain ⟨processed, hprocessed, hclose⟩ := bind_eq_ok.mp hok
  have hsettled : Settling Books Good handled batch rest [] processed :=
    foldlM_consumes (Settling.start hbooks)
      (fun _ _ _ _ hsettling hrow => hsettling.row lawful hkind hrule hrest hfailed hrow)
      hprocessed
  rw [pure_eq_ok] at hclose
  obtain ⟨hobjs, hcalls, hrequests⟩ := processed.close_objs cfg host model
  rw [← hclose, hobjs, hcalls]
  refine ⟨?_, hsettled.calls, fun id hmem => hsettled.requests id (hrequests id hmem),
    hsettled.status⟩
  intro id hmem
  have hbooksEnd := hsettled.books id (hrequests id hmem)
  rwa [List.map_nil, if_neg List.not_mem_nil, zero_add] at hbooksEnd

/-- If no row raises the placeholder assertion under the books, the batch does not. -/
theorem SchedulerClass.updateFromOutput_ne_outputPlaceholders (lawful : host.Lawful)
    (hkind : model.OneKind) (hrule : RowRule cls host batch model Books Good)
    (hrest : ∀ id, 0 ≤ rest id) {sched handled : Scheduler σ}
    (hhandled : sched.handleInvalidBlocks host model = (handled, failed))
    (hfailed : ∀ id ∈ batch.reqIds, id ∉ failed)
    (hbooks : ∀ id ∈ handled.requests, Books (handled.objs id) (batch.outstanding id + rest id))
    (hraise : ∀ id ∈ batch.reqIds, ∀ reqIndex, model.reqIdToIndex.get? id = some reqIndex →
      ∀ request rest, 0 ≤ rest → Books request (batch.outstanding id + rest) →
      rowUpdate cls host batch.output model id reqIndex request ≠
        .error (.assertionError .outputPlaceholders)) :
    cls.updateFromOutput cfg host sched batch.output model ≠
      .error (.assertionError .outputPlaceholders) := by
  unfold updateFromOutput
  rw [hhandled]
  have hrows : batch.output.numScheduledTokens.entries.foldlM
      (updateRow cfg cls host batch.output model failed) { self := handled } ≠
        .error (.assertionError .outputPlaceholders) := by
    refine foldlM_ne_error (Settling.start hbooks)
      (fun _ _ _ _ hsettling hrow => hsettling.row lawful hkind hrule hrest hfailed hrow) ?_
    intro entry rows locals hsettling
    refine updateRow_ne_outputPlaceholders fun hlive reqIndex hindex => ?_
    have hentry : entry.1 ∈ (entry :: rows).map Prod.fst :=
      List.mem_map_of_mem List.mem_cons_self
    have hold := hsettling.books entry.1 hlive
    rw [if_pos hentry] at hold
    exact hraise entry.1 (hsettling.ofBatch entry.1 hentry) reqIndex hindex _ (rest entry.1)
      (hrest entry.1) hold
  intro heq
  cases hprocessed : batch.output.numScheduledTokens.entries.foldlM
      (updateRow cfg cls host batch.output model failed) { self := handled } with
  | error err =>
      simp only [bind, Except.bind, hprocessed] at heq
      cases heq
      exact hrows hprocessed
  | ok processed =>
      simp only [bind, Except.bind, hprocessed] at heq
      cases heq

end Rows

end VllmMlu.Sched
