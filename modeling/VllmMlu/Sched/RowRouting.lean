import VllmMlu.Sched.Consistency
import VllmMlu.Sched.Settling

/-! Which row of the model runner output the outputs of `update_from_output` are taken from. -/
namespace VllmMlu.Sched
open VllmMlu.Library

variable {σ : Type} {cfg : Config} {cls : SchedulerClass} {host : Host σ}

/-- A stopped request with these parameters is looked up in the draft list. -/
def Request.wantsSpecToken (cfg : Config) (request : Request) : Bool :=
  cfg.disaggTransAllBlocks && (request.kvTransferParams.map (·.retFirstTok)).getD false

/-- `req_index` after the lookup of a stopped request. -/
def rowIndex (cfg : Config) (draftTokenIds : Option DraftTokenIds) (id : ReqId)
    (request : Request) (stopped : Bool) (reqIndex : Nat) : Nat :=
  if stopped && request.wantsSpecToken cfg then
    (draftTokenIds.bind fun drafts => drafts.reqIds.idxOf? id).getD reqIndex
  else reqIndex

/-- A speculative token of the parameters is the request's own in the draft list. -/
def OwnSpecToken (draftTokenIds : Option DraftTokenIds) (id : ReqId)
    (params : Option KvTransferParams) : Prop :=
  ∀ given ∈ params, ∀ tokens ∈ given.firstSpecTok, ∃ drafts ∈ draftTokenIds, ∃ i : Nat,
    drafts.reqIds[i]? = some id ∧ drafts.draftTokenIds[i]? = some tokens

/-- An output with the data of one row, and the own entry of the draft list. -/
structure OwnRow (host : Host σ) (model : ModelRunnerOutput)
    (draftTokenIds : Option DraftTokenIds) (request : Request) (reqIndex : Nat)
    (out : EngineCoreOutput) : Prop where
  tokens : ∃ generated, model.generatedTokenIds reqIndex = .ok generated ∧
    out.newTokenIds <+: generated
  logprobs : out.newLogprobs = rowLogprobs host model request reqIndex
  pooler : out.poolingOutput = none ∨ model.poolerOutput[reqIndex]? = some out.poolingOutput
  specToken : OwnSpecToken draftTokenIds out.requestId out.kvTransferParams

/-- Every output has the data of the row that `req_id_to_index` gives for its request. -/
def RowsRouted (host : Host σ) (self : Scheduler σ) (model : ModelRunnerOutput)
    (locals : UpdateLocals σ) : Prop :=
  ∀ client out, (client, out) ∈ locals.outputs →
    ∃ reqIndex, model.reqIdToIndex.get? out.requestId = some reqIndex ∧
      OwnRow host model self.draftTokenIds (self.objs out.requestId) reqIndex out

/-- Wherever a request is looked up in the draft list, the logprobs at the place found are those
of its own row. -/
def DraftRowsAgree (cfg : Config) (cls : SchedulerClass) (host : Host σ) (self : Scheduler σ)
    (output : SchedulerOutput) (model : ModelRunnerOutput) : Prop :=
  ∀ id ∈ output.numScheduledTokens.keys, id ∉ (self.handleInvalidBlocks host model).2 →
    id ∈ self.requests → ∀ reqIndex row, model.reqIdToIndex.get? id = some reqIndex →
    rowUpdate cls host output model id reqIndex
      ((self.handleInvalidBlocks host model).1.objs id) = .ok row →
    row.stopped = true → (self.objs id).wantsSpecToken cfg = true →
    ∀ drafts draftIndex, self.draftTokenIds = some drafts →
      drafts.reqIds.idxOf? id = some draftIndex →
    rowLogprobs host model (self.objs id) draftIndex =
      rowLogprobs host model (self.objs id) reqIndex

/-! ### One row -/

theorem newTokenIds_isPrefix (lawful : host.Lawful) {request : Request}
    {tokens : List Token} {update : OutputUpdate}
    (hok : cls.updateRequestWithOutput host request tokens = .ok update) :
    update.newTokenIds <+: tokens := by
  have hasync : ∀ release, asyncUpdateRequestWithOutput host release request tokens = .ok update →
      update.newTokenIds <+: tokens := by
    intro release hrelease
    unfold asyncUpdateRequestWithOutput at hrelease
    dsimp only at hrelease
    split at hrelease
    · cases hrelease
    · cases hrelease
      exact lawful.update_prefix _ _
  cases cls with
  | profiler | unchunk =>
      cases hok
      exact lawful.update_prefix _ _
  | async | unchunkAsync => exact hasync _ hok

/-- The tokens and the pooler output come from the row. -/
theorem rowUpdate_data (lawful : host.Lawful) {output : SchedulerOutput}
    {model : ModelRunnerOutput} {id : ReqId} {reqIndex : Nat} {request : Request}
    {row : RowUpdate} (hok : rowUpdate cls host output model id reqIndex request = .ok row) :
    (∃ generated, model.generatedTokenIds reqIndex = .ok generated ∧
        row.newTokenIds <+: generated) ∧
      (row.poolerOutput = none ∨ model.poolerOutput[reqIndex]? = some row.poolerOutput) := by
  unfold rowUpdate at hok
  obtain ⟨generated, hgenerated, hrest⟩ := bind_eq_ok.mp hok
  obtain ⟨update, hupdate, hcheck⟩ := bind_eq_ok.mp hrest
  have htokens : update.newTokenIds <+: generated := by
    unfold appendGenerated at hupdate
    dsimp only at hupdate
    split at hupdate
    · rename_i hnil
      cases hupdate
      rw [hnil]
    · exact newTokenIds_isPrefix lawful hupdate
  unfold checkPooler at hcheck
  split at hcheck
  · cases hcheck
    exact ⟨⟨generated, hgenerated, htokens⟩, .inl rfl⟩
  · split at hcheck
    · cases hcheck
    · rename_i pooled hpooled
      cases hcheck
      exact ⟨⟨generated, hgenerated, htokens⟩, .inr hpooled⟩

/-- The parent's parameters carry no speculative token. -/
def Host.GivesNoSpecToken (host : Host σ) : Prop :=
  ∀ st request, ∀ params ∈ (host.freeRequest st request).2.1, params.firstSpecTok = none

theorem attachSpecToken_spec {drafts : Option DraftTokenIds} {id : ReqId} {request : Request}
    {reqIndex index : Nat} {given params : Option KvTransferParams}
    (hnone : ∀ own ∈ given, own.firstSpecTok = none)
    (hok : attachSpecToken cfg drafts id request reqIndex given = .ok (index, params)) :
    index = rowIndex cfg drafts id request true reqIndex ∧ OwnSpecToken drafts id params ∧
      (request.wantsSpecToken cfg = true → drafts.isSome = true →
        (params.map (!·.isEmpty)).getD false = true) := by
  have hkept : index = reqIndex → params = given → OwnSpecToken drafts id params := by
    rintro - rfl own hown tokens htokens
    rw [hnone own hown] at htokens
    cases htokens
  unfold attachSpecToken at hok
  cases hwants : request.wantsSpecToken cfg with
  | false =>
      rw [Request.wantsSpecToken] at hwants
      rw [hwants] at hok
      cases hok
      refine ⟨?_, hkept rfl rfl, nofun⟩
      rw [rowIndex, Request.wantsSpecToken, hwants]
      rfl
  | true =>
      rw [rowIndex, hwants]
      rw [Request.wantsSpecToken] at hwants
      rw [hwants] at hok
      cases drafts with
      | none =>
          cases hok
          exact ⟨rfl, hkept rfl rfl, nofun⟩
      | some found =>
          dsimp only at hok
          cases hindex : found.reqIds.idxOf? id with
          | none => rw [hindex] at hok; cases hok
          | some draftIndex =>
              rw [hindex] at hok
              dsimp only at hok
              split at hok
              · cases hok
              · cases hok
              · rename_i tokens own htokens
                cases hok
                obtain ⟨hlt, hid, -⟩ := List.idxOf?_eq_some_iff.mp hindex
                refine ⟨by simp [hindex], ?_, fun _ _ => by simp [KvTransferParams.isEmpty]⟩
                rintro _ ⟨⟩ _ ⟨⟩
                exact ⟨found, rfl, _, List.getElem?_eq_some_iff.mpr ⟨hlt, hid⟩, htokens⟩

/-- The row index and the parameters that a freed request is emitted with. -/
theorem freeStopped_spec (hgives : host.GivesNoSpecToken) {stopped : Bool}
    {status : RequestStatus} {reqIndex index : Nat} {id : ReqId} {locals next : UpdateLocals σ}
    {params : Option KvTransferParams}
    (hok : freeStopped cfg host stopped status reqIndex id locals = .ok (index, params, next)) :
    index = rowIndex cfg locals.self.draftTokenIds id (locals.self.objs id) stopped reqIndex ∧
      OwnSpecToken locals.self.draftTokenIds id params ∧
      (stopped = true → (locals.self.objs id).wantsSpecToken cfg = true →
        locals.self.draftTokenIds.isSome = true →
        (params.map (!·.isEmpty)).getD false = true) := by
  unfold freeStopped at hok
  cases stopped with
  | false =>
      cases hok
      exact ⟨rfl, nofun, nofun⟩
  | true =>
      dsimp only [Scheduler.freeRequest] at hok
      rw [if_pos rfl] at hok
      split at hok
      · cases hok
      · rename_i attached given hattach
        obtain ⟨hindex, hown, hgiven⟩ := attachSpecToken_spec (hgives _ _) hattach
        cases hok
        exact ⟨hindex, hown, fun _ => hgiven⟩

/-- A row without tokens, pooler output and parameters is not emitted. -/
theorem emitRow_outputs {model : ModelRunnerOutput} {id : ReqId} {row : RowUpdate}
    {reqIndex : Nat} {params : Option KvTransferParams} {locals next : UpdateLocals σ}
    (hok : emitRow host model id row reqIndex params locals = .ok next) :
    (next.outputs = locals.outputs ∧ (params.map (!·.isEmpty)).getD false = false) ∨
      ∃ client out, next.outputs = locals.outputs ++ [(client, out)] ∧ out.requestId = id ∧
        out.newTokenIds = row.newTokenIds ∧
        out.newLogprobs = rowLogprobs host model (locals.self.objs id) reqIndex ∧
        out.poolingOutput = row.poolerOutput ∧ out.kvTransferParams = params := by
  unfold emitRow at hok
  dsimp only at hok
  split at hok
  · cases hok
    refine .inr ⟨_, _, rfl, rfl, rfl, ?_, rfl, rfl⟩
    simp [rowLogprobs, Scheduler.modify]
  · rename_i hempty
    split at hok
    · cases hok
    · cases hok
      rw [not_or, not_or] at hempty
      exact .inl ⟨rfl, Bool.eq_false_iff.mpr hempty.2.2⟩

/-- What is emitted for a row. -/
structure EmittedFrom (cfg : Config) (host : Host σ) (model : ModelRunnerOutput)
    (draftTokenIds : Option DraftTokenIds) (id : ReqId) (request : Request) (reqIndex : Nat)
    (row : RowUpdate) (out : EngineCoreOutput) : Prop where
  requestId : out.requestId = id
  newTokenIds : out.newTokenIds = row.newTokenIds
  newLogprobs : out.newLogprobs = rowLogprobs host model request
    (rowIndex cfg draftTokenIds id request row.stopped reqIndex)
  poolingOutput : out.poolingOutput = row.poolerOutput
  specToken : OwnSpecToken draftTokenIds id out.kvTransferParams

theorem emitted_of_freed (hgives : host.GivesNoSpecToken) {model : ModelRunnerOutput}
    {id : ReqId} {row : RowUpdate} {status : RequestStatus} {reqIndex index : Nat}
    {params : Option KvTransferParams} {processed freed next : UpdateLocals σ}
    (hfree : freeStopped cfg host row.stopped status reqIndex id processed =
      .ok (index, params, freed))
    (hemit : emitRow host model id row index params freed = .ok next) :
    (next.outputs = processed.outputs ∧
        (row.stopped = true → (processed.self.objs id).wantsSpecToken cfg = true →
          processed.self.draftTokenIds = none)) ∨
      ∃ client out, next.outputs = processed.outputs ++ [(client, out)] ∧
        EmittedFrom cfg host model processed.self.draftTokenIds id (processed.self.objs id)
          reqIndex row out := by
  obtain ⟨rfl, hown, hgiven⟩ := freeStopped_spec hgives hfree
  obtain ⟨st, requests, finished, rfl, -⟩ := freeStopped_eq hfree
  rcases emitRow_outputs hemit with
    ⟨hsame, hnone⟩ | ⟨client, out, happend, hid, htokens, hlogprobs, hpooler, rfl⟩
  · refine .inl ⟨hsame, fun hstopped hwants => ?_⟩
    cases hdrafts : processed.self.draftTokenIds with
    | none => rfl
    | some drafts =>
        rw [hgiven hstopped hwants (by rw [hdrafts]; rfl)] at hnone
        cases hnone
  · exact .inr ⟨client, out, happend, hid, htokens, hlogprobs, hpooler, hown⟩

/-- A row leaves alone what its request asks for. -/
theorem rowUpdate_wants (lawful : host.Lawful) {output : SchedulerOutput}
    {model : ModelRunnerOutput} {id : ReqId} {reqIndex : Nat} {request : Request}
    {row : RowUpdate} (hok : rowUpdate cls host output model id reqIndex request = .ok row) :
    row.request.wantsSpecToken cfg = request.wantsSpecToken cfg ∧
      ∀ index, rowLogprobs host model row.request index = rowLogprobs host model request index := by
  obtain ⟨_, _, _, _, _, hrequest⟩ := rowUpdate_fields lawful hok
  rw [hrequest]
  exact ⟨rfl, fun _ => rfl⟩

/-- A row that is looked up in the draft list is always emitted. -/
theorem updateRow_outputs (lawful : host.Lawful) (hgives : host.GivesNoSpecToken)
    {output : SchedulerOutput} {model : ModelRunnerOutput} {failedKvLoad : List ReqId}
    {locals next : UpdateLocals σ} {entry : ReqId × Int}
    (hok : updateRow cfg cls host output model failedKvLoad locals entry = .ok next) :
    (next = locals ∧ (entry.1 ∈ failedKvLoad ∨ entry.1 ∉ locals.self.requests)) ∨
      ∃ reqIndex row, (entry.1 ∉ failedKvLoad ∧ entry.1 ∈ locals.self.requests) ∧
        model.reqIdToIndex.get? entry.1 = some reqIndex ∧
        rowUpdate cls host output model entry.1 reqIndex (locals.self.objs entry.1) = .ok row ∧
        RowEffect entry.1 row locals next ∧
        ((next.outputs = locals.outputs ∧
            (row.stopped = true → (locals.self.objs entry.1).wantsSpecToken cfg = true →
              locals.self.draftTokenIds = none)) ∨
          ∃ client out, next.outputs = locals.outputs ++ [(client, out)] ∧
            EmittedFrom cfg host model locals.self.draftTokenIds entry.1
              (locals.self.objs entry.1) reqIndex row out) := by
  obtain ⟨hpos, hskip | ⟨hfailed, hlive, reqIndex, row, hindex, hrow, heffect⟩⟩ :=
    updateRow_cases hok
  · exact .inl hskip
  refine .inr ⟨reqIndex, row, ⟨hfailed, hlive⟩, hindex, hrow, heffect, ?_⟩
  obtain ⟨hwants, hlogprobs⟩ := @rowUpdate_wants _ cfg _ _ lawful _ _ _ _ _ _ hrow
  unfold updateRow at hok
  dsimp only at hok
  rw [if_neg (by omega), if_neg (by simp [hfailed, hlive]), hindex] at hok
  obtain ⟨row', hrow', hok⟩ := bind_eq_ok.mp hok
  rw [hrow, Except.ok.injEq] at hrow'
  subst hrow'
  obtain ⟨⟨index, params, freed⟩, hfree, hemit⟩ := bind_eq_ok.mp hok
  have hemitted := emitted_of_freed hgives hfree hemit
  simp only [Scheduler.modify_objs_self, hwants] at hemitted
  rcases hemitted with hsilent | ⟨client, out, happend, hout⟩
  · exact .inl hsilent
  · refine .inr ⟨client, out, happend, hout.requestId, hout.newTokenIds, ?_, hout.poolingOutput,
      hout.specToken⟩
    rw [hout.newLogprobs, hlogprobs, rowIndex, rowIndex, hwants]
    rfl

/-! ### All rows -/

/-- The row `row` of a request that the loop does not skip. -/
structure Processed (cls : SchedulerClass) (host : Host σ) (output : SchedulerOutput)
    (model : ModelRunnerOutput) (handled : Scheduler σ) (failed : List ReqId) (id : ReqId)
    (reqIndex : Nat) (row : RowUpdate) : Prop where
  scheduled : id ∈ output.numScheduledTokens.keys
  loaded : id ∉ failed
  live : id ∈ handled.requests
  index : model.reqIdToIndex.get? id = some reqIndex
  update : rowUpdate cls host output model id reqIndex (handled.objs id) = .ok row

/-- The loop, with `rows` still to come. -/
structure Routing (cfg : Config) (cls : SchedulerClass) (host : Host σ) (output : SchedulerOutput)
    (model : ModelRunnerOutput) (handled : Scheduler σ) (failed : List ReqId)
    (rows : List (ReqId × Int)) (locals : UpdateLocals σ) : Prop where
  nodup : (rows.map Prod.fst).Nodup
  scheduled : ∀ id ∈ rows.map Prod.fst, id ∈ output.numScheduledTokens.keys
  objs : ∀ id ∈ rows.map Prod.fst, locals.self.objs id = handled.objs id
  requests : ∀ id ∈ rows.map Prod.fst, id ∈ locals.self.requests ↔ id ∈ handled.requests
  drafts : locals.self.draftTokenIds = handled.draftTokenIds
  sound : ∀ client out, (client, out) ∈ locals.outputs → ∃ id reqIndex row,
    Processed cls host output model handled failed id reqIndex row ∧
      EmittedFrom cfg host model handled.draftTokenIds id (handled.objs id) reqIndex row out
  complete : ∀ id reqIndex row, Processed cls host output model handled failed id reqIndex row →
    id ∉ rows.map Prod.fst → row.stopped = true →
    (handled.objs id).wantsSpecToken cfg = true → handled.draftTokenIds ≠ none →
    ∃ client out, (client, out) ∈ locals.outputs ∧
      EmittedFrom cfg host model handled.draftTokenIds id (handled.objs id) reqIndex row out

section Loop

variable {output : SchedulerOutput} {model : ModelRunnerOutput} {handled : Scheduler σ}
  {failed : List ReqId}

theorem RowEffect.mem_requests_iff {id : ReqId} {row : RowUpdate} {locals next : UpdateLocals σ}
    (heffect : RowEffect id row locals next) {other : ReqId} (hne : other ≠ id) :
    other ∈ next.self.requests ↔ other ∈ locals.self.requests := by
  rcases heffect.requests with heq | ⟨-, heq⟩
  · rw [heq]
  · rw [heq, List.mem_filter]
    simp [hne]

theorem Routing.row (lawful : host.Lawful) (hgives : host.GivesNoSpecToken)
    {entry : ReqId × Int} {rows : List (ReqId × Int)} {locals next : UpdateLocals σ}
    (h : Routing cfg cls host output model handled failed (entry :: rows) locals)
    (hok : updateRow cfg cls host output model failed locals entry = .ok next) :
    Routing cfg cls host output model handled failed rows next := by
  have hnodup := List.nodup_cons.mp h.nodup
  have hhead : entry.1 ∈ (entry :: rows).map Prod.fst := List.mem_map_of_mem List.mem_cons_self
  have htail : ∀ id ∈ rows.map Prod.fst, id ∈ (entry :: rows).map Prod.fst :=
    fun id hmem => List.mem_cons_of_mem _ hmem
  have hne : ∀ id ∈ rows.map Prod.fst, id ≠ entry.1 := by
    rintro _ hmem rfl
    exact hnodup.1 hmem
  rcases updateRow_outputs lawful hgives hok with
    ⟨rfl, hskip⟩ | ⟨reqIndex, row, ⟨hloaded, hlive⟩, hindex, hupdate, heffect, hout⟩
  · refine ⟨hnodup.2, fun id hmem => h.scheduled id (htail id hmem),
      fun id hmem => h.objs id (htail id hmem), fun id hmem => h.requests id (htail id hmem),
      h.drafts, h.sound, ?_⟩
    intro id reqIndex row hrow hdone
    apply h.complete id reqIndex row hrow
    rw [List.map_cons, List.mem_cons, not_or]
    refine ⟨?_, hdone⟩
    rintro rfl
    rcases hskip with hfailed | hgone
    · exact hrow.loaded hfailed
    · exact hgone ((h.requests _ hhead).mpr hrow.live)
  · have hobjs := h.objs _ hhead
    rw [hobjs] at hupdate hout
    rw [h.drafts] at hout
    have hprocessed : Processed cls host output model handled failed entry.1 reqIndex row :=
      ⟨h.scheduled _ hhead, hloaded, (h.requests _ hhead).mp hlive, hindex, hupdate⟩
    obtain ⟨nans, hnext⟩ := heffect.objs
    refine ⟨hnodup.2, fun id hmem => h.scheduled id (htail id hmem), ?_, ?_,
      heffect.draftTokenIds.trans h.drafts, ?_, ?_⟩
    · intro id hmem
      rw [hnext, Function.update_of_ne (hne id hmem)]
      exact h.objs id (htail id hmem)
    · intro id hmem
      rw [heffect.mem_requests_iff (hne id hmem)]
      exact h.requests id (htail id hmem)
    · intro client out hmem
      rcases hout with ⟨hsame, -⟩ | ⟨_, emitted, happend, hemitted⟩
      · exact h.sound client out (hsame ▸ hmem)
      · rw [happend, List.mem_append] at hmem
        rcases hmem with hold | hnew
        · exact h.sound client out hold
        · cases List.mem_singleton.mp hnew
          exact ⟨entry.1, reqIndex, row, hprocessed, hemitted⟩
    · intro id otherIndex other hrow hdone hstopped hwants hdrafts
      by_cases heq : id = entry.1
      · subst heq
        have hsame : otherIndex = reqIndex := Option.some.inj (hrow.index.symm.trans hindex)
        subst hsame
        have hrows : other = row := Except.ok.inj (hrow.update.symm.trans hupdate)
        subst hrows
        rcases hout with ⟨-, hnone⟩ | ⟨client, emitted, happend, hemitted⟩
        · exact absurd (hnone hstopped hwants) hdrafts
        · exact ⟨client, emitted, by rw [happend]; simp, hemitted⟩
      · obtain ⟨client, emitted, hmem, hemitted⟩ := h.complete id otherIndex other hrow
          (by rw [List.map_cons, List.mem_cons, not_or]; exact ⟨heq, hdone⟩) hstopped hwants
          hdrafts
        refine ⟨client, emitted, ?_, hemitted⟩
        rcases hout with ⟨hsame, -⟩ | ⟨_, _, happend, -⟩
        · rwa [hsame]
        · rw [happend]
          exact List.mem_append_left _ hmem

theorem UpdateLocals.close_outputs (cfg : Config) (host : Host σ) (model : ModelRunnerOutput)
    (locals : UpdateLocals σ) : (locals.close cfg host model).outputs = locals.outputs := by
  unfold close
  dsimp only
  split
  · rfl
  · rfl

theorem Routing.start : Routing cfg cls host output model handled failed
    output.numScheduledTokens.entries { self := handled } where
  nodup := output.numScheduledTokens.nodup
  scheduled := fun _ hmem => hmem
  objs := fun _ _ => rfl
  requests := fun _ _ => Iff.rfl
  drafts := rfl
  sound := fun _ _ hmem => absurd hmem List.not_mem_nil
  complete := fun _ _ _ hrow hdone => absurd hrow.scheduled hdone

omit handled failed in
theorem SchedulerClass.updateFromOutput_routing (lawful : host.Lawful)
    (hgives : host.GivesNoSpecToken) {self : Scheduler σ} {locals : UpdateLocals σ}
    (hok : cls.updateFromOutput cfg host self output model = .ok locals) :
    ∃ processed, locals.outputs = processed.outputs ∧
      Routing cfg cls host output model (self.handleInvalidBlocks host model).1
        (self.handleInvalidBlocks host model).2 [] processed := by
  unfold updateFromOutput at hok
  generalize self.handleInvalidBlocks host model = handled at hok ⊢
  obtain ⟨processed, hprocessed, hclose⟩ := bind_eq_ok.mp hok
  rw [pure_eq_ok] at hclose
  refine ⟨processed, by rw [← hclose, UpdateLocals.close_outputs], ?_⟩
  exact foldlM_consumes Routing.start
    (fun _ _ _ _ hrouting hrow => hrouting.row lawful hgives hrow) hprocessed

end Loop

/-- The outputs have the data of their own rows exactly if no lookup in the draft list finds a
place with other logprobs. -/
theorem rows_routed_iff (lawful : host.Lawful) (hgives : host.GivesNoSpecToken)
    {self : Scheduler σ} {output : SchedulerOutput} {model : ModelRunnerOutput}
    {locals : UpdateLocals σ}
    (hok : cls.updateFromOutput cfg host self output model = .ok locals) :
    RowsRouted host self model locals ↔ DraftRowsAgree cfg cls host self output model := by
  obtain ⟨processed, houtputs, hrouting⟩ :=
    SchedulerClass.updateFromOutput_routing lawful hgives hok
  obtain ⟨-, -, hrequests, hdrafts, hobjs⟩ := self.handleInvalidBlocks_same host model
  have hwants : ∀ id, ((self.handleInvalidBlocks host model).1.objs id).wantsSpecToken cfg =
      (self.objs id).wantsSpecToken cfg := by
    intro id
    obtain ⟨computed, heq⟩ := hobjs id
    rw [heq]
    rfl
  have hlogprobs : ∀ id index,
      rowLogprobs host model ((self.handleInvalidBlocks host model).1.objs id) index =
        rowLogprobs host model (self.objs id) index := by
    intro id index
    obtain ⟨computed, heq⟩ := hobjs id
    rw [heq]
    rfl
  constructor
  · intro hrouted id hscheduled hloaded hlive reqIndex row hindex hupdate hstopped hasks drafts
      draftIndex hfound hplace
    obtain ⟨client, out, hmem, hemitted⟩ := hrouting.complete id reqIndex row
      ⟨hscheduled, hloaded, hrequests ▸ hlive, hindex, hupdate⟩ List.not_mem_nil hstopped
      ((hwants id).trans hasks) (by rw [hdrafts, hfound]; nofun)
    obtain ⟨ownIndex, hown, hrow⟩ := hrouted client out (houtputs ▸ hmem)
    rw [hemitted.requestId, hindex] at hown
    cases hown
    have hsame := hemitted.newLogprobs
    rw [hrow.logprobs, hemitted.requestId, hlogprobs, rowIndex, hwants, hstopped, hasks, hdrafts,
      hfound] at hsame
    simpa [hplace] using hsame.symm
  · intro hagree client out hmem
    obtain ⟨id, reqIndex, row, hrow, hemitted⟩ := hrouting.sound client out (houtputs ▸ hmem)
    obtain ⟨htokens, hpooler⟩ := rowUpdate_data lawful hrow.update
    refine ⟨reqIndex, by rw [hemitted.requestId, hrow.index], ?_, ?_, ?_, ?_⟩
    · rwa [hemitted.newTokenIds]
    · rw [hemitted.newLogprobs, hemitted.requestId, hlogprobs, rowIndex, hwants, hdrafts]
      split
      · rename_i hlookup
        rw [Bool.and_eq_true] at hlookup
        cases hfound : self.draftTokenIds with
        | none => rfl
        | some drafts =>
            cases hplace : drafts.reqIds.idxOf? id with
            | none => rw [Option.bind_some, hplace, Option.getD_none]
            | some draftIndex =>
                rw [Option.bind_some, hplace, Option.getD_some]
                exact hagree id hrow.scheduled hrow.loaded (hrequests ▸ hrow.live) reqIndex row
                  hrow.index hrow.update hlookup.1 hlookup.2 drafts draftIndex hfound hplace
      · rfl
    · rw [hemitted.poolingOutput]
      exact hpooler
    · rw [hemitted.requestId, ← hdrafts]
      exact hemitted.specToken

theorem Pool.host_givesNoSpecToken (cfg : Config) : (Pool.host cfg).GivesNoSpecToken := by
  intro pool request params hparams
  obtain ⟨_, -, rfl⟩ := Option.map_eq_some_iff.mp hparams
  rfl

namespace Samples

def prefillModel : Config := { shortModel with disaggTransAllBlocks := true }

/-- A prompt that a prefill instance computes for a decode instance. -/
def prefillFor (id : ReqId) : Request :=
  { requestId := id, promptTokenIds := [5], maxTokens := 1, wantsLogprobs := true,
    kvTransferParams := some { retFirstTok := true } }

/-- Two rows, in the order of the ids. -/
def twoRows : ModelRunnerOutput where
  reqIdToIndex := (Dict.empty.set 0 0).set 1 1
  sampledTokenIds := [[7], [8]]
  logprobs := some [[0], [1]]

/-- What is emitted for them. -/
def twoRowOutputs (self : Scheduler Pool) (output : SchedulerOutput) :
    List (Nat × EngineCoreOutput) :=
  match SchedulerClass.profiler.updateFromOutput prefillModel (Pool.host prefillModel) self output
    twoRows with
  | .ok locals => locals.outputs
  | .error _ => []

theorem updateFromOutput_of_twoRowOutputs {self : Scheduler Pool} {output : SchedulerOutput}
    (hne : twoRowOutputs self output ≠ []) : ∃ locals,
    SchedulerClass.profiler.updateFromOutput prefillModel (Pool.host prefillModel) self output twoRows =
      .ok locals ∧ twoRowOutputs self output = locals.outputs := by
  unfold twoRowOutputs at hne ⊢
  split at hne
  · rename_i locals hok
    exact ⟨locals, hok, rfl⟩
  · exact absurd rfl hne

/-- The drafts of the two requests, in this order. -/
def withDrafts (reqIds : List ReqId) (self : Scheduler Pool) : Scheduler Pool :=
  { self with draftTokenIds := some ⟨reqIds, [[9], [6]]⟩ }

theorem twoRows_index {id : ReqId} {reqIndex draftIndex : Nat}
    (hindex : twoRows.reqIdToIndex.get? id = some reqIndex)
    (hplace : [0, 1].idxOf? id = some draftIndex) : draftIndex = reqIndex := by
  obtain ⟨hlt, hid, -⟩ := List.idxOf?_eq_some_iff.mp hplace
  have hcases : draftIndex = 0 ∨ draftIndex = 1 := by
    simp only [List.length_cons, List.length_nil] at hlt
    omega
  rcases hcases with rfl | rfl
  · rw [← show 0 = id from hid] at hindex
    exact Option.some.inj hindex
  · rw [← show 1 = id from hid] at hindex
    exact Option.some.inj hindex

end Samples

open Samples in
theorem rows_routed_iff_two_rows : ∃ self output locals,
    SchedulerClass.profiler.updateFromOutput prefillModel (Pool.host prefillModel)
      (withDrafts [0, 1] self) output twoRows = .ok locals ∧ locals.outputs.length = 2 ∧
    RowsRouted (Pool.host prefillModel) (withDrafts [0, 1] self) twoRows locals := by
  obtain ⟨_, self, output, -, -, htest⟩ :=
    SchedulerClass.exists_of_tryAfter .profiler prefillModel (Pool.host prefillModel) pool
      [.addRequest (prefillFor 0), .addRequest (prefillFor 1)]
      (fun _ next output => decide ((twoRowOutputs (withDrafts [0, 1] next) output).length = 2))
      (by decide +kernel)
  have hlength := of_decide_eq_true htest
  obtain ⟨locals, hok, houtputs⟩ :=
    updateFromOutput_of_twoRowOutputs (List.ne_nil_of_length_eq_add_one hlength)
  refine ⟨self, output, locals, hok, houtputs ▸ hlength, ?_⟩
  apply (rows_routed_iff (Pool.host_lawful _) (Pool.host_givesNoSpecToken _) hok).mpr
  intro id _ _ _ reqIndex _ hindex _ _ _ drafts draftIndex hdrafts hplace
  cases hdrafts
  rw [twoRows_index hindex hplace]

open Samples in
/-- With the draft list in the other order the second request gets the logprobs of the first. -/
theorem logprobs_of_other_row : ∃ before next output locals,
    SchedulerClass.profiler.Reachable prefillModel (Pool.host prefillModel) pool before ∧
    SchedulerClass.profiler.schedule prefillModel (Pool.host prefillModel) before =
      .ok (next, output) ∧
    SchedulerClass.profiler.updateFromOutput prefillModel (Pool.host prefillModel)
      (withDrafts [1, 0] next) output twoRows = .ok locals ∧
    (∃ client out, (client, out) ∈ locals.outputs ∧ out.requestId = 1 ∧
      out.newLogprobs = some [[0]]) ∧
    ¬RowsRouted (Pool.host prefillModel) (withDrafts [1, 0] next) twoRows locals := by
  obtain ⟨before, next, output, hreachable, hschedule, htest⟩ :=
    SchedulerClass.exists_of_tryAfter .profiler prefillModel (Pool.host prefillModel) pool
      [.addRequest (prefillFor 0), .addRequest (prefillFor 1)]
      (fun _ next output => (twoRowOutputs (withDrafts [1, 0] next) output).any fun entry =>
        decide (entry.2.requestId = 1 ∧ entry.2.newLogprobs = some [[0]]))
      (by decide +kernel)
  rw [List.any_eq_true] at htest
  obtain ⟨⟨client, out⟩, hmem, hout⟩ := htest
  obtain ⟨hid, hlogprobs⟩ := of_decide_eq_true hout
  obtain ⟨locals, hok, houtputs⟩ := updateFromOutput_of_twoRowOutputs (List.ne_nil_of_mem hmem)
  rw [houtputs] at hmem
  refine ⟨before, next, output, locals, hreachable, hschedule, hok,
    ⟨client, out, hmem, hid, hlogprobs⟩, ?_⟩
  intro hrouted
  obtain ⟨reqIndex, hindex, hrow⟩ := hrouted client out hmem
  have hown : reqIndex = 1 := by
    rw [show out.requestId = 1 from hid] at hindex
    exact (Option.some.inj hindex).symm
  have hsame := hrow.logprobs
  rw [hlogprobs, hown, rowLogprobs] at hsame
  split at hsame
  · cases hsame
  · cases hsame

end VllmMlu.Sched
