import VllmMlu.Sched.AsyncRuns
import VllmMlu.Sched.Grants

/-! How many drafts a call of the chunked schedulers records for a request, against how far
the scheduled tokens reach past the tokens the request has. -/
namespace VllmMlu.Sched
open VllmMlu.Library

variable {σ : Type} {cfg : Config} {host : Host σ} {cls : SchedulerClass}

/-- The encoder hook takes tokens off a request, or all of them. -/
def Host.TrimsEncoder (host : Host σ) : Prop :=
  ∀ st request computed count budget,
    (host.tryScheduleEncoderInputs st request computed count budget).2.numNewTokens = 0 ∨
      (host.tryScheduleEncoderInputs st request computed count budget).2.numNewTokens ≤ count

/-- `num_computed_tokens + n - num_tokens - num_output_placeholders`: the call has added
the `n` scheduled tokens to the computed ones of `next`, and placeholders are added last. -/
def draftCount (start next : Scheduler σ) (id : ReqId) : Int :=
  (next.objs id).numComputedTokens - (next.objs id).numTokens -
    (start.objs id).numOutputPlaceholders

/-- The recorded drafts are as many as the scheduled tokens leave room for. -/
structure DraftsMatch (start next : Scheduler σ) (output : SchedulerOutput) (id : ReqId) :
    Prop where
  length : ((output.specTokens id).length : Int) = max 0 (draftCount start next id)
  absent : output.scheduledSpecDecodeTokens.get? id = none ↔ draftCount start next id ≤ 0

/-- A request is admitted with all its tokens and drafts: neither the threshold, the token
budget nor the encoder hook takes any off, and it waits for no token. -/
structure WholeGrant (cfg : Config) (host : Host σ) (st : σ) (request : Request)
    (numComputedTokens tokenBudget encoderBudget : Int) : Prop where
  placeholders : request.numOutputPlaceholders = 0
  threshold : ¬(0 < cfg.longPrefillTokenThreshold ∧
    cfg.longPrefillTokenThreshold < request.numTokensWithSpec - numComputedTokens)
  budget : request.numTokensWithSpec - numComputedTokens ≤ tokenBudget
  encoder : request.hasEncoderInputs = true →
    (host.tryScheduleEncoderInputs st request numComputedTokens
      (request.numTokensWithSpec - numComputedTokens) encoderBudget).2.numNewTokens =
        request.numTokensWithSpec - numComputedTokens

/-! Placeholders. -/

/-- The placeholders of a request, where only the async classes make any. -/
def SchedulerClass.Counts (cls : SchedulerClass) (request : Request) : Prop :=
  0 ≤ request.numOutputPlaceholders ∧
    (cls.isAsync = false → request.numOutputPlaceholders = 0)

theorem SchedulerClass.Counts.of_same {before request : Request} (hcounts : cls.Counts before)
    (hsame : request.numOutputPlaceholders = before.numOutputPlaceholders) :
    cls.Counts request := by
  unfold SchedulerClass.Counts
  rw [hsame]
  exact hcounts

/-- A model runner output has new tokens in the row of every request with drafts. -/
def ModelRunnerOutput.Verifies (output : SchedulerOutput) (model : ModelRunnerOutput) : Prop :=
  ∀ id ∈ output.numScheduledTokens.keys, output.specTokens id ≠ [] →
    ∀ reqIndex ∈ model.reqIdToIndex.get? id, model.generatedTokenIds reqIndex ≠ .ok []

/-- The calls whose model runner outputs have new tokens wherever drafts were scheduled. -/
def Call.Sampled (self : Scheduler σ) : Call → Prop
  | .updateFromOutput output model =>
      (Call.updateFromOutput output model).Allowed self ∧ model.Verifies output
  | call => call.Allowed self

instance (output : SchedulerOutput) (model : ModelRunnerOutput) :
    Decidable (model.Verifies output) := by
  unfold ModelRunnerOutput.Verifies
  infer_instance

instance (self : Scheduler σ) (call : Call) : Decidable (call.Sampled self) :=
  match call with
  | .updateFromOutput _ _ => instDecidableAnd
  | .addRequest request => (inferInstance : Decidable ((Call.addRequest request).Allowed self))
  | .schedule => (inferInstance : Decidable (Call.schedule.Allowed self))
  | .finishRequest id status =>
      (inferInstance : Decidable ((Call.finishRequest id status).Allowed self))
  | .updateDraftTokenIds drafts =>
      (inferInstance : Decidable ((Call.updateDraftTokenIds drafts).Allowed self))
  | .setDraftTokenIds drafts =>
      (inferInstance : Decidable ((Call.setDraftTokenIds drafts).Allowed self))

theorem Call.Sampled.allowed {self : Scheduler σ} {call : Call} (h : call.Sampled self) :
    call.Allowed self := by
  cases call with
  | updateFromOutput output model => exact h.1
  | _ => exact h

theorem appendGenerated_counts (lawful : host.Lawful) {drafts generated : List Token}
    {request : Request} {update : OutputUpdate} (hcounts : cls.Counts request)
    (hverified : drafts ≠ [] → generated ≠ [])
    (hok : appendGenerated cls host drafts generated request = .ok update) :
    cls.Counts update.request := by
  have hhost : ∀ request tokens,
      (host.updateRequestWithOutput request tokens).1.numOutputPlaceholders =
        request.numOutputPlaceholders := by
    intro request tokens
    rw [lawful.update_tokens]
    rfl
  have hasync : ∀ release request, cls.isAsync = true →
      asyncUpdateRequestWithOutput host release request generated = .ok update →
      cls.Counts update.request := by
    intro release request hasync hupdate
    unfold asyncUpdateRequestWithOutput at hupdate
    dsimp only at hupdate
    split at hupdate
    · cases hupdate
    · rename_i hnonneg
      cases hupdate
      refine ⟨by simpa using hnonneg, fun hsync => ?_⟩
      rw [hasync] at hsync
      cases hsync
  unfold appendGenerated at hok
  dsimp only at hok
  split at hok
  · rename_i hnil
    cases hok
    have hdrafts : drafts = [] := by
      by_contra hsome
      exact hverified hsome hnil
    rw [if_pos hdrafts]
    exact hcounts
  · generalize hrolled : (if drafts = [] then request
      else request.rollBack (drafts.length - (generated.length - 1))) = rolled at hok
    have hsync : cls.isAsync = false → rolled.numOutputPlaceholders = 0 := by
      intro hsync
      rw [← hrolled]
      split
      · exact hcounts.2 hsync
      · simp [Request.rollBack, hcounts.2 hsync]
    have hprofiler : cls.isAsync = false →
        SchedulerWithProfiler.updateRequestWithOutput host rolled generated = .ok update →
        cls.Counts update.request := by
      intro hclass hupdate
      cases hupdate
      have hzero := (hhost rolled generated).trans (hsync hclass)
      exact ⟨hzero.ge, fun _ => hzero⟩
    cases cls with
    | profiler => exact hprofiler rfl hok
    | unchunk => exact hprofiler rfl hok
    | async => exact hasync _ _ rfl hok
    | unchunkAsync => exact hasync _ _ rfl hok

theorem rowUpdate_counts (lawful : host.Lawful) {output : SchedulerOutput}
    {model : ModelRunnerOutput} (hverifies : model.Verifies output) {id : ReqId}
    (hmem : id ∈ output.numScheduledTokens.keys) {reqIndex : Nat}
    (hindex : model.reqIdToIndex.get? id = some reqIndex) {request : Request} {row : RowUpdate}
    (hcounts : cls.Counts request)
    (hok : rowUpdate cls host output model id reqIndex request = .ok row) :
    cls.Counts row.request := by
  unfold rowUpdate at hok
  obtain ⟨generated, hgenerated, hrest⟩ := bind_eq_ok.mp hok
  obtain ⟨update, hupdate, hcheck⟩ := bind_eq_ok.mp hrest
  have hverified : output.specTokens id ≠ [] → generated ≠ [] := by
    rintro hdrafts rfl
    exact hverifies id hmem hdrafts reqIndex hindex hgenerated
  have hupdated := appendGenerated_counts lawful hcounts hverified hupdate
  unfold checkPooler at hcheck
  split at hcheck
  · cases hcheck
    exact hupdated
  · split at hcheck
    · cases hcheck
    · rename_i pooled _
      cases hcheck
      apply hupdated.of_same
      dsimp only
      rw [lawful.checkStop_request]

theorem SchedulerClass.updateFromOutput_counts (lawful : host.Lawful) {self : Scheduler σ}
    {output : SchedulerOutput} {model : ModelRunnerOutput} (hverifies : model.Verifies output)
    (hcounts : ∀ id, cls.Counts (self.objs id)) {locals : UpdateLocals σ}
    (hok : cls.updateFromOutput cfg host self output model = .ok locals) (id : ReqId) :
    cls.Counts (locals.self.objs id) := by
  refine @updateFromOutput_objs _ cls cfg host model (fun _ => cls.Counts) self output locals
    ?_ ?_ ?_ hcounts hok id
  · exact fun _ _ _ hrequest => hrequest.of_same rfl
  · exact fun _ _ _ hrequest => hrequest.of_same rfl
  · intro other hmem reqIndex hindex request row hrequest hupdate
    exact rowUpdate_counts lawful hverifies hmem hindex hrequest hupdate

/-- A call of `schedule()` takes no placeholder off a request. -/
theorem Fate.counts {start next : Scheduler σ} {output : SchedulerOutput} {id : ReqId}
    (fate : Fate cls cfg start next output id) (hcounts : cls.Counts (start.objs id)) :
    cls.Counts (next.objs id) := by
  have hprepared : ∀ {before ready : Request}, Prepared cfg (cls.rules cfg) before ready →
      cls.Counts before → cls.Counts ready := by
    rintro before ready ⟨base, hbase, heq, -⟩ hbefore
    rw [heq]
    rcases hbase with rfl | ⟨-, rfl⟩
    · exact hbefore.of_same rfl
    · obtain ⟨outputTokens, specTokens, params, htaken⟩ :=
        Pass.takeTransferredTokens_eq cfg before
      rw [htaken]
      exact hbefore.of_same rfl
  have hscheduled : ∀ (request : Request) (numDrafts : Nat) (count : Int), cls.Counts request →
      cls.Counts (cls.scheduled cfg request numDrafts (some count)) := by
    intro request numDrafts count hrequest
    cases hasync : cls.isAsync with
    | false =>
        unfold SchedulerClass.scheduled
        rw [hasync]
        exact hrequest.of_same rfl
    | true =>
        have hplaceholders := (cls.scheduled_counters cfg hasync request numDrafts count).2.2.2
        refine ⟨?_, fun hsync => ?_⟩
        · have hnonneg := hrequest.1
          rw [hplaceholders]
          split <;> omega
        · rw [hasync] at hsync
          cases hsync
  cases fate with
  | untouched hnone hobj => exact hobj ▸ hcounts
  | ran hrunning hcount hzero hpositive hbetween hdrafts hobj =>
      rw [hobj]
      exact hscheduled _ _ _ (hcounts.of_same rfl)
  | entered hwaiting hready hlookup hcount hpositive hle hdrafts hobj =>
      rw [hobj]
      exact hscheduled _ _ _ ((hprepared hready hcounts).of_same rfl)
  | evicted hrunning hnone hobj =>
      rcases hobj with hobj | hobj
      · rw [hobj]
        exact hcounts.of_same rfl
      · rw [hobj]
        exact hcounts.of_same rfl
  | waits hwaiting hnone hstatus hready => exact hprepared hready hcounts

/-- What one call preserves. -/
theorem SchedulerClass.call_counts (lawful : host.Lawful) {self next : Scheduler σ} {call : Call}
    (hqueues : self.Queues) (hsampled : call.Sampled self)
    (hcounts : ∀ id, cls.Counts (self.objs id)) (hok : cls.call cfg host self call = .ok next) :
    ∀ id, cls.Counts (next.objs id) := by
  intro id
  cases call with
  | addRequest request =>
      cases hok
      change cls.Counts (Function.update self.objs request.requestId request id)
      rw [Function.update_apply]
      split
      · have hzero := hsampled.1.numOutputPlaceholders
        exact ⟨hzero.ge, fun _ => hzero⟩
      · exact hcounts id
  | schedule =>
      obtain ⟨⟨scheduled, output⟩, hschedule, hpure⟩ := bind_eq_ok.mp hok
      rw [pure_eq_ok] at hpure
      obtain ⟨pass, hscheduled⟩ := schedule_scheduled lawful hqueues hschedule
      exact hpure ▸ (hscheduled.fate lawful hqueues id).counts (hcounts id)
  | updateFromOutput output model =>
      obtain ⟨locals, hupdate, hpure⟩ := bind_eq_ok.mp hok
      rw [pure_eq_ok] at hpure
      exact hpure ▸ updateFromOutput_counts lawful hsampled.2 hcounts hupdate id
  | finishRequest other status =>
      cases hok
      rcases Scheduler.finishRequest_eq cfg host self other status with hsame | ⟨hobjs, -, -⟩
      · rw [hsame]
        exact hcounts id
      · rw [hobjs, Function.update_apply]
        split
        · exact (hcounts other).of_same rfl
        · exact hcounts id
  | updateDraftTokenIds drafts =>
      cases hok
      obtain ⟨-, -, -, hobjs⟩ := Scheduler.updateDraftTokenIds_same host
        (drafts.reqIds.zip drafts.draftTokenIds) self
      obtain ⟨tokens, heq⟩ := hobjs id
      rw [Scheduler.updateDraftTokenIds, heq]
      exact (hcounts id).of_same rfl
  | setDraftTokenIds drafts =>
      cases hok
      exact hcounts id

/-- What holds in every state of such a run. -/
structure SchedulerClass.Counted (cls : SchedulerClass) (sched : Scheduler σ) : Prop where
  queues : sched.Queues
  counts : ∀ id, cls.Counts (sched.objs id)

theorem SchedulerClass.Counted.run (lawful : host.Lawful) {st : σ} {self : Scheduler σ}
    (run : (cls.machine cfg host).Run Call.Sampled (.empty st) self) : cls.Counted self := by
  have hstart : cls.Counted (Scheduler.empty st) :=
    ⟨Scheduler.empty_queues st, fun _ => ⟨le_refl 0, fun _ => rfl⟩⟩
  refine run.invariant hstart ?_
  intro state call next hinv hsampled hok
  exact ⟨call_queues lawful hinv.queues hsampled.allowed hok,
    call_counts lawful hinv.queues hsampled hinv.counts hok⟩

/-! The counts of one call. -/

theorem runningTokens_le (htrims : host.TrimsEncoder) (rules : Rules) {st : σ} {request : Request}
    {tokenBudget encoderBudget : Int}
    (hzero : runningTokens cfg rules host st request tokenBudget encoderBudget ≠ 0) :
    request.numComputedTokens +
        runningTokens cfg rules host st request tokenBudget encoderBudget ≤
      request.numTokensWithSpec + request.numOutputPlaceholders := by
  have hasked := (numNewRunningTokens_le cfg rules request tokenBudget).1
  unfold runningTokens planEncoder at hzero ⊢
  split at hzero
  · rename_i hinputs
    have hless := (htrims st request request.numComputedTokens
      (numNewRunningTokens cfg rules request tokenBudget) encoderBudget).resolve_left hzero
    rw [if_pos hinputs]
    omega
  · rename_i hinputs
    rw [if_neg hinputs]
    dsimp only
    omega

/-- The tokens of a waiting request with drafts, and what may take some off. -/
theorem waitingTokens_eq_iff (lawful : host.Lawful) (hdisagg : cfg.disaggTransAllBlocks = true)
    {st : σ} {request : Request} (hdrafts : request.specTokenIds ≠ [])
    {computed tokenBudget encoderBudget : Int} (hpositive :
      0 < waitingTokens cfg (chunkedRules cfg) host st request computed tokenBudget encoderBudget) :
    request.numOutputPlaceholders = 0 ∧
        waitingTokens cfg (chunkedRules cfg) host st request computed tokenBudget encoderBudget =
          request.numTokensWithSpec - computed ↔
      WholeGrant cfg host st request computed tokenBudget encoderBudget := by
  have hasked : numNewWaitingTokens cfg (chunkedRules cfg) request computed =
      clipThreshold cfg (request.numTokensWithSpec - computed) := by
    rw [numNewWaitingTokens, waitingDemand, if_pos ⟨rfl, hdisagg, hdrafts⟩]
  have hle := clipThreshold_le cfg (request.numTokensWithSpec - computed)
  have hbetween := planEncoder_between lawful st request computed
    (min (numNewWaitingTokens cfg (chunkedRules cfg) request computed) tokenBudget) encoderBudget
  change Host.Between _ (waitingTokens cfg (chunkedRules cfg) host st request computed tokenBudget
    encoderBudget) at hbetween
  unfold Host.Between at hbetween
  rw [hasked] at hbetween
  constructor
  · rintro ⟨hplaceholders, hwhole⟩
    have hsame : clipThreshold cfg (request.numTokensWithSpec - computed) =
        request.numTokensWithSpec - computed := by omega
    have hmin : min (request.numTokensWithSpec - computed) tokenBudget =
        request.numTokensWithSpec - computed := by omega
    refine ⟨hplaceholders, fun hcut => ?_, by omega, fun hinputs => ?_⟩
    · rw [clipThreshold, if_pos hcut] at hsame
      omega
    · unfold waitingTokens planEncoder at hwhole
      rw [if_pos hinputs, hasked, hsame, hmin] at hwhole
      exact hwhole
  · rintro ⟨hplaceholders, hthreshold, hbudget, hencoder⟩
    refine ⟨hplaceholders, ?_⟩
    unfold waitingTokens planEncoder
    rw [hasked, clipThreshold, if_neg hthreshold, min_eq_left hbudget]
    split
    · rename_i hinputs
      exact hencoder hinputs
    · rfl

theorem waitingTokens_le (lawful : host.Lawful) (hdisagg : cfg.disaggTransAllBlocks = true)
    {st : σ} {request : Request} {computed tokenBudget encoderBudget : Int} (hpositive :
      0 < waitingTokens cfg (chunkedRules cfg) host st request computed tokenBudget encoderBudget) :
    computed +
        waitingTokens cfg (chunkedRules cfg) host st request computed tokenBudget encoderBudget ≤
      request.numTokensWithSpec := by
  have hbetween := planEncoder_between lawful st request computed
    (min (numNewWaitingTokens cfg (chunkedRules cfg) request computed) tokenBudget) encoderBudget
  change Host.Between _ (waitingTokens cfg (chunkedRules cfg) host st request computed tokenBudget
    encoderBudget) at hbetween
  have hle := clipThreshold_le cfg (waitingDemand cfg (chunkedRules cfg) request - computed)
  have hdemand : waitingDemand cfg (chunkedRules cfg) request = request.numTokensWithSpec := by
    by_cases hdrafts : request.specTokenIds = []
    · rw [waitingDemand, if_neg fun h => h.2.2 hdrafts, Request.numTokensWithSpec, hdrafts]
      exact (Int.add_zero _).symm
    · rw [waitingDemand, if_pos ⟨rfl, hdisagg, hdrafts⟩]
  unfold Host.Between numNewWaitingTokens at hbetween
  omega

section Call

variable {start next : Scheduler σ} {pass : Pass σ} {output : SchedulerOutput} {id : ReqId}

/-- A request has an entry among the drafts when it has drafts. -/
theorem draftsMatch_iff (hscheduled : Scheduled cls cfg host start pass next output)
    {rules : Rules} (hgranted : pass.Granted cfg rules host start) :
    DraftsMatch start next output id ↔
      ((output.specTokens id).length : Int) = max 0 (draftCount start next id) := by
  refine ⟨DraftsMatch.length, fun hlength => ⟨hlength, ?_⟩⟩
  have hentry : output.scheduledSpecDecodeTokens = pass.scheduledSpecDecodeTokens := by
    rw [hscheduled.output]
    rfl
  unfold SchedulerOutput.specTokens at hlength
  rw [hentry] at hlength ⊢
  cases hget : pass.scheduledSpecDecodeTokens.get? id with
  | none =>
      rw [hget] at hlength
      simp only [Option.getD_none, List.length_nil] at hlength
      exact ⟨fun _ => by omega, fun _ => rfl⟩
  | some drafts =>
      have hpositive := List.length_pos_of_ne_nil (hgranted.drafts id drafts hget)
      rw [hget] at hlength
      simp only [Option.getD_some] at hlength
      exact ⟨fun hnone => (nomatch hnone), fun hcount => by omega⟩

theorem ran_draftsMatch (hscheduled : Scheduled cls cfg host start pass next output)
    (htrims : host.TrimsEncoder) (hgranted : pass.Granted cfg (cls.rules cfg) host start)
    (htracked : pass.Tracked cfg (cls.rules cfg) start) (hran : id ∈ pass.scheduledRunningReqs) :
    DraftsMatch start next output id := by
  obtain ⟨hrunning, hobj, count, budget, hcount, hzero, -, -, hdrafts⟩ := htracked.ran id hran
  obtain ⟨st, tokenBudget, encoderBudget, hplanned⟩ := hgranted.ran id hrunning count hcount
  have hle := runningTokens_le htrims (cls.rules cfg) (hplanned ▸ hzero)
  rw [← hplanned] at hle
  have hnext := cls.scheduled_computed cfg (start.objs id).withoutDrafts
    (pass.specTokens id).length count
  rw [← hcount, ← hobj, ← hscheduled.objs] at hnext
  rw [draftsMatch_iff hscheduled hgranted, hscheduled.specTokens, hdrafts,
    Request.draftsWithin_length hle, draftCount, hnext.1, hnext.2, hobj]
  rfl

theorem entered_draftsMatch_iff (lawful : host.Lawful) (hchunked : cls.isUnchunk = false)
    (hdisagg : cfg.disaggTransAllBlocks = true) (hcounts : cls.Counts (start.objs id))
    (hscheduled : Scheduled cls cfg host start pass next output)
    (hgranted : pass.Granted cfg (cls.rules cfg) host start)
    (htracked : pass.Tracked cfg (cls.rules cfg) start)
    (hentered : id ∈ pass.scheduledNewReqs ∨ id ∈ pass.scheduledResumedReqs) :
    ∃ ready computed st tokenBudget encoderBudget,
      Grant cfg (chunkedRules cfg) host (start.objs id) (output.numScheduledTokens.get? id) ready
        computed st tokenBudget encoderBudget ∧
      (DraftsMatch start next output id ↔ ready.specTokenIds = [] ∨
        WholeGrant cfg host st ready computed tokenBudget encoderBudget) := by
  have hrules : cls.rules cfg = chunkedRules cfg := by
    rw [SchedulerClass.rules, hchunked]
    rfl
  rw [hrules] at hgranted htracked
  obtain ⟨ready, computed, st, tokenBudget, encoderBudget, hobj, hgrant⟩ :=
    hgranted.entered id hentered
  obtain ⟨-, tracked, lookup, -, -, -, hsame, -, -, -, hdrafts⟩ := htracked.entered id hentered
  have hspec : pass.specTokens id = ready.specTokenIds := by
    have hboth := hsame.symm.trans hobj
    have htokens := congrArg Request.specTokenIds hboth
    rw [hdrafts, hdisagg]
    exact htokens
  have hplaceholders : ready.numOutputPlaceholders = (start.objs id).numOutputPlaceholders := by
    obtain ⟨base, hbase, heq, -⟩ := hgrant.prepared
    rw [heq]
    rcases hbase with rfl | ⟨-, rfl⟩
    · rfl
    · obtain ⟨outputTokens, specTokens, params, htaken⟩ :=
        Pass.takeTransferredTokens_eq cfg (start.objs id)
      rw [htaken]
  refine ⟨ready, computed, st, tokenBudget, encoderBudget, ?_, ?_⟩
  · rw [hscheduled.numScheduledTokens]
    exact hgrant
  · have hnext := cls.scheduled_computed cfg (ready.admitted computed)
      (pass.specTokens id).length
      (waitingTokens cfg (chunkedRules cfg) host st ready computed tokenBudget encoderBudget)
    rw [← hgrant.count, ← hobj, ← hscheduled.objs, hobj] at hnext
    have hle := waitingTokens_le lawful hdisagg hgrant.positive
    have hnonneg := hcounts.1
    rw [draftsMatch_iff hscheduled hgranted, hscheduled.specTokens, hspec, draftCount, hnext.1,
      hnext.2, ← hplaceholders]
    rw [← hplaceholders] at hnonneg
    change (ready.specTokenIds.length : Int) = max 0 (computed + _ - ready.numTokens - _) ↔ _
    unfold Request.numTokensWithSpec at hle
    by_cases hnil : ready.specTokenIds = []
    · rw [hnil, List.length_nil] at hle ⊢
      exact ⟨fun _ => .inl rfl, fun _ => by omega⟩
    · have hlength := List.length_pos_of_ne_nil hnil
      have hwhole := waitingTokens_eq_iff lawful hdisagg hnil hgrant.positive
      rw [or_iff_right hnil, ← hwhole, Request.numTokensWithSpec]
      omega

end Call

namespace Samples

/-- A request whose first tokens a prefill instance has computed. -/
def transferred : Request :=
  { requestId := 0, promptTokenIds := [5, 6], maxTokens := 4,
    kvTransferParams := some { firstTok := some 7, firstSpecTok := some [8, 9] } }

/-- Two tokens for each step. -/
def tightModel : Config := { longDraftModel with maxNumScheduledTokens := 2 }

end Samples

instance (start next : Scheduler σ) (output : SchedulerOutput) (id : ReqId) :
    Decidable (DraftsMatch start next output id) :=
  decidable_of_iff (((output.specTokens id).length : Int) = max 0 (draftCount start next id) ∧
      (output.scheduledSpecDecodeTokens.get? id = none ↔ draftCount start next id ≤ 0))
    ⟨fun h => ⟨h.1, h.2⟩, fun h => ⟨h.length, h.absent⟩⟩

end VllmMlu.Sched
