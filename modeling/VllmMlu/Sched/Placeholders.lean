import VllmMlu.Sched.Settling

/-! The placeholder accounting of the async schedulers: what the counters of a
request say about the batches that are in flight for it. -/
namespace VllmMlu.Sched
open VllmMlu.Library

variable {σ : Type} {cls : SchedulerClass} {cfg : Config} {host : Host σ}

/-- The counters of a request, when the batches in flight will release
`outstanding` of its placeholders. -/
structure Request.Accounts (request : Request) (outstanding : Int) : Prop where
  enough : outstanding ≤ request.numOutputPlaceholders
  balanced : request.isFinished = false → request.numOutputPlaceholders = outstanding
  computed : request.isFinished = false → 0 ≤ request.numComputedTokens
  running : request.status = .running →
    request.numOutputPlaceholders = 0 ∧ request.numComputedTokens < request.numTokens ∨
      0 < request.numOutputPlaceholders ∧
        request.numComputedTokens = request.numTokens + request.numOutputPlaceholders - 1
  waiting : request.status.waits = true → 0 < request.numOutputPlaceholders →
    request.numComputedTokens = 0

theorem RequestStatus.waits_of_unfinished {status : RequestStatus}
    (hunfinished : status.isFinished = false) (hrunning : status ≠ .running) :
    status.waits = true := by
  cases status with
  | running => exact absurd rfl hrunning
  | finishedStopped => cases hunfinished
  | finishedLengthCapped => cases hunfinished
  | finishedAborted => cases hunfinished
  | waiting | waitingForFsm | waitingForRemoteKvs | preempted => rfl

/-! One row of `update_from_output`. -/

/-- The roll-back of the rejected drafts, whether the request had drafts or not. -/
theorem Request.rollBack_rejected {request : Request} {drafts generated : List Token}
    (hplaceholders : 0 < request.numOutputPlaceholders) (hsome : generated ≠ [])
    (hle : generated.length ≤ drafts.length + 1) :
    (if drafts = [] then request
      else request.rollBack (drafts.length - (generated.length - 1))) =
      { request with
        numComputedTokens :=
          if 0 < request.numComputedTokens then
            request.numComputedTokens - (drafts.length + 1 - generated.length)
          else request.numComputedTokens
        numOutputPlaceholders :=
          request.numOutputPlaceholders - (drafts.length + 1 - generated.length) } := by
  have hlength := List.length_pos_of_ne_nil hsome
  split
  · rename_i hnil
    subst hnil
    have hone : generated.length = 1 := by
      simp only [List.length_nil] at hle
      omega
    simp [hone]
  · rw [rollBack, if_pos hplaceholders]
    have hrejected : (drafts.length : Int) - (generated.length - 1) =
        drafts.length + 1 - generated.length := by ring
    rw [hrejected]

theorem SchedulerClass.updateRequestWithOutput_async (hasync : cls.isAsync = true)
    (request : Request) (tokens : List Token) (hplaceholders : 0 < request.numOutputPlaceholders)
    (lawful : host.Lawful)
    (hle : ((host.updateRequestWithOutput request tokens).2.1.length : Int) ≤
      request.numOutputPlaceholders) :
    ∃ update, cls.updateRequestWithOutput host request tokens = .ok update ∧
      update.request = { (host.updateRequestWithOutput request tokens).1 with
        numOutputPlaceholders := request.numOutputPlaceholders -
          (host.updateRequestWithOutput request tokens).2.1.length } ∧
      update.stopped = (host.updateRequestWithOutput request tokens).2.2 ∧
      ∀ call ∈ update.cacheBlocksCall, request.status = .running ∧
        call = (update.request,
          update.request.numComputedTokens - update.request.numOutputPlaceholders) := by
  have hkept : (host.updateRequestWithOutput request tokens).1.numOutputPlaceholders =
      request.numOutputPlaceholders := by
    rw [lawful.update_tokens]
    rfl
  have hasyncUpdate : ∀ release : Int → Nat → Int,
      release request.numOutputPlaceholders
        (host.updateRequestWithOutput request tokens).2.1.length =
          request.numOutputPlaceholders -
            (host.updateRequestWithOutput request tokens).2.1.length →
      ∃ update, asyncUpdateRequestWithOutput host release request tokens = .ok update ∧
        update.request = { (host.updateRequestWithOutput request tokens).1 with
          numOutputPlaceholders := request.numOutputPlaceholders -
            (host.updateRequestWithOutput request tokens).2.1.length } ∧
        update.stopped = (host.updateRequestWithOutput request tokens).2.2 ∧
        ∀ call ∈ update.cacheBlocksCall, request.status = .running ∧
          call = (update.request,
            update.request.numComputedTokens - update.request.numOutputPlaceholders) := by
    intro release hrelease
    unfold asyncUpdateRequestWithOutput
    dsimp only
    rw [hkept, hrelease, if_neg (by omega)]
    refine ⟨_, rfl, rfl, rfl, ?_⟩
    intro call hcall
    dsimp only at hcall ⊢
    split at hcall
    · rename_i hrunning
      cases hcall
      exact ⟨hrunning, rfl⟩
    · cases hcall
  cases cls with
  | profiler => cases hasync
  | unchunk => cases hasync
  | async => exact hasyncUpdate _ rfl
  | unchunkAsync => exact hasyncUpdate _ (if_pos hplaceholders)

/-- The row of a batch that samples for a request releases the placeholders that
the batch holds, and raises no assertion. -/
theorem appendGenerated_accounts (lawful : host.Lawful) (hasync : cls.isAsync = true)
    {request : Request} {drafts generated : List Token} {rest : Int} (hrest : 0 ≤ rest)
    (haccounts : request.Accounts (1 + drafts.length + rest)) (hsome : generated ≠ [])
    (hle : generated.length ≤ drafts.length + 1) :
    ∃ update, appendGenerated cls host drafts generated request = .ok update ∧
      update.request.Accounts rest ∧
      ∀ call ∈ update.cacheBlocksCall, call.2 ≤ call.1.numTokens := by
  have henough := haccounts.enough
  have hplaceholders : 0 < request.numOutputPlaceholders := by omega
  have hlength := List.length_pos_of_ne_nil hsome
  unfold appendGenerated
  dsimp only
  rw [Request.rollBack_rejected hplaceholders hsome hle, if_neg hsome]
  generalize hrolled : ({ request with
    numComputedTokens := _
    numOutputPlaceholders := _ } : Request) = rolled
  have hcounters : rolled.numComputedTokens = (if 0 < request.numComputedTokens then
        request.numComputedTokens - (drafts.length + 1 - generated.length)
        else request.numComputedTokens) ∧
      rolled.numOutputPlaceholders =
        request.numOutputPlaceholders - (drafts.length + 1 - generated.length) ∧
      rolled.status = request.status ∧ rolled.numTokens = request.numTokens := by
    subst hrolled
    exact ⟨rfl, rfl, rfl, rfl⟩
  obtain ⟨hcomputed, hoptimistic, hstatus, htokens⟩ := hcounters
  have hprefix := (lawful.update_prefix rolled generated).length_le
  obtain ⟨update, hupdate, hrequest, hstopped, hcall⟩ := cls.updateRequestWithOutput_async hasync
    rolled generated (by omega) lawful (by omega)
  have hupdated := hostUpdate_updated lawful rolled generated
  have hnext : update.request.numComputedTokens = rolled.numComputedTokens ∧
      update.request.numTokens = rolled.numTokens +
        (host.updateRequestWithOutput rolled generated).2.1.length ∧
      update.request.numOutputPlaceholders = rolled.numOutputPlaceholders -
        (host.updateRequestWithOutput rolled generated).2.1.length ∧
      update.request.status = (host.updateRequestWithOutput rolled generated).1.status := by
    rw [hrequest, lawful.update_tokens]
    exact ⟨rfl, rolled.numTokens_appendOutputTokenIds _, rfl, rfl⟩
  obtain ⟨hnextComputed, hnextTokens, hnextPlaceholders, hnextStatus⟩ := hnext
  have hnonneg := request.numTokens_nonneg
  -- A running request is past all its tokens, so that its roll-back is not skipped.
  have hrunning : request.status = .running →
      rolled.numComputedTokens = rolled.numTokens + rolled.numOutputPlaceholders - 1 := by
    intro hrun
    have hposition := (haccounts.running hrun).resolve_left (by omega)
    rw [hcomputed, hoptimistic, htokens]
    split <;> omega
  have hcontinues : update.request.isFinished = false →
      (host.updateRequestWithOutput rolled generated).2.1 = generated ∧
        update.request.status = request.status := by
    intro hunfinished
    rw [Request.isFinished, hnextStatus] at hunfinished
    have hstops : (host.updateRequestWithOutput rolled generated).2.2 = false := by
      cases hstop : (host.updateRequestWithOutput rolled generated).2.2 with
      | false => rfl
      | true =>
          have hfinished := hupdated.stops hstop
          rw [Request.isFinished, hunfinished] at hfinished
          cases hfinished
    exact ⟨(lawful.update_continues _ _ hstops).1,
      hnextStatus.trans ((hupdated.continues hstops).trans hstatus)⟩
  have hbalanced : update.request.isFinished = false →
      update.request.numOutputPlaceholders = rest := by
    intro hunfinished
    obtain ⟨hkept, hsame⟩ := hcontinues hunfinished
    have hold := haccounts.balanced (by rwa [Request.isFinished, ← hsame])
    rw [hnextPlaceholders, hoptimistic, hkept]
    omega
  refine ⟨update, hupdate, ⟨?_, hbalanced, ?_, ?_, ?_⟩, ?_⟩
  · rw [hnextPlaceholders, hoptimistic]
    omega
  · intro hunfinished
    have hsame := (hcontinues hunfinished).2
    have hwas : request.isFinished = false := by rwa [Request.isFinished, ← hsame]
    have hold := haccounts.computed hwas
    rw [hnextComputed]
    by_cases hrun : request.status = .running
    · rw [hrunning hrun, htokens, hoptimistic]
      omega
    · have hzero := haccounts.waiting (RequestStatus.waits_of_unfinished hwas hrun) hplaceholders
      rw [hcomputed, hzero, if_neg (lt_irrefl 0)]
  · intro hrun
    obtain ⟨hkept, hsame⟩ := hcontinues (by rw [Request.isFinished, hrun]; rfl)
    have hposition := hrunning (hsame ▸ hrun)
    have hreleased := hbalanced (by rw [Request.isFinished, hrun]; rfl)
    rw [hnextComputed, hposition, hnextTokens]
    omega
  · intro hwaits hpositive
    have hsame := (hcontinues (RequestStatus.not_finished_of_waits hwaits)).2
    have hzero := haccounts.waiting (hsame ▸ hwaits) hplaceholders
    rw [hnextComputed, hcomputed, hzero, if_neg (lt_irrefl 0)]
  · intro call hmem
    obtain ⟨hrun, rfl⟩ := hcall call hmem
    have hposition := hrunning (hstatus ▸ hrun)
    dsimp only
    omega

/-- A draft is scheduled only in a step that samples. -/
def Batch.DraftsSampled (batch : Batch) : Prop :=
  ∀ id, batch.samples id = false → batch.output.specTokens id = []

section Row

variable (lawful : host.Lawful) (hasync : cls.isAsync = true) {batch : Batch}
  {model : ModelRunnerOutput} (hanswered : batch.Answered model) (hdrafts : batch.DraftsSampled)
include lawful hasync hanswered hdrafts

theorem rowUpdate_accounts {id : ReqId} (hmem : id ∈ batch.reqIds) {reqIndex : Nat}
    (hindex : model.reqIdToIndex.get? id = some reqIndex) {request : Request} {rest : Int}
    (hrest : 0 ≤ rest) (haccounts : request.Accounts (batch.outstanding id + rest)) :
    rowUpdate cls host batch.output model id reqIndex request ≠
      .error (.assertionError .outputPlaceholders) ∧
    ∀ row, rowUpdate cls host batch.output model id reqIndex request = .ok row →
      row.request.Accounts rest ∧ ∀ call ∈ row.cacheBlocksCall, call.2 ≤ call.1.numTokens := by
  unfold rowUpdate
  cases hgenerated : model.generatedTokenIds reqIndex with
  | error err =>
      refine ⟨?_, fun row hok => nomatch hok⟩
      cases ModelRunnerOutput.generatedTokenIds_error hgenerated
      exact fun heq => nomatch heq
  | ok generated =>
      have hreports := hanswered.reports hmem hindex hgenerated
      have happend : ∃ update, appendGenerated cls host (batch.output.specTokens id) generated
          request = .ok update ∧ update.request.Accounts rest ∧
          ∀ call ∈ update.cacheBlocksCall, call.2 ≤ call.1.numTokens := by
        unfold Batch.Reports at hreports
        unfold Batch.outstanding at haccounts
        split at hreports
        · rename_i hsamples
          rw [if_pos ⟨hmem, hsamples⟩] at haccounts
          exact appendGenerated_accounts lawful hasync hrest haccounts hreports.1 hreports.2
        · rename_i hsamples
          rw [if_neg fun hand => hsamples hand.2, zero_add] at haccounts
          rw [Bool.not_eq_true] at hsamples
          refine ⟨⟨request, [], false, none⟩, ?_, haccounts, fun _ hcall => nomatch hcall⟩
          rw [appendGenerated, hdrafts id hsamples, hreports]
          rfl
      obtain ⟨update, hupdate, hnext, hcalls⟩ := happend
      change (appendGenerated cls host _ generated request >>= _) ≠ _ ∧
        ∀ row, (appendGenerated cls host _ generated request >>= _) = _ → _
      rw [hupdate]
      change checkPooler host model reqIndex update ≠ _ ∧
        ∀ row, checkPooler host model reqIndex update = _ → _
      rw [checkPooler, if_pos hanswered.poolerOutput]
      refine ⟨(fun heq => nomatch heq), fun row hok => ?_⟩
      cases hok
      exact ⟨hnext, hcalls⟩

end Row

/-! One call of `schedule()`. -/

/-- The async schedulers whose waiting loop schedules no drafts. -/
def SchedulerClass.TrimsDrafts (cls : SchedulerClass) (cfg : Config) : Prop :=
  cls = .unchunkAsync ∨ cls = .async ∧ cfg.disaggTransAllBlocks = false

theorem SchedulerClass.TrimsDrafts.isAsync (htrims : cls.TrimsDrafts cfg) :
    cls.isAsync = true := by
  rcases htrims with rfl | ⟨rfl, -⟩ <;> rfl

theorem SchedulerClass.TrimsDrafts.no_transfer (htrims : cls.TrimsDrafts cfg) :
    ((cls.rules cfg).chunked && cfg.disaggTransAllBlocks) = false := by
  rcases htrims with rfl | ⟨-, htransfer⟩
  · rfl
  · rw [htransfer, Bool.and_false]

theorem SchedulerClass.TrimsDrafts.waitingDemand (htrims : cls.TrimsDrafts cfg)
    (request : Request) : waitingDemand cfg (cls.rules cfg) request = request.numTokens := by
  have htransfer := htrims.no_transfer
  rw [Bool.and_eq_false_iff] at htransfer
  refine if_neg fun hand => ?_
  rcases htransfer with hchunked | htransfer
  · exact absurd hand.1 (by simp [hchunked])
  · exact absurd hand.2.1 (by simp [htransfer])

/-- A request that is only looked at in the waiting queue keeps its tokens. -/
theorem Prepared.same_tokens (htrims : cls.TrimsDrafts cfg) {before request : Request}
    (hprepared : Prepared cfg (cls.rules cfg) before request) :
    request.numTokens = before.numTokens ∧
      request.numOutputPlaceholders = before.numOutputPlaceholders ∧
      request.specTokenIds = before.specTokenIds := by
  obtain ⟨base, hbase, heq, -⟩ := hprepared
  rcases hbase with rfl | ⟨hchunked, rfl⟩
  · rw [heq]
    exact ⟨rfl, rfl, rfl⟩
  · have htransfer := htrims.no_transfer
    rw [hchunked, Bool.true_and] at htransfer
    rw [heq, Pass.takeTransferredTokens, htransfer]
    exact ⟨rfl, rfl, rfl⟩

/-- What `_update_after_schedule` of an async scheduler does to the counters. -/
theorem SchedulerClass.scheduled_counters (cfg : Config) (hasync : cls.isAsync = true)
    (request : Request) (numDrafts : Nat) (count : Int) :
    (cls.scheduled cfg request numDrafts (some count)).numTokens = request.numTokens ∧
      (cls.scheduled cfg request numDrafts (some count)).status = request.status ∧
      (cls.scheduled cfg request numDrafts (some count)).numComputedTokens =
        request.numComputedTokens + count ∧
      (cls.scheduled cfg request numDrafts (some count)).numOutputPlaceholders =
        if request.numComputedTokens + count =
            request.numTokens + request.numOutputPlaceholders + numDrafts then
          request.numOutputPlaceholders + (1 + numDrafts)
        else request.numOutputPlaceholders := by
  unfold scheduled Request.reservePlaceholders
  dsimp only
  rw [if_pos hasync]
  split
  · rename_i hreaches
    exact ⟨rfl, rfl, rfl, (if_pos hreaches).symm⟩
  · rename_i hreaches
    exact ⟨rfl, rfl, rfl, (if_neg hreaches).symm⟩

/-- The placeholders of a request that a scheduled step reaches the end of, or
that it does not. -/
theorem Request.Accounts.scheduled (hasync : cls.isAsync = true) {request : Request}
    {outstanding : Int} (haccounts : request.Accounts outstanding)
    (hrunning : request.status = .running) {numDrafts : Nat} {count : Int} (hcount : 0 < count)
    (hdrafts : (numDrafts : Int) =
      max 0 (request.numComputedTokens + count - request.numTokens -
        request.numOutputPlaceholders)) :
    (cls.scheduled cfg request numDrafts (some count)).Accounts (outstanding +
      if request.numTokens + request.numOutputPlaceholders ≤ request.numComputedTokens + count then
        1 + (numDrafts : Int) else 0) := by
  obtain ⟨htokens, hstatus, hcomputed, hplaceholders⟩ :=
    SchedulerClass.scheduled_counters cfg hasync request numDrafts count
  have hunfinished : request.isFinished = false := by
    rw [isFinished, hrunning]
    rfl
  have hbalanced := haccounts.balanced hunfinished
  have hold := haccounts.running hrunning
  have hnonneg := haccounts.computed hunfinished
  have hnext : (cls.scheduled cfg request numDrafts (some count)).numOutputPlaceholders =
      outstanding + if request.numTokens + request.numOutputPlaceholders ≤
        request.numComputedTokens + count then 1 + (numDrafts : Int) else 0 := by
    rw [hplaceholders]
    split <;> split <;> omega
  refine ⟨hnext.ge, fun _ => hnext, fun _ => ?_, fun _ => ?_, fun hwaits => ?_⟩
  · rw [hcomputed]
    omega
  · rw [hnext, hcomputed, htokens]
    split <;> omega
  · rw [hstatus, hrunning] at hwaits
    cases hwaits

/-- No running request stands past the position clip of the running loop. -/
def WithinClip (rules : Rules) (sched : Scheduler σ) : Prop :=
  ∀ id ∈ sched.running, (sched.objs id).numComputedTokens ≤ rules.maxPosition (sched.objs id)

instance (rules : Rules) (sched : Scheduler σ) : Decidable (WithinClip rules sched) := by
  unfold WithinClip
  infer_instance

theorem Request.Accounts.computed_le {request : Request} {outstanding : Int}
    (haccounts : request.Accounts outstanding) (hrunning : request.status = .running) :
    request.numComputedTokens ≤ request.numTokens + request.numOutputPlaceholders := by
  rcases haccounts.running hrunning with hprefill | hdecode <;> omega

theorem Request.draftsWithin_length {request : Request} {count : Int}
    (hle : request.numComputedTokens + count ≤
      request.numTokensWithSpec + request.numOutputPlaceholders) :
    ((request.draftsWithin count).length : Int) =
      max 0 (request.numComputedTokens + count - request.numTokens -
        request.numOutputPlaceholders) := by
  unfold numTokensWithSpec at hle
  rw [draftsWithin, List.length_take]
  omega

theorem Request.Accounts.evicted {before after : Request} {outstanding : Int}
    (haccounts : before.Accounts outstanding) (hrunning : before.status = .running)
    (hevicted : Evicted before after) : after.Accounts outstanding := by
  have hbalanced := haccounts.balanced (by rw [isFinished, hrunning]; rfl)
  rcases hevicted with rfl | rfl
  · exact ⟨haccounts.enough, fun _ => hbalanced, fun _ => le_refl 0,
      (fun heq => RequestStatus.noConfusion heq), fun _ _ => rfl⟩
  · exact ⟨haccounts.enough, fun _ => hbalanced, fun _ => le_refl 0,
      (fun heq => RequestStatus.noConfusion heq), fun _ _ => rfl⟩

section Schedule

variable {start next : Scheduler σ} {output : SchedulerOutput} {id : ReqId}

theorem outstanding_of_scheduled {numNewTokens : Int}
    (hcount : output.numScheduledTokens.get? id = some numNewTokens) :
    (Batch.mk output (samples start next)).outstanding id =
      if (next.objs id).numTokens + (start.objs id).numOutputPlaceholders ≤
        (next.objs id).numComputedTokens then 1 + ((output.specTokens id).length : Int)
      else 0 := by
  have hmem : id ∈ (Batch.mk output (samples start next)).reqIds := Dict.mem_keys_of_get? hcount
  unfold Batch.outstanding
  refine if_congr ?_ rfl rfl
  rw [and_iff_right hmem]
  exact decide_eq_true_iff

/-- What a call of `schedule()` does to the accounts of one request. -/
theorem Fate.accounts (htrims : cls.TrimsDrafts cfg) (hqueues : start.Queues)
    (hclip : WithinClip (cls.rules cfg) start) (fate : Fate cls cfg start next output id)
    (hlive : ∀ other ∈ start.running, ∃ outstanding, (start.objs other).Accounts outstanding)
    {outstanding : Int} (haccounts : (start.objs id).Accounts outstanding)
    (hwaits : id ∈ start.waiting → outstanding = 0)
    (hspec : id ∉ output.numScheduledTokens.keys → output.specTokens id = []) :
    (next.objs id).Accounts
        (outstanding + (Batch.mk output (samples start next)).outstanding id) ∧
      (samples start next id = false → output.specTokens id = []) := by
  have hasync := htrims.isAsync
  have hunscheduled : id ∉ output.numScheduledTokens.keys →
      outstanding + (Batch.mk output (samples start next)).outstanding id = outstanding := by
    intro hnone
    rw [Batch.outstanding_of_not_mem hnone, add_zero]
  -- The new drafts reach past the tokens only in a step that samples.
  have hscheduled : ∀ (request : Request) {numNewTokens : Int},
      output.numScheduledTokens.get? id = some numNewTokens →
      request.Accounts outstanding → request.status = .running → 0 < numNewTokens →
      request.numOutputPlaceholders = (start.objs id).numOutputPlaceholders →
      ((output.specTokens id).length : Int) = max 0 (request.numComputedTokens + numNewTokens -
        request.numTokens - request.numOutputPlaceholders) →
      next.objs id = cls.scheduled cfg request (output.specTokens id).length
        (some numNewTokens) →
      (next.objs id).Accounts
          (outstanding + (Batch.mk output (samples start next)).outstanding id) ∧
        (samples start next id = false → output.specTokens id = []) := by
    intro request numNewTokens hcount hrequest hrunning hpositive hsame hlength hobj
    obtain ⟨htokens, -, hcomputed, -⟩ := SchedulerClass.scheduled_counters cfg hasync request
      (output.specTokens id).length numNewTokens
    rw [← hobj] at htokens hcomputed
    constructor
    · rw [outstanding_of_scheduled hcount, htokens, hcomputed, ← hsame, hobj]
      exact hrequest.scheduled hasync hrunning hpositive hlength
    · intro hsamples
      have hshort := of_decide_eq_false hsamples
      rw [htokens, hcomputed, ← hsame] at hshort
      exact List.length_eq_zero_iff.mp (by omega)
  cases fate with
  | untouched hnone hobj =>
      rw [hobj, hunscheduled hnone]
      exact ⟨haccounts, fun _ => hspec hnone⟩
  | @ran numNewTokens budget hrunning hcount hzero hpositive hbetween hdrafts hobj =>
      have hstatus := hqueues.running_status id hrunning
      obtain ⟨htokens, -, -⟩ :=
        numNewRunningTokens_le cfg (cls.rules cfg) (start.objs id) budget
      have hclipped : Clipped (cls.rules cfg) start := by
        intro other hmem
        obtain ⟨_, hother⟩ := hlive other hmem
        have hle := hother.computed_le (hqueues.running_status other hmem)
        refine ⟨?_, hclip other hmem⟩
        unfold Request.numTokensWithSpec
        omega
      have hnonneg := numNewRunningTokens_nonneg cfg hclipped hrunning hpositive.le
      unfold Host.Between at hbetween
      refine hscheduled (start.objs id).withoutDrafts hcount ?_ hstatus (by omega) rfl ?_ hobj
      · exact ⟨haccounts.enough, haccounts.balanced, haccounts.computed, haccounts.running,
          haccounts.waiting⟩
      · rw [hdrafts]
        exact Request.draftsWithin_length (by omega)
  | @entered ready computed numNewTokens hwaiting hprepared hlookup hcount hpositive hle hdrafts
      hobj =>
      have hstatus := hqueues.waiting_status id hwaiting
      have hunfinished := RequestStatus.not_finished_of_waits hstatus
      obtain ⟨htokens, hplaceholders, -⟩ := hprepared.same_tokens htrims
      have hbalanced := haccounts.balanced hunfinished
      have hzero := hwaits hwaiting
      have hcomputed : 0 ≤ computed.numComputedTokens := by
        obtain ⟨_, _, _, hready⟩ := hprepared
        have hold := haccounts.computed hunfinished
        have htotal := hlookup.total
        omega
      have hwithin := hle.trans (clipThreshold_le cfg _)
      rw [htrims.waitingDemand] at hwithin
      rw [htrims.no_transfer] at hdrafts
      have hdone : (ready.admitted computed.numComputedTokens).numOutputPlaceholders = 0 :=
        hplaceholders.trans (hbalanced.trans hzero)
      have hsame : (ready.admitted computed.numComputedTokens).numTokens = ready.numTokens := rfl
      refine hscheduled (ready.admitted computed.numComputedTokens) hcount ?_ rfl hpositive
        hplaceholders ?_ hobj
      · refine ⟨by omega, fun _ => by omega, fun _ => hcomputed, fun _ => .inl ⟨hdone, ?_⟩,
          fun hwaits => nomatch hwaits⟩
        rw [Request.admitted_numComputedTokens, hsame]
        omega
      · rw [hdrafts, Request.admitted_numComputedTokens, hsame, hdone]
        simp only [Bool.false_eq_true, if_false, List.length_nil, Nat.cast_zero]
        omega
  | evicted hrunning hnone hobj =>
      rw [hunscheduled hnone]
      exact ⟨haccounts.evicted (hqueues.running_status id hrunning) hobj, fun _ => hspec hnone⟩
  | waits hwaiting hnone hstatus hprepared =>
      have hunfinished := RequestStatus.not_finished_of_waits (hqueues.waiting_status id hwaiting)
      have hzero := hwaits hwaiting
      have hdone : (next.objs id).numOutputPlaceholders = 0 :=
        (hprepared.same_tokens htrims).2.1.trans ((haccounts.balanced hunfinished).trans hzero)
      obtain ⟨_, _, _, hready⟩ := hprepared
      have hold := haccounts.computed hunfinished
      rw [hunscheduled hnone, hzero]
      refine ⟨⟨by omega, fun _ => hdone, fun _ => by omega, fun hrunning => ?_,
        fun _ hpositive => by omega⟩, fun _ => hspec hnone⟩
      exact absurd hrunning (RequestStatus.not_running_of_waits hstatus)

end Schedule

/-! Whole runs. -/

/-- A call of `cache_blocks` stays within the tokens of its request. -/
def WithinTokens (call : Request × Int) : Prop := call.2 ≤ call.1.numTokens

theorem Batch.rowRule (lawful : host.Lawful) (hasync : cls.isAsync = true) {batch : Batch}
    {model : ModelRunnerOutput} (hanswered : batch.Answered model)
    (hdrafts : batch.DraftsSampled) :
    RowRule cls host batch model Request.Accounts WithinTokens where
  nans := fun _ _ _ haccounts => ⟨haccounts.enough, haccounts.balanced, haccounts.computed,
    haccounts.running, haccounts.waiting⟩
  row := fun _ hmem _ hindex _ _ hrest haccounts =>
    (rowUpdate_accounts lawful hasync hanswered hdrafts hmem hindex hrest haccounts).2

/-- An abort changes the status of one request, and drops it. -/
theorem Scheduler.finishRequest_eq (cfg : Config) (host : Host σ) (sched : Scheduler σ) (id : ReqId) (status : RequestStatus) :
    sched.finishRequest cfg host id status = sched ∨
    (sched.finishRequest cfg host id status).objs =
        Function.update sched.objs id ((sched.objs id).withStatus status) ∧
      (∀ other ∈ (sched.finishRequest cfg host id status).requests, other ∈ sched.requests) ∧
      ∀ other ∈ sched.running, other ≠ id →
        other ∈ (sched.finishRequest cfg host id status).running := by
  unfold Scheduler.finishRequest
  split
  · refine .inr ?_
    dsimp only
    split
    · refine ⟨rfl, ?_, fun other hmem hne => List.mem_filter.mpr ⟨hmem, by simpa using hne⟩⟩
      intro other hmem
      unfold Scheduler.freeRequest at hmem
      dsimp only at hmem
      split at hmem
      · exact hmem
      · exact (List.mem_filter.mp hmem).1
    · refine ⟨rfl, ?_, fun other hmem _ => hmem⟩
      intro other hmem
      unfold Scheduler.freeRequest at hmem
      dsimp only at hmem
      split at hmem
      · exact hmem
      · exact (List.mem_filter.mp hmem).1
  · exact .inl rfl

/-- The events of a run without failed loads, in which `schedule()` finds no running
request past its clip. -/
def Event.Smooth (rules : Rules) (pipeline : Pipeline σ) : Event → Prop
  | .schedule => Event.schedule.Allowed pipeline ∧ WithinClip rules pipeline.sched
  | .update model => (Event.update model).Allowed pipeline ∧ model.Loaded
  | event => event.Allowed pipeline

instance (rules : Rules) (pipeline : Pipeline σ) (event : Event) :
    Decidable (event.Smooth rules pipeline) :=
  match event with
  | .schedule | .update _ => instDecidableAnd
  | .addRequest request => (inferInstance : Decidable ((Event.addRequest request).Allowed pipeline))
  | .finishRequest id status =>
      (inferInstance : Decidable ((Event.finishRequest id status).Allowed pipeline))
  | .setDraftTokenIds drafts =>
      (inferInstance : Decidable ((Event.setDraftTokenIds drafts).Allowed pipeline))

structure Pipeline.Accounted (pipeline : Pipeline σ) : Prop where
  queues : pipeline.sched.Queues
  accounts : ∀ id ∈ pipeline.sched.requests,
    (pipeline.sched.objs id).Accounts (pipeline.outstanding id)
  drafts : ∀ batch ∈ pipeline.inFlight, batch.DraftsSampled
  /-- The unfinished requests of the newest batch are still running. -/
  newest : ∀ batch ∈ pipeline.inFlight.getLast?, ∀ id ∈ batch.reqIds,
    id ∈ pipeline.sched.requests → (pipeline.sched.objs id).isFinished = false →
      id ∈ pipeline.sched.running

namespace Pipeline.Accounted

variable {pipeline next : Pipeline σ}

theorem empty (st : σ) : Pipeline.Accounted ⟨.empty st, []⟩ where
  queues := Scheduler.empty_queues st
  accounts := fun _ hmem => nomatch hmem
  drafts := fun _ hmem => nomatch hmem
  newest := fun _ hmem => nomatch hmem

/-- With at most one batch in flight, nothing is in flight for a waiting request. -/
theorem outstanding_of_waiting (haccounted : pipeline.Accounted)
    (hone : pipeline.inFlight.length ≤ 1) {id : ReqId} (hwaiting : id ∈ pipeline.sched.waiting) :
    pipeline.outstanding id = 0 := by
  have hqueues := haccounted.queues
  have hlive := hqueues.live id (List.mem_append_right _ hwaiting)
  have hunfinished := RequestStatus.not_finished_of_waits (hqueues.waiting_status id hwaiting)
  have hnewest := haccounted.newest
  unfold Pipeline.outstanding
  match hinFlight : pipeline.inFlight, hone with
  | [], _ => rfl
  | [batch], _ =>
      rw [hinFlight] at hnewest
      rw [List.map_singleton, List.sum_singleton]
      refine Batch.outstanding_of_not_mem fun hmem => ?_
      have hrunning := hnewest batch rfl id hmem hlive hunfinished
      exact (List.nodup_append'.mp hqueues.nodup).2.2 hrunning hwaiting

theorem schedule (lawful : host.Lawful) (htrims : cls.TrimsDrafts cfg)
    (haccounted : pipeline.Accounted) (hone : pipeline.inFlight.length ≤ 1)
    (hclip : WithinClip (cls.rules cfg) pipeline.sched)
    (hok : pipeline.schedule cls cfg host = .ok next) : next.Accounted := by
  obtain ⟨sched, output, hschedule, rfl⟩ := Pipeline.schedule_ok hok
  have hqueues := haccounted.queues
  obtain ⟨pass, hscheduled⟩ := SchedulerClass.schedule_scheduled lawful hqueues hschedule
  have hrequests : sched.requests = pipeline.sched.requests :=
    hscheduled.sameQueues.requests.trans (hscheduled.placed lawful hqueues).requests
  have hnext := hscheduled.queues lawful hqueues
  have hfate : ∀ id ∈ pipeline.sched.requests, _ := fun id hmem =>
    (hscheduled.fate lawful hqueues id).accounts htrims hqueues hclip
      (fun other hrunning => ⟨_, haccounted.accounts other
        (hqueues.live other (List.mem_append_left _ hrunning))⟩)
      (haccounted.accounts id hmem) (haccounted.outstanding_of_waiting hone)
      (hscheduled.specTokens_of_none lawful hqueues)
  refine ⟨hnext, ?_, ?_, ?_⟩
  · intro id hmem
    rw [hrequests] at hmem
    unfold Pipeline.outstanding
    rw [List.map_append, List.sum_append, List.map_singleton, List.sum_singleton]
    exact (hfate id hmem).1
  · intro batch hmem
    rcases List.mem_append.mp hmem with hold | hnew
    · exact haccounted.drafts batch hold
    · rw [List.mem_singleton.mp hnew]
      intro id hsamples
      by_cases hlive : id ∈ pipeline.sched.requests
      · exact (hfate id hlive).2 hsamples
      · refine hscheduled.specTokens_of_none lawful hqueues fun hin => hlive ?_
        rw [← hrequests]
        exact hnext.live id (List.mem_append_left _ (hscheduled.inRunning lawful hqueues hin))
  · intro batch hlast id hmem _ _
    rw [List.getLast?_append, List.getLast?_singleton, Option.some_or, Option.mem_some_iff]
      at hlast
    subst hlast
    exact hscheduled.inRunning lawful hqueues hmem

theorem update (lawful : host.Lawful) (htrims : cls.TrimsDrafts cfg)
    (haccounted : pipeline.Accounted) {model : ModelRunnerOutput} (hloaded : model.Loaded)
    (hanswered : ∀ batch ∈ pipeline.inFlight.head?, batch.Answered model)
    (hok : pipeline.update cls cfg host model = .ok next) : next.Accounted := by
  obtain ⟨batch, rest, locals, hinFlight, hupdate, rfl⟩ := Pipeline.update_ok hok
  have hqueues := haccounted.queues
  have hanswered : batch.Answered model := hanswered batch (by rw [hinFlight]; rfl)
  have hnext := SchedulerClass.updateFromOutput_queues lawful hqueues (.of_answered hanswered)
    hupdate
  have hdrafts := haccounted.drafts
  have haccounts := haccounted.accounts
  have hnewest := haccounted.newest
  unfold Pipeline.outstanding at haccounts
  rw [hinFlight] at hdrafts haccounts hnewest
  simp only [List.map_cons, List.sum_cons] at haccounts
  obtain ⟨hbooks, -, hrequests, hstatus⟩ := SchedulerClass.updateFromOutput_settles lawful
    (.of_answered hanswered)
    (batch.rowRule lawful htrims.isAsync hanswered (hdrafts batch List.mem_cons_self))
    (Pipeline.mk pipeline.sched rest).outstanding_nonneg
    (hloaded.handleInvalidBlocks host pipeline.sched) (fun _ _ => List.not_mem_nil) haccounts
    hupdate
  refine ⟨hnext, hbooks, fun other hmem => hdrafts other (List.mem_cons_of_mem _ hmem), ?_⟩
  intro newest hlast id hmem hlive hunfinished
  have hsame := (hstatus id).resolve_right (by rw [hunfinished]; exact Bool.false_ne_true)
  rw [Request.isFinished, hsame] at hunfinished
  have hnonempty : rest ≠ [] := by
    rintro rfl
    cases hlast
  have hrunning := hnewest newest (by rwa [List.getLast?_cons_of_ne_nil hnonempty]) id hmem
    (hrequests id hlive) hunfinished
  have hstill := hqueues.running_status id hrunning
  rw [← hsame] at hstill
  have hplaced := hnext.placed id hlive (by rw [Request.isFinished, hstill]; rfl)
  refine (List.mem_append.mp hplaced).resolve_right fun hwaiting => ?_
  exact RequestStatus.not_running_of_waits (hnext.waiting_status id hwaiting) hstill

theorem addRequest (lawful : host.Lawful) (haccounted : pipeline.Accounted) {request : Request}
    (hfresh : request.Fresh) (hid : request.requestId ∉ pipeline.sched.requests)
    (hunused : ∀ batch ∈ pipeline.inFlight, request.requestId ∉ batch.reqIds) :
    Pipeline.Accounted { pipeline with sched := pipeline.sched.addRequest cfg host request } := by
  have hobj : ∀ id, (pipeline.sched.addRequest cfg host request).objs id =
      if id = request.requestId then request else pipeline.sched.objs id := by
    intro id
    exact Function.update_apply ..
  refine ⟨Scheduler.addRequest_queues lawful haccounted.queues hfresh hid, ?_,
    haccounted.drafts, ?_⟩
  · intro id hmem
    rw [hobj]
    split
    · rename_i heq
      have hnone : pipeline.outstanding id = 0 := by
        refine List.sum_eq_zero fun count hcount => ?_
        obtain ⟨batch, hbatch, rfl⟩ := List.mem_map.mp hcount
        exact Batch.outstanding_of_not_mem (heq ▸ hunused batch hbatch)
      change request.Accounts (pipeline.outstanding id)
      rw [hnone]
      refine ⟨hfresh.numOutputPlaceholders.ge, fun _ => hfresh.numOutputPlaceholders,
        fun _ => hfresh.numComputedTokens.ge, fun hrunning => ?_,
        fun _ _ => hfresh.numComputedTokens⟩
      rcases hfresh.status with hstatus | hstatus <;> rw [hstatus] at hrunning <;> cases hrunning
    · rename_i hne
      refine haccounted.accounts id ?_
      exact (List.mem_append.mp hmem).resolve_right (by simpa using hne)
  · intro batch hlast id hmem hlive hunfinished
    have hne : id ≠ request.requestId := by
      rintro rfl
      exact hunused batch (List.mem_of_getLast? hlast) hmem
    rw [hobj, if_neg hne] at hunfinished
    exact haccounted.newest batch hlast id hmem
      ((List.mem_append.mp hlive).resolve_right (by simpa using hne)) hunfinished

theorem finishRequest (lawful : host.Lawful) (haccounted : pipeline.Accounted) (id : ReqId)
    {status : RequestStatus} (hstatus : status.isFinished = true) :
    Pipeline.Accounted
      { pipeline with sched := pipeline.sched.finishRequest cfg host id status } := by
  have hqueues : (pipeline.sched.finishRequest cfg host id status).Queues :=
    Scheduler.finishRequest_queues lawful haccounted.queues id hstatus
  rcases Scheduler.finishRequest_eq cfg host pipeline.sched id status with
    hsame | ⟨hobjs, hrequests, hrunning⟩
  · rw [hsame]
    exact { haccounted with }
  refine ⟨hqueues, ?_, haccounted.drafts, ?_⟩
  · intro other hmem
    have hold := haccounted.accounts other (hrequests other hmem)
    rw [hobjs, Function.update_apply]
    split
    · rename_i heq
      subst heq
      have hfinished : ((pipeline.sched.objs other).withStatus status).isFinished = true := hstatus
      refine ⟨hold.enough, fun hunfinished => ?_, fun hunfinished => ?_, fun hrun => ?_,
        fun hwaits => ?_⟩
      · rw [hfinished] at hunfinished
        cases hunfinished
      · rw [hfinished] at hunfinished
        cases hunfinished
      · rw [Request.isFinished, hrun] at hfinished
        cases hfinished
      · rw [Request.isFinished, RequestStatus.not_finished_of_waits hwaits] at hfinished
        cases hfinished
    · exact hold
  · intro batch hlast other hmem hlive hunfinished
    have hne : other ≠ id := by
      rintro rfl
      rw [hobjs, Function.update_self, Request.isFinished, Request.withStatus, hstatus]
        at hunfinished
      cases hunfinished
    rw [hobjs, Function.update_of_ne hne] at hunfinished
    exact hrunning other (haccounted.newest batch hlast other hmem (hrequests other hlive)
      hunfinished) hne

/-- What one event preserves. -/
theorem step (lawful : host.Lawful) (htrims : cls.TrimsDrafts cfg)
    (haccounted : pipeline.Accounted) {event : Event}
    (hsmooth : event.Smooth (cls.rules cfg) pipeline)
    (hok : pipeline.step cls cfg host event = .ok next) : next.Accounted := by
  cases event with
  | addRequest request =>
      cases hok
      exact haccounted.addRequest lawful hsmooth.1 hsmooth.2.1 hsmooth.2.2
  | finishRequest id status =>
      cases hok
      exact haccounted.finishRequest lawful id hsmooth
  | setDraftTokenIds drafts =>
      cases hok
      exact { haccounted with
        queues := haccounted.queues.of_objs rfl rfl rfl fun id => ⟨rfl, rfl⟩ }
  | schedule => exact haccounted.schedule lawful htrims hsmooth.1 hsmooth.2 hok
  | update model => exact haccounted.update lawful htrims hsmooth.2 hsmooth.1 hok

theorem run (lawful : host.Lawful) (htrims : cls.TrimsDrafts cfg) {st : σ}
    (run : (cls.pipeline cfg host).Run (Event.Smooth (cls.rules cfg)) ⟨.empty st, []⟩ pipeline) :
    pipeline.Accounted :=
  run.invariant (empty st) fun _ _ _ haccounted hsmooth hok =>
    haccounted.step lawful htrims hsmooth hok

end Pipeline.Accounted

end VllmMlu.Sched
