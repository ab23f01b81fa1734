import VllmMlu.Sched.Calls
import VllmMlu.Sched.PoolHost

/-! What one call of `schedule()` guarantees from any reachable state, and the
states from which it does not. -/
namespace VllmMlu.Sched
open VllmMlu.Library

variable {σ : Type} {cfg : Config} {host : Host σ} {cls : SchedulerClass} {st : σ}
  {self next : Scheduler σ} {output : SchedulerOutput}

/-- The records of a call agree with each other, with the budget and with the
queues. -/
structure Pass.Consistent (cfg : Config) (pass : Pass σ) : Prop where
  balance : pass.tokenBudget + pass.numScheduledTokens.total = cfg.maxNumScheduledTokens
  budget : 0 ≤ pass.tokenBudget
  positive : ∀ id numTokens, pass.numScheduledTokens.get? id = some numTokens → 0 < numTokens
  scheduled : pass.numScheduledTokens.keys.Perm
    (pass.scheduledRunningReqs ++ (pass.scheduledNewReqs ++ pass.scheduledResumedReqs))
  running : ∀ id ∈ pass.numScheduledTokens.keys,
    id ∈ pass.self.running ∧ (pass.obj id).status = .running
  preempted : ∀ id ∈ pass.preemptedReqs,
    id ∉ pass.numScheduledTokens.keys ∧ id ∉ pass.reqToNewBlocks.keys ∧
      id ∉ pass.scheduledSpecDecodeTokens.keys ∧ id ∉ pass.scheduledEncoderInputs.keys

/-- The ids of a scheduler output, once for each time a request occurs in it. -/
def SchedulerOutput.reqIds (output : SchedulerOutput) : List ReqId :=
  output.scheduledNewReqs.map (·.reqId) ++ output.scheduledCachedReqs.map (·.reqId)

/-- An output and the state that `schedule()` returns with it agree. -/
structure SchedulerOutput.Consistent (cfg : Config) (output : SchedulerOutput)
    (sched : Scheduler σ) : Prop where
  total : output.totalNumScheduledTokens = output.numScheduledTokens.total
  budget : output.numScheduledTokens.total ≤ cfg.maxNumScheduledTokens
  positive : ∀ id numTokens, output.numScheduledTokens.get? id = some numTokens → 0 < numTokens
  once : output.reqIds.Nodup
  scheduled : ∀ id, id ∈ output.reqIds ↔ id ∈ output.numScheduledTokens.keys
  specTokens : ∀ id ∈ output.scheduledSpecDecodeTokens.keys, id ∈ output.reqIds
  encoderInputs : ∀ id ∈ output.scheduledEncoderInputs.keys, id ∈ output.reqIds
  running : ∀ id ∈ output.reqIds, id ∈ sched.running ∧ (sched.objs id).status = .running
  oneQueue : ∀ id ∈ sched.requests, (sched.objs id).isFinished = false →
    (id ∈ sched.running ∧ id ∉ sched.waiting) ∨ (id ∉ sched.running ∧ id ∈ sched.waiting)

theorem Pass.Placed.consistent {pass : Pass σ} (hqueues : self.Queues)
    (hplaced : pass.Placed cfg self) (hbudgeted : pass.Budgeted) : pass.Consistent cfg where
  balance := hplaced.balance
  budget := hbudgeted.budget
  positive := hbudgeted.positive
  scheduled := hplaced.scheduled
  running := fun id hmem =>
    ⟨hplaced.inRunning id hmem, hplaced.running_status id (hplaced.inRunning id hmem)⟩
  preempted := by
    intro id hmem
    have hnot := hplaced.not_scheduled hqueues (hplaced.preempted id hmem)
    exact ⟨hnot, fun hin => hnot ((hplaced.blocks id).mp hin),
      fun hin => hnot (hplaced.specTokens id hin), fun hin => hnot (hplaced.encoderInputs id hin)⟩

theorem Scheduler.Queues.oneQueue (hqueues : self.Queues) {id : ReqId}
    (hmem : id ∈ self.requests) (hunfinished : (self.objs id).isFinished = false) :
    (id ∈ self.running ∧ id ∉ self.waiting) ∨ (id ∉ self.running ∧ id ∈ self.waiting) := by
  have hdisjoint := (List.nodup_append'.mp hqueues.nodup).2.2
  rcases List.mem_append.mp (hqueues.placed id hmem hunfinished) with hrunning | hwaiting
  · exact .inl ⟨hrunning, fun hwaiting => hdisjoint hrunning hwaiting⟩
  · exact .inr ⟨fun hrunning => hdisjoint hrunning hwaiting, hwaiting⟩

theorem Scheduled.reqIds {pass : Pass σ} (lawful : host.Lawful) (hqueues : self.Queues)
    (hscheduled : Scheduled cls cfg host self pass next output) :
    output.reqIds.Perm pass.numScheduledTokens.keys := by
  have hplaced := hscheduled.placed lawful hqueues
  have hnew : output.scheduledNewReqs.map (·.reqId) = pass.scheduledNewReqs := by
    rw [hscheduled.output]
    change List.map _ (List.map _ _) = _
    rw [List.map_map]
    exact (List.map_congr_left fun id _ => hplaced.requestId id).trans (List.map_id _)
  have hcached : output.scheduledCachedReqs.map (·.reqId) =
      pass.scheduledRunningReqs ++ pass.scheduledResumedReqs := by
    rw [hscheduled.output]
    change List.map _ (List.map _ _ ++ List.map _ _) = _
    rw [List.map_append, List.map_map, List.map_map]
    congr 1
    · exact (List.map_congr_left fun id _ => ((lawful.cachedData_computed _ _ _).1.trans
        (hplaced.requestId id))).trans (List.map_id _)
    · exact (List.map_congr_left fun id _ => ((lawful.cachedData_computed _ _ _).1.trans
        (hplaced.requestId id))).trans (List.map_id _)
  refine List.Perm.trans ?_ hplaced.scheduled.symm
  rw [SchedulerOutput.reqIds, hnew, hcached]
  rw [List.perm_iff_count]
  intro id
  simp only [List.count_append]
  omega

theorem Scheduled.consistent {pass : Pass σ} (lawful : host.Lawful) (hqueues : self.Queues)
    (hscheduled : Scheduled cls cfg host self pass next output)
    (hconsistent : pass.Consistent cfg) : output.Consistent cfg next := by
  have hplaced := hscheduled.placed lawful hqueues
  have hids := hscheduled.reqIds lawful hqueues
  have hnum := hscheduled.numScheduledTokens
  have hnext := hscheduled.queues lawful hqueues
  refine ⟨?_, ?_, ?_, ?_, ?_, ?_, ?_, ?_, ?_⟩
  · rw [hscheduled.output]
    rfl
  · rw [hnum]
    exact hscheduled.constraints.1
  · rw [hnum]
    exact hconsistent.positive
  · exact hids.nodup_iff.mpr pass.numScheduledTokens.keys_nodup
  · intro id
    rw [hnum]
    exact hids.mem_iff
  · intro id hmem
    rw [hscheduled.output] at hmem
    exact hids.mem_iff.mpr (hplaced.specTokens id hmem)
  · intro id hmem
    rw [hscheduled.output] at hmem
    exact hids.mem_iff.mpr (hplaced.encoderInputs id hmem)
  · intro id hmem
    obtain ⟨hrunning, hstatus⟩ := hconsistent.running id (hids.mem_iff.mp hmem)
    rw [hscheduled.sameQueues.running, (hscheduled.status id).1]
    exact ⟨hrunning, hstatus⟩
  · exact fun id hmem hunfinished => hnext.oneQueue hmem hunfinished

/-- A call on a reachable state in which no running request stands past its clip
is consistent at each of its admissions and preemptions, and in what it returns. -/
theorem schedule_consistent (lawful : host.Lawful) (reachable : cls.Reachable cfg host st self)
    (hclipped : Clipped (cls.rules cfg) self) :
    (∀ pass, Reaches cfg (cls.rules cfg) host self (.start cfg self) pass →
      pass.Consistent cfg) ∧
    ∀ next output, cls.schedule cfg host self = .ok (next, output) →
      output.Consistent cfg next ∧
      ∃ pass, Scheduled cls cfg host self pass next output ∧
        ∀ id ∈ pass.preemptedReqs, id ∉ output.reqIds := by
  have hqueues := reachable.queues lawful
  have hpasses : ∀ pass, Reaches cfg (cls.rules cfg) host self (.start cfg self) pass →
      pass.Consistent cfg := fun pass hreaches =>
    (Pass.Placed.reaches lawful hqueues hreaches).consistent hqueues
      (Pass.Budgeted.reaches lawful hqueues hclipped hreaches)
  refine ⟨hpasses, ?_⟩
  intro next output hok
  obtain ⟨pass, hscheduled⟩ := SchedulerClass.schedule_scheduled lawful hqueues hok
  have hconsistent := hpasses pass hscheduled.reaches
  refine ⟨hscheduled.consistent lawful hqueues hconsistent, pass, hscheduled, ?_⟩
  intro id hmem hin
  exact (hconsistent.preempted id hmem).1
    ((hscheduled.reqIds lawful hqueues).mem_iff.mp hin)

namespace Samples

def pool : Pool := { numFreeBlocks := 8 }

def shortModel : Config :=
  { maxNumScheduledTokens := 8, maxNumRunningReqs := 4, maxModelLen := 4, blockSize := 4 }

/-- The row of the one request of a step, with the token sampled for it. -/
def sampled (id : ReqId) (numTokens : Int) : Call :=
  .updateFromOutput
    { numScheduledTokens := Dict.empty.set id numTokens, totalNumScheduledTokens := numTokens }
    { reqIdToIndex := Dict.empty.set id 0, sampledTokenIds := [[7]] }

def shortPrompt : Request := { requestId := 0, promptTokenIds := [5, 6], maxTokens := 4 }

/-- A prompt as long as the model allows. -/
def fullPrompt : Request := { requestId := 0, promptTokenIds := [5, 6, 7, 8], maxTokens := 2 }

end Samples

open Samples in
theorem schedule_consistent_decode : ∃ self next output,
    SchedulerClass.unchunk.Reachable shortModel (Pool.host shortModel) pool self ∧
      SchedulerClass.unchunk.schedule shortModel (Pool.host shortModel) self =
        .ok (next, output) ∧
      output.numScheduledTokens.get? 0 = some 1 ∧ output.Consistent shortModel next := by
  obtain ⟨self, next, output, hreachable, hok, htest⟩ :=
    SchedulerClass.exists_of_tryAfter .unchunk shortModel (Pool.host shortModel) pool
      [.addRequest shortPrompt, .schedule, sampled 0 2]
      (fun self _ output => decide (Clipped (SchedulerClass.unchunk.rules shortModel) self) &&
        decide (output.numScheduledTokens.get? 0 = some 1)) (by decide +kernel)
  rw [Bool.and_eq_true, decide_eq_true_eq, decide_eq_true_eq] at htest
  exact ⟨self, next, output, hreachable, hok, htest.2,
    ((schedule_consistent (Pool.host_lawful _) hreachable htest.1).2 next output hok).1⟩

open Samples in
/-- A prompt of `max_model_len` tokens is scheduled in full, and stands past the
clip of the running loop in the next call, which records minus one token. -/
theorem full_prompt_negative : ∃ self next output,
    SchedulerClass.unchunk.Reachable shortModel (Pool.host shortModel) pool self ∧
      SchedulerClass.unchunk.schedule shortModel (Pool.host shortModel) self =
        .ok (next, output) ∧
      output.numScheduledTokens.get? 0 = some (-1) := by
  obtain ⟨self, next, output, hreachable, hok, htest⟩ :=
    SchedulerClass.exists_of_tryAfter .unchunk shortModel (Pool.host shortModel) pool
      [.addRequest fullPrompt, .schedule]
      (fun _ _ output => decide (output.numScheduledTokens.get? 0 = some (-1)))
      (by decide +kernel)
  exact ⟨self, next, output, hreachable, hok, of_decide_eq_true htest⟩

/-! Slot coverage. -/

/-- The slots of the blocks that `max_model_len` tokens take. -/
def slotCapacity (cfg : Config) : Int :=
  Host.blocksFor cfg.blockSize cfg.maxModelLen * cfg.blockSize

/-- No request can reach past the blocks that `max_model_len` tokens take: not a
running one within its clip, not a waiting one with all its tokens. -/
structure Coverable (cfg : Config) (rules : Rules) (sched : Scheduler σ) : Prop where
  running : ∀ id ∈ sched.running, (sched.objs id).numComputedTokens ≤ slotCapacity cfg ∧
    min ((sched.objs id).numTokensWithSpec + (sched.objs id).numOutputPlaceholders)
      (rules.maxPosition (sched.objs id)) ≤ slotCapacity cfg
  waiting : ∀ id ∈ sched.waiting, waitingDemand cfg rules (sched.objs id) ≤ slotCapacity cfg ∧
    (rules.chunked = true →
      waitingDemand cfg rules (Pass.takeTransferredTokens cfg (sched.objs id)) ≤
        slotCapacity cfg)

theorem Prepared.waitingDemand_le {rules : Rules} {before request : Request} {capacity : Int}
    (hprepared : Prepared cfg rules before request)
    (hbefore : waitingDemand cfg rules before ≤ capacity)
    (htransfer : rules.chunked = true →
      waitingDemand cfg rules (Pass.takeTransferredTokens cfg before) ≤ capacity) :
    waitingDemand cfg rules request ≤ capacity := by
  obtain ⟨base, hbase, heq, -⟩ := hprepared
  have hsame : waitingDemand cfg rules request = waitingDemand cfg rules base := by
    rw [heq]
    rfl
  rw [hsame]
  rcases hbase with rfl | ⟨hchunked, rfl⟩
  · exact hbefore
  · exact htransfer hchunked

/-- No scheduled request reaches past the blocks that `max_model_len` tokens take. -/
theorem Pass.Tracked.within_capacity {rules : Rules} {pass : Pass σ}
    (hcoverable : Coverable cfg rules self) (hplaced : pass.Placed cfg self)
    (htracked : pass.Tracked cfg rules self) {id : ReqId} {numTokens : Int}
    (hget : pass.numScheduledTokens.get? id = some numTokens) :
    (pass.obj id).numComputedTokens + numTokens ≤ slotCapacity cfg := by
  rcases hplaced.mem_scheduled.mp (Dict.mem_keys_of_get? hget) with hran | hentered
  · obtain ⟨hstart, hrequest, count, budget, hcount, hzero, hpositive, hbetween, -⟩ :=
      htracked.ran id hran
    rw [hget] at hcount
    cases hcount
    obtain ⟨hcomputed, hreach⟩ := hcoverable.running id hstart
    obtain ⟨htokens, -, hposition⟩ := numNewRunningTokens_le cfg rules (self.objs id) budget
    rw [hrequest, Request.withoutDrafts_numComputedTokens]
    unfold Host.Between at hbetween
    omega
  · obtain ⟨hstart, ready, computed, count, hprepared, -, hrequest, hcount, -, hle, -⟩ :=
      htracked.entered id hentered
    rw [hget] at hcount
    cases hcount
    have hdemand := hprepared.waitingDemand_le (hcoverable.waiting id hstart).1
      (hcoverable.waiting id hstart).2
    have hclip := clipThreshold_le cfg
      (waitingDemand cfg rules ready - computed.numComputedTokens)
    rw [hrequest, Request.admitted_numComputedTokens]
    unfold numNewWaitingTokens at hle
    omega

/-- From a reachable state in which no request can reach past the blocks that
`max_model_len` tokens take, each scheduled request owns a slot for every
position of its step. -/
theorem schedule_covers (lawful : host.Lawful) (owns : host.OwnsBlocks cfg.blockSize)
    (hblockSize : 0 < cfg.blockSize) (reachable : cls.Reachable cfg host st self)
    (hcoverable : Coverable cfg (cls.rules cfg) self)
    (hok : cls.schedule cfg host self = .ok (next, output)) :
    ∃ pass, Scheduled cls cfg host self pass next output ∧
      ∀ id numTokens, output.numScheduledTokens.get? id = some numTokens →
        (pass.obj id).numComputedTokens + numTokens ≤
          host.numBlocks next.host id * cfg.blockSize := by
  have hqueues := reachable.queues lawful
  obtain ⟨pass, hscheduled⟩ := SchedulerClass.schedule_scheduled lawful hqueues hok
  refine ⟨pass, hscheduled, ?_⟩
  intro id numTokens hget
  rw [hscheduled.numScheduledTokens] at hget
  have hcapacity := (hscheduled.tracked lawful hqueues).within_capacity hcoverable
    (hscheduled.placed lawful hqueues) hget
  have howned := Pass.Owned.reaches lawful owns hqueues hscheduled.reaches id numTokens hget
  rw [hscheduled.keeps owns]
  have hslots : ∀ blocks : Nat, blocks ≤ host.numBlocks pass.host id →
      (blocks * cfg.blockSize : Int) ≤ host.numBlocks pass.host id * cfg.blockSize := by
    intro blocks hle
    exact_mod_cast Nat.mul_le_mul_right cfg.blockSize hle
  by_cases hlong : (pass.obj id).numComputedTokens + numTokens ≤ cfg.maxModelLen
  · rw [min_eq_left hlong] at howned
    exact (le_blocksFor hblockSize _).trans (hslots _ howned)
  · rw [min_eq_right (by omega)] at howned
    exact hcapacity.trans (hslots _ howned)

instance (rules : Rules) (sched : Scheduler σ) : Decidable (Coverable cfg rules sched) :=
  decidable_of_iff
    ((∀ id ∈ sched.running, (sched.objs id).numComputedTokens ≤ slotCapacity cfg ∧
      min ((sched.objs id).numTokensWithSpec + (sched.objs id).numOutputPlaceholders)
        (rules.maxPosition (sched.objs id)) ≤ slotCapacity cfg) ∧
    (∀ id ∈ sched.waiting, waitingDemand cfg rules (sched.objs id) ≤ slotCapacity cfg ∧
      (rules.chunked = true →
        waitingDemand cfg rules (Pass.takeTransferredTokens cfg (sched.objs id)) ≤
          slotCapacity cfg)))
    ⟨fun h => ⟨h.1, h.2⟩, fun h => ⟨h.running, h.waiting⟩⟩

namespace Samples

/-- Two draft tokens for each request, and one block for four tokens. -/
def draftModel : Config :=
  { maxNumScheduledTokens := 8, maxNumRunningReqs := 4, maxModelLen := 4, blockSize := 4,
    numSpeculativeTokens := some 2, numLookaheadTokens := 2 }

end Samples

open Samples in
theorem schedule_covers_prompt : ∃ self next output pass,
    SchedulerClass.unchunk.Reachable draftModel (Pool.host draftModel) pool self ∧
      Scheduled .unchunk draftModel (Pool.host draftModel) self pass next output ∧
      output.numScheduledTokens.get? 0 = some 2 ∧
      (pass.obj 0).numComputedTokens + 2 ≤
        (Pool.host draftModel).numBlocks next.host 0 * draftModel.blockSize := by
  obtain ⟨self, next, output, hreachable, hok, htest⟩ :=
    SchedulerClass.exists_of_tryAfter .unchunk draftModel (Pool.host draftModel) pool
      [.addRequest shortPrompt]
      (fun self _ output =>
        decide (Coverable draftModel (SchedulerClass.unchunk.rules draftModel) self) &&
          decide (output.numScheduledTokens.get? 0 = some 2)) (by decide +kernel)
  rw [Bool.and_eq_true, decide_eq_true_eq, decide_eq_true_eq] at htest
  obtain ⟨pass, hscheduled, hcovers⟩ := schedule_covers (Pool.host_lawful _)
    (Pool.host_ownsBlocks _) (by decide) hreachable htest.1 hok
  exact ⟨self, next, output, pass, hreachable, hscheduled, htest.2, hcovers 0 2 htest.2⟩

open Samples in
/-- Two draft tokens behind the third token of a model of length four are all
scheduled, and the fifth position has no slot. -/
theorem draft_step_uncovered : ∃ self next output,
    SchedulerClass.unchunk.Reachable draftModel (Pool.host draftModel) pool self ∧
      SchedulerClass.unchunk.schedule draftModel (Pool.host draftModel) self =
        .ok (next, output) ∧
      output.numScheduledTokens.get? 0 = some 3 ∧
      ¬(self.objs 0).numComputedTokens + 3 ≤
        (Pool.host draftModel).numBlocks next.host 0 * draftModel.blockSize := by
  obtain ⟨self, next, output, hreachable, hok, htest⟩ :=
    SchedulerClass.exists_of_tryAfter .unchunk draftModel (Pool.host draftModel) pool
      [.addRequest shortPrompt, .schedule, sampled 0 2, .updateDraftTokenIds ⟨[0], [[8, 9]]⟩]
      (fun self next output => decide (output.numScheduledTokens.get? 0 = some 3) &&
        decide (¬(self.objs 0).numComputedTokens + 3 ≤
          (Pool.host draftModel).numBlocks next.host 0 * draftModel.blockSize))
      (by decide +kernel)
  rw [Bool.and_eq_true, decide_eq_true_eq, decide_eq_true_eq] at htest
  exact ⟨self, next, output, hreachable, hok, htest⟩

/-! LoRA ids of one step. -/

theorem mem_positiveLoras {objs : RequestObjects} {ids : List ReqId} {lora : Nat} :
    lora ∈ positiveLoras objs ids ↔
      0 < lora ∧ ∃ id ∈ ids, (objs id).loraIntId = some lora := by
  simp only [positiveLoras, List.mem_dedup, List.mem_filterMap, Option.filter_eq_some_iff,
    decide_eq_true_eq]
  constructor
  · rintro ⟨id, hmem, hlora, hpositive⟩
    exact ⟨hpositive, id, hmem, hlora⟩
  · rintro ⟨hpositive, id, hmem, hlora⟩
    exact ⟨id, hmem, hlora, hpositive⟩

theorem positiveLoras_length_le {objs : RequestObjects} {ids : List ReqId} {loras : List Nat}
    (hsubset : ∀ lora ∈ positiveLoras objs ids, lora ∈ loras) :
    (positiveLoras objs ids).length ≤ loras.length :=
  ((List.nodup_dedup _).subperm hsubset).length_le

/-- The unchunk scheduler activates at most `max_loras` LoRA ids in a step from a
reachable state whose running requests carry at most that many. -/
theorem unchunk_loras_bounded (lawful : host.Lawful) (hunchunk : cls.isUnchunk = true)
    (reachable : cls.Reachable cfg host st self) {maxLoras : Nat}
    (hmax : cfg.maxLoras = some maxLoras)
    (hrunning : (positiveLoras self.objs self.running).length ≤ maxLoras)
    (hok : cls.schedule cfg host self = .ok (next, output)) :
    (positiveLoras next.objs output.numScheduledTokens.keys).length ≤ maxLoras := by
  have hqueues := reachable.queues lawful
  obtain ⟨pass, hscheduled⟩ := SchedulerClass.schedule_scheduled lawful hqueues hok
  have hplaced := hscheduled.placed lawful hqueues
  have htracked := hscheduled.tracked lawful hqueues
  have hchunked : (cls.rules cfg).chunked = false := by
    rw [SchedulerClass.rules, if_pos hunchunk]
    rfl
  have hcounts := Pass.CountsLoras.reaches lawful hchunked hqueues hscheduled.reaches
  have hlora : ∀ id, (next.objs id).loraIntId = (pass.obj id).loraIntId := by
    intro id
    obtain ⟨computed, placeholders, drafts, heq⟩ := Scheduled.scheduled_eq cls cfg (pass.obj id)
      (pass.specTokens id).length (pass.numScheduledTokens.get? id)
    rw [hscheduled.objs, heq]
  rw [hscheduled.numScheduledTokens]
  rcases hcounts.onePhase with hnoneRunning | hnoneAdmitted
  · refine (positiveLoras_length_le ?_).trans (hcounts.bound maxLoras hmax)
    intro lora hmem
    obtain ⟨-, id, hid, hcarries⟩ := mem_positiveLoras.mp hmem
    rw [hlora] at hcarries
    refine hcounts.counted id ?_ maxLoras lora hmax hcarries
    refine (hplaced.mem_scheduled.mp hid).resolve_left ?_
    rw [hnoneRunning]
    exact List.not_mem_nil
  · refine (positiveLoras_length_le ?_).trans hrunning
    intro lora hmem
    obtain ⟨hpositive, id, hid, hcarries⟩ := mem_positiveLoras.mp hmem
    obtain ⟨hstart, hrequest, -⟩ :=
      htracked.ran id ((hplaced.scheduled_of_none hnoneAdmitted).mem_iff.mp hid)
    rw [hlora, hrequest] at hcarries
    exact mem_positiveLoras.mpr ⟨hpositive, id, hstart, hcarries⟩

namespace Samples

def oneLora : Config :=
  { maxNumScheduledTokens := 8, maxNumRunningReqs := 4, maxModelLen := 16, blockSize := 4,
    maxLoras := some 1 }

def loraPrompt (id lora : Nat) : Request :=
  { requestId := id, promptTokenIds := [5, 6], maxTokens := 4, loraIntId := some lora }

end Samples

open Samples in
theorem unchunk_loras_bounded_prefill : ∃ self next output,
    SchedulerClass.unchunk.Reachable oneLora (Pool.host oneLora) pool self ∧
      SchedulerClass.unchunk.schedule oneLora (Pool.host oneLora) self = .ok (next, output) ∧
      output.numScheduledTokens.keys = [1] ∧
      (positiveLoras next.objs output.numScheduledTokens.keys).length ≤ 1 := by
  obtain ⟨self, next, output, hreachable, hok, htest⟩ :=
    SchedulerClass.exists_of_tryAfter .unchunk oneLora (Pool.host oneLora) pool
      [.addRequest (loraPrompt 0 1), .schedule, sampled 0 2, .addRequest (loraPrompt 1 2)]
      (fun self _ output => decide ((positiveLoras self.objs self.running).length ≤ 1) &&
        decide (output.numScheduledTokens.keys = [1])) (by decide +kernel)
  rw [Bool.and_eq_true, decide_eq_true_eq, decide_eq_true_eq] at htest
  exact ⟨self, next, output, hreachable, hok, htest.2,
    unchunk_loras_bounded (Pool.host_lawful _) rfl hreachable rfl htest.1 hok⟩

open Samples in
/-- Two requests with different LoRA ids are admitted by two prefill steps, and
the decode step after them activates both. -/
theorem decode_step_two_loras : ∃ self next output,
    SchedulerClass.unchunk.Reachable oneLora (Pool.host oneLora) pool self ∧
      SchedulerClass.unchunk.schedule oneLora (Pool.host oneLora) self = .ok (next, output) ∧
      oneLora.maxLoras = some 1 ∧
      ¬(positiveLoras next.objs output.numScheduledTokens.keys).length ≤ 1 := by
  obtain ⟨self, next, output, hreachable, hok, htest⟩ :=
    SchedulerClass.exists_of_tryAfter .unchunk oneLora (Pool.host oneLora) pool
      [.addRequest (loraPrompt 0 1), .schedule, sampled 0 2,
        .addRequest (loraPrompt 1 2), .schedule, sampled 1 2]
      (fun _ next output =>
        decide (¬(positiveLoras next.objs output.numScheduledTokens.keys).length ≤ 1))
      (by decide +kernel)
  exact ⟨self, next, output, hreachable, hok, rfl, of_decide_eq_true htest⟩

end VllmMlu.Sched
