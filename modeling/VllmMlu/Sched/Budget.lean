import VllmMlu.Sched.Tracking

/-! The token budget of one call of `schedule()`, the blocks that its scheduled
requests own, and the LoRA ids it activates, at every point of the call. -/
namespace VllmMlu.Sched
open VllmMlu.Library

variable {σ : Type}

structure Pass.Budgeted (pass : Pass σ) : Prop where
  budget : 0 ≤ pass.tokenBudget
  positive : ∀ id numTokens, pass.numScheduledTokens.get? id = some numTokens → 0 < numTokens

theorem clipThreshold_nonneg (cfg : Config) {count : Int} (hcount : 0 ≤ count) :
    0 ≤ clipThreshold cfg count := by
  unfold clipThreshold
  split <;> omega

theorem clipThreshold_le (cfg : Config) (count : Int) : clipThreshold cfg count ≤ count := by
  unfold clipThreshold
  split <;> omega

theorem numNewRunningTokens_le (cfg : Config) (rules : Rules) (request : Request) (budget : Int) :
    numNewRunningTokens cfg rules request budget ≤
        request.numTokensWithSpec + request.numOutputPlaceholders - request.numComputedTokens ∧
      numNewRunningTokens cfg rules request budget ≤ budget ∧
      numNewRunningTokens cfg rules request budget ≤
        rules.maxPosition request - request.numComputedTokens := by
  have hclip := clipThreshold_le cfg (request.numTokensWithSpec +
    request.numOutputPlaceholders - request.numComputedTokens)
  unfold numNewRunningTokens
  omega

theorem numNewRunningTokens_nonneg (cfg : Config) {rules : Rules} {self : Scheduler σ}
    (hclipped : Clipped rules self) {id : ReqId} (hrunning : id ∈ self.running) {budget : Int}
    (hbudget : 0 ≤ budget) : 0 ≤ numNewRunningTokens cfg rules (self.objs id) budget := by
  obtain ⟨htokens, hposition⟩ := hclipped id hrunning
  have hclip : 0 ≤ clipThreshold cfg ((self.objs id).numTokensWithSpec +
      (self.objs id).numOutputPlaceholders - (self.objs id).numComputedTokens) :=
    clipThreshold_nonneg cfg (by omega)
  unfold numNewRunningTokens
  omega

namespace Pass.Budgeted

variable {cfg : Config} {rules : Rules} {host : Host σ} {start : Scheduler σ} {pass : Pass σ}

theorem preempt (hbudgeted : pass.Budgeted) {next : Pass σ} {victim : ReqId}
    (hvacates : Pass.Vacates host cfg victim pass next) : next.Budgeted := by
  constructor
  · rw [hvacates.tokenBudget]
    have hbudget := hbudgeted.budget
    cases hget : pass.numScheduledTokens.get? victim with
    | none => simpa using hbudget
    | some numTokens =>
        have hpositive := hbudgeted.positive victim numTokens hget
        rw [Option.getD_some]
        omega
  · intro id numTokens hget
    rw [hvacates.numScheduledTokens] at hget
    split at hget
    · cases hget
    · exact hbudgeted.positive id numTokens hget

theorem set (hbudgeted : pass.Budgeted) {id : ReqId} {numNewTokens : Int}
    (hpositive : 0 < numNewTokens) :
    ∀ other numTokens, (pass.numScheduledTokens.set id numNewTokens).get? other =
      some numTokens → 0 < numTokens := by
  intro other numTokens hget
  rw [Dict.get?_set] at hget
  split at hget
  · cases hget
    exact hpositive
  · exact hbudgeted.positive other numTokens hget

/-- What one action preserves, when no running request stood past its clip. -/
theorem action (lawful : host.Lawful) (hclipped : Clipped rules start)
    {next : Pass σ} (hplaced : pass.Placed cfg start) (htracked : pass.Tracked cfg rules start)
    (hbudgeted : pass.Budgeted) (haction : Action cfg rules host start pass next) :
    next.Budgeted := by
  cases haction with
  | reindex index => exact { hbudgeted with }
  | environment st hkeeps => exact { hbudgeted with }
  | preempt hnone htake hfcfs =>
      exact hbudgeted.preempt (hplaced.vacates lawful hnone htake hfcfs)
  | @record id numNewTokens budget newBlocks plan hnone hrunning hfresh hzero hpositive hbetween
      hbudget =>
      have hnew : id ∉ pass.numScheduledTokens.keys := fun hmem =>
        hfresh ((hplaced.scheduled_of_none hnone).mem_iff.mp hmem)
      obtain ⟨hstart, hsame⟩ := htracked.untouched id hrunning hnew
      rw [hsame] at hbetween
      have hnonneg := numNewRunningTokens_nonneg cfg hclipped hstart hpositive.le
      have hle := (numNewRunningTokens_le cfg rules (start.objs id) budget).2.1
      have hroom := hbudget hclipped
      unfold Host.Between at hbetween
      have hcount : 0 < numNewTokens ∧ numNewTokens ≤ pass.tokenBudget := by omega
      obtain ⟨specTokens, st, inputs, encoderBudget, heq, -⟩ :=
        record_eq cfg host pass id numNewTokens newBlocks plan
      rw [heq]
      exact ⟨by
        change 0 ≤ pass.tokenBudget - numNewTokens
        omega, hbudgeted.set hcount.1⟩
  | transfer => exact { hbudgeted with }
  | receive => exact { hbudgeted with }
  | compiled => exact { hbudgeted with }
  | skip => exact { hbudgeted with }
  | park => exact { hbudgeted with }
  | @accept admitted id rest computed numNewTokens plan _ _ _ _ _ _ hpositive hbudget _ _ haccept =>
      obtain ⟨-, st, inputs, encoderBudget, rfl, -⟩ := accept_eq haccept
      exact ⟨by
        change 0 ≤ pass.tokenBudget - numNewTokens
        omega, hbudgeted.set hpositive⟩
  | putBack =>
      obtain ⟨waiting, skipped, heq⟩ := Placed.putBackSkipped_eq cfg host pass
      rw [heq]
      exact { hbudgeted with }
  | loras hnone hcollect =>
      obtain ⟨loras, rfl⟩ := collectLoras_eq hcollect
      exact { hbudgeted with }

theorem reaches (lawful : host.Lawful) (hqueues : start.Queues) (hclipped : Clipped rules start)
    (hreaches : Reaches cfg rules host start (.start cfg start) pass) : pass.Budgeted := by
  induction hreaches with
  | refl => exact ⟨Int.natCast_nonneg _, fun _ _ hget => nomatch hget⟩
  | tail hreaches haction ih =>
      exact ih.action lawful hclipped (Placed.reaches lawful hqueues hreaches)
        (Tracked.reaches lawful hqueues hreaches) haction

end Pass.Budgeted

/-! Block ownership. -/

theorem blocksFor_mono (blockSize : Nat) {fewer more : Int} (hle : fewer ≤ more) :
    Host.blocksFor blockSize fewer ≤ Host.blocksFor blockSize more := by
  unfold Host.blocksFor
  apply Nat.div_le_div_right
  omega

theorem le_blocksFor {blockSize : Nat} (hpositive : 0 < blockSize) (tokens : Int) :
    tokens ≤ Host.blocksFor blockSize tokens * blockSize := by
  have hdiv := Nat.div_add_mod (tokens.toNat + blockSize - 1) blockSize
  have hmod := Nat.mod_lt (tokens.toNat + blockSize - 1) hpositive
  have hcomm := Nat.mul_comm blockSize ((tokens.toNat + blockSize - 1) / blockSize)
  have hnat : tokens.toNat ≤ (tokens.toNat + blockSize - 1) / blockSize * blockSize := by omega
  have hcast : (tokens.toNat : Int) ≤
      ((tokens.toNat + blockSize - 1) / blockSize * blockSize : Nat) := by exact_mod_cast hnat
  rw [Nat.cast_mul] at hcast
  unfold Host.blocksFor
  omega

/-- Every scheduled request owns the blocks of its step, up to `max_model_len`. -/
def Pass.Owned (cfg : Config) (host : Host σ) (pass : Pass σ) : Prop :=
  ∀ id numTokens, pass.numScheduledTokens.get? id = some numTokens →
    Host.blocksFor cfg.blockSize
        (min ((pass.obj id).numComputedTokens + numTokens) cfg.maxModelLen) ≤
      host.numBlocks pass.host id

namespace Pass.Owned

variable {cfg : Config} {rules : Rules} {host : Host σ} {start : Scheduler σ} {pass : Pass σ}

theorem of_keeps (howned : pass.Owned cfg host) {next : Pass σ}
    (hscheduled : next.numScheduledTokens = pass.numScheduledTokens)
    (hobjs : ∀ id ∈ pass.numScheduledTokens.keys, next.obj id = pass.obj id)
    (hblocks : ∀ id ∈ pass.numScheduledTokens.keys,
      host.numBlocks next.host id = host.numBlocks pass.host id) : next.Owned cfg host := by
  intro id numTokens hget
  rw [hscheduled] at hget
  have hmem := Dict.mem_keys_of_get? hget
  rw [hobjs id hmem, hblocks id hmem]
  exact howned id numTokens hget

theorem modify (hplaced : pass.Placed cfg start) (hqueues : start.Queues)
    (howned : pass.Owned cfg host) {id : ReqId} {change : Request → Request}
    (hwaiting : id ∈ pass.self.waiting ++ pass.skippedWaitingRequests) :
    (pass.modify id change).Owned cfg host := by
  refine howned.of_keeps rfl ?_ fun _ _ => rfl
  intro other hmem
  apply Pass.modify_obj_of_ne
  rintro rfl
  exact hplaced.not_scheduled hqueues hwaiting hmem

/-- What one action preserves. -/
theorem action (lawful : host.Lawful) (owns : host.OwnsBlocks cfg.blockSize)
    (hqueues : start.Queues) {next : Pass σ} (hplaced : pass.Placed cfg start)
    (howned : pass.Owned cfg host) (haction : Action cfg rules host start pass next) :
    next.Owned cfg host := by
  cases haction with
  | reindex index => exact howned
  | environment st hkeeps => exact howned.of_keeps rfl (fun _ _ => rfl) (hkeeps owns)
  | @preempt taken victim hnone htake hfcfs =>
      have hvacates := hplaced.vacates lawful hnone htake hfcfs
      intro id numTokens hget
      rw [hvacates.numScheduledTokens] at hget
      split at hget
      · cases hget
      · rename_i hne
        rw [Pass.obj, hvacates.objs, Function.update_of_ne hne, hvacates.keeps owns id hne]
        exact howned id numTokens hget
  | @record id numNewTokens budget newBlocks plan hnone hrunning hfresh hzero hpositive hbetween
      hbudget hslots =>
      obtain ⟨specTokens, st, inputs, encoderBudget, heq, -, -, -, hkeeps⟩ :=
        record_eq cfg host pass id numNewTokens newBlocks plan
      rw [heq]
      intro other numTokens hget
      change Host.blocksFor cfg.blockSize (min ((Function.update pass.self.objs id
        (pass.obj id).withoutDrafts other).numComputedTokens + numTokens) cfg.maxModelLen) ≤
          host.numBlocks st other
      change (pass.numScheduledTokens.set id numNewTokens).get? other = some numTokens at hget
      rw [hkeeps owns]
      by_cases heq : other = id
      · rw [heq, Dict.get?_set_self] at hget
        cases hget
        rw [heq, Function.update_self]
        have howns := hslots owns
        rw [hplaced.requestId] at howns
        refine le_trans (blocksFor_mono _ ?_) howns
        rw [Request.withoutDrafts_numComputedTokens]
        unfold runningSlots
        omega
      · rw [Dict.get?_set_of_ne _ _ heq] at hget
        rw [Function.update_of_ne heq]
        exact howned other numTokens hget
  | transfer hchunked hwaiting hnone hfresh =>
      exact howned.modify hplaced hqueues (List.mem_append_left _ hwaiting)
  | receive hwaiting => exact howned.modify hplaced hqueues (List.mem_append_left _ hwaiting)
  | compiled hwaiting => exact howned.modify hplaced hqueues (List.mem_append_left _ hwaiting)
  | skip hperm => exact howned
  | park hnone hperm =>
      have hmem := List.mem_append_left pass.skippedWaitingRequests
        (hperm.mem_iff.mpr List.mem_cons_self)
      have hmodified : (pass.modify _ (·.withStatus .waitingForRemoteKvs)).Owned cfg host :=
        howned.modify hplaced hqueues hmem
      exact hmodified
  | @accept admitted id rest computed numNewTokens plan _ _ hperm _ _ hlookup hpositive hbudget _
      hslots haccept =>
      obtain ⟨-, st, inputs, encoderBudget, rfl, -, hkeeps⟩ := accept_eq haccept
      intro other numTokens hget
      change Host.blocksFor cfg.blockSize (min ((Function.update pass.self.objs id
        ((pass.obj id).admitted computed.numComputedTokens) other).numComputedTokens +
          numTokens) cfg.maxModelLen) ≤ host.numBlocks st other
      change (pass.numScheduledTokens.set id numNewTokens).get? other = some numTokens at hget
      rw [hkeeps owns]
      by_cases heq : other = id
      · rw [heq, Dict.get?_set_self] at hget
        cases hget
        rw [heq, Function.update_self]
        have howns := hslots owns
        rw [hplaced.requestId] at howns
        refine le_trans (blocksFor_mono _ ?_) howns
        rw [Request.admitted_numComputedTokens]
        have htotal := hlookup.total
        unfold admissionSlots
        split <;> omega
      · rw [Dict.get?_set_of_ne _ _ heq] at hget
        rw [Function.update_of_ne heq]
        exact howned other numTokens hget
  | putBack =>
      obtain ⟨waiting, skipped, heq⟩ := Placed.putBackSkipped_eq cfg host pass
      rw [heq]
      exact howned
  | loras hnone hcollect =>
      obtain ⟨loras, rfl⟩ := collectLoras_eq hcollect
      exact howned

theorem reaches (lawful : host.Lawful) (owns : host.OwnsBlocks cfg.blockSize)
    (hqueues : start.Queues) (hreaches : Reaches cfg rules host start (.start cfg start) pass) :
    pass.Owned cfg host := by
  induction hreaches with
  | refl => exact fun _ _ hget => nomatch hget
  | tail hreaches haction ih =>
      exact ih.action lawful owns hqueues (Placed.reaches lawful hqueues hreaches) haction

end Pass.Owned

/-! LoRA ids. -/

/-- The unchunk scheduler admits requests or schedules running ones, never both,
and the LoRA ids of the admitted ones are counted. -/
structure Pass.CountsLoras (cfg : Config) (pass : Pass σ) : Prop where
  onePhase : pass.scheduledRunningReqs = [] ∨
    pass.scheduledNewReqs = [] ∧ pass.scheduledResumedReqs = []
  bound : ∀ maxLoras, cfg.maxLoras = some maxLoras → pass.scheduledLoras.length ≤ maxLoras
  counted : ∀ id, id ∈ pass.scheduledNewReqs ∨ id ∈ pass.scheduledResumedReqs →
    ∀ maxLoras lora, cfg.maxLoras = some maxLoras → (pass.obj id).loraIntId = some lora →
      lora ∈ pass.scheduledLoras

namespace Pass.CountsLoras

variable {cfg : Config} {rules : Rules} {host : Host σ} {start : Scheduler σ} {pass : Pass σ}

theorem addLora_length {request : Request} {scheduledLoras : List Nat} {maxLoras : Nat}
    (hmax : cfg.maxLoras = some maxLoras) (hbound : scheduledLoras.length ≤ maxLoras)
    (hexceeds : exceedsLoras cfg scheduledLoras request = false) :
    (addLora cfg request scheduledLoras).length ≤ maxLoras := by
  unfold addLora
  unfold exceedsLoras at hexceeds
  rw [hmax] at hexceeds ⊢
  cases hlora : request.loraIntId with
  | none => simpa using hbound
  | some lora =>
      rw [hlora] at hexceeds
      by_cases hmem : lora ∈ scheduledLoras
      · simpa [hmem] using hbound
      · have hne : scheduledLoras.length ≠ maxLoras := by simpa [hmem] using hexceeds
        simp only [hmem, if_false, List.length_append, List.length_singleton]
        omega

theorem subset_addLora (request : Request) (scheduledLoras : List Nat) :
    ∀ lora ∈ scheduledLoras, lora ∈ addLora cfg request scheduledLoras := by
  intro lora hmem
  unfold addLora
  split
  · split
    · exact hmem
    · exact List.mem_append_left _ hmem
  · exact hmem

theorem mem_addLora {request : Request} {maxLoras lora : Nat} (scheduledLoras : List Nat)
    (hmax : cfg.maxLoras = some maxLoras) (hlora : request.loraIntId = some lora) :
    lora ∈ addLora cfg request scheduledLoras := by
  unfold addLora
  rw [hmax, hlora]
  dsimp only
  split
  · assumption
  · exact List.mem_append_right _ (List.mem_singleton_self _)

theorem modify (hplaced : pass.Placed cfg start) (hqueues : start.Queues)
    (hcounts : pass.CountsLoras cfg) {id : ReqId} {change : Request → Request}
    (hwaiting : id ∈ pass.self.waiting ++ pass.skippedWaitingRequests) :
    (pass.modify id change).CountsLoras cfg := by
  refine { hcounts with counted := ?_ }
  intro other hmem
  have hne : other ≠ id := by
    rintro rfl
    exact hplaced.not_scheduled hqueues hwaiting (hplaced.mem_scheduled.mpr (.inr hmem))
  rw [show (pass.modify id change).obj other = pass.obj other from
    Pass.modify_obj_of_ne _ _ hne]
  exact hcounts.counted other hmem

/-- What one action of the unchunk scheduler preserves. -/
theorem action (lawful : host.Lawful) (hunchunk : rules.chunked = false)
    (hqueues : start.Queues) {next : Pass σ} (hplaced : pass.Placed cfg start)
    (hcounts : pass.CountsLoras cfg) (haction : Action cfg rules host start pass next) :
    next.CountsLoras cfg := by
  cases haction with
  | reindex index => exact { hcounts with }
  | environment st hkeeps => exact { hcounts with }
  | @preempt taken victim hnone htake hfcfs =>
      have hvacates := hplaced.vacates lawful hnone htake hfcfs
      refine ⟨.inr hvacates.noneAdmitted, ?_, ?_⟩
      · rw [hvacates.loras]
        exact hcounts.bound
      · intro id hmem
        rw [hvacates.noneAdmitted.1, hvacates.noneAdmitted.2] at hmem
        exact absurd hmem (by simp)
  | @record id numNewTokens budget newBlocks plan hnone =>
      obtain ⟨specTokens, st, inputs, encoderBudget, heq, -⟩ :=
        record_eq cfg host pass id numNewTokens newBlocks plan
      rw [heq]
      refine ⟨.inr hnone, hcounts.bound, ?_⟩
      intro other hmem
      exact absurd hmem (by simp [hnone.1, hnone.2])
  | transfer hchunked hwaiting hnone hfresh =>
      exact hcounts.modify hplaced hqueues (List.mem_append_left _ hwaiting)
  | receive hwaiting => exact hcounts.modify hplaced hqueues (List.mem_append_left _ hwaiting)
  | compiled hwaiting => exact hcounts.modify hplaced hqueues (List.mem_append_left _ hwaiting)
  | skip hperm => exact { hcounts with }
  | park hnone hperm =>
      have hmem := List.mem_append_left pass.skippedWaitingRequests
        (hperm.mem_iff.mpr List.mem_cons_self)
      have hmodified : (pass.modify _ (·.withStatus .waitingForRemoteKvs)).CountsLoras cfg :=
        hcounts.modify hplaced hqueues hmem
      exact { hmodified with }
  | @accept admitted id rest computed numNewTokens plan _ hphase hperm _ hloras _ _ _ _ _ haccept =>
      obtain ⟨-, st, inputs, encoderBudget, rfl, -⟩ := accept_eq haccept
      refine ⟨.inl (hphase hunchunk), ?_, ?_⟩
      · intro maxLoras hmax
        exact addLora_length hmax (hcounts.bound maxLoras hmax) hloras
      · intro other hmem maxLoras lora hmax hlora
        change (Function.update pass.self.objs id
          ((pass.obj id).admitted computed.numComputedTokens) other).loraIntId = some lora at hlora
        by_cases heq : other = id
        · rw [heq, Function.update_self] at hlora
          exact mem_addLora _ hmax hlora
        · rw [Function.update_of_ne heq] at hlora
          refine subset_addLora _ _ lora (hcounts.counted other ?_ maxLoras lora hmax hlora)
          refine hmem.imp (fun hnew => ?_) (fun hresumed => ?_)
          · rcases List.mem_append.mp hnew with hold | hsingle
            · exact hold
            · split at hsingle
              · exact absurd (List.mem_singleton.mp hsingle) heq
              · cases hsingle
          · rcases List.mem_append.mp hresumed with hold | hsingle
            · exact hold
            · split at hsingle
              · exact absurd (List.mem_singleton.mp hsingle) heq
              · cases hsingle
  | putBack =>
      obtain ⟨waiting, skipped, heq⟩ := Placed.putBackSkipped_eq cfg host pass
      rw [heq]
      exact { hcounts with }
  | loras hnone hcollect =>
      refine ⟨?_, ?_, ?_⟩
      · obtain ⟨loras, rfl⟩ := collectLoras_eq hcollect
        exact hcounts.onePhase
      · intro maxLoras hmax
        unfold collectLoras at hcollect
        rw [hmax] at hcollect
        dsimp only at hcollect
        split at hcollect
        · cases hcollect
        · cases hcollect
          dsimp only
          omega
      · obtain ⟨loras, rfl⟩ := collectLoras_eq hcollect
        intro id hmem
        exact absurd hmem (by simp [hnone.1, hnone.2])

theorem reaches (lawful : host.Lawful) (hunchunk : rules.chunked = false)
    (hqueues : start.Queues) (hreaches : Reaches cfg rules host start (.start cfg start) pass) :
    pass.CountsLoras cfg := by
  induction hreaches with
  | refl => exact ⟨.inl rfl, fun _ _ => Nat.zero_le _, fun _ hmem => nomatch hmem⟩
  | tail hreaches haction ih =>
      exact ih.action lawful hunchunk hqueues (Placed.reaches lawful hqueues hreaches) haction

end Pass.CountsLoras

end VllmMlu.Sched
