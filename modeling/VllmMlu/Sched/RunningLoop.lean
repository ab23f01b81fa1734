import VllmMlu.Sched.Budget

/-! The running loop is made of actions and does not run out of its fuel. The
requests it has scheduled stand before its index, which is why a request it
preempts in FCFS order is never one of them. -/
namespace VllmMlu.Sched
open VllmMlu.Library

variable {σ : Type}

/-- A result that is not cut short by the fuel and meets `post` if it is a value. -/
def Within {α : Type} (post : α → Prop) : Except Error α → Prop
  | .ok value => post value
  | .error err => err ≠ .outOfFuel

theorem Within.of_ok {α : Type} {post : α → Prop} {result : Except Error α} {value : α}
    (hwithin : Within post result) (hok : result = .ok value) : post value := by
  rw [hok] at hwithin
  exact hwithin

theorem Within.of_error {α : Type} {post : α → Prop} {result : Except Error α} {err : Error}
    (hwithin : Within post result) (herr : result = .error err) : err ≠ .outOfFuel := by
  rw [herr] at hwithin
  exact hwithin

theorem Within.imp {α : Type} {post weaker : α → Prop} {result : Except Error α}
    (hwithin : Within post result) (himp : ∀ value, post value → weaker value) :
    Within weaker result := by
  cases result with
  | error err => exact hwithin
  | ok value => exact himp value hwithin

theorem Within.bind {α β : Type} {post : α → Prop} {next : β → Prop} {result : Except Error α}
    {rest : α → Except Error β} (hwithin : Within post result)
    (hrest : ∀ value, post value → Within next (rest value)) : Within next (result >>= rest) := by
  cases result with
  | error err => exact hwithin
  | ok value => exact hrest value hwithin

theorem allocateSlots_within {cfg : Config} {host : Host σ} {st : σ} {request : Request}
    {slots : SlotRequest} : Within (fun _ => True) (allocateSlots cfg host st request slots) := by
  unfold allocateSlots
  dsimp only
  repeat' split
  all_goals first | trivial | exact fun heq => nomatch heq

theorem Pass.takeVictim_within {cfg : Config} {host : Host σ} {pass : Pass σ} :
    Within (fun _ => True) (pass.takeVictim cfg host) := by
  cases hresult : pass.takeVictim cfg host with
  | ok value => trivial
  | error err =>
      unfold takeVictim unrecord at hresult
      rintro rfl
      repeat' split at hresult
      all_goals cases hresult
      all_goals rename_i hinner
      all_goals repeat' split at hinner
      all_goals cases hinner

/-! Positions in `self.running`. -/

theorem mem_take_erase_of_mem {queue : List ReqId} {victim id : ReqId} {count : Nat}
    (hvictim : victim ∈ queue.take (count + 1)) (hid : id ∈ queue.take (count + 1))
    (hne : id ≠ victim) : id ∈ (queue.erase victim).take count := by
  have herase : queue.erase victim =
      (queue.take (count + 1)).erase victim ++ queue.drop (count + 1) := by
    conv_lhs => rw [← List.take_append_drop (count + 1) queue]
    rw [List.erase_append_left _ hvictim]
  have hlength : ((queue.take (count + 1)).erase victim).length ≤ count := by
    rw [List.length_erase_of_mem hvictim, List.length_take]
    omega
  rw [herase, List.take_append, List.take_of_length_le hlength]
  exact List.mem_append_left _ ((List.mem_erase_of_ne hne).mpr hid)

theorem mem_take_erase {queue : List ReqId} {victim id : ReqId} {count : Nat}
    (hid : id ∈ queue.take count) (hne : id ≠ victim) :
    id ∈ (queue.erase victim).take count := by
  by_cases hvictim : victim ∈ queue.take count
  · cases count with
    | zero => simp at hid
    | succ count =>
        exact (List.take_subset_take_left _ (Nat.le_succ count))
          (mem_take_erase_of_mem hvictim hid hne)
  · have herase : queue.erase victim = queue.take count ++ (queue.drop count).erase victim := by
      conv_lhs => rw [← List.take_append_drop count queue]
      rw [List.erase_append_right _ hvictim]
    rw [herase, List.take_append]
    refine List.mem_append_left _ ?_
    rw [List.take_of_length_le (List.length_take_le _ _)]
    exact hid

/-- The running loop is at `id`, and what it has scheduled stands before. A victim
taken from the front of the queue without a record leaves the index past `id`. -/
structure Pass.Cursor (cfg : Config) (pass : Pass σ) (id : ReqId) : Prop where
  noneAdmitted : pass.scheduledNewReqs = [] ∧ pass.scheduledResumedReqs = []
  before : ∀ other ∈ pass.scheduledRunningReqs, other ∈ pass.self.running.take pass.reqIndex
  current : id ∈ pass.self.running.take (pass.reqIndex + 1)
  fresh : id ∉ pass.scheduledRunningReqs
  fcfs : cfg.policy = .fcfs → pass.self.running[pass.reqIndex]? = some id

/-- What the running loop leaves alone: the requests outside `self.running`. -/
structure Pass.Runs (pass next : Pass σ) : Prop where
  running : ∀ id ∈ next.self.running, id ∈ pass.self.running
  objs : ∀ id ∉ pass.self.running, next.obj id = pass.obj id
  skipped : next.skippedWaitingRequests = pass.skippedWaitingRequests

/-- The number of requests from the loop index on. -/
def Pass.remaining (pass : Pass σ) : Nat := pass.self.running.length - pass.reqIndex

theorem Pass.Runs.trans {first second third : Pass σ} (hfirst : first.Runs second)
    (hsecond : second.Runs third) : first.Runs third where
  running := fun id hmem => hfirst.running id (hsecond.running id hmem)
  objs := fun id hmem =>
    (hsecond.objs id (fun hrunning => hmem (hfirst.running id hrunning))).trans
      (hfirst.objs id hmem)
  skipped := hsecond.skipped.trans hfirst.skipped

namespace Pass.Cursor

variable {cfg : Config} {rules : Rules} {host : Host σ} {start : Scheduler σ} {pass : Pass σ}
  {id : ReqId}

theorem mem_running (hcursor : pass.Cursor cfg id) : id ∈ pass.self.running :=
  List.mem_of_mem_take hcursor.current

theorem withHost (hcursor : pass.Cursor cfg id) (st : σ) : (pass.withHost st).Cursor cfg id :=
  { hcursor with }

/-- In FCFS order the last request is not scheduled while the loop is before it. -/
theorem victim_fresh (hcursor : pass.Cursor cfg id) (hnodup : pass.self.running.Nodup)
    {taken : Pass σ} {victim : ReqId}
    (htake : pass.takeVictim cfg host = .ok (victim, taken)) (hfcfs : cfg.policy = .fcfs) :
    victim ∉ pass.scheduledRunningReqs := by
  rcases takeVictim_cases htake with ⟨-, hlast, -⟩ | ⟨hpriority, -⟩ | ⟨hpriority, -⟩
  · intro hscheduled
    obtain ⟨i, hi, hget⟩ := List.mem_take_iff_getElem.mp (hcursor.before victim hscheduled)
    obtain ⟨hlt, -⟩ := List.getElem?_eq_some_iff.mp (hcursor.fcfs hfcfs)
    rw [List.getLast?_eq_getElem?] at hlast
    obtain ⟨hlen, hlastGet⟩ := List.getElem?_eq_some_iff.mp hlast
    have heq := (List.Nodup.getElem_inj_iff hnodup).mp (hget.trans hlastGet.symm)
    omega
  · rw [hfcfs] at hpriority
    cases hpriority
  · rw [hfcfs] at hpriority
    cases hpriority

theorem preempt (hcursor : pass.Cursor cfg id) (hnodup : pass.self.running.Nodup)
    (hscheduled : pass.scheduledRunningReqs.Nodup)
    {taken : Pass σ} {victim : ReqId}
    (htake : pass.takeVictim cfg host = .ok (victim, taken)) (hne : victim ≠ id) :
    (taken.preempt cfg host victim).Cursor cfg id ∧
      pass.Runs (taken.preempt cfg host victim) ∧
      (taken.preempt cfg host victim).remaining ≤ pass.remaining := by
  have hobjs : ∀ other ∉ pass.self.running, victim ∈ pass.self.running →
      Function.update pass.self.objs victim (pass.obj victim).preempted other =
        pass.obj other := by
    intro other hother hvictim
    have hne : other ≠ victim := by
      rintro rfl
      exact hother hvictim
    exact Function.update_of_ne hne ..
  rcases takeVictim_cases htake with ⟨hpolicy, hlast, rfl⟩ | ⟨hpolicy, hmem, hfresh, rfl⟩ |
    ⟨hpolicy, hmem, hvictim, numTokens, hget, rfl⟩
  · have hindex := hcursor.fcfs hpolicy
    obtain ⟨hlt, hgetId⟩ := List.getElem?_eq_some_iff.mp hindex
    have hshort : pass.reqIndex < pass.self.running.dropLast.length := by
      rw [List.length_dropLast]
      by_contra hge
      have hlastIndex : pass.reqIndex = pass.self.running.length - 1 := by omega
      rw [List.getLast?_eq_getElem?, ← hlastIndex, hindex] at hlast
      exact hne (Option.some.inj hlast).symm
    have htakeDrop : ∀ count, count ≤ pass.self.running.dropLast.length →
        pass.self.running.dropLast.take count = pass.self.running.take count := by
      intro count hcount
      rw [List.length_dropLast] at hcount
      rw [List.dropLast_eq_take, List.take_take, min_eq_left hcount]
    refine ⟨⟨hcursor.noneAdmitted, ?_, ?_, hcursor.fresh, ?_⟩, ⟨?_, ?_, rfl⟩, ?_⟩
    · intro other hother
      change other ∈ pass.self.running.dropLast.take pass.reqIndex
      rw [htakeDrop _ hshort.le]
      exact hcursor.before other hother
    · change id ∈ pass.self.running.dropLast.take (pass.reqIndex + 1)
      rw [htakeDrop _ hshort]
      exact hcursor.current
    · intro _
      change pass.self.running.dropLast[pass.reqIndex]? = some id
      rw [List.getElem?_eq_some_iff]
      exact ⟨hshort, by rw [List.getElem_dropLast, hgetId]⟩
    · exact fun other hother => List.mem_of_mem_dropLast hother
    · exact fun other hother => hobjs other hother (List.mem_of_getLast? hlast)
    · change pass.self.running.dropLast.length - pass.reqIndex ≤
        pass.self.running.length - pass.reqIndex
      rw [List.length_dropLast]
      omega
  · refine ⟨⟨hcursor.noneAdmitted, ?_, ?_, hcursor.fresh, ?_⟩, ⟨?_, ?_, rfl⟩, ?_⟩
    · intro other hother
      exact mem_take_erase (hcursor.before other hother) (fun heq => hfresh (heq ▸ hother))
    · exact mem_take_erase hcursor.current hne.symm
    · intro hfcfs
      rw [hfcfs] at hpolicy
      cases hpolicy
    · exact fun other hother => List.mem_of_mem_erase hother
    · exact fun other hother => hobjs other hother hmem
    · change (pass.self.running.erase victim).length - pass.reqIndex ≤
        pass.self.running.length - pass.reqIndex
      rw [List.length_erase_of_mem hmem]
      omega
  · have hbefore := hcursor.before victim hvictim
    obtain ⟨index, hindex⟩ : ∃ index, pass.reqIndex = index + 1 := by
      cases hzero : pass.reqIndex with
      | zero =>
          rw [hzero] at hbefore
          simp at hbefore
      | succ index => exact ⟨index, rfl⟩
    rw [hindex] at hbefore
    refine ⟨⟨hcursor.noneAdmitted, ?_, ?_, ?_, ?_⟩, ⟨?_, ?_, rfl⟩, ?_⟩
    · intro other hother
      change other ∈ (pass.self.running.erase victim).take (pass.reqIndex - 1)
      obtain ⟨hneOther, hold⟩ := hscheduled.mem_erase_iff.mp hother
      have hother' := hcursor.before other hold
      rw [hindex] at hother' ⊢
      exact mem_take_erase_of_mem hbefore hother' hneOther
    · change id ∈ (pass.self.running.erase victim).take (pass.reqIndex - 1 + 1)
      have hcurrent := hcursor.current
      rw [hindex] at hcurrent ⊢
      exact mem_take_erase_of_mem
        (List.take_subset_take_left _ (Nat.le_succ _) hbefore) hcurrent hne.symm
    · exact fun hold => hcursor.fresh (List.mem_of_mem_erase hold)
    · intro hfcfs
      rw [hfcfs] at hpolicy
      cases hpolicy
    · exact fun other hother => List.mem_of_mem_erase hother
    · exact fun other hother => hobjs other hother hmem
    · change (pass.self.running.erase victim).length - (pass.reqIndex - 1) ≤
        pass.self.running.length - pass.reqIndex
      rw [List.length_erase_of_mem hmem]
      omega

end Pass.Cursor

section Loop

variable {cfg : Config} {rules : Rules} {host : Host σ} {start : Scheduler σ}

/-- What `allocate_slots`, with the preemptions it takes, does for `id`. -/
structure Allocated (cfg : Config) (rules : Rules) (host : Host σ) (start : Scheduler σ)
    (id : ReqId) (numNewTokens : Int) (pass : Pass σ) (result : Pass σ × Option KVCacheBlocks) :
    Prop where
  reaches : Reaches cfg rules host start (.start cfg start) result.1
  runs : pass.Runs result.1
  noneAdmitted : result.1.scheduledNewReqs = [] ∧ result.1.scheduledResumedReqs = []
  cursor : result.2.isSome → result.1.Cursor cfg id
  obj : result.2.isSome → result.1.obj id = pass.obj id
  remaining : result.2.isSome → result.1.remaining ≤ pass.remaining
  nonzero : result.2.isSome → numNewTokens ≠ 0
  budget : pass.Budgeted → pass.tokenBudget ≤ result.1.tokenBudget
  slots : result.2.isSome → host.OwnsBlocks cfg.blockSize →
    Host.blocksFor cfg.blockSize (runningSlots cfg rules (pass.obj id) numNewTokens) ≤
      host.numBlocks result.1.host (pass.obj id).requestId

theorem Allocated.mono {id : ReqId} {numNewTokens : Int} {pass next : Pass σ}
    {result : Pass σ × Option KVCacheBlocks}
    (hallocated : Allocated cfg rules host start id numNewTokens next result)
    (hruns : pass.Runs next) (hremaining : next.remaining ≤ pass.remaining)
    (hobj : next.obj id = pass.obj id)
    (hbudgeted : pass.Budgeted → next.Budgeted ∧ pass.tokenBudget ≤ next.tokenBudget) :
    Allocated cfg rules host start id numNewTokens pass result where
  reaches := hallocated.reaches
  runs := hruns.trans hallocated.runs
  noneAdmitted := hallocated.noneAdmitted
  cursor := hallocated.cursor
  obj := fun hsome => (hallocated.obj hsome).trans hobj
  remaining := fun hsome => (hallocated.remaining hsome).trans hremaining
  nonzero := hallocated.nonzero
  budget := fun hpass => (hbudgeted hpass).2.trans (hallocated.budget (hbudgeted hpass).1)
  slots := by
    have hslots := hallocated.slots
    rw [hobj] at hslots
    exact hslots

/-- A change of the host that keeps the blocks of all requests but `id`. -/
theorem Reaches.environment {pass : Pass σ} {id : ReqId} {st : σ}
    (hreaches : Reaches cfg rules host start (.start cfg start) pass)
    (hfresh : id ∉ pass.numScheduledTokens.keys)
    (hkeeps : host.OwnsBlocks cfg.blockSize → host.Keeps id pass.host st) :
    Reaches cfg rules host start (.start cfg start) (pass.withHost st) := by
  refine hreaches.tail (.environment st ?_)
  intro owns other hmem
  exact hkeeps owns other fun heq => hfresh (heq ▸ hmem)

theorem allocateOrPreempt_within (lawful : host.Lawful) (hqueues : start.Queues) {id : ReqId}
    (numNewTokens : Int) (fuel : Nat) {pass : Pass σ}
    (hreaches : Reaches cfg rules host start (.start cfg start) pass)
    (hcursor : pass.Cursor cfg id) (hfuel : pass.self.running.length ≤ fuel) :
    Within (Allocated cfg rules host start id numNewTokens pass)
      (allocateOrPreempt cfg rules host id numNewTokens fuel pass) := by
  induction fuel generalizing pass with
  | zero =>
      have hlength := List.length_pos_of_mem hcursor.mem_running
      omega
  | succ fuel ih =>
      have hplaced := Pass.Placed.reaches lawful hqueues hreaches
      have hid : (pass.obj id).requestId = id := hplaced.requestId id
      have hfresh : id ∉ pass.numScheduledTokens.keys := fun hmem =>
        hcursor.fresh ((hplaced.scheduled_of_none hcursor.noneAdmitted).mem_iff.mp hmem)
      unfold allocateOrPreempt
      split
      · rename_i err herr
        exact allocateSlots_within.of_error herr
      · rename_i st newBlocks hok
        have hkeeps : host.OwnsBlocks cfg.blockSize → host.Keeps id pass.host st := fun owns =>
          hid ▸ allocateSlots_keeps owns hok
        exact {
          reaches := hreaches.environment hfresh hkeeps
          runs := ⟨fun _ hmem => hmem, fun _ _ => rfl, rfl⟩
          noneAdmitted := hcursor.noneAdmitted
          cursor := fun _ => hcursor.withHost st
          obj := fun _ => rfl
          remaining := fun _ => le_refl _
          nonzero := fun _ => allocateSlots_ne_zero hok
          budget := fun _ => le_refl _
          slots := by
            intro _ owns
            have howned := allocateSlots_owned owns hok
            change _ ≤ host.numBlocks st _
            unfold SlotRequest.numTokensNeedSlot at howned
            unfold runningSlots
            simpa using howned }
      · rename_i st hok
        have hkeeps : host.OwnsBlocks cfg.blockSize → host.Keeps id pass.host st := fun owns =>
          hid ▸ allocateSlots_keeps owns hok
        have henv := hreaches.environment hfresh hkeeps
        split
        · exact fun heq => nomatch heq
        · split
          · rename_i err herr
            exact Pass.takeVictim_within.of_error herr
          · rename_i victim taken htake
            have hnodup := hplaced.running_nodup hqueues
            have hfcfs := hcursor.withHost st |>.victim_fresh hnodup htake
            have hpreempt := henv.tail (.preempt hcursor.noneAdmitted htake hfcfs)
            have hvacates := (Pass.Placed.reaches lawful hqueues henv).vacates lawful
              hcursor.noneAdmitted htake hfcfs
            have hvictim : victim ∈ pass.self.running :=
              hvacates.running.mem_iff.mpr List.mem_cons_self
            have hbudgeted : pass.Budgeted → (taken.preempt cfg host victim).Budgeted ∧
                pass.tokenBudget ≤ (taken.preempt cfg host victim).tokenBudget := by
              intro hpass
              have hhost : (pass.withHost st).Budgeted := ⟨hpass.budget, hpass.positive⟩
              refine ⟨hhost.preempt hvacates, ?_⟩
              rw [hvacates.tokenBudget]
              change _ ≤ pass.tokenBudget + (pass.numScheduledTokens.get? victim).getD 0
              cases hget : pass.numScheduledTokens.get? victim with
              | none => simp
              | some numTokens =>
                  have hpositive := hpass.positive victim numTokens hget
                  simp only [Option.getD_some]
                  omega
            dsimp only
            split
            · rename_i heq
              exact {
                reaches := hpreempt
                runs := by
                  refine ⟨?_, ?_, hvacates.skipped⟩
                  · intro other hmem
                    exact hvacates.running.mem_iff.mpr (List.mem_cons_of_mem _ hmem)
                  · intro other hmem
                    have hne : other ≠ victim := by
                      rintro rfl
                      exact hmem hvictim
                    rw [Pass.obj, hvacates.objs, Function.update_of_ne hne]
                    rfl
                noneAdmitted := hvacates.noneAdmitted
                cursor := fun hsome => nomatch hsome
                obj := fun hsome => nomatch hsome
                remaining := fun hsome => nomatch hsome
                nonzero := fun hsome => nomatch hsome
                budget := fun hpass => (hbudgeted hpass).2
                slots := fun hsome => nomatch hsome }
            · rename_i hne
              obtain ⟨hnext, hruns, hremaining⟩ := (hcursor.withHost st).preempt hnodup
                ((hplaced.scheduled_of_none hcursor.noneAdmitted).nodup_iff.mp
                  pass.numScheduledTokens.keys_nodup) htake hne
              have hlength := hvacates.running.length_eq
              refine (?_ : Within (Allocated cfg rules host start id numNewTokens
                (taken.preempt cfg host victim)) _).imp fun result hallocated =>
                  hallocated.mono ⟨hruns.running, hruns.objs, hruns.skipped⟩ hremaining ?_
                    hbudgeted
              · apply ih hpreempt hnext
                change pass.self.running.length ≤ fuel + 1 at hfuel
                change pass.self.running.length = _ at hlength
                rw [List.length_cons] at hlength
                omega
              · rw [Pass.obj, hvacates.objs, Function.update_of_ne (Ne.symm hne)]
                rfl

/-- What the running loop is at between two iterations. -/
structure Pass.Indexed (pass : Pass σ) : Prop where
  noneAdmitted : pass.scheduledNewReqs = [] ∧ pass.scheduledResumedReqs = []
  before : ∀ id ∈ pass.scheduledRunningReqs, id ∈ pass.self.running.take pass.reqIndex

theorem Pass.Indexed.cursor {pass : Pass σ} (hindexed : pass.Indexed)
    (hnodup : pass.self.running.Nodup) {id : ReqId}
    (hid : pass.self.running[pass.reqIndex]? = some id) : pass.Cursor cfg id := by
  obtain ⟨hlt, hget⟩ := List.getElem?_eq_some_iff.mp hid
  refine ⟨hindexed.noneAdmitted, hindexed.before, ?_, ?_, fun _ => hid⟩
  · exact List.mem_take_iff_getElem.mpr ⟨pass.reqIndex, by omega, hget⟩
  · intro hmem
    obtain ⟨i, hi, hgetBefore⟩ := List.mem_take_iff_getElem.mp (hindexed.before id hmem)
    have heq := (List.Nodup.getElem_inj_iff hnodup).mp (hgetBefore.trans hget.symm)
    omega

theorem planEncoder_between (lawful : host.Lawful) (st : σ) (request : Request)
    (numComputedTokens numNewTokens budget : Int) :
    Host.Between numNewTokens
      (planEncoder host st request numComputedTokens numNewTokens budget).2.numNewTokens := by
  unfold planEncoder
  split
  · exact lawful.encoder_between ..
  · exact ⟨min_le_right _ _, le_max_right _ _⟩

theorem planEncoder_keeps (owns : host.OwnsBlocks cfg.blockSize) (st : σ) (request : Request)
    (numComputedTokens numNewTokens budget : Int) :
    host.KeepsAll st (planEncoder host st request numComputedTokens numNewTokens budget).1 := by
  unfold planEncoder
  split
  · exact owns.encoder_keeps st request numComputedTokens numNewTokens budget
  · exact fun _ => rfl

theorem Pass.Cursor.record {pass : Pass σ} {id : ReqId} (hcursor : pass.Cursor cfg id)
    (host : Host σ) (numNewTokens : Int) (newBlocks : KVCacheBlocks) (plan : EncoderPlan) :
    (pass.record cfg host id numNewTokens newBlocks plan).Indexed ∧
      pass.Runs (pass.record cfg host id numNewTokens newBlocks plan) ∧
      (pass.record cfg host id numNewTokens newBlocks plan).remaining = pass.remaining - 1 := by
  obtain ⟨specTokens, st, inputs, budget, heq, -⟩ :=
    record_eq cfg host pass id numNewTokens newBlocks plan
  rw [heq]
  refine ⟨⟨hcursor.noneAdmitted, ?_⟩, ⟨fun _ hmem => hmem, ?_, rfl⟩, ?_⟩
  · intro other hmem
    rcases List.mem_append.mp hmem with hold | hsingle
    · exact List.take_subset_take_left _ (Nat.le_succ _) (hcursor.before other hold)
    · rw [List.mem_singleton.mp hsingle]
      exact hcursor.current
  · intro other hmem
    have hne : other ≠ id := by
      rintro rfl
      exact hmem hcursor.mem_running
    exact Function.update_of_ne hne ..
  · exact Nat.sub_add_eq ..

theorem runningStep_within (lawful : host.Lawful) (hqueues : start.Queues) {pass : Pass σ}
    {id : ReqId} (hreaches : Reaches cfg rules host start (.start cfg start) pass)
    (hindexed : pass.Indexed) (hid : pass.self.running[pass.reqIndex]? = some id)
    (hbudget : 0 < pass.tokenBudget) :
    Within (fun flow => Reaches cfg rules host start (.start cfg start) flow.pass ∧
        pass.Runs flow.pass ∧
        (flow.pass.scheduledNewReqs = [] ∧ flow.pass.scheduledResumedReqs = []) ∧
        ∀ next, flow = .next next → next.Indexed ∧ next.remaining < pass.remaining)
      (runningStep cfg rules host pass id) := by
  have hplaced := Pass.Placed.reaches lawful hqueues hreaches
  have hcursor : pass.Cursor cfg id := hindexed.cursor (hplaced.running_nodup hqueues) hid
  have hremaining : 0 < pass.remaining := by
    obtain ⟨hlt, -⟩ := List.getElem?_eq_some_iff.mp hid
    unfold Pass.remaining
    omega
  unfold runningStep
  have hbetween := planEncoder_between lawful pass.host (pass.obj id)
    (pass.obj id).numComputedTokens
    (numNewRunningTokens cfg rules (pass.obj id) pass.tokenBudget) pass.encoderComputeBudget
  have hkeeps := fun (owns : host.OwnsBlocks cfg.blockSize) => planEncoder_keeps owns pass.host
    (pass.obj id) (pass.obj id).numComputedTokens
    (numNewRunningTokens cfg rules (pass.obj id) pass.tokenBudget) pass.encoderComputeBudget
  dsimp only
  generalize planEncoder host pass.host (pass.obj id) (pass.obj id).numComputedTokens
    (numNewRunningTokens cfg rules (pass.obj id) pass.tokenBudget)
    pass.encoderComputeBudget = planned at hbetween hkeeps ⊢
  obtain ⟨st, plan⟩ := planned
  dsimp only at hbetween hkeeps ⊢
  have henv : Reaches cfg rules host start (.start cfg start) (pass.withHost st) :=
    hreaches.tail (.environment st fun owns other _ => hkeeps owns other)
  split
  · refine ⟨henv.tail (.reindex _), ⟨fun _ hmem => hmem, fun _ _ => rfl, rfl⟩,
      hindexed.noneAdmitted, ?_⟩
    intro next hnext
    cases hnext
    refine ⟨⟨hindexed.noneAdmitted, ?_⟩, ?_⟩
    · exact fun other hmem =>
        List.take_subset_take_left _ (Nat.le_succ _) (hindexed.before other hmem)
    · change pass.self.running.length - (pass.reqIndex + 1) < _
      unfold Pass.remaining at hremaining ⊢
      omega
  · have hallocated := allocateOrPreempt_within lawful hqueues plan.numNewTokens
      pass.self.running.length henv (hcursor.withHost st) (le_refl _)
    split
    · rename_i err herr
      exact hallocated.of_error herr
    · rename_i halted hhalted
      have hpost := hallocated.of_ok hhalted
      exact ⟨hpost.reaches, ⟨hpost.runs.running, hpost.runs.objs, hpost.runs.skipped⟩,
        hpost.noneAdmitted, fun next hnext => nomatch hnext⟩
    · rename_i allocated newBlocks hok
      have hpost := hallocated.of_ok hok
      have hafter : allocated.Cursor cfg id := hpost.cursor rfl
      have hobj : allocated.obj id = pass.obj id := hpost.obj rfl
      obtain ⟨hindexedNext, hrunsRecord, hremainingRecord⟩ :=
        hafter.record host plan.numNewTokens newBlocks plan
      refine ⟨hpost.reaches.tail (.record hpost.noneAdmitted hafter.mem_running hafter.fresh
        (hpost.nonzero rfl) hbudget ?_ ?_ ?_), ?_, hindexedNext.noneAdmitted, ?_⟩
      · rw [hobj]
        exact hbetween
      · intro hclipped
        exact hpost.budget (Pass.Budgeted.reaches lawful hqueues hclipped henv)
      · intro owns
        rw [hobj]
        exact hpost.slots rfl owns
      · exact Pass.Runs.trans ⟨hpost.runs.running, hpost.runs.objs, hpost.runs.skipped⟩ hrunsRecord
      · intro next hnext
        cases hnext
        refine ⟨hindexedNext, ?_⟩
        have hle : allocated.remaining ≤ pass.remaining := hpost.remaining rfl
        change (allocated.record cfg host id plan.numNewTokens newBlocks plan).remaining < _
        omega

/-- The running loop is made of actions, and needs no more fuel than there are
requests from its index on. -/
theorem runningLoop_within (lawful : host.Lawful) (hqueues : start.Queues) (fuel : Nat)
    {pass : Pass σ} (hreaches : Reaches cfg rules host start (.start cfg start) pass)
    (hindexed : pass.Indexed) (hfuel : pass.remaining ≤ fuel) :
    Within (fun next => Reaches cfg rules host start (.start cfg start) next ∧ pass.Runs next ∧
        next.scheduledNewReqs = [] ∧ next.scheduledResumedReqs = [])
      (runningLoop cfg rules host fuel pass) := by
  have hstay : Reaches cfg rules host start (.start cfg start) pass ∧ pass.Runs pass ∧
      pass.scheduledNewReqs = [] ∧ pass.scheduledResumedReqs = [] :=
    ⟨hreaches, ⟨fun _ hmem => hmem, fun _ _ => rfl, rfl⟩, hindexed.noneAdmitted⟩
  induction fuel generalizing pass with
  | zero =>
      unfold runningLoop
      split
      · split
        · exact hstay
        · rename_i id hid _
          obtain ⟨hlt, -⟩ := List.getElem?_eq_some_iff.mp hid
          unfold Pass.remaining at hfuel
          omega
        · rename_i heq
          cases heq
      · exact hstay
  | succ fuel ih =>
      unfold runningLoop
      split
      · rename_i hbudget
        split
        · exact hstay
        · rename_i heq
          cases heq
        · rename_i id _ hid heq
          cases heq
          have hstep := runningStep_within lawful hqueues hreaches hindexed hid hbudget
          split
          · rename_i err herr
            exact hstep.of_error herr
          · rename_i halted hhalted
            obtain ⟨hnext, hruns, hnone, -⟩ := hstep.of_ok hhalted
            exact ⟨hnext, hruns, hnone⟩
          · rename_i next hok
            obtain ⟨hnext, hruns, hnone, hcontinue⟩ := hstep.of_ok hok
            obtain ⟨hindexedNext, hless⟩ := hcontinue next rfl
            have hfuelNext : next.remaining ≤ fuel := by omega
            refine (ih hnext hindexedNext hfuelNext
              ⟨hnext, ⟨fun _ hmem => hmem, fun _ _ => rfl, rfl⟩, hnone⟩).imp ?_
            exact fun result hresult => ⟨hresult.1, hruns.trans hresult.2.1, hresult.2.2⟩
      · exact hstay

end Loop

end VllmMlu.Sched
