import VllmMlu.Sched.Consistency

/-! Which requests the running loop visits. The index of the loop is corrected when a
preempted request had been scheduled, and not when it had been passed over. -/
namespace VllmMlu.Sched
open VllmMlu.Library

variable {σ : Type} {cfg : Config} {rules : Rules} {host : Host σ} {start : Scheduler σ}

/-- The requests that one allocation preempts, each with the local variables at that
moment. -/
def victims (cfg : Config) (rules : Rules) (host : Host σ) (id : ReqId) (numNewTokens : Int) :
    Nat → Pass σ → List (ReqId × Pass σ)
  | 0, _ => []
  | fuel + 1, pass =>
      match allocateSlots cfg host pass.host (pass.obj id)
        { numNewTokens := numNewTokens
          numLookaheadTokens := cfg.numLookaheadTokens
          fixedWindowTokens := rules.fixedWindowTokens } with
      | .ok (st, none) =>
          if cfg.v1Benchmark then []
          else
            match (pass.withHost st).takeVictim cfg host with
            | .error _ => []
            | .ok (victim, taken) =>
                (victim, pass) ::
                  if victim = id then []
                  else victims cfg rules host id numNewTokens fuel (taken.preempt cfg host victim)
      | _ => []

/-- The requests that one iteration of the running loop preempts. -/
def stepVictims (cfg : Config) (rules : Rules) (host : Host σ) (pass : Pass σ) (id : ReqId) :
    List (ReqId × Pass σ) :=
  let request := pass.obj id
  let (st, plan) := planEncoder host pass.host request request.numComputedTokens
    (numNewRunningTokens cfg rules request pass.tokenBudget) pass.encoderComputeBudget
  if plan.numNewTokens = 0 then []
  else victims cfg rules host id plan.numNewTokens pass.self.running.length (pass.withHost st)

/-- The iterations of the running loop: the request each visits, and the local
variables it starts with. -/
def iterations (cfg : Config) (rules : Rules) (host : Host σ) :
    Nat → Pass σ → List (ReqId × Pass σ)
  | fuel, pass =>
      if 0 < pass.tokenBudget then
        match pass.self.running[pass.reqIndex]?, fuel with
        | some id, fuel + 1 =>
            (id, pass) ::
              match runningStep cfg rules host pass id with
              | .ok (.next next) => iterations cfg rules host fuel next
              | _ => []
        | _, _ => []
      else []

/-- The loop has gone past the request without scheduling it. -/
def Pass.PassedOver (pass : Pass σ) (id : ReqId) : Prop :=
  id ∈ pass.self.running.take pass.reqIndex ∧ id ∉ pass.scheduledRunningReqs

instance (pass : Pass σ) (id : ReqId) : Decidable (pass.PassedOver id) := by
  unfold Pass.PassedOver
  infer_instance

/-- No request is preempted that the loop has passed over. -/
def KeepsIndex (cfg : Config) (rules : Rules) (host : Host σ) (fuel : Nat) (pass : Pass σ) :
    Prop :=
  ∀ entry ∈ iterations cfg rules host fuel pass,
    ∀ victim ∈ stepVictims cfg rules host entry.2 entry.1, ¬victim.2.PassedOver victim.1

instance (fuel : Nat) (pass : Pass σ) : Decidable (KeepsIndex cfg rules host fuel pass) := by
  unfold KeepsIndex
  infer_instance

/-- The iteration leaves the loop: its request is not allocated. -/
def halts : Except Error (Flow σ) → Bool
  | .ok (.halt _) => true
  | _ => false

/-- The loop ends because a request cannot be allocated even after it has preempted
itself. -/
def EndsBlocked (cfg : Config) (rules : Rules) (host : Host σ) (fuel : Nat) (pass : Pass σ) :
    Prop :=
  ∃ entry ∈ iterations cfg rules host fuel pass,
    halts (runningStep cfg rules host entry.2 entry.1) = true

instance (fuel : Nat) (pass : Pass σ) : Decidable (EndsBlocked cfg rules host fuel pass) := by
  unfold EndsBlocked
  infer_instance

/-- What stands from the loop index on is preempted or still stands there, and no
preemption is forgotten. -/
structure Pass.Advances (pass next : Pass σ) : Prop where
  ahead : ∀ id ∈ pass.self.running.drop pass.reqIndex,
    id ∈ next.preemptedReqs ∨ id ∈ next.self.running.drop next.reqIndex
  preempted : ∀ id ∈ pass.preemptedReqs, id ∈ next.preemptedReqs

namespace Pass.Advances

variable {first second third : Pass σ}

theorem refl (pass : Pass σ) : pass.Advances pass where
  ahead := fun _ hmem => .inr hmem
  preempted := fun _ hmem => hmem

theorem trans (hfirst : first.Advances second) (hsecond : second.Advances third) :
    first.Advances third where
  ahead := by
    intro id hmem
    rcases hfirst.ahead id hmem with hpreempted | hahead
    · exact .inl (hsecond.preempted id hpreempted)
    · exact hsecond.ahead id hahead
  preempted := fun id hmem => hsecond.preempted id (hfirst.preempted id hmem)

end Pass.Advances

/-! Taking an element out of a queue, before and after an index. -/

theorem drop_erase_of_mem_take {queue : List ReqId} {victim : ReqId} {index : Nat}
    (hvictim : victim ∈ queue.take index) :
    (queue.erase victim).drop (index - 1) = queue.drop index := by
  have hlength : ((queue.take index).erase victim).length = (queue.take index).length - 1 :=
    List.length_erase_of_mem hvictim
  have hpositive := List.length_pos_of_mem hvictim
  have hle := List.length_take_le index queue
  conv_lhs => rw [← List.take_append_drop index queue, List.erase_append_left _ hvictim]
  by_cases hshort : queue.length ≤ index
  · rw [List.drop_eq_nil_of_le hshort, List.append_nil]
    apply List.drop_eq_nil_of_le
    rw [hlength]
    omega
  · rw [List.length_take, min_eq_left (by omega)] at hlength
    rw [← hlength, List.drop_left]

theorem drop_erase_of_not_mem_take {queue : List ReqId} {victim : ReqId} {index : Nat}
    (hvictim : victim ∉ queue.take index) (hindex : index ≤ queue.length) :
    (queue.erase victim).drop index = (queue.drop index).erase victim := by
  conv_lhs => rw [← List.take_append_drop index queue, List.erase_append_right _ hvictim]
  have hlength : (queue.take index).length = index := by
    rw [List.length_take]
    omega
  exact List.drop_left' hlength

section Loop

variable {pass next : Pass σ} {id : ReqId}

/-- A victim that the loop has not passed over leaves the index at the same request. -/
theorem takeVictim_ahead (hcursor : pass.Cursor cfg id) {rest : List ReqId}
    (hahead : pass.self.running.drop pass.reqIndex = id :: rest) {victim : ReqId}
    {taken : Pass σ} (htake : pass.takeVictim cfg host = .ok (victim, taken))
    (hkept : ¬pass.PassedOver victim) (hne : victim ≠ id) :
    ∃ behind, taken.self.running.drop taken.reqIndex = id :: behind ∧
      ∀ other ∈ rest, other = victim ∨ other ∈ behind := by
  have hindex : pass.reqIndex ≤ pass.self.running.length := by
    by_contra hlong
    rw [List.drop_eq_nil_of_le (by omega)] at hahead
    cases hahead
  rcases Pass.takeVictim_cases htake with ⟨-, hlast, rfl⟩ | ⟨-, -, hfresh, rfl⟩ |
    ⟨-, -, hscheduled, numTokens, -, rfl⟩
  · have hbehind : rest ≠ [] := by
      rintro rfl
      have hwhole := List.take_append_drop pass.reqIndex pass.self.running
      rw [hahead] at hwhole
      rw [← hwhole, List.getLast?_append, List.getLast?_singleton, Option.some_or] at hlast
      exact hne (Option.some.inj hlast).symm
    refine ⟨rest.dropLast, ?_, ?_⟩
    · change pass.self.running.dropLast.drop pass.reqIndex = _
      conv_lhs => rw [← List.take_append_drop pass.reqIndex pass.self.running, hahead,
        List.dropLast_append_cons, List.dropLast_cons_of_ne_nil hbehind]
      exact List.drop_left' (by rw [List.length_take, min_eq_left hindex])
    · intro other hmem
      have hwhole := List.dropLast_append_getLast hbehind
      rw [← hwhole] at hmem
      rcases List.mem_append.mp hmem with hold | hsingle
      · exact .inr hold
      · left
        rw [List.mem_singleton.mp hsingle]
        have hsplit := List.take_append_drop pass.reqIndex pass.self.running
        rw [hahead] at hsplit
        rw [← hsplit, List.getLast?_append, List.getLast?_cons_of_ne_nil hbehind,
          List.getLast?_eq_some_getLast hbehind, Option.some_or] at hlast
        exact Option.some.inj hlast
  · have hnot : victim ∉ pass.self.running.take pass.reqIndex := fun hmem =>
      hkept ⟨hmem, hfresh⟩
    refine ⟨rest.erase victim, ?_, ?_⟩
    · change (pass.self.running.erase victim).drop pass.reqIndex = _
      rw [drop_erase_of_not_mem_take hnot hindex, hahead, List.erase_cons_tail (by simpa using hne.symm)]
    · intro other hmem
      by_cases heq : other = victim
      · exact .inl heq
      · exact .inr ((List.mem_erase_of_ne heq).mpr hmem)
  · refine ⟨rest, ?_, fun other hmem => .inr hmem⟩
    change (pass.self.running.erase victim).drop (pass.reqIndex - 1) = _
    rw [drop_erase_of_mem_take (hcursor.before victim hscheduled), hahead]

/-- What the loop is at while it allocates slots for `id`. -/
structure Pass.Allocates (cfg : Config) (id : ReqId) (pass : Pass σ) : Prop where
  cursor : pass.Cursor cfg id
  running : pass.self.running.Nodup
  scheduled : pass.scheduledRunningReqs.Nodup

theorem Pass.Allocates.preempt (hallocates : pass.Allocates cfg id) {victim : ReqId}
    {taken : Pass σ} (htake : pass.takeVictim cfg host = .ok (victim, taken))
    (hne : victim ≠ id) : (taken.preempt cfg host victim).Allocates cfg id := by
  refine ⟨(hallocates.cursor.preempt hallocates.running hallocates.scheduled htake hne).1, ?_, ?_⟩
  · rcases takeVictim_cases htake with ⟨-, -, rfl⟩ | ⟨-, -, -, rfl⟩ | ⟨-, -, -, numTokens, -, rfl⟩
    · exact hallocates.running.sublist (List.dropLast_sublist _)
    · exact hallocates.running.erase victim
    · exact hallocates.running.erase victim
  · rcases takeVictim_cases htake with ⟨-, -, rfl⟩ | ⟨-, -, -, rfl⟩ | ⟨-, -, -, numTokens, -, rfl⟩
    · exact hallocates.scheduled
    · exact hallocates.scheduled
    · exact hallocates.scheduled.erase victim

/-- The requests that one allocation preempts are taken out of what stands from the loop
index on, and nothing else is. -/
theorem allocateOrPreempt_ahead {numNewTokens : Int} {newBlocks : KVCacheBlocks} (fuel : Nat)
    {pass : Pass σ} (hallocates : pass.Allocates cfg id) {rest : List ReqId}
    (hahead : pass.self.running.drop pass.reqIndex = id :: rest)
    (hkept : ∀ entry ∈ victims cfg rules host id numNewTokens fuel pass,
      ¬entry.2.PassedOver entry.1)
    (hok : allocateOrPreempt cfg rules host id numNewTokens fuel pass =
      .ok (next, some newBlocks)) :
    pass.Advances next ∧ ∃ behind, next.self.running.drop next.reqIndex = id :: behind := by
  induction fuel generalizing pass rest with
  | zero => cases hok
  | succ fuel ih =>
      unfold allocateOrPreempt at hok
      unfold victims at hkept
      split at hok
      · cases hok
      · cases hok
        exact ⟨⟨fun _ hmem => .inr hmem, fun _ hmem => hmem⟩, rest, hahead⟩
      · rename_i st hslots
        rw [hslots] at hkept
        dsimp only at hkept
        split at hok
        · cases hok
        · rename_i hbenchmark
          rw [if_neg hbenchmark] at hkept
          split at hok
          · cases hok
          · rename_i victim taken htake
            rw [htake] at hkept
            dsimp only at hok hkept
            split at hok
            · cases hok
            · rename_i hne
              rw [if_neg hne] at hkept
              have hfirst : ¬(pass.withHost st).PassedOver victim :=
                hkept _ List.mem_cons_self
              have hat : (pass.withHost st).Allocates cfg id :=
                { hallocates with cursor := hallocates.cursor.withHost st }
              obtain ⟨behind, hbehind, hothers⟩ :=
                takeVictim_ahead hat.cursor hahead htake hfirst hne
              obtain ⟨hadvances, hlast⟩ := ih (hat.preempt htake hne) hbehind
                (fun entry hmem => hkept entry (List.mem_cons_of_mem _ hmem)) hok
              refine ⟨Pass.Advances.trans ⟨?_, ?_⟩ hadvances, hlast⟩
              · intro other hmem
                rw [hahead] at hmem
                change other ∈ taken.preemptedReqs ++ [victim] ∨
                  other ∈ taken.self.running.drop taken.reqIndex
                rw [hbehind, List.mem_append, List.mem_singleton, List.mem_cons]
                rcases List.mem_cons.mp hmem with rfl | hrest
                · exact .inr (.inl rfl)
                · exact (hothers other hrest).imp .inr .inr
              · intro other hmem
                have hsame : taken.preemptedReqs = pass.preemptedReqs := by
                  rcases Pass.takeVictim_cases htake with ⟨-, -, rfl⟩ | ⟨-, -, -, rfl⟩ |
                    ⟨-, -, -, numTokens, -, rfl⟩ <;> rfl
                exact List.mem_append_left _ (hsame ▸ hmem)

/-- One iteration that goes on visits its request, and leaves the rest ahead of the
loop or preempted. -/
theorem runningStep_ahead (hallocates : pass.Allocates cfg id) {rest : List ReqId}
    (hahead : pass.self.running.drop pass.reqIndex = id :: rest)
    (hkept : ∀ entry ∈ stepVictims cfg rules host pass id, ¬entry.2.PassedOver entry.1)
    (hok : runningStep cfg rules host pass id = .ok (.next next)) :
    (∀ other ∈ rest, other ∈ next.preemptedReqs ∨
      other ∈ next.self.running.drop next.reqIndex) ∧
    ∀ other ∈ pass.preemptedReqs, other ∈ next.preemptedReqs := by
  unfold runningStep at hok
  unfold stepVictims at hkept
  dsimp only at hok hkept
  generalize planEncoder host pass.host (pass.obj id) (pass.obj id).numComputedTokens
    (numNewRunningTokens cfg rules (pass.obj id) pass.tokenBudget)
    pass.encoderComputeBudget = planned at hok hkept
  obtain ⟨st, plan⟩ := planned
  dsimp only at hok hkept
  have hbehind : ∀ {queue : List ReqId} {index : Nat} {tail : List ReqId},
      queue.drop index = id :: tail → queue.drop (index + 1) = tail := by
    intro queue index tail hdrop
    rw [← List.drop_drop, hdrop]
    rfl
  split at hok
  · cases hok
    refine ⟨fun other hmem => .inr ?_, fun other hmem => hmem⟩
    change other ∈ pass.self.running.drop (pass.reqIndex + 1)
    rw [hbehind hahead]
    exact hmem
  · rename_i hzero
    rw [if_neg hzero] at hkept
    split at hok
    · cases hok
    · cases hok
    · rename_i allocated newBlocks hallocated
      cases hok
      have hat : (pass.withHost st).Allocates cfg id :=
        { hallocates with cursor := hallocates.cursor.withHost st }
      obtain ⟨hadvances, behind, hdrop⟩ :=
        allocateOrPreempt_ahead pass.self.running.length hat hahead hkept hallocated
      obtain ⟨specTokens, last, inputs, budget, heq, -⟩ :=
        Pass.record_eq cfg host allocated id plan.numNewTokens newBlocks plan
      have hnodup : (id :: rest).Nodup :=
        hahead ▸ hallocates.running.sublist (List.drop_sublist _ _)
      rw [heq]
      refine ⟨fun other hmem => ?_, hadvances.preempted⟩
      have hother := hadvances.ahead other (by
        change other ∈ pass.self.running.drop pass.reqIndex
        rw [hahead]
        exact List.mem_cons_of_mem _ hmem)
      rw [hdrop] at hother
      refine hother.imp (fun hpreempted => hpreempted) fun hcons => ?_
      change other ∈ allocated.self.running.drop (allocated.reqIndex + 1)
      rw [hbehind hdrop]
      refine (List.mem_cons.mp hcons).resolve_left ?_
      rintro rfl
      exact (List.nodup_cons.mp hnodup).1 hmem

/-- The running loop visits every request that stands from its index on, unless it is
preempted or the loop ends early. -/
theorem runningLoop_visits (lawful : host.Lawful) (hqueues : start.Queues) (fuel : Nat)
    {pass last : Pass σ} (hreaches : Reaches cfg rules host start (.start cfg start) pass)
    (hindexed : pass.Indexed) (hkept : KeepsIndex cfg rules host fuel pass)
    (hok : runningLoop cfg rules host fuel pass = .ok last) :
    ((∀ id ∈ pass.self.running.drop pass.reqIndex,
        id ∈ (iterations cfg rules host fuel pass).map Prod.fst ∨ id ∈ last.preemptedReqs) ∧
      ∀ id ∈ pass.preemptedReqs, id ∈ last.preemptedReqs) ∨
    last.tokenBudget ≤ 0 ∨ EndsBlocked cfg rules host fuel pass := by
  induction fuel generalizing pass with
  | zero =>
      unfold runningLoop at hok
      split at hok
      · split at hok
        · rename_i hend
          cases hok
          left
          rw [List.getElem?_eq_none_iff] at hend
          rw [List.drop_eq_nil_of_le hend]
          exact ⟨fun _ hmem => (List.not_mem_nil hmem).elim, fun _ hmem => hmem⟩
        · cases hok
        · rename_i heq
          cases heq
      · rename_i hbudget
        cases hok
        exact .inr (.inl (not_lt.mp hbudget))
  | succ fuel ih =>
      unfold runningLoop at hok
      unfold KeepsIndex at hkept
      unfold EndsBlocked
      unfold iterations at hkept ⊢
      split at hok
      · rename_i hbudget
        rw [if_pos hbudget] at hkept ⊢
        split at hok
        · rename_i hend
          cases hok
          left
          rw [List.getElem?_eq_none_iff] at hend
          rw [List.drop_eq_nil_of_le hend]
          exact ⟨fun _ hmem => (List.not_mem_nil hmem).elim, fun _ hmem => hmem⟩
        · rename_i heq
          cases heq
        · rename_i id _ hid heq
          cases heq
          rw [hid] at hkept ⊢
          dsimp only at hkept ⊢
          have hplaced := Pass.Placed.reaches lawful hqueues hreaches
          have hnodup := hplaced.running_nodup hqueues
          have hallocates : pass.Allocates cfg id := ⟨hindexed.cursor hnodup hid, hnodup,
            (hplaced.scheduled_of_none hindexed.noneAdmitted).nodup_iff.mp
              pass.numScheduledTokens.keys_nodup⟩
          obtain ⟨hlt, hget⟩ := List.getElem?_eq_some_iff.mp hid
          have hahead : pass.self.running.drop pass.reqIndex =
              id :: pass.self.running.drop (pass.reqIndex + 1) := by
            rw [← hget]
            exact List.drop_eq_getElem_cons hlt
          have hfirst := hkept (id, pass) List.mem_cons_self
          split at hok
          · cases hok
          · rename_i halted hhalted
            exact .inr (.inr ⟨(id, pass), List.mem_cons_self, by rw [hhalted]; rfl⟩)
          · rename_i next hnext
            rw [hnext] at hkept ⊢
            obtain ⟨hnextReaches, -, -, hcontinue⟩ :=
              (runningStep_within lawful hqueues hreaches hindexed hid hbudget).of_ok hnext
            obtain ⟨hothers, hpreempted⟩ := runningStep_ahead hallocates hahead hfirst hnext
            rcases ih hnextReaches (hcontinue next rfl).1
              (fun entry hmem => hkept entry (List.mem_cons_of_mem _ hmem)) hok with
              ⟨hvisited, hlater⟩ | hbudget | ⟨entry, hentry, halted⟩
            · left
              refine ⟨fun other hmem => ?_, fun other hmem => hlater other (hpreempted other hmem)⟩
              rw [hahead] at hmem
              rw [List.map_cons, List.mem_cons]
              rcases List.mem_cons.mp hmem with heq | hbehind
              · exact .inl (.inl heq)
              · rcases hothers other hbehind with hevicted | hstill
                · exact .inr (hlater other hevicted)
                · exact (hvisited other hstill).imp .inr fun hevicted => hevicted
            · exact .inr (.inl hbudget)
            · exact .inr (.inr ⟨entry, List.mem_cons_of_mem _ hentry, halted⟩)
      · rename_i hbudget
        cases hok
        exact .inr (.inl (not_lt.mp hbudget))

end Loop

/-! One call. -/

/-- The local variables with which a call enters the running loop, if it does. -/
def SchedulerClass.runningPhase (cls : SchedulerClass) (cfg : Config) (host : Host σ)
    (self : Scheduler σ) : Except Error (Option (Pass σ)) :=
  if cls.isUnchunk then do
    let pass ← (Pass.start cfg self).collectLoras cfg
    let pass ← waitingLoop cfg (unchunkRules cfg) host
      (cfg.v1MinPrefillBatch ≤ self.waiting.length) self.waiting.length
      { pass with reqIndex := self.running.length }
    let pass := pass.putBackSkipped cfg host
    if pass.scheduledNewReqs = [] ∧ pass.scheduledResumedReqs = [] then
      pure (some { pass with reqIndex := 0 })
    else pure none
  else .ok (some (.start cfg self))

/-- What the running loop of a call starts with, and what it makes of it. -/
structure EntersRunning (cls : SchedulerClass) (cfg : Config) (host : Host σ)
    (start : Scheduler σ) (first last : Pass σ) : Prop where
  reaches : Reaches cfg (cls.rules cfg) host start (.start cfg start) first
  indexed : first.Indexed
  running : first.self.running = start.running
  index : first.reqIndex = 0
  loop : runningLoop cfg (cls.rules cfg) host start.running.length first = .ok last

/-- Only an admission and a preemption change the running requests. -/
theorem Reaches.running_eq {pass : Pass σ}
    (hreaches : Reaches cfg rules host start (.start cfg start) pass)
    (hpreempted : pass.preemptedReqs = [])
    (hnone : pass.scheduledNewReqs = [] ∧ pass.scheduledResumedReqs = []) :
    pass.self.running = start.running := by
  induction hreaches with
  | refl => rfl
  | @tail pass next _ haction ih =>
      cases haction with
      | reindex | environment | transfer | receive | compiled | skip | park =>
          exact ih hpreempted hnone
      | preempt => exact absurd hpreempted (List.append_ne_nil_of_right_ne_nil _ (by simp))
      | @record id numNewTokens budget newBlocks plan =>
          obtain ⟨specTokens, st, inputs, encoderBudget, heq, -⟩ :=
            Pass.record_eq cfg host pass id numNewTokens newBlocks plan
          rw [heq] at hpreempted hnone ⊢
          exact ih hpreempted hnone
      | accept _ _ _ _ _ _ _ _ _ _ haccept =>
          obtain ⟨hstatus, st, inputs, encoderBudget, rfl, -⟩ := Pass.accept_eq haccept
          obtain ⟨hnew, hresumed⟩ := hnone
          rcases hstatus with hwaiting | hpreempted
          · simp [hwaiting] at hnew
          · simp [hpreempted] at hresumed
      | putBack =>
          obtain ⟨waiting, skipped, heq⟩ := Pass.Placed.putBackSkipped_eq cfg host pass
          rw [heq] at hpreempted hnone ⊢
          exact ih hpreempted hnone
      | loras _ hcollect =>
          obtain ⟨loras, rfl⟩ := Pass.collectLoras_eq hcollect
          exact ih hpreempted hnone

theorem SchedulerClass.runningPhase_enters (lawful : host.Lawful) {cls : SchedulerClass}
    {self : Scheduler σ} (hqueues : self.Queues) {pass first : Pass σ}
    (hok : cls.loops cfg host self = .ok pass)
    (hphase : cls.runningPhase cfg host self = .ok (some first)) :
    ∃ last, EntersRunning cls cfg host self first last := by
  cases hunchunk : cls.isUnchunk with
  | false =>
      have hrules : cls.rules cfg = chunkedRules cfg := by simp [SchedulerClass.rules, hunchunk]
      rw [runningPhase, hunchunk] at hphase
      cases hphase
      rw [SchedulerClass.loops, hunchunk] at hok
      obtain ⟨last, hlast, -⟩ := bind_eq_ok.mp hok
      exact ⟨last, .refl, ⟨⟨rfl, rfl⟩, fun _ hmem => absurd hmem List.not_mem_nil⟩, rfl, rfl, hrules ▸ hlast⟩
  | true =>
      have hrules : cls.rules cfg = unchunkRules cfg := by simp [SchedulerClass.rules, hunchunk]
      rw [runningPhase, hunchunk] at hphase
      rw [SchedulerClass.loops, hunchunk] at hok
      obtain ⟨collected, hcollect, hafter⟩ := bind_eq_ok.mp hphase
      obtain ⟨waited, hwaited, hentered⟩ := bind_eq_ok.mp hafter
      obtain ⟨_, hsame, hrest⟩ := bind_eq_ok.mp hok
      rw [hcollect] at hsame
      cases hsame
      obtain ⟨_, hagain, hlast⟩ := bind_eq_ok.mp hrest
      rw [hwaited] at hagain
      cases hagain
      have hcollected : Reaches cfg (unchunkRules cfg) host self (.start cfg self) collected :=
        .single (.loras ⟨rfl, rfl⟩ hcollect)
      obtain ⟨loras, rfl⟩ := Pass.collectLoras_eq hcollect
      have hqueued := (waitingLoop_within lawful hqueues _ self.waiting.length
        ⟨hcollected.tail (.reindex self.running.length), rfl, fun _ => rfl⟩
        (fun hchunked => Bool.noConfusion hchunked) (le_refl _)).of_ok hwaited
      obtain ⟨waiting, skipped, heq⟩ := Pass.Placed.putBackSkipped_eq cfg host waited
      have hreaches : Reaches cfg (unchunkRules cfg) host self (.start cfg self)
          (waited.putBackSkipped cfg host) := hqueued.reaches.tail .putBack
      dsimp only at hentered hlast
      split at hentered
      · rename_i hnone
        rw [if_pos hnone] at hlast
        cases hentered
        have hrunning : (waited.putBackSkipped cfg host).self.running = self.running := by
          refine hreaches.running_eq ?_ hnone
          rw [heq]
          exact hqueued.nonePreempted
        rw [hrunning] at hlast
        refine ⟨pass, hrules ▸ hreaches.tail (.reindex 0), ⟨hnone, fun id hmem => ?_⟩, hrunning,
          rfl, hrules ▸ hlast⟩
        rw [heq] at hmem
        change id ∈ waited.scheduledRunningReqs at hmem
        rw [hqueued.phase rfl] at hmem
        cases hmem
      · cases hentered

/-- A call that enters the running loop visits or preempts every request that was
running, unless the loop ends early, in every call that preempts no request the loop
has passed over. -/
theorem running_scan_skips_nobody (lawful : host.Lawful) {cls : SchedulerClass} {st : σ}
    {self next : Scheduler σ} {output : SchedulerOutput}
    (hreachable : cls.Reachable cfg host st self)
    (hok : cls.schedule cfg host self = .ok (next, output)) {first : Pass σ}
    (hphase : cls.runningPhase cfg host self = .ok (some first))
    (hkept : KeepsIndex cfg (cls.rules cfg) host self.running.length first) :
    ∃ last, runningLoop cfg (cls.rules cfg) host self.running.length first = .ok last ∧
      ((∀ id ∈ self.running,
          id ∈ (iterations cfg (cls.rules cfg) host self.running.length first).map Prod.fst ∨
            id ∈ last.preemptedReqs) ∨
        last.tokenBudget ≤ 0 ∨
        EndsBlocked cfg (cls.rules cfg) host self.running.length first) := by
  have hqueues := hreachable.queues lawful
  obtain ⟨pass, hloops, -⟩ := SchedulerClass.loops_of_schedule hok
  obtain ⟨last, henters⟩ := SchedulerClass.runningPhase_enters lawful hqueues hloops hphase
  refine ⟨last, henters.loop, ?_⟩
  rcases runningLoop_visits lawful hqueues _ henters.reaches henters.indexed hkept
    henters.loop with ⟨hvisited, -⟩ | hearly
  · left
    intro id hmem
    apply hvisited
    rw [henters.index, henters.running]
    exact hmem
  · exact .inr hearly

open Samples in
theorem running_scan_skips_nobody_decode : ∃ self next output first last,
    SchedulerClass.profiler.Reachable shortModel (Pool.host shortModel) pool self ∧
      SchedulerClass.profiler.schedule shortModel (Pool.host shortModel) self =
        .ok (next, output) ∧
      runningLoop shortModel (chunkedRules shortModel) (Pool.host shortModel) self.running.length
        first = .ok last ∧
      ((∀ id ∈ self.running,
          id ∈ (iterations shortModel (chunkedRules shortModel) (Pool.host shortModel)
            self.running.length first).map Prod.fst ∨ id ∈ last.preemptedReqs) ∨
        last.tokenBudget ≤ 0 ∨
        EndsBlocked shortModel (chunkedRules shortModel) (Pool.host shortModel)
          self.running.length first) := by
  obtain ⟨self, next, output, hreachable, hok, htest⟩ :=
    SchedulerClass.exists_of_tryAfter .profiler shortModel (Pool.host shortModel) pool
      [.addRequest shortPrompt, .schedule, sampled 0 2]
      (fun self _ _ => decide (KeepsIndex shortModel (chunkedRules shortModel)
        (Pool.host shortModel) self.running.length (.start shortModel self)))
      (by decide +kernel)
  obtain ⟨last, hlast⟩ := running_scan_skips_nobody (Pool.host_lawful _) hreachable hok rfl
    (of_decide_eq_true htest)
  exact ⟨self, next, output, .start shortModel self, last, hreachable, hok, hlast⟩

namespace Samples

/-- One token of a prompt at a time, and the lowest priority is preempted. -/
def priorityModel : Config :=
  { shortModel with
    policy := .priority
    longPrefillTokenThreshold := 1
    blockSize := 1 }

def tightPool : Pool := { numFreeBlocks := 3 }

def urgent (id : ReqId) : Request := { requestId := id, promptTokenIds := [5, 6], maxTokens := 4 }

def patient : Request :=
  { requestId := 0, promptTokenIds := [5], maxTokens := 4, priority := 5 }

/-- Request 0 has all its tokens in flight when the others want their second block. -/
def passedOver : List Call :=
  [.addRequest patient, .schedule, .addRequest (urgent 1), .addRequest (urgent 2), .schedule]

end Samples

open Samples in
/-- Request 2 is neither visited nor preempted, although the loop runs to its end. -/
theorem passed_over_victim_skips : ∃ self next output last,
    SchedulerClass.profiler.Reachable priorityModel (Pool.host priorityModel) tightPool self ∧
      SchedulerClass.profiler.schedule priorityModel (Pool.host priorityModel) self =
        .ok (next, output) ∧
      runningLoop priorityModel (chunkedRules priorityModel) (Pool.host priorityModel)
        self.running.length (.start priorityModel self) = .ok last ∧
      2 ∈ self.running ∧ 0 < last.tokenBudget ∧ 2 ∉ last.preemptedReqs ∧
      2 ∉ (iterations priorityModel (chunkedRules priorityModel) (Pool.host priorityModel)
        self.running.length (.start priorityModel self)).map Prod.fst ∧
      ¬EndsBlocked priorityModel (chunkedRules priorityModel) (Pool.host priorityModel)
        self.running.length (.start priorityModel self) := by
  obtain ⟨self, next, output, hreachable, hok, htest⟩ :=
    SchedulerClass.exists_of_tryAfter .profiler priorityModel (Pool.host priorityModel) tightPool
      passedOver
      (fun self _ _ =>
        match runningLoop priorityModel (chunkedRules priorityModel) (Pool.host priorityModel)
          self.running.length (.start priorityModel self) with
        | .error _ => false
        | .ok last => decide (2 ∈ self.running ∧ 0 < last.tokenBudget ∧ 2 ∉ last.preemptedReqs ∧
            2 ∉ (iterations priorityModel (chunkedRules priorityModel) (Pool.host priorityModel)
              self.running.length (.start priorityModel self)).map Prod.fst ∧
            ¬EndsBlocked priorityModel (chunkedRules priorityModel) (Pool.host priorityModel)
              self.running.length (.start priorityModel self)))
      (by decide +kernel)
  split at htest
  · cases htest
  · rename_i last hlast
    exact ⟨self, next, output, last, hreachable, hok, hlast, of_decide_eq_true htest⟩

end VllmMlu.Sched
