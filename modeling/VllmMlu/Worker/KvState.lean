import VllmMlu.Library.Cuts
import VllmMlu.Library.Dict
import VllmMlu.Library.Machine
import VllmMlu.Sched.Request

/-! The kv-state slots of a deepseek_v4 worker, and the runs of a scheduler that
feeds it. -/
namespace VllmMlu.Sched.SchedulerOutput

def newReqIds (output : SchedulerOutput) : List ReqId :=
  output.scheduledNewReqs.map NewRequestData.reqId

/-- The requests scheduled again after a preemption. -/
def resumedReqIds (output : SchedulerOutput) : List ReqId :=
  (output.scheduledCachedReqs.filter CachedRequestData.resumed).map CachedRequestData.reqId

def cachedReqIds (output : SchedulerOutput) : List ReqId :=
  output.scheduledCachedReqs.map CachedRequestData.reqId

end VllmMlu.Sched.SchedulerOutput

namespace VllmMlu.Worker
open VllmMlu.Library VllmMlu.Sched

inductive SlotError where
  | alreadyStored (reqId : ReqId)
  /-- The assertion "fail to allocate kv states". -/
  | noFreeSlot
  | keyError (reqId : ReqId)
deriving DecidableEq, Repr

/-- Every slot is free or belongs to one request. -/
structure KvStates (cachedStateNum : Nat) where
  kvStateFreeSlots : List Nat
  reqIdToKvState : Dict ReqId Nat
  shared : (reqIdToKvState.values ++ kvStateFreeSlots).Perm (List.range cachedStateNum)

namespace KvStates

variable {cachedStateNum : Nat}

def initKvState (cachedStateNum : Nat) : KvStates cachedStateNum where
  kvStateFreeSlots := List.range cachedStateNum
  reqIdToKvState := .empty
  shared := .refl _

abbrev reqIds (states : KvStates cachedStateNum) : List ReqId := states.reqIdToKvState.keys

/-- The set of free slots pops any of its elements. -/
def insertOne (states : KvStates cachedStateNum) (reqId : ReqId) :
    Except SlotError (KvStates cachedStateNum) :=
  if hstored : reqId ∈ states.reqIds then
    .error (.alreadyStored reqId)
  else
    match hfree : states.kvStateFreeSlots with
    | [] => .error .noFreeSlot
    | slot :: slots =>
        .ok {
          kvStateFreeSlots := slots
          reqIdToKvState := states.reqIdToKvState.set reqId slot
          shared := by
            have hshared := states.shared
            rw [hfree] at hshared
            rw [Dict.values_set_of_not_mem _ _ _ hstored, List.append_assoc]
            exact hshared }

def removeOne (states : KvStates cachedStateNum) (reqId : ReqId) :
    Except SlotError (KvStates cachedStateNum) :=
  match hslot : states.reqIdToKvState.get? reqId with
  | none => .error (.keyError reqId)
  | some slot =>
      .ok {
        kvStateFreeSlots := slot :: states.kvStateFreeSlots
        reqIdToKvState := states.reqIdToKvState.pop reqId
        shared := by
          refine (List.perm_middle.trans ?_).trans states.shared
          exact (Dict.values_perm_pop hslot).symm.append_right states.kvStateFreeSlots }

def insertReqId (states : KvStates cachedStateNum) (output : SchedulerOutput) :
    Except SlotError (KvStates cachedStateNum) :=
  output.scheduledNewReqs.foldlM (fun states newReqData => states.insertOne newReqData.reqId)
    states

def removeReqId (states : KvStates cachedStateNum) (output : SchedulerOutput) :
    Except SlotError (KvStates cachedStateNum) :=
  output.finishedReqIds.foldlM removeOne states

def lookUp (states : KvStates cachedStateNum) (reqId : ReqId) : Except SlotError Nat :=
  match states.reqIdToKvState.get? reqId with
  | none => .error (.keyError reqId)
  | some slot => .ok slot

theorem length_reqIds (states : KvStates cachedStateNum) :
    states.reqIds.length + states.kvStateFreeSlots.length = cachedStateNum := by
  have hlength := states.shared.length_eq
  rw [List.length_append, List.length_range] at hlength
  simpa [reqIds, Dict.keys, Dict.values] using hlength

/-- A slot is free as long as fewer requests than slots have one. -/
theorem insertOne_ok {states : KvStates cachedStateNum} {reqId : ReqId}
    (hfresh : reqId ∉ states.reqIds) (hroom : states.reqIds.length < cachedStateNum) :
    ∃ next, states.insertOne reqId = .ok next ∧ next.reqIds = states.reqIds ++ [reqId] := by
  have hlength := states.length_reqIds
  unfold insertOne
  rw [dif_neg hfresh]
  split
  · rename_i hfree
    rw [hfree, List.length_nil] at hlength
    omega
  · exact ⟨_, rfl, Dict.keys_set_of_not_mem _ _ _ hfresh⟩

theorem removeOne_ok {states : KvStates cachedStateNum} {reqId : ReqId}
    (hstored : reqId ∈ states.reqIds) :
    ∃ next, states.removeOne reqId = .ok next ∧
      ∀ other, other ∈ next.reqIds ↔ other ∈ states.reqIds ∧ other ≠ reqId := by
  obtain ⟨slot, hslot⟩ := (Dict.mem_keys_iff _ _).mp hstored
  unfold removeOne
  split
  · rename_i hnone
    rw [hslot] at hnone
    cases hnone
  · exact ⟨_, rfl, fun other => Dict.mem_keys_pop ..⟩

theorem removeReqId_ok {states : KvStates cachedStateNum} {output : SchedulerOutput}
    (hnodup : output.finishedReqIds.Nodup)
    (hstored : ∀ reqId ∈ output.finishedReqIds, reqId ∈ states.reqIds) :
    ∃ next, states.removeReqId output = .ok next ∧
      ∀ other, other ∈ next.reqIds ↔ other ∈ states.reqIds ∧ other ∉ output.finishedReqIds := by
  obtain ⟨next, hnext, -, -, hmem⟩ := @foldlM_returns _ _ _ removeOne
    (fun rest (state : KvStates cachedStateNum) => rest.Nodup ∧
      (∀ reqId ∈ rest, reqId ∈ output.finishedReqIds) ∧
      ∀ other, other ∈ state.reqIds ↔
        other ∈ states.reqIds ∧ (other ∈ rest ∨ other ∉ output.finishedReqIds))
    output.finishedReqIds states
    ⟨hnodup, fun _ => id, fun other => by tauto⟩ (by
    rintro reqId rest state ⟨hnodup, hfinished, hmem⟩
    rw [List.nodup_cons] at hnodup
    have hreqId := hfinished reqId List.mem_cons_self
    obtain ⟨next, hnext, hnextMem⟩ := removeOne_ok
      ((hmem reqId).mpr ⟨hstored reqId hreqId, .inl List.mem_cons_self⟩)
    refine ⟨next, hnext, hnodup.2, fun other hother =>
      hfinished other (List.mem_cons_of_mem _ hother), fun other => ?_⟩
    rw [hnextMem, hmem, List.mem_cons]
    by_cases heq : other = reqId
    · simp [heq, hreqId, hnodup.1]
    · simp [heq])
  exact ⟨next, hnext, fun other => by simpa using hmem other⟩

theorem insertReqId_ok {states : KvStates cachedStateNum} {output : SchedulerOutput}
    {reqIds : List ReqId} (hreqIds : reqIds = states.reqIds ++ output.newReqIds)
    (hnodup : reqIds.Nodup) (hroom : reqIds.length ≤ cachedStateNum) :
    ∃ next, states.insertReqId output = .ok next ∧ next.reqIds = reqIds := by
  obtain ⟨next, hnext, hlast⟩ := @foldlM_returns _ _ _
    (fun (states : KvStates cachedStateNum) (newReqData : NewRequestData) =>
      states.insertOne newReqData.reqId)
    (fun rest state => reqIds = state.reqIds ++ rest.map NewRequestData.reqId)
    output.scheduledNewReqs states hreqIds (by
    intro newReqData rest state hstate
    rw [List.map_cons] at hstate
    rw [hstate, List.nodup_middle, List.nodup_cons, List.mem_append, not_or] at hnodup
    rw [hstate, List.length_append, List.length_cons] at hroom
    obtain ⟨next, hnext, hkeys⟩ := insertOne_ok hnodup.1.1 (by omega)
    refine ⟨next, hnext, ?_⟩
    rw [hkeys, List.append_assoc]
    exact hstate)
  exact ⟨next, hnext, by simpa using hlast.symm⟩

theorem lookUp_ok {states : KvStates cachedStateNum} {reqId : ReqId}
    (hstored : reqId ∈ states.reqIds) : ∃ slot, states.lookUp reqId = .ok slot := by
  obtain ⟨slot, hslot⟩ := (Dict.mem_keys_iff _ _).mp hstored
  exact ⟨slot, by rw [lookUp, hslot]⟩

end KvStates

/-- The slots of a worker and the requests in its persistent batch. -/
structure SlotWorker (cachedStateNum : Nat) where
  states : KvStates cachedStateNum
  batch : List ReqId

/-- The requests in the persistent batch after `_update_states`: the finished and the
unscheduled ones leave it, the new ones and those scheduled again enter it. -/
def updateBatch (batch : List ReqId) (output : SchedulerOutput) : List ReqId :=
  let kept := batch.filter fun reqId =>
    reqId ∉ output.finishedReqIds ∧ reqId ∈ output.numScheduledTokens.keys
  kept ++ output.newReqIds ++ output.cachedReqIds.filter (· ∉ kept)

/-- `execute_model`, as far as the slots are concerned: `_update_states` releases, and
`_prepare_inputs` allocates unless nothing is scheduled. -/
def SlotWorker.executeModel {cachedStateNum : Nat} (worker : SlotWorker cachedStateNum)
    (output : SchedulerOutput) : Except SlotError (SlotWorker cachedStateNum × List Nat) := do
  let states ← worker.states.removeReqId output
  let batch := updateBatch worker.batch output
  if output.totalNumScheduledTokens = 0 then
    return ({ states, batch }, [])
  else
    let states ← states.insertReqId output
    let batchToKvState ← batch.mapM states.lookUp
    return ({ states, batch }, batchToKvState)

/-! ### Runs of a scheduler -/

/-- A scheduler by what a worker can learn of it. -/
structure Roster where
  /-- The requests that have never been scheduled. -/
  waiting : List ReqId
  running : List ReqId
  preempted : List ReqId
  /-- The finished requests that no output has reported yet. -/
  finishedReqIds : List ReqId

namespace Roster

def empty : Roster := ⟨[], [], [], []⟩

def live (roster : Roster) : List ReqId := roster.waiting ++ roster.running ++ roster.preempted

def arrive (roster : Roster) (reqId : ReqId) : Roster :=
  { roster with waiting := roster.waiting ++ [reqId] }

/-- A request stops or is aborted. -/
def finish (roster : Roster) (reqId : ReqId) : Roster where
  waiting := roster.waiting.filter (· ≠ reqId)
  running := roster.running.filter (· ≠ reqId)
  preempted := roster.preempted.filter (· ≠ reqId)
  finishedReqIds := roster.finishedReqIds.insert reqId

/-- A call that preempts requests and schedules what `output` says. -/
def schedule (roster : Roster) (output : SchedulerOutput) (preempted : List ReqId) :
    Roster where
  waiting := roster.waiting.filter (· ∉ output.newReqIds)
  running := roster.running.filter (· ∉ preempted) ++ output.newReqIds ++ output.resumedReqIds
  preempted := roster.preempted.filter (· ∉ output.resumedReqIds) ++ preempted
  finishedReqIds := []

/-- What a scheduler may do in one call: new requests come from the waiting ones, resumed
ones from the preempted ones, the others run; the output reports the finished requests. -/
structure Schedules (maxNumSeqs : Nat) (roster : Roster) (output : SchedulerOutput)
    (preempted : List ReqId) : Prop where
  once : output.newReqIds.Nodup
  newReqs : ∀ reqId ∈ output.newReqIds, reqId ∈ roster.waiting
  cachedReqs : ∀ data ∈ output.scheduledCachedReqs,
    if data.resumed then data.reqId ∈ roster.preempted
    else data.reqId ∈ roster.running ∧ data.reqId ∉ preempted
  scheduled : ∀ reqId ∈ output.numScheduledTokens.keys,
    reqId ∈ output.newReqIds ++ output.cachedReqIds
  victims : ∀ reqId ∈ preempted, reqId ∈ roster.running
  finished : output.finishedReqIds = roster.finishedReqIds
  tokens : output.totalNumScheduledTokens = 0 →
    output.newReqIds ++ output.cachedReqIds = []
  limit : (roster.schedule output preempted).running.length ≤ maxNumSeqs

end Roster

structure Serving (maxNumSeqs : Nat) where
  roster : Roster
  worker : SlotWorker maxNumSeqs

namespace Serving

def init (maxNumSeqs : Nat) : Serving maxNumSeqs where
  roster := .empty
  worker := ⟨.initKvState maxNumSeqs, []⟩

inductive Event where
  | arrive (reqId : ReqId)
  | schedule (output : SchedulerOutput) (preempted : List ReqId)
  | finish (reqId : ReqId)

variable {maxNumSeqs : Nat}

/-- At most `max_num_seqs` requests run, under ids that are not in use. -/
def Event.Allowed (state : Serving maxNumSeqs) : Event → Prop
  | .arrive reqId => reqId ∉ state.roster.live
  | .schedule output preempted => state.roster.Schedules maxNumSeqs output preempted
  | .finish reqId => reqId ∈ state.roster.live

instance (roster : Roster) (output : SchedulerOutput) (preempted : List ReqId) :
    Decidable (roster.Schedules maxNumSeqs output preempted) :=
  decidable_of_iff (output.newReqIds.Nodup ∧
      (∀ reqId ∈ output.newReqIds, reqId ∈ roster.waiting) ∧
      (∀ data ∈ output.scheduledCachedReqs,
        if data.resumed then data.reqId ∈ roster.preempted
        else data.reqId ∈ roster.running ∧ data.reqId ∉ preempted) ∧
      (∀ reqId ∈ output.numScheduledTokens.keys,
        reqId ∈ output.newReqIds ++ output.cachedReqIds) ∧
      (∀ reqId ∈ preempted, reqId ∈ roster.running) ∧
      output.finishedReqIds = roster.finishedReqIds ∧
      (output.totalNumScheduledTokens = 0 → output.newReqIds ++ output.cachedReqIds = []) ∧
      (roster.schedule output preempted).running.length ≤ maxNumSeqs)
    ⟨fun ⟨once, newReqs, cachedReqs, scheduled, victims, finished, tokens, limit⟩ =>
      ⟨once, newReqs, cachedReqs, scheduled, victims, finished, tokens, limit⟩,
    fun ⟨once, newReqs, cachedReqs, scheduled, victims, finished, tokens, limit⟩ =>
      ⟨once, newReqs, cachedReqs, scheduled, victims, finished, tokens, limit⟩⟩

instance (state : Serving maxNumSeqs) (event : Event) : Decidable (event.Allowed state) := by
  cases event <;> unfold Event.Allowed <;> infer_instance

/-- The preempted requests count too, and no request finishes before it is scheduled. -/
def Event.Smooth (state : Serving maxNumSeqs) (event : Event) : Prop :=
  event.Allowed state ∧
    match event with
    | .arrive _ => True
    | .schedule output preempted =>
        (state.roster.schedule output preempted).running.length +
          (state.roster.schedule output preempted).preempted.length ≤ maxNumSeqs
    | .finish reqId => reqId ∉ state.roster.waiting

instance (state : Serving maxNumSeqs) (event : Event) : Decidable (event.Smooth state) := by
  cases event <;> unfold Event.Smooth <;> infer_instance

end Serving

/-- The worker executes each output of the scheduler. -/
def serving (maxNumSeqs : Nat) : Machine (Serving maxNumSeqs) Serving.Event SlotError where
  step state event := do
    match event with
    | .arrive reqId => return { state with roster := state.roster.arrive reqId }
    | .schedule output preempted =>
        let (worker, _) ← state.worker.executeModel output
        return ⟨state.roster.schedule output preempted, worker⟩
    | .finish reqId => return { state with roster := state.roster.finish reqId }

namespace Serving

variable {maxNumSeqs : Nat}

/-- The requests with a slot are those that were scheduled and are not reported as
finished. -/
structure Inv (state : Serving maxNumSeqs) : Prop where
  slots : ∀ reqId, reqId ∈ state.worker.states.reqIds ↔
    reqId ∈ state.roster.running ∨ reqId ∈ state.roster.preempted ∨
      reqId ∈ state.roster.finishedReqIds
  waiting : ∀ reqId ∈ state.roster.waiting,
    reqId ∉ state.roster.running ∧ reqId ∉ state.roster.preempted
  finished : ∀ reqId ∈ state.roster.finishedReqIds,
    reqId ∉ state.roster.running ∧ reqId ∉ state.roster.preempted
  once : state.roster.finishedReqIds.Nodup

theorem Inv.init : (init maxNumSeqs).Inv where
  slots := by simp [Serving.init, KvStates.initKvState, KvStates.reqIds, Roster.empty]
  waiting := by simp [Serving.init, Roster.empty]
  finished := by simp [Serving.init, Roster.empty]
  once := List.nodup_nil

theorem Inv.arrive {state : Serving maxNumSeqs} (h : state.Inv) {reqId : ReqId}
    (hfresh : reqId ∉ state.roster.live) :
    Inv { state with roster := state.roster.arrive reqId } where
  slots := h.slots
  waiting := by
    intro other hother
    simp only [Roster.live, List.mem_append, not_or] at hfresh
    rcases List.mem_append.mp hother with hwaiting | hlast
    · exact h.waiting other hwaiting
    · rw [List.mem_singleton.mp hlast]
      exact ⟨hfresh.1.2, hfresh.2⟩
  finished := h.finished
  once := h.once

theorem Inv.finish {state : Serving maxNumSeqs} (h : state.Inv) {reqId : ReqId}
    (hlive : reqId ∈ state.roster.live) (hscheduled : reqId ∉ state.roster.waiting) :
    Inv { state with roster := state.roster.finish reqId } where
  slots := by
    intro other
    have hslot : reqId ∈ state.roster.running ∨ reqId ∈ state.roster.preempted := by
      simpa [Roster.live, hscheduled] using hlive
    simp only [Roster.finish, h.slots, List.mem_filter, List.mem_insert_iff, decide_eq_true_eq]
    by_cases heq : other = reqId
    · rw [heq]
      tauto
    · simp [heq]
  waiting := by
    intro other hother
    simp only [Roster.finish, List.mem_filter] at hother ⊢
    obtain ⟨hrunning, hpreempted⟩ := h.waiting other hother.1
    exact ⟨fun hmem => hrunning hmem.1, fun hmem => hpreempted hmem.1⟩
  finished := by
    intro other hother
    simp only [Roster.finish, List.mem_insert_iff, List.mem_filter, decide_eq_true_eq] at hother ⊢
    rcases hother with rfl | hfinished
    · exact ⟨fun hmem => hmem.2 rfl, fun hmem => hmem.2 rfl⟩
    · obtain ⟨hrunning, hpreempted⟩ := h.finished other hfinished
      exact ⟨fun hmem => hrunning hmem.1, fun hmem => hpreempted hmem.1⟩
  once := h.once.insert

theorem mem_schedule {roster : Roster} {output : SchedulerOutput} {preempted : List ReqId}
    (h : roster.Schedules maxNumSeqs output preempted) (reqId : ReqId) :
    (reqId ∈ (roster.schedule output preempted).running ∨
      reqId ∈ (roster.schedule output preempted).preempted) ↔
    (reqId ∈ roster.running ∨ reqId ∈ roster.preempted) ∨ reqId ∈ output.newReqIds := by
  have hresumed : reqId ∈ output.resumedReqIds → reqId ∈ roster.preempted := by
    intro hmem
    obtain ⟨data, hdata, rfl⟩ := List.mem_map.mp hmem
    obtain ⟨hdata, hresumed⟩ := List.mem_filter.mp hdata
    simpa [hresumed] using h.cachedReqs data hdata
  have hvictims := h.victims reqId
  simp only [Roster.schedule, List.mem_append, List.mem_filter, decide_eq_true_eq]
  tauto

theorem mem_of_scheduled {roster : Roster} {output : SchedulerOutput} {preempted : List ReqId}
    (h : roster.Schedules maxNumSeqs output preempted) {reqId : ReqId}
    (hmem : reqId ∈ output.newReqIds ++ output.cachedReqIds) :
    (reqId ∈ roster.running ∨ reqId ∈ roster.preempted) ∨ reqId ∈ output.newReqIds := by
  rcases List.mem_append.mp hmem with hnew | hcached
  · exact .inr hnew
  · obtain ⟨data, hdata, rfl⟩ := List.mem_map.mp hcached
    have hreq := h.cachedReqs data hdata
    split at hreq
    · exact .inl (.inr hreq)
    · exact .inl (.inl hreq.1)

theorem mem_of_batch {roster : Roster} {output : SchedulerOutput} {preempted batch : List ReqId}
    (h : roster.Schedules maxNumSeqs output preempted) {reqId : ReqId}
    (hmem : reqId ∈ updateBatch batch output) :
    reqId ∈ output.newReqIds ++ output.cachedReqIds := by
  simp only [updateBatch, List.mem_append, List.mem_filter, decide_eq_true_eq] at hmem
  rcases hmem with (hkept | hnew) | hcached
  · exact h.scheduled reqId hkept.2.2
  · exact List.mem_append_left _ hnew
  · exact List.mem_append_right _ hcached.1

/-- The slots that a call asks for are there when running and preempted requests fit. -/
theorem Inv.executeModel {state : Serving maxNumSeqs} (h : state.Inv) {output : SchedulerOutput}
    {preempted : List ReqId} (hschedules : state.roster.Schedules maxNumSeqs output preempted)
    (hroom : (state.roster.schedule output preempted).running.length +
      (state.roster.schedule output preempted).preempted.length ≤ maxNumSeqs) :
    ∃ worker batchToKvState, state.worker.executeModel output = .ok (worker, batchToKvState) ∧
      ∀ reqId, reqId ∈ worker.states.reqIds ↔
        (reqId ∈ state.roster.running ∨ reqId ∈ state.roster.preempted) ∨
          reqId ∈ output.newReqIds := by
  obtain ⟨released, hreleased, hslots⟩ := @KvStates.removeReqId_ok _ state.worker.states output
    (hschedules.finished ▸ h.once) (by
    intro reqId hmem
    rw [hschedules.finished] at hmem
    exact (h.slots reqId).mpr (.inr (.inr hmem)))
  have hheld : ∀ reqId, reqId ∈ released.reqIds ↔
      reqId ∈ state.roster.running ∨ reqId ∈ state.roster.preempted := by
    intro reqId
    have hfinished := h.finished reqId
    rw [hslots, h.slots, hschedules.finished]
    tauto
  unfold SlotWorker.executeModel
  simp only [hreleased]
  by_cases htotal : output.totalNumScheduledTokens = 0
  · have hnone := List.append_eq_nil_iff.mp (hschedules.tokens htotal)
    refine ⟨_, _, by simp only [htotal, ↓reduceIte]; rfl, fun reqId => ?_⟩
    rw [hnone.1]
    simpa using hheld reqId
  · have hnodup : (released.reqIds ++ output.newReqIds).Nodup := by
      rw [List.nodup_append']
      refine ⟨Dict.keys_nodup _, hschedules.once, fun reqId hmem hnew => ?_⟩
      have hwaiting := h.waiting reqId (hschedules.newReqs reqId hnew)
      exact ((hheld reqId).mp hmem).elim hwaiting.1 hwaiting.2
    have hlength : (released.reqIds ++ output.newReqIds).length ≤ maxNumSeqs := by
      apply le_trans (List.Subperm.length_le (List.subperm_of_subset hnodup _))
        (le_trans (List.length_append ..).le hroom)
      intro reqId hmem
      rw [List.mem_append, hheld] at hmem
      exact List.mem_append.mpr ((mem_schedule hschedules reqId).mpr hmem)
    obtain ⟨states, hstates, hreqIds⟩ := KvStates.insertReqId_ok rfl hnodup hlength
    have hnext : ∀ reqId, reqId ∈ states.reqIds ↔
        (reqId ∈ state.roster.running ∨ reqId ∈ state.roster.preempted) ∨
          reqId ∈ output.newReqIds := by
      intro reqId
      rw [hreqIds, List.mem_append, hheld]
    obtain ⟨batchToKvState, hbatch, -⟩ := @Cuts.exists_mapM_ok _ _ _ states.lookUp
      (fun _ _ => True) (updateBatch state.worker.batch output) (by
      intro reqId hmem
      obtain ⟨slot, hslot⟩ := KvStates.lookUp_ok
        ((hnext reqId).mpr (mem_of_scheduled hschedules (mem_of_batch hschedules hmem)))
      exact ⟨slot, hslot, trivial⟩)
    refine ⟨⟨states, updateBatch state.worker.batch output⟩, batchToKvState, ?_, hnext⟩
    simp only [if_neg htotal, hstates, hbatch, bind, Except.bind]
    rfl

theorem Inv.schedule {state : Serving maxNumSeqs} (h : state.Inv) {output : SchedulerOutput}
    {preempted : List ReqId} (hschedules : state.roster.Schedules maxNumSeqs output preempted)
    {worker : SlotWorker maxNumSeqs} (hworker : ∀ reqId, reqId ∈ worker.states.reqIds ↔
      (reqId ∈ state.roster.running ∨ reqId ∈ state.roster.preempted) ∨
        reqId ∈ output.newReqIds) :
    Inv ⟨state.roster.schedule output preempted, worker⟩ where
  slots := by
    intro reqId
    rw [hworker, ← mem_schedule hschedules, ← or_assoc]
    simp [Roster.schedule]
  waiting := by
    intro reqId hmem
    obtain ⟨hmem, hold⟩ := List.mem_filter.mp hmem
    have hwaiting := h.waiting reqId hmem
    rw [decide_eq_true_eq] at hold
    rw [← not_or, mem_schedule hschedules]
    tauto
  finished := by simp [Roster.schedule]
  once := List.nodup_nil

theorem Inv.step {state next : Serving maxNumSeqs} (h : state.Inv) {event : Event}
    (hsmooth : event.Smooth state) (hnext : (serving maxNumSeqs).step state event = .ok next) :
    next.Inv := by
  obtain ⟨hallowed, hsmooth⟩ := hsmooth
  cases event with
  | arrive reqId =>
      cases hnext
      exact h.arrive hallowed
  | finish reqId =>
      cases hnext
      exact h.finish hallowed hsmooth
  | schedule output preempted =>
      obtain ⟨⟨worker, batchToKvState⟩, hworker, hnext⟩ := bind_eq_ok.mp hnext
      obtain ⟨executed, slots, hexecuted, hslots⟩ := h.executeModel hallowed hsmooth
      cases hworker.symm.trans hexecuted
      cases hnext
      exact h.schedule hallowed hslots

end Serving

/-- The worker finds a slot for everything that is scheduled and releases the slots of
everything that finishes, in runs in which the preempted requests leave room for the
running ones and no request finishes before it is scheduled. -/
theorem kv_state_slots_suffice {maxNumSeqs : Nat} {state : Serving maxNumSeqs}
    (run : (serving maxNumSeqs).Run Serving.Event.Smooth (.init maxNumSeqs) state)
    (output : SchedulerOutput) (preempted : List ReqId)
    (hsmooth : (Serving.Event.schedule output preempted).Smooth state) :
    ∃ worker batchToKvState, state.worker.executeModel output = .ok (worker, batchToKvState) ∧
      ∀ reqId ∈ output.numScheduledTokens.keys, reqId ∈ worker.states.reqIds := by
  have h : state.Inv := run.invariant .init (fun _ _ _ hinv hevent hnext => hinv.step hevent hnext)
  obtain ⟨worker, batchToKvState, hworker, hslots⟩ := h.executeModel hsmooth.1 hsmooth.2
  refine ⟨worker, batchToKvState, hworker, fun reqId hmem => (hslots reqId).mpr ?_⟩
  exact Serving.mem_of_scheduled hsmooth.1 (hsmooth.1.scheduled reqId hmem)

namespace Samples

/-- An output that gives one token to each of its requests. -/
def outputOf (newReqIds runningReqIds finishedReqIds : List ReqId) : SchedulerOutput where
  scheduledNewReqs := newReqIds.map fun reqId => ⟨reqId, [], [], 0, none, []⟩
  scheduledCachedReqs := runningReqIds.map fun reqId => ⟨reqId, false, [], 1, 0, []⟩
  numScheduledTokens := (newReqIds ++ runningReqIds).foldl (fun dict reqId => dict.set reqId 1) .empty
  totalNumScheduledTokens := (newReqIds ++ runningReqIds).length
  finishedReqIds := finishedReqIds

end Samples

open Samples in
/-- Two slots: the slot of a finished request goes to a third one. -/
theorem kv_state_slots_suffice_two : ∃ state : Serving 2,
    (serving 2).Run Serving.Event.Smooth (.init 2) state ∧
    state.worker.states.reqIds = [0, 1] ∧
    ∃ worker batchToKvState,
      state.worker.executeModel (outputOf [2] [1] [0]) = .ok (worker, batchToKvState) ∧
      2 ∈ worker.states.reqIds := by
  obtain ⟨state, run, htest⟩ := Machine.exists_of_leadsTo (serving 2) Serving.Event.Smooth
    (.init 2)
    [.arrive 0, .arrive 1, .arrive 2, .schedule (outputOf [0, 1] [] []) [], .finish 0]
    (fun state => decide (state.worker.states.reqIds = [0, 1] ∧
      (Serving.Event.schedule (outputOf [2] [1] [0]) []).Smooth state))
    (by decide +kernel)
  obtain ⟨hreqIds, hsmooth⟩ := of_decide_eq_true htest
  obtain ⟨worker, batchToKvState, hworker, hslots⟩ :=
    kv_state_slots_suffice run (outputOf [2] [1] [0]) [] hsmooth
  exact ⟨state, run, hreqIds, worker, batchToKvState, hworker, hslots 2 (by decide)⟩

namespace Samples

def errorOf {α : Type} : Except SlotError α → Option SlotError
  | .error err => some err
  | .ok _ => none

end Samples

open Samples in
/-- A request that is aborted before it is scheduled has no slot to release, and with one
slot a new request finds none while a preempted one keeps it. -/
theorem slots_missing_and_used_up :
    (∃ state : Serving 1, (serving 1).Run Serving.Event.Allowed (.init 1) state ∧
      (Serving.Event.schedule (outputOf [] [] [0]) []).Allowed state ∧
      errorOf (state.worker.executeModel (outputOf [] [] [0])) = some (.keyError 0)) ∧
    ∃ state : Serving 1, (serving 1).Run Serving.Event.Allowed (.init 1) state ∧
      (Serving.Event.schedule (outputOf [1] [] []) [0]).Allowed state ∧
      errorOf (state.worker.executeModel (outputOf [1] [] [])) = some .noFreeSlot := by
  constructor
  · obtain ⟨state, run, htest⟩ := Machine.exists_of_leadsTo (serving 1) Serving.Event.Allowed
      (.init 1) [.arrive 0, .finish 0]
      (fun state => decide ((Serving.Event.schedule (outputOf [] [] [0]) []).Allowed state ∧
        errorOf (state.worker.executeModel (outputOf [] [] [0])) = some (.keyError 0)))
      (by decide +kernel)
    exact ⟨state, run, of_decide_eq_true htest⟩
  · obtain ⟨state, run, htest⟩ := Machine.exists_of_leadsTo (serving 1) Serving.Event.Allowed
      (.init 1) [.arrive 0, .arrive 1, .schedule (outputOf [0] [] []) []]
      (fun state => decide ((Serving.Event.schedule (outputOf [1] [] []) [0]).Allowed state ∧
        errorOf (state.worker.executeModel (outputOf [1] [] [])) = some .noFreeSlot))
      (by decide +kernel)
    exact ⟨state, run, of_decide_eq_true htest⟩

end VllmMlu.Worker
