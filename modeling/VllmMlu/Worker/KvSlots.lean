import VllmMlu.Worker.KvState
import Mathlib.Data.Finset.Insert
import Mathlib.Data.Finset.Range

/-! Who holds the kv-state slots of a deepseek_v4 worker over any steps. The set of free
slots may pop any of its elements. -/
namespace VllmMlu.Worker
open VllmMlu.Library VllmMlu.Sched

/-- `kv_state_free_slots` and `req_id_to_kv_state` as plain values. -/
structure SlotTable where
  kvStateFreeSlots : Finset Nat
  reqIdToKvState : Dict ReqId Nat

namespace SlotTable

def init (cachedStateNum : Nat) : SlotTable where
  kvStateFreeSlots := Finset.range cachedStateNum
  reqIdToKvState := .empty

def holds (table : SlotTable) (reqId : ReqId) : Option Nat := table.reqIdToKvState.get? reqId

/-- `_insert_req_id` for one new request. -/
def Inserts (table : SlotTable) (reqId : ReqId) (next : SlotTable) : Prop :=
  table.holds reqId = none ∧ ∃ slot ∈ table.kvStateFreeSlots,
    next = ⟨table.kvStateFreeSlots.erase slot, table.reqIdToKvState.set reqId slot⟩

/-- `_remove_req_id` for one finished request. -/
def Removes (table : SlotTable) (reqId : ReqId) (next : SlotTable) : Prop :=
  ∃ slot, table.holds reqId = some slot ∧
    next = ⟨insert slot table.kvStateFreeSlots, table.reqIdToKvState.pop reqId⟩

/-- One slot operation after another, none of which raises. -/
inductive Each (operation : SlotTable → ReqId → SlotTable → Prop) :
    SlotTable → List ReqId → SlotTable → Prop where
  | nil {table : SlotTable} : Each operation table [] table
  | cons {table next last : SlotTable} {reqId : ReqId} {rest : List ReqId} :
      operation table reqId next → Each operation next rest last →
      Each operation table (reqId :: rest) last

/-- One worker step: `_update_states` removes the finished requests, and
`_prepare_inputs` inserts the new ones unless nothing is scheduled. -/
def Executes (table : SlotTable) (output : SchedulerOutput) (next : SlotTable) : Prop :=
  ∃ released, Each Removes table output.finishedReqIds released ∧
    if output.totalNumScheduledTokens = 0 then next = released
    else Each Inserts released output.newReqIds next

/-- Worker steps on which no slot operation raises. -/
inductive Steps : SlotTable → List SchedulerOutput → SlotTable → Prop where
  | nil {table : SlotTable} : Steps table [] table
  | cons {table next last : SlotTable} {output : SchedulerOutput}
      {rest : List SchedulerOutput} :
      Executes table output next → Steps next rest last → Steps table (output :: rest) last

/-- The free slots and the held ones are apart, together all of them, and each is held
once. -/
structure Partitioned (cachedStateNum : Nat) (table : SlotTable) : Prop where
  disjoint : ∀ slot ∈ table.kvStateFreeSlots, ∀ reqId, table.holds reqId ≠ some slot
  covers : ∀ slot, (slot ∈ table.kvStateFreeSlots ∨ ∃ reqId, table.holds reqId = some slot) ↔
    slot < cachedStateNum
  distinct : ∀ reqId other slot, table.holds reqId = some slot → table.holds other = some slot →
    reqId = other

theorem Partitioned.init (cachedStateNum : Nat) :
    (init cachedStateNum).Partitioned cachedStateNum where
  disjoint := fun _ _ _ hsome => nomatch hsome
  covers := by simp [SlotTable.init, holds]
  distinct := fun _ _ _ hsome => nomatch hsome

section Operations

variable {cachedStateNum : Nat} {table next : SlotTable} {reqId : ReqId}

theorem Inserts.holds (hinserts : table.Inserts reqId next) :
    ∃ slot ∈ table.kvStateFreeSlots, next.kvStateFreeSlots = table.kvStateFreeSlots.erase slot ∧
      ∀ other, next.holds other = if other = reqId then some slot else table.holds other := by
  obtain ⟨-, slot, hfree, rfl⟩ := hinserts
  exact ⟨slot, hfree, rfl, fun other => Dict.get?_set ..⟩

theorem Removes.holds (hremoves : table.Removes reqId next) :
    ∃ slot, table.holds reqId = some slot ∧
      next.kvStateFreeSlots = insert slot table.kvStateFreeSlots ∧
      ∀ other, next.holds other = if other = reqId then none else table.holds other := by
  obtain ⟨slot, hslot, rfl⟩ := hremoves
  exact ⟨slot, hslot, rfl, fun other => Dict.get?_pop ..⟩

theorem Partitioned.insert (hpartitioned : table.Partitioned cachedStateNum)
    (hinserts : table.Inserts reqId next) : next.Partitioned cachedStateNum := by
  have hnone := hinserts.1
  obtain ⟨slot, hfree, herase, hholds⟩ := hinserts.holds
  have hfresh := hpartitioned.disjoint slot hfree
  refine ⟨?_, fun other => ?_, fun first second other hfirst hsecond => ?_⟩
  · intro other hother reqId
    rw [herase, Finset.mem_erase] at hother
    rw [hholds]
    split
    · exact fun heq => hother.1 (Option.some.inj heq).symm
    · exact hpartitioned.disjoint other hother.2 reqId
  · rw [← hpartitioned.covers, herase, Finset.mem_erase]
    constructor
    · rintro (hkept | ⟨reqId, hheld⟩)
      · exact .inl hkept.2
      · rw [hholds] at hheld
        split at hheld
        · exact .inl (Option.some.inj hheld ▸ hfree)
        · exact .inr ⟨reqId, hheld⟩
    · rintro (hold | ⟨holder, hheld⟩)
      · by_cases heq : other = slot
        · exact .inr ⟨reqId, by rw [hholds, if_pos rfl, heq]⟩
        · exact .inl ⟨heq, hold⟩
      · refine .inr ⟨holder, ?_⟩
        rw [hholds, if_neg]
        · exact hheld
        · rintro rfl
          rw [hnone] at hheld
          cases hheld
  · rw [hholds] at hfirst hsecond
    split at hfirst <;> split at hsecond
    · rename_i hleft hright
      rw [hleft, hright]
    · exact absurd (Option.some.inj hfirst ▸ hsecond) (hfresh second)
    · exact absurd (Option.some.inj hsecond ▸ hfirst) (hfresh first)
    · exact hpartitioned.distinct first second other hfirst hsecond

theorem Partitioned.remove (hpartitioned : table.Partitioned cachedStateNum)
    (hremoves : table.Removes reqId next) : next.Partitioned cachedStateNum := by
  obtain ⟨slot, hslot, hinsert, hholds⟩ := hremoves.holds
  refine ⟨?_, fun other => ?_, fun first second other hfirst hsecond => ?_⟩
  · intro other hother holder
    rw [hinsert, Finset.mem_insert] at hother
    rw [hholds]
    split
    · exact fun heq => nomatch heq
    · rename_i hne
      rcases hother with rfl | hold
      · exact fun hheld => hne (hpartitioned.distinct holder reqId other hheld hslot)
      · exact hpartitioned.disjoint other hold holder
  · rw [← hpartitioned.covers, hinsert, Finset.mem_insert]
    constructor
    · rintro ((rfl | hold) | ⟨holder, hheld⟩)
      · exact .inr ⟨reqId, hslot⟩
      · exact .inl hold
      · rw [hholds] at hheld
        split at hheld
        · cases hheld
        · exact .inr ⟨holder, hheld⟩
    · rintro (hold | ⟨holder, hheld⟩)
      · exact .inl (.inr hold)
      · by_cases heq : holder = reqId
        · rw [heq, hslot] at hheld
          exact .inl (.inl (Option.some.inj hheld).symm)
        · exact .inr ⟨holder, by rw [hholds, if_neg heq, hheld]⟩
  · rw [hholds] at hfirst hsecond
    split at hfirst
    · cases hfirst
    · split at hsecond
      · cases hsecond
      · exact hpartitioned.distinct first second other hfirst hsecond

/-- An insertion raises for a request that holds a slot, so it takes no slot away. -/
theorem Inserts.keeps (hinserts : table.Inserts reqId next) {other : ReqId} {slot : Nat}
    (hslot : table.holds other = some slot) : next.holds other = some slot := by
  obtain ⟨_, _, _, hholds⟩ := hinserts.holds
  rw [hholds, if_neg]
  · exact hslot
  · rintro rfl
    rw [hinserts.1] at hslot
    cases hslot

theorem Removes.keeps (hremoves : table.Removes reqId next) {other : ReqId} {slot : Nat}
    (hslot : table.holds other = some slot) (hne : other ≠ reqId) :
    next.holds other = some slot := by
  obtain ⟨_, _, _, hholds⟩ := hremoves.holds
  rw [hholds, if_neg hne]
  exact hslot

end Operations

section Runs

variable {cachedStateNum : Nat} {table next last : SlotTable}

theorem Each.partitioned {operation : SlotTable → ReqId → SlotTable → Prop}
    (hstep : ∀ table reqId next, table.Partitioned cachedStateNum → operation table reqId next →
      next.Partitioned cachedStateNum) {reqIds : List ReqId}
    (heach : Each operation table reqIds last) (hpartitioned : table.Partitioned cachedStateNum) :
    last.Partitioned cachedStateNum := by
  induction heach with
  | nil => exact hpartitioned
  | cons hfirst _ ih => exact ih (hstep _ _ _ hpartitioned hfirst)

/-- The requests that a sequence of operations is not about keep their slots. -/
theorem Each.keeps {operation : SlotTable → ReqId → SlotTable → Prop} {other : ReqId} {slot : Nat}
    {reqIds : List ReqId} (hstep : ∀ table, ∀ reqId ∈ reqIds, ∀ next, operation table reqId next →
      table.holds other = some slot → next.holds other = some slot)
    (heach : Each operation table reqIds last) (hslot : table.holds other = some slot) :
    last.holds other = some slot := by
  induction heach with
  | nil => exact hslot
  | cons hfirst _ ih =>
      exact ih (fun table reqId hmem => hstep table reqId (List.mem_cons_of_mem _ hmem))
        (hstep _ _ List.mem_cons_self _ hfirst hslot)

theorem Executes.partitioned {output : SchedulerOutput} (hexecutes : table.Executes output next)
    (hpartitioned : table.Partitioned cachedStateNum) : next.Partitioned cachedStateNum := by
  obtain ⟨released, hreleased, hinserted⟩ := hexecutes
  have hafter := hreleased.partitioned (fun _ _ _ => Partitioned.remove) hpartitioned
  split at hinserted
  · exact hinserted ▸ hafter
  · exact hinserted.partitioned (fun _ _ _ => Partitioned.insert) hafter

theorem Executes.keeps {output : SchedulerOutput} (hexecutes : table.Executes output next)
    {reqId : ReqId} {slot : Nat} (hslot : table.holds reqId = some slot)
    (hunfinished : reqId ∉ output.finishedReqIds) : next.holds reqId = some slot := by
  obtain ⟨released, hreleased, hinserted⟩ := hexecutes
  have hafter : released.holds reqId = some slot := by
    refine hreleased.keeps (fun _ other hmem _ hremoves hheld => hremoves.keeps hheld ?_) hslot
    rintro rfl
    exact hunfinished hmem
  split at hinserted
  · exact hinserted ▸ hafter
  · exact hinserted.keeps (fun _ _ _ _ hinserts => hinserts.keeps) hafter

theorem Steps.partitioned {outputs : List SchedulerOutput} (hsteps : Steps table outputs last)
    (hpartitioned : table.Partitioned cachedStateNum) : last.Partitioned cachedStateNum := by
  induction hsteps with
  | nil => exact hpartitioned
  | cons hfirst _ ih => exact ih (hfirst.partitioned hpartitioned)

theorem Steps.keeps {outputs : List SchedulerOutput} (hsteps : Steps table outputs last)
    {reqId : ReqId} {slot : Nat} (hslot : table.holds reqId = some slot)
    (hunfinished : ∀ output ∈ outputs, reqId ∉ output.finishedReqIds) :
    last.holds reqId = some slot := by
  induction hsteps with
  | nil => exact hslot
  | cons hfirst _ ih =>
      exact ih (hfirst.keeps hslot (hunfinished _ List.mem_cons_self))
        fun output hmem => hunfinished output (List.mem_cons_of_mem _ hmem)

end Runs

end SlotTable

/-! The worker that pops the first free slot takes such steps. -/

namespace KvStates

variable {cachedStateNum : Nat} {states next : KvStates cachedStateNum}

def toTable (states : KvStates cachedStateNum) : SlotTable where
  kvStateFreeSlots := states.kvStateFreeSlots.toFinset
  reqIdToKvState := states.reqIdToKvState

theorem kvStateFreeSlots_nodup (states : KvStates cachedStateNum) :
    states.kvStateFreeSlots.Nodup :=
  (List.nodup_append'.mp (states.shared.nodup_iff.mpr List.nodup_range)).2.1

theorem insertOne_inserts {reqId : ReqId} (hok : states.insertOne reqId = .ok next) :
    states.toTable.Inserts reqId next.toTable := by
  have hnodup := states.kvStateFreeSlots_nodup
  unfold insertOne at hok
  split at hok
  · cases hok
  · rename_i hfresh
    split at hok
    · cases hok
    · rename_i slot slots hfree
      cases hok
      rw [hfree, List.nodup_cons] at hnodup
      refine ⟨(Dict.get?_eq_none_iff _ _).mpr hfresh, slot, ?_, ?_⟩
      · simp [toTable, hfree]
      · simp [toTable, hfree, hnodup.1]

theorem removeOne_removes {reqId : ReqId} (hok : states.removeOne reqId = .ok next) :
    states.toTable.Removes reqId next.toTable := by
  unfold removeOne at hok
  split at hok
  · cases hok
  · rename_i slot hslot
    cases hok
    exact ⟨slot, hslot, by simp [toTable]⟩

theorem foldlM_each {operation : SlotTable → ReqId → SlotTable → Prop}
    {body : KvStates cachedStateNum → ReqId → Except SlotError (KvStates cachedStateNum)}
    (hbody : ∀ states reqId next, body states reqId = .ok next →
      operation states.toTable reqId next.toTable) {reqIds : List ReqId}
    (hok : reqIds.foldlM body states = .ok next) :
    SlotTable.Each operation states.toTable reqIds next.toTable := by
  induction reqIds generalizing states with
  | nil =>
      cases hok
      exact .nil
  | cons reqId rest ih =>
      rw [List.foldlM_cons] at hok
      obtain ⟨first, hfirst, hrest⟩ := bind_eq_ok.mp hok
      exact .cons (hbody _ _ _ hfirst) (ih hrest)

end KvStates

theorem SlotWorker.executeModel_executes {cachedStateNum : Nat}
    {worker next : SlotWorker cachedStateNum} {output : SchedulerOutput}
    {batchToKvState : List Nat} (hok : worker.executeModel output = .ok (next, batchToKvState)) :
    worker.states.toTable.Executes output next.states.toTable := by
  obtain ⟨released, hreleased, hok⟩ := bind_eq_ok.mp hok
  refine ⟨released.toTable, KvStates.foldlM_each (fun _ _ _ => KvStates.removeOne_removes)
    hreleased, ?_⟩
  dsimp only at hok
  split at hok
  · rename_i htotal
    rw [if_pos htotal]
    cases hok
    rfl
  · rename_i htotal
    rw [if_neg htotal]
    obtain ⟨states, hstates, hok⟩ := bind_eq_ok.mp hok
    obtain ⟨slots, -, hok⟩ := bind_eq_ok.mp hok
    cases hok
    refine KvStates.foldlM_each (fun _ _ _ => KvStates.insertOne_inserts) ?_
    rw [← hstates, KvStates.insertReqId, SchedulerOutput.newReqIds, List.foldlM_map]

/-- After any worker steps the slots are shared out, and a request keeps its slot over
all steps that do not report it finished. -/
theorem kv_state_slots_partitioned {maxNumSeqs : Nat} {before after : List SchedulerOutput}
    {table last : SlotTable} (hbefore : SlotTable.Steps (.init maxNumSeqs) before table)
    (hafter : SlotTable.Steps table after last) :
    table.Partitioned maxNumSeqs ∧ last.Partitioned maxNumSeqs ∧
      ∀ reqId slot, table.holds reqId = some slot →
        (∀ output ∈ after, reqId ∉ output.finishedReqIds) → last.holds reqId = some slot := by
  have hpartitioned := hbefore.partitioned (.init maxNumSeqs)
  exact ⟨hpartitioned, hafter.partitioned hpartitioned,
    fun reqId slot hslot hunfinished => hafter.keeps hslot hunfinished⟩

open Samples SlotTable in
/-- Request 1 finishes and comes back under its id in one step; request 0 keeps its slot. -/
theorem kv_state_slots_partitioned_resubmitted : ∃ table last : SlotTable,
    Steps (.init 2) [outputOf [0] [] [], outputOf [1] [0] []] table ∧
      Steps table [outputOf [1] [0] [1]] last ∧
      last.holds 0 = some 0 := by
  have hfirst : Executes (.init 2) (outputOf [0] [] [])
      ⟨(Finset.range 2).erase 0, Dict.empty.set 0 0⟩ :=
    ⟨_, .nil, .cons ⟨rfl, 0, by decide, rfl⟩ .nil⟩
  have hsecond : Executes ⟨(Finset.range 2).erase 0, Dict.empty.set 0 0⟩ (outputOf [1] [0] [])
      ⟨∅, (Dict.empty.set 0 0).set 1 1⟩ :=
    ⟨_, .nil, .cons ⟨rfl, 1, by decide, rfl⟩ .nil⟩
  have hthird : Executes ⟨∅, (Dict.empty.set 0 0).set 1 1⟩ (outputOf [1] [0] [1])
      ⟨∅, (Dict.empty.set 0 0).set 1 1⟩ :=
    ⟨⟨{1}, Dict.empty.set 0 0⟩, .cons ⟨1, rfl, rfl⟩ .nil,
      .cons ⟨rfl, 1, by decide, rfl⟩ .nil⟩
  have hbefore := Steps.cons hfirst (Steps.cons hsecond .nil)
  have hafter := Steps.cons hthird .nil
  exact ⟨_, _, hbefore, hafter, (kv_state_slots_partitioned hbefore hafter).2.2 0 0 rfl
    (by decide)⟩

end VllmMlu.Worker
