import VllmMlu.Library.Dict

/-! The scheduler side of the nixl connector: which requests it registers for receiving. -/
namespace VllmMlu.Connector.Nixl
open VllmMlu.Library

abbrev ReqId := Nat

/-- The keys of `kv_transfer_params`. -/
structure KvTransferParams where
  doRemotePrefill : Option Bool := none
  doRemoteDecode : Option Bool := none
  remoteBlockIds : Option (List Nat) := none
  remoteEngineId : Option String := none
  remoteHost : Option String := none
  remotePort : Option Nat := none
  hasOther : Bool := false
deriving DecidableEq

namespace KvTransferParams

/-- `not params` of a dictionary. -/
def isEmpty (params : KvTransferParams) : Bool := params = {}

def remotePrefill (params : KvTransferParams) : Bool := params.doRemotePrefill.getD false

def remoteDecode (params : KvTransferParams) : Bool := params.doRemoteDecode.getD false

/-- All of `remote_engine_id`, `remote_host` and `remote_port` are there. -/
def hasRemote (params : KvTransferParams) : Bool :=
  params.remoteEngineId.isSome && params.remoteHost.isSome && params.remotePort.isSome

end KvTransferParams

structure KVCacheBlock where
  blockId : Nat
  hashed : Bool
deriving DecidableEq

/-- The blocks of a request, of one or more groups. -/
structure KVCacheBlocks where
  firstGroup : List KVCacheBlock
  otherGroups : List (List KVCacheBlock) := []
deriving DecidableEq

inductive NixlError where
  | attributeError
  | assertionError
deriving DecidableEq

/-- Only one group is supported. -/
def KVCacheBlocks.getUnhashedBlockIds (blocks : KVCacheBlocks) : Except NixlError (List Nat) :=
  if blocks.otherGroups = [] then
    .ok ((blocks.firstGroup.filter fun block => !block.hashed).map (·.blockId))
  else .error .assertionError

structure SchedulerState where
  reqsInBatch : List ReqId := []
  reqsNeedSave : Dict ReqId (List Nat) := .empty
  reqsNeedRecv : Dict ReqId (List Nat) := .empty

/-- The connector, and the parameters of the requests, which it changes in place. -/
structure State where
  scheduler : SchedulerState
  params : ReqId → Option KvTransferParams

structure Call where
  requestId : ReqId
  blocks : KVCacheBlocks
  numExternalTokens : Nat
deriving DecidableEq

/-- The body of the branch for a remote prefill, before its flag is cleared. -/
def registerRecv (scheduler : SchedulerState) (params : KvTransferParams) (call : Call) :
    Except NixlError SchedulerState :=
  if params.remoteBlockIds.getD [] ≠ [] then
    if params.hasRemote then do
      let localBlockIds ←
        if 0 < call.numExternalTokens then call.blocks.getUnhashedBlockIds else .ok []
      .ok { scheduler with
        reqsNeedRecv := scheduler.reqsNeedRecv.set call.requestId localBlockIds }
    else .ok scheduler
  else if call.numExternalTokens = 0 then .ok scheduler
  else .error .assertionError

/-- The state a call leaves behind, and what it raises. -/
def updateStateAfterAlloc (useHostBuffer : Bool) (state : State) (call : Call) :
    State × Option NixlError :=
  match state.params call.requestId with
  | none => (state, some .attributeError)
  | some params =>
      if params.isEmpty then (state, none)
      else
        let scheduler :=
          if params.remoteDecode then
            { state.scheduler with
              reqsInBatch := state.scheduler.reqsInBatch.insert call.requestId }
          else state.scheduler
        if useHostBuffer && params.remoteDecode then
          let blockIds := call.blocks.firstGroup.map (·.blockId)
          if blockIds ≠ [] then
            ({ state with scheduler := { scheduler with
                reqsNeedSave := scheduler.reqsNeedSave.set call.requestId blockIds } }, none)
          else ({ state with scheduler }, none)
        else if params.remotePrefill then
          match registerRecv scheduler params call with
          | .ok scheduler =>
              ({ scheduler
                 params := Function.update state.params call.requestId
                   (some { params with doRemotePrefill := some false }) }, none)
          | .error err => ({ state with scheduler }, some err)
        else ({ state with scheduler }, none)

/-- A call, or anything else that happens to the connector between two calls. -/
inductive Event where
  | call (call : Call)
  | other (scheduler : SchedulerState)

/-- A call of a run. -/
structure Record where
  before : State
  call : Call
  after : State
  raised : Option NixlError

def records (useHostBuffer : Bool) : State → List Event → List Record
  | _, [] => []
  | state, .other scheduler :: events => records useHostBuffer { state with scheduler } events
  | state, .call call :: events =>
      let (after, raised) := updateStateAfterAlloc useHostBuffer state call
      ⟨state, call, after, raised⟩ :: records useHostBuffer after events

/-- The request has no `kv_transfer_params`. -/
def Record.absent (record : Record) : Prop :=
  ∀ params ∈ record.before.params record.call.requestId, params.isEmpty = true

/-- What the calls of a run do with the requests they are made for. -/
structure ReceivesOnce (useHostBuffer : Bool) (records : List Record) : Prop where
  returns : ∀ record ∈ records, record.absent ∨ record.call.numExternalTokens = 0 →
    record.raised = none
  unchanged : ∀ record ∈ records, record.absent → record.after.scheduler = record.before.scheduler
  once : records.Pairwise fun record later => later.call.requestId = record.call.requestId →
    record.after.scheduler.reqsNeedRecv = record.before.scheduler.reqsNeedRecv ∨
      later.after.scheduler.reqsNeedRecv = later.before.scheduler.reqsNeedRecv
  flagOff : ∀ record ∈ records, record.raised = none →
    ∀ params ∈ record.after.params record.call.requestId, params.remotePrefill = true →
      useHostBuffer = true ∧ params.remoteDecode = true

/-- The remote prefill of a request is off, or it is a remote decode through the host buffer. -/
def Settled (useHostBuffer : Bool) (state : State) (id : ReqId) : Prop :=
  ∀ params ∈ state.params id, params.remotePrefill = true →
    useHostBuffer = true ∧ params.remoteDecode = true

section Call

variable {useHostBuffer : Bool} {state : State} {call : Call}

theorem registerRecv_of_zero {scheduler : SchedulerState} {params : KvTransferParams}
    (hzero : call.numExternalTokens = 0) :
    ∃ next, registerRecv scheduler params call = .ok next := by
  unfold registerRecv
  rw [hzero]
  split
  · split
    · exact ⟨_, rfl⟩
    · exact ⟨_, rfl⟩
  · exact ⟨_, rfl⟩

/-- What a call does, by the parameters of its request. -/
inductive Effect (useHostBuffer : Bool) (state : State) (call : Call) :
    State → Option NixlError → Prop
  | missing (hparams : state.params call.requestId = none) :
      Effect useHostBuffer state call state (some .attributeError)
  | empty {params : KvTransferParams} (hparams : state.params call.requestId = some params)
      (hempty : params.isEmpty = true) : Effect useHostBuffer state call state none
  | noRecv {params : KvTransferParams} {scheduler : SchedulerState}
      (hparams : state.params call.requestId = some params) (hempty : params.isEmpty = false)
      (hsettled : params.remotePrefill = true →
        useHostBuffer = true ∧ params.remoteDecode = true)
      (hrecv : scheduler.reqsNeedRecv = state.scheduler.reqsNeedRecv) :
      Effect useHostBuffer state call { state with scheduler } none
  | prefill {params : KvTransferParams} {scheduler : SchedulerState}
      (hparams : state.params call.requestId = some params) (hempty : params.isEmpty = false)
      (hprefill : params.remotePrefill = true)
      (hdecode : ¬(useHostBuffer = true ∧ params.remoteDecode = true)) :
      Effect useHostBuffer state call
        { scheduler
          params := Function.update state.params call.requestId
            (some { params with doRemotePrefill := some false }) } none
  | refused {params : KvTransferParams} {scheduler : SchedulerState} {err : NixlError}
      (hparams : state.params call.requestId = some params) (hempty : params.isEmpty = false)
      (htokens : 0 < call.numExternalTokens)
      (hrecv : scheduler.reqsNeedRecv = state.scheduler.reqsNeedRecv) :
      Effect useHostBuffer state call { state with scheduler } (some err)

theorem updateStateAfterAlloc_effect (useHostBuffer : Bool) (state : State) (call : Call) :
    Effect useHostBuffer state call (updateStateAfterAlloc useHostBuffer state call).1
      (updateStateAfterAlloc useHostBuffer state call).2 := by
  unfold updateStateAfterAlloc
  split
  · rename_i hparams
    exact .missing hparams
  · rename_i params hparams
    cases hempty : params.isEmpty with
    | true => exact .empty hparams hempty
    | false =>
        simp only [Bool.false_eq_true, if_false]
        generalize hscheduler : (if params.remoteDecode = true then
          { state.scheduler with
            reqsInBatch := state.scheduler.reqsInBatch.insert call.requestId }
          else state.scheduler) = scheduler
        have hrecv : scheduler.reqsNeedRecv = state.scheduler.reqsNeedRecv := by
          rw [← hscheduler]
          split <;> rfl
        split
        · rename_i hdecode
          rw [Bool.and_eq_true] at hdecode
          split
          · exact .noRecv hparams hempty (fun _ => hdecode) hrecv
          · exact .noRecv hparams hempty (fun _ => hdecode) hrecv
        · rename_i hdecode
          rw [Bool.and_eq_true] at hdecode
          split
          · rename_i hprefill
            cases hregister : registerRecv scheduler params call with
            | ok next => exact .prefill hparams hempty hprefill hdecode
            | error err =>
                refine .refused hparams hempty (Nat.pos_of_ne_zero fun hzero => ?_) hrecv
                obtain ⟨next, hok⟩ := @registerRecv_of_zero call scheduler params hzero
                rw [hok] at hregister
                cases hregister
          · rename_i hprefill
            exact .noRecv hparams hempty (fun h => absurd h hprefill) hrecv

variable {next : State} {raised : Option NixlError}

/-- Parameters are never added or taken away. -/
theorem Effect.params_none_iff (h : Effect useHostBuffer state call next raised) (id : ReqId) :
    next.params id = none ↔ state.params id = none := by
  cases h with
  | missing _ | empty _ _ | noRecv _ _ _ _ | refused _ _ _ _ => exact Iff.rfl
  | prefill hparams _ _ _ =>
      by_cases hid : id = call.requestId
      · subst hid
        simp [hparams]
      · dsimp only
        rw [Function.update_of_ne hid]

theorem Effect.settled_of_returned (h : Effect useHostBuffer state call next none) :
    Settled useHostBuffer next call.requestId := by
  intro own hown hon
  cases h with
  | empty hparams hempty =>
      rw [hparams] at hown
      cases hown
      rw [of_decide_eq_true hempty] at hon
      cases hon
  | noRecv hparams _ hsettled _ =>
      cases hown.symm.trans hparams
      exact hsettled hon
  | prefill _ _ _ _ =>
      dsimp only at hown
      rw [Option.mem_def, Function.update_self] at hown
      cases hown
      cases hon

theorem Effect.settled_kept (h : Effect useHostBuffer state call next raised) {id : ReqId}
    (hid : Settled useHostBuffer state id) : Settled useHostBuffer next id := by
  cases h with
  | missing _ | empty _ _ | noRecv _ _ _ _ | refused _ _ _ _ => exact hid
  | prefill hparams hempty hprefill hdecode =>
      by_cases heq : id = call.requestId
      · subst heq
        exact (Effect.prefill hparams hempty hprefill hdecode).settled_of_returned
      · intro own hown
        dsimp only at hown
        rw [Option.mem_def, Function.update_of_ne heq] at hown
        exact hid own hown

/-- A request is registered only by a call that switches its remote prefill off. -/
theorem Effect.recv_of_settled (h : Effect useHostBuffer state call next raised)
    (hsettled : Settled useHostBuffer state call.requestId) :
    next.scheduler.reqsNeedRecv = state.scheduler.reqsNeedRecv := by
  cases h with
  | missing _ | empty _ _ => rfl
  | noRecv _ _ _ hrecv | refused _ _ _ hrecv => exact hrecv
  | prefill hparams _ hprefill hdecode => exact absurd (hsettled _ hparams hprefill) hdecode

theorem Effect.recv_of_raised {err : NixlError}
    (h : Effect useHostBuffer state call next (some err)) :
    next.scheduler.reqsNeedRecv = state.scheduler.reqsNeedRecv := by
  cases h with
  | missing _ => rfl
  | refused _ _ _ hrecv => exact hrecv

theorem Effect.params_of_returned (h : Effect useHostBuffer state call next none) :
    state.params call.requestId ≠ none := by
  intro hnone
  cases h with
  | empty hparams _ | noRecv hparams _ _ _ | prefill hparams _ _ _ =>
      cases hnone.symm.trans hparams

theorem Effect.returned_of_present (h : Effect useHostBuffer state call next raised)
    (hpresent : state.params call.requestId ≠ none)
    (hwhen : (∀ params ∈ state.params call.requestId, params.isEmpty = true) ∨
      call.numExternalTokens = 0) : raised = none := by
  cases h with
  | missing hparams => exact absurd hparams hpresent
  | empty _ _ | noRecv _ _ _ _ | prefill _ _ _ _ => rfl
  | refused hparams hempty htokens _ =>
      rcases hwhen with habsent | hzero
      · exact absurd (habsent _ hparams) (by simp [hempty])
      · exact absurd hzero (Nat.pos_iff_ne_zero.mp htokens)

theorem Effect.scheduler_of_absent (h : Effect useHostBuffer state call next raised)
    (habsent : ∀ params ∈ state.params call.requestId, params.isEmpty = true) :
    next.scheduler = state.scheduler := by
  cases h with
  | missing _ | empty _ _ => rfl
  | noRecv hparams hempty _ _ | prefill hparams hempty _ _ | refused hparams hempty _ _ =>
      exact absurd (habsent _ hparams) (by simp [hempty])

end Call

/-! ### Runs -/

theorem records_effect {useHostBuffer : Bool} {state : State} {events : List Event}
    {record : Record} (hmem : record ∈ records useHostBuffer state events) :
    Effect useHostBuffer record.before record.call record.after record.raised := by
  induction events generalizing state with
  | nil => cases hmem
  | cons event events ih =>
      cases event with
      | other scheduler => exact ih hmem
      | call call =>
          rw [records, List.mem_cons] at hmem
          rcases hmem with rfl | hmem
          · exact updateStateAfterAlloc_effect useHostBuffer state call
          · exact ih hmem

theorem records_params_none_iff {useHostBuffer : Bool} {state : State} {events : List Event}
    {record : Record} (hmem : record ∈ records useHostBuffer state events) (id : ReqId) :
    record.before.params id = none ↔ state.params id = none := by
  induction events generalizing state with
  | nil => cases hmem
  | cons event events ih =>
      cases event with
      | other scheduler => exact @ih { state with scheduler } hmem
      | call call =>
          rw [records, List.mem_cons] at hmem
          rcases hmem with rfl | hmem
          · exact Iff.rfl
          · exact (ih hmem).trans
              ((updateStateAfterAlloc_effect useHostBuffer state call).params_none_iff id)

theorem records_settled {useHostBuffer : Bool} {state : State} {events : List Event}
    {record : Record} (hmem : record ∈ records useHostBuffer state events) {id : ReqId}
    (hsettled : Settled useHostBuffer state id) : Settled useHostBuffer record.before id := by
  induction events generalizing state with
  | nil => cases hmem
  | cons event events ih =>
      cases event with
      | other scheduler => exact ih hmem hsettled
      | call call =>
          rw [records, List.mem_cons] at hmem
          rcases hmem with rfl | hmem
          · exact hsettled
          · exact ih hmem
              ((updateStateAfterAlloc_effect useHostBuffer state call).settled_kept hsettled)

/-- Of two calls for one request at most one registers it. -/
theorem records_once (useHostBuffer : Bool) (state : State) (events : List Event) :
    (records useHostBuffer state events).Pairwise fun record later =>
      later.call.requestId = record.call.requestId →
        record.after.scheduler.reqsNeedRecv = record.before.scheduler.reqsNeedRecv ∨
          later.after.scheduler.reqsNeedRecv = later.before.scheduler.reqsNeedRecv := by
  induction events generalizing state with
  | nil => exact .nil
  | cons event events ih =>
      cases event with
      | other scheduler => exact ih _
      | call call =>
          rw [records, List.pairwise_cons]
          refine ⟨?_, ih _⟩
          intro later hlater hid
          have heffect := updateStateAfterAlloc_effect useHostBuffer state call
          cases hraised : (updateStateAfterAlloc useHostBuffer state call).2 with
          | some err =>
              rw [hraised] at heffect
              exact .inl heffect.recv_of_raised
          | none =>
              rw [hraised] at heffect
              right
              apply (records_effect hlater).recv_of_settled
              rw [hid]
              exact records_settled hlater heffect.settled_of_returned

theorem exists_record {useHostBuffer : Bool} {state : State} {events : List Event} {call : Call}
    (hmem : .call call ∈ events) :
    ∃ record ∈ records useHostBuffer state events, record.call = call := by
  induction events generalizing state with
  | nil => cases hmem
  | cons event events ih =>
      rcases List.mem_cons.mp hmem with rfl | hrest
      · exact ⟨_, List.mem_cons_self, rfl⟩
      · cases event with
        | other scheduler => exact ih hrest
        | call first =>
            obtain ⟨record, hrecord, hcall⟩ := ih hrest
            exact ⟨record, List.mem_cons_of_mem _ hrecord, hcall⟩

theorem record_call_mem {useHostBuffer : Bool} {state : State} {events : List Event}
    {record : Record} (hmem : record ∈ records useHostBuffer state events) :
    .call record.call ∈ events := by
  induction events generalizing state with
  | nil => cases hmem
  | cons event events ih =>
      cases event with
      | other scheduler => exact List.mem_cons_of_mem _ (ih hmem)
      | call call =>
          rw [records, List.mem_cons] at hmem
          rcases hmem with rfl | hmem
          · exact List.mem_cons_self
          · exact List.mem_cons_of_mem _ (ih hmem)

/-- The calls of a run are right exactly if none is made for a request whose `kv_transfer_params`
is `None`. -/
theorem receives_once_iff (useHostBuffer : Bool) (state : State) (events : List Event) :
    ReceivesOnce useHostBuffer (records useHostBuffer state events) ↔
      ∀ call, .call call ∈ events → state.params call.requestId ≠ none := by
  constructor
  · intro hright call hmem hnone
    obtain ⟨record, hrecord, rfl⟩ := @exists_record useHostBuffer state _ _ hmem
    have hbefore := (records_params_none_iff hrecord record.call.requestId).mpr hnone
    have hraised := hright.returns record hrecord
      (.inl fun params hparams => by rw [hbefore] at hparams; cases hparams)
    have heffect := records_effect hrecord
    rw [hraised] at heffect
    exact heffect.params_of_returned hbefore
  · intro hpresent
    have hsome : ∀ record ∈ records useHostBuffer state events,
        record.before.params record.call.requestId ≠ none := by
      intro record hmem hnone
      exact hpresent record.call (record_call_mem hmem)
        ((records_params_none_iff hmem _).mp hnone)
    refine ⟨?_, ?_, records_once useHostBuffer state events, ?_⟩
    · intro record hmem hwhen
      exact (records_effect hmem).returned_of_present (hsome record hmem) hwhen
    · intro record hmem habsent
      exact (records_effect hmem).scheduler_of_absent habsent
    · intro record hmem hreturned
      have heffect := records_effect hmem
      rw [hreturned] at heffect
      exact heffect.settled_of_returned

namespace Samples

/-- A request without `kv_transfer_params`. -/
def plainRequest : State := { scheduler := {}, params := fun _ => none }

end Samples

open Samples in
/-- An ordinary request on an instance with the connector. -/
theorem plain_request_raises :
    (updateStateAfterAlloc false plainRequest ⟨0, { firstGroup := [] }, 0⟩).2 =
      some .attributeError ∧
    ¬ReceivesOnce false
      (records false plainRequest [.call ⟨0, { firstGroup := [] }, 0⟩]) := by
  refine ⟨rfl, fun hright => ?_⟩
  have hraised := hright.returns ⟨plainRequest, ⟨0, { firstGroup := [] }, 0⟩, plainRequest,
    some .attributeError⟩ List.mem_cons_self (.inr rfl)
  cases hraised

end VllmMlu.Connector.Nixl
