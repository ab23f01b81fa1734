import VllmMlu.Library.Dict
import VllmMlu.Library.Paged
import VllmMlu.Sched.Request

/-! `_get_prompt_logprobs_dict`: the prompt logprobs of a request, collected over the
chunks of its prefill. -/
namespace VllmMlu.Worker
open VllmMlu.Library Rows Paged
open VllmMlu.Sched

/-- `compute_logits` of the model, `compute_logprobs` and `gather_logprobs` of the sampler. A
row is the token ids, the logprobs and the rank of one position. -/
structure LogprobModel (Hidden Logits Logprobs Row : Type) where
  computeLogits : List Hidden → List Logits
  computeLogprobs : List Logits → List Logprobs
  gatherLogprobs : List Logprobs → Nat → List Token → List Row

/-- The entries of `LogprobsTensors`; `empty_cpu` leaves them without a value. -/
abbrev LogprobsTensors (Row : Type) := List (Option Row)

/-- `num_prompt_logprobs` and `in_progress_prompt_logprobs_cpu` of the input batch. -/
structure PromptLogprobs (Row : Type) where
  numPromptLogprobs : Dict ReqId Nat
  inProgress : Dict ReqId (LogprobsTensors Row)

structure LogprobsRequest where
  promptTokenIds : Option (List Token)
  numComputedTokens : Nat

/-- One step as `_get_prompt_logprobs_dict` sees it. -/
structure LogprobsBatch (Hidden : Type) where
  numScheduledTokens : ReqId → Option Nat
  requests : ReqId → Option LogprobsRequest
  reqIdToIndex : ReqId → Option Nat
  queryStartLoc : List Nat
  hiddenStates : List Hidden

/-- The local variables of `_get_prompt_logprobs_dict`. -/
structure LogprobsPass (Row : Type) where
  inProgress : Dict ReqId (LogprobsTensors Row)
  promptLogprobsDict : Dict ReqId (LogprobsTensors Row) := .empty
  completedPrefillReqs : List ReqId := []

variable {Hidden Logits Logprobs Row : Type}

def raised : TensorError → Error
  | .indexOutOfRange => .indexError
  | _ => .runtimeError

def orRaise (err : Error) : Option α → Except Error α
  | some value => .ok value
  | none => .error err

/-- `LogprobsTensors.empty_cpu(num_prompt_tokens - 1, ..)`. -/
def emptyCpu (numPromptTokens : Nat) : Except Error (LogprobsTensors Row) :=
  if numPromptTokens = 0 then .error .runtimeError
  else .ok (List.replicate (numPromptTokens - 1) none)

/-- `in_progress_dict.get(req_id)`, or empty tensors for the whole prompt. -/
def logprobsTensors (inProgress : Dict ReqId (LogprobsTensors Row)) (reqId : ReqId)
    (numPromptTokens : Nat) : Except Error (LogprobsTensors Row) :=
  match inProgress.get? reqId with
  | some tensors => .ok tensors
  | none => emptyCpu numPromptTokens

/-- Score the first `numLogits` rows of a request and copy them into its tensors. -/
def fillLogprobs (model : LogprobModel Hidden Logits Logprobs Row) (batch : LogprobsBatch Hidden)
    (reqId : ReqId) (numPromptLogprobs : Nat) (promptTokenIds : List Token)
    (startIdx numLogits : Nat) (tensors : LogprobsTensors Row) :
    Except Error (LogprobsTensors Row) := do
  let reqIdx ← orRaise .keyError (batch.reqIdToIndex reqId)
  let offset ← (index batch.queryStartLoc reqIdx).mapError raised
  let promptHiddenStates := slice offset numLogits batch.hiddenStates
  let logits := model.computeLogits promptHiddenStates
  let tgtTokenIds := slice (startIdx + 1) numLogits promptTokenIds
  let logprobs := model.computeLogprobs logits
  let rows := model.gatherLogprobs logprobs numPromptLogprobs tgtTokenIds
  (assign tensors startIdx (startIdx + numLogits) (rows.map some)).mapError raised

namespace LogprobsPass

/-- The number of logits to retrieve. A prompt that ends in this step is noted as complete,
and its tensors are to be returned. -/
def retrieve (pass : LogprobsPass Row) (reqId : ReqId) (numTokens : Nat)
    (numRemainingTokens : Int) (tensors : LogprobsTensors Row) : Int × LogprobsPass Row :=
  if numTokens ≤ numRemainingTokens then (numTokens, pass)
  else (numRemainingTokens, { pass with
    completedPrefillReqs := pass.completedPrefillReqs ++ [reqId]
    promptLogprobsDict := pass.promptLogprobsDict.set reqId tensors })

/-- `del prompt_logprobs_dict[req_id]`. -/
def deletePrompt (pass : LogprobsPass Row) (reqId : ReqId) : Except Error (LogprobsPass Row) :=
  if reqId ∈ pass.promptLogprobsDict.keys then
    .ok { pass with promptLogprobsDict := pass.promptLogprobsDict.pop reqId }
  else .error .keyError

/-- The dictionaries hold the tensors themselves: they see what is copied into them. -/
def fill (pass : LogprobsPass Row) (reqId : ReqId) (tensors : LogprobsTensors Row) :
    LogprobsPass Row :=
  { pass with
    inProgress := pass.inProgress.set reqId tensors
    promptLogprobsDict :=
      if reqId ∈ pass.promptLogprobsDict.keys then pass.promptLogprobsDict.set reqId tensors
      else pass.promptLogprobsDict }

end LogprobsPass

/-- One iteration of the loop over `num_prompt_logprobs_dict`. -/
def collectPromptLogprobs (model : LogprobModel Hidden Logits Logprobs Row)
    (batch : LogprobsBatch Hidden) (pass : LogprobsPass Row) (entry : ReqId × Nat) :
    Except Error (LogprobsPass Row) := do
  let (reqId, numPromptLogprobs) := entry
  let numTokens ← orRaise .keyError (batch.numScheduledTokens reqId)
  let request ← orRaise .keyError (batch.requests reqId)
  match request.promptTokenIds with
  | none => return pass
  | some promptTokenIds =>
      let numPromptTokens := promptTokenIds.length
      let tensors ← logprobsTensors pass.inProgress reqId numPromptTokens
      let pass := { pass with inProgress := pass.inProgress.set reqId tensors }
      let startIdx := request.numComputedTokens
      let numRemainingTokens : Int := numPromptTokens - (startIdx + 1 : Nat)
      let (numLogits, pass) := pass.retrieve reqId numTokens numRemainingTokens tensors
      if numLogits ≤ 0 then pass.deletePrompt reqId
      else
        let tensors ← fillLogprobs model batch reqId numPromptLogprobs promptTokenIds startIdx
          numLogits.toNat tensors
        return pass.fill reqId tensors

/-- The bookkeeping of a request whose prefill is complete is deleted. -/
def dropCompleted (state : PromptLogprobs Row) (reqId : ReqId) :
    Except Error (PromptLogprobs Row) :=
  if reqId ∈ state.numPromptLogprobs.keys ∧ reqId ∈ state.inProgress.keys then
    .ok ⟨state.numPromptLogprobs.pop reqId, state.inProgress.pop reqId⟩
  else .error .keyError

def getPromptLogprobsDict (model : LogprobModel Hidden Logits Logprobs Row)
    (batch : LogprobsBatch Hidden) (state : PromptLogprobs Row) :
    Except Error (Dict ReqId (LogprobsTensors Row) × PromptLogprobs Row) := do
  let pass ← state.numPromptLogprobs.entries.foldlM (collectPromptLogprobs model batch)
    { inProgress := state.inProgress }
  let state ← pass.completedPrefillReqs.foldlM dropCompleted
    { state with inProgress := pass.inProgress }
  return (pass.promptLogprobsDict, state)

theorem assign_eq {α : Type} {dst src : List α} {start stop : Nat}
    (hstop : stop = start + src.length) (hle : stop ≤ dst.length) :
    assign dst start stop src = .ok (dst.take start ++ src ++ dst.drop stop) := by
  have hsize : min stop dst.length - start = src.length := by omega
  simp only [assign, hsize, if_true]
  rw [hstop]

/-- The model and the sampler score every row by itself. -/
def LogprobModel.RowWise (model : LogprobModel Hidden Logits Logprobs Row)
    (score : Hidden → Nat → Token → Row) : Prop :=
  ∀ hidden numPromptLogprobs tokenIds, hidden.length = tokenIds.length →
    model.gatherLogprobs (model.computeLogprobs (model.computeLogits hidden)) numPromptLogprobs
      tokenIds = List.zipWith (fun state token => score state numPromptLogprobs token) hidden tokenIds

/-- A step in which a request with `start` computed tokens has `numTokens` rows, from the row
`offset` on. -/
structure Served (batch : LogprobsBatch Hidden) (reqId : ReqId) (promptTokenIds : List Token)
    (start numTokens offset : Nat) : Prop where
  scheduled : batch.numScheduledTokens reqId = some numTokens
  positive : 0 < numTokens
  request : batch.requests reqId = some ⟨some promptTokenIds, start⟩
  prompt : 0 < promptTokenIds.length
  placed : ∃ row, batch.reqIdToIndex reqId = some row ∧ batch.queryStartLoc[row]? = some offset
  rows : offset + numTokens ≤ batch.hiddenStates.length

/-- `new` is `old` with the entries of the positions of this step filled in. -/
structure Collected (score : Hidden → Nat → Token → Row) (batch : LogprobsBatch Hidden)
    (promptTokenIds : List Token) (numPromptLogprobs start numTokens offset : Nat)
    (old new : LogprobsTensors Row) : Prop where
  length : new.length = promptTokenIds.length - 1
  kept : ∀ i, ¬(start ≤ i ∧ i < start + numTokens) → new[i]? = old[i]?
  filled : ∀ i, start ≤ i → i < start + numTokens → i + 1 < promptTokenIds.length →
    ∃ state token, batch.hiddenStates[offset + (i - start)]? = some state ∧
      promptTokenIds[i + 1]? = some token ∧
        new[i]? = some (some (score state numPromptLogprobs token))

section Collect

variable {model : LogprobModel Hidden Logits Logprobs Row} {score : Hidden → Nat → Token → Row}
  {batch : LogprobsBatch Hidden} {pass : LogprobsPass Row} {reqId : ReqId}
  {promptTokenIds : List Token} {numPromptLogprobs start numTokens offset : Nat}

/-- The tensors of a request when its turn comes. -/
def LogprobsPass.tensorsOf (pass : LogprobsPass Row) (reqId : ReqId)
    (promptTokenIds : List Token) : LogprobsTensors Row :=
  (pass.inProgress.get? reqId).getD (List.replicate (promptTokenIds.length - 1) none)

theorem logprobsTensors_eq (pass : LogprobsPass Row) (reqId : ReqId)
    (hprompt : 0 < promptTokenIds.length) :
    logprobsTensors pass.inProgress reqId promptTokenIds.length =
      .ok (pass.tensorsOf reqId promptTokenIds) := by
  unfold logprobsTensors LogprobsPass.tensorsOf emptyCpu
  cases pass.inProgress.get? reqId with
  | some tensors => rfl
  | none => rw [if_neg (by omega), Option.getD_none]

theorem fillLogprobs_eq (numPromptLogprobs : Nat) (rowWise : model.RowWise score)
    (served : Served batch reqId promptTokenIds start numTokens offset)
    {tensors : LogprobsTensors Row} (hlength : tensors.length = promptTokenIds.length - 1)
    {numLogits : Nat} (hle : numLogits ≤ numTokens)
    (hend : start + numLogits ≤ promptTokenIds.length - 1)
    (hall : numLogits = numTokens ∨ start + numLogits = promptTokenIds.length - 1) :
    ∃ new, fillLogprobs model batch reqId numPromptLogprobs promptTokenIds start numLogits
        tensors = .ok new ∧
      Collected score batch promptTokenIds numPromptLogprobs start numTokens offset tensors new := by
  obtain ⟨row, hindex, hoffset⟩ := served.placed
  have hrows := served.rows
  have hhidden : (slice offset numLogits batch.hiddenStates).length = numLogits := by
    rw [length_slice]
    omega
  have htokens : (slice (start + 1) numLogits promptTokenIds).length = numLogits := by
    rw [length_slice]
    omega
  have hscore := rowWise (slice offset numLogits batch.hiddenStates) numPromptLogprobs
    (slice (start + 1) numLogits promptTokenIds) (hhidden.trans htokens.symm)
  have hlen : ((List.zipWith (fun state token => score state numPromptLogprobs token)
      (slice offset numLogits batch.hiddenStates)
        (slice (start + 1) numLogits promptTokenIds)).map some).length = numLogits := by
    rw [List.length_map, List.length_zipWith, hhidden, htokens, Nat.min_self]
  have hfill : fillLogprobs model batch reqId numPromptLogprobs promptTokenIds start numLogits
      tensors = .ok (tensors.take start ++
        (List.zipWith (fun state token => score state numPromptLogprobs token)
          (slice offset numLogits batch.hiddenStates)
            (slice (start + 1) numLogits promptTokenIds)).map some ++
              tensors.drop (start + numLogits)) := by
    simp only [fillLogprobs, hindex, orRaise]
    change (Except.mapError raised (index batch.queryStartLoc row) >>= _) = _
    rw [index_eq_ok hoffset]
    change Except.mapError raised (assign tensors start (start + numLogits) _) = _
    rw [hscore, assign_eq (by rw [hlen]) (by omega)]
    rfl
  refine ⟨_, hfill, ?_, fun i hout => ?_, fun i hstart hlast hprompt => ?_⟩
  · simp only [List.length_append, List.length_take, List.length_drop, hlen]
    omega
  · rw [getElem?_splice (by rw [hlen]) (by omega), if_neg (by omega)]
  · have hstate : offset + (i - start) < batch.hiddenStates.length := by omega
    refine ⟨batch.hiddenStates[offset + (i - start)], promptTokenIds[i + 1],
      List.getElem?_eq_getElem hstate, List.getElem?_eq_getElem hprompt, ?_⟩
    have htoken : start + 1 + (i - start) = i + 1 := by omega
    rw [getElem?_splice (by rw [hlen]) (by omega), if_pos (by omega), List.getElem?_map,
      List.getElem?_zipWith, getElem?_slice _ (by omega), getElem?_slice _ (by omega), htoken,
      List.getElem?_eq_getElem hstate, List.getElem?_eq_getElem hprompt]
    rfl

/-- What the turn of one request leaves of the others. -/
structure OthersKept (pass next : LogprobsPass Row) (reqId : ReqId) : Prop where
  inProgress : ∀ other, other ≠ reqId →
    next.inProgress.get? other = pass.inProgress.get? other
  dict : ∀ other, other ≠ reqId →
    next.promptLogprobsDict.get? other = pass.promptLogprobsDict.get? other

/-- One turn: the tensors are filled in; they are delivered in the step that passes the end
of the prompt, unless the step before has left no logits to produce. -/
theorem collectPromptLogprobs_eq (numPromptLogprobs : Nat) (rowWise : model.RowWise score)
    (served : Served batch reqId promptTokenIds start numTokens offset)
    (hlength : (pass.tensorsOf reqId promptTokenIds).length = promptTokenIds.length - 1)
    (hfresh : pass.promptLogprobsDict.get? reqId = none) :
    ∃ tensors next,
      collectPromptLogprobs model batch pass (reqId, numPromptLogprobs) = .ok next ∧
      Collected score batch promptTokenIds numPromptLogprobs start numTokens offset
        (pass.tensorsOf reqId promptTokenIds) tensors ∧
      next.inProgress.get? reqId = some tensors ∧
      next.promptLogprobsDict.get? reqId =
        (if start + 1 < promptTokenIds.length ∧ promptTokenIds.length ≤ start + numTokens then
          some tensors
        else none) ∧
      next.completedPrefillReqs =
        (if promptTokenIds.length ≤ start + numTokens then pass.completedPrefillReqs ++ [reqId]
        else pass.completedPrefillReqs) ∧
      OthersKept pass next reqId := by
  have hpos := served.positive
  have htensors := logprobsTensors_eq pass reqId served.prompt
  set tensors := pass.tensorsOf reqId promptTokenIds
  set waiting : LogprobsPass Row :=
    { pass with inProgress := pass.inProgress.set reqId tensors }
  have hturn : collectPromptLogprobs model batch pass (reqId, numPromptLogprobs) =
      let (numLogits, next) := waiting.retrieve reqId numTokens
        ((promptTokenIds.length : Int) - (start + 1 : Nat)) tensors
      if numLogits ≤ 0 then next.deletePrompt reqId
      else do
        let tensors ← fillLogprobs model batch reqId numPromptLogprobs promptTokenIds start
          numLogits.toNat tensors
        return next.fill reqId tensors := by
    simp only [collectPromptLogprobs, served.scheduled, served.request, orRaise]
    change (logprobsTensors pass.inProgress reqId promptTokenIds.length >>= _) = _
    rw [htensors]
    rfl
  have hkeys : reqId ∉ pass.promptLogprobsDict.keys := by
    rw [← Dict.get?_eq_none_iff]
    exact hfresh
  by_cases hmore : (numTokens : Int) ≤ (promptTokenIds.length : Int) - (start + 1 : Nat)
  · obtain ⟨new, hfill, hcollected⟩ := fillLogprobs_eq numPromptLogprobs rowWise served
      hlength le_rfl (by omega) (.inl rfl)
    refine ⟨new, waiting.fill reqId new, ?_, hcollected, ?_, ?_, ?_, ?_, ?_⟩
    · rw [hturn, LogprobsPass.retrieve, if_pos hmore]
      simp only [Int.toNat_natCast, hfill]
      rw [if_neg (by omega)]
      rfl
    · simp [LogprobsPass.fill]
    · rw [if_neg (by omega)]
      simp [LogprobsPass.fill, waiting, hkeys, hfresh]
    · rw [if_neg (by omega)]
      rfl
    · intro other hne
      simp [LogprobsPass.fill, waiting, Dict.get?_set_of_ne, hne]
    · intro other hne
      simp [LogprobsPass.fill, waiting, hkeys]
  · have hlast : promptTokenIds.length ≤ start + numTokens := by omega
    by_cases hnone : (promptTokenIds.length : Int) - (start + 1 : Nat) ≤ 0
    · refine ⟨tensors, { waiting with
          completedPrefillReqs := pass.completedPrefillReqs ++ [reqId]
          promptLogprobsDict := (pass.promptLogprobsDict.set reqId tensors).pop reqId },
        ?_, ⟨hlength, fun _ _ => rfl, ?_⟩, ?_, ?_, ?_, ?_, ?_⟩
      · rw [hturn, LogprobsPass.retrieve, if_neg hmore]
        simp only [if_pos hnone, LogprobsPass.deletePrompt, Dict.mem_keys_set, true_or, if_true]
        rfl
      · intro i hstart _ hi
        omega
      · simp [waiting]
      · rw [if_neg (by omega)]
        simp
      · rw [if_pos hlast]
      · intro other hne
        simp [waiting, Dict.get?_set_of_ne, hne]
      · intro other hne
        simp [Dict.get?_set_of_ne, Dict.get?_pop_of_ne, hne]
    · have hfew : promptTokenIds.length - (start + 1) ≤ numTokens := by omega
      obtain ⟨new, hfill, hcollected⟩ := fillLogprobs_eq numPromptLogprobs rowWise served
        hlength hfew (by omega) (.inr (by omega))
      have hnum : ((promptTokenIds.length : Int) - (start + 1 : Nat)).toNat =
          promptTokenIds.length - (start + 1) := by omega
      refine ⟨new, LogprobsPass.fill { waiting with
          completedPrefillReqs := pass.completedPrefillReqs ++ [reqId]
          promptLogprobsDict := pass.promptLogprobsDict.set reqId tensors } reqId new,
        ?_, hcollected, ?_, ?_, ?_, ?_, ?_⟩
      · rw [hturn, LogprobsPass.retrieve, if_neg hmore]
        simp only [if_neg hnone, hnum, hfill]
        rfl
      · simp [LogprobsPass.fill]
      · rw [if_pos ⟨by omega, hlast⟩]
        simp [LogprobsPass.fill]
      · rw [if_pos hlast]
        rfl
      · intro other hne
        simp [LogprobsPass.fill, waiting, Dict.get?_set_of_ne, hne]
      · intro other hne
        simp [LogprobsPass.fill, Dict.get?_set_of_ne, hne]

end Collect

end VllmMlu.Worker
