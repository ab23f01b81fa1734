import VllmMlu.Worker.PromptLogprobs

/-! The prompt logprobs of one request over the steps of its life, next to any others. -/
namespace VllmMlu.Worker
open VllmMlu.Library Rows Paged
open VllmMlu.Sched

variable {Hidden Logits Logprobs Row : Type} {model : LogprobModel Hidden Logits Logprobs Row}
  {score : Hidden → Nat → Token → Row} {batch : LogprobsBatch Hidden}
  {state : PromptLogprobs Row}

/-- What the function needs of a request whose prompt logprobs are asked for: it is in the
batch, and its tensors have been made for its prompt. -/
def EntryReady (batch : LogprobsBatch Hidden) (state : PromptLogprobs Row) (reqId : ReqId) : Prop :=
  (∃ numTokens start, batch.numScheduledTokens reqId = some numTokens ∧
    batch.requests reqId = some ⟨none, start⟩) ∨
  ∃ promptTokenIds start numTokens offset,
    Served batch reqId promptTokenIds start numTokens offset ∧
      ∀ tensors, state.inProgress.get? reqId = some tensors →
        tensors.length = promptTokenIds.length - 1

/-- What the loop has done for `reqId` once its turn has been. -/
structure TurnDone (score : Hidden → Nat → Token → Row) (batch : LogprobsBatch Hidden)
    (state : PromptLogprobs Row) (promptTokenIds : List Token)
    (numPromptLogprobs start numTokens offset : Nat) (reqId : ReqId)
    (tensors : LogprobsTensors Row) (pass : LogprobsPass Row) : Prop where
  collected : Collected score batch promptTokenIds numPromptLogprobs start numTokens offset
    ((state.inProgress.get? reqId).getD (List.replicate (promptTokenIds.length - 1) none)) tensors
  inProgress : pass.inProgress.get? reqId = some tensors
  dict : pass.promptLogprobsDict.get? reqId =
    if start + 1 < promptTokenIds.length ∧ promptTokenIds.length ≤ start + numTokens then
      some tensors
    else none
  completed : reqId ∈ pass.completedPrefillReqs ↔ promptTokenIds.length ≤ start + numTokens

/-- The loop with the entries `remaining` still to come. -/
structure CollectInv (state : PromptLogprobs Row) (remaining : List (ReqId × Nat))
    (pass : LogprobsPass Row) : Prop where
  nodup : (remaining.map Prod.fst).Nodup
  untouched : ∀ entry ∈ remaining,
    pass.inProgress.get? entry.1 = state.inProgress.get? entry.1 ∧
      pass.promptLogprobsDict.get? entry.1 = none
  completed_nodup : pass.completedPrefillReqs.Nodup
  completed : ∀ reqId ∈ pass.completedPrefillReqs, reqId ∈ state.numPromptLogprobs.keys ∧
    reqId ∈ pass.inProgress.keys ∧ reqId ∉ remaining.map Prod.fst

theorem Served.unique {reqId : ReqId} {left right : List Token}
    {leftStart rightStart leftNum rightNum leftOffset rightOffset : Nat}
    (one : Served batch reqId left leftStart leftNum leftOffset)
    (other : Served batch reqId right rightStart rightNum rightOffset) :
    left = right ∧ leftStart = rightStart ∧ leftNum = rightNum ∧ leftOffset = rightOffset := by
  have hrequest := one.request.symm.trans other.request
  have hnum := one.scheduled.symm.trans other.scheduled
  obtain ⟨row, hrow, hoffset⟩ := one.placed
  obtain ⟨otherRow, hotherRow, hotherOffset⟩ := other.placed
  cases hrow.symm.trans hotherRow
  cases hrequest
  cases hnum
  cases hoffset.symm.trans hotherOffset
  exact ⟨rfl, rfl, rfl, rfl⟩

/-- One turn of the loop, for any request. -/
theorem CollectInv.turn (rowWise : model.RowWise score) {entry : ReqId × Nat}
    {rest : List (ReqId × Nat)} {pass : LogprobsPass Row}
    (inv : CollectInv state (entry :: rest) pass)
    (hentry : entry ∈ state.numPromptLogprobs.entries) (ready : EntryReady batch state entry.1) :
    ∃ next, collectPromptLogprobs model batch pass entry = .ok next ∧
      CollectInv state rest next ∧ OthersKept pass next entry.1 ∧
      (∀ other, other ≠ entry.1 →
        (other ∈ next.completedPrefillReqs ↔ other ∈ pass.completedPrefillReqs)) ∧
      ∀ promptTokenIds start numTokens offset,
        Served batch entry.1 promptTokenIds start numTokens offset →
          ∃ tensors, TurnDone score batch state promptTokenIds entry.2 start numTokens offset
            entry.1 tensors next := by
  obtain ⟨reqId, num⟩ := entry
  obtain ⟨hkept, hfresh⟩ := inv.untouched (reqId, num) List.mem_cons_self
  have hnodup := inv.nodup
  rw [List.map_cons, List.nodup_cons] at hnodup
  have hrest : ∀ other ∈ pass.completedPrefillReqs, other ∉ rest.map Prod.fst := by
    intro other hmem hin
    exact (inv.completed other hmem).2.2 (List.mem_cons_of_mem _ hin)
  have hnew : reqId ∉ pass.completedPrefillReqs := by
    intro hmem
    exact (inv.completed reqId hmem).2.2 List.mem_cons_self
  rcases ready with ⟨numTokens, start, hscheduled, hrequest⟩ |
    ⟨promptTokenIds, start, numTokens, offset, served, hlength⟩
  · refine ⟨pass, ?_, ⟨hnodup.2, ?_, inv.completed_nodup, ?_⟩, ⟨fun _ _ => rfl, fun _ _ => rfl⟩,
      fun _ _ => Iff.rfl, ?_⟩
    · simp only [collectPromptLogprobs, hscheduled, hrequest, orRaise]
      rfl
    · intro other hmem
      exact inv.untouched other (List.mem_cons_of_mem _ hmem)
    · intro other hmem
      exact ⟨(inv.completed other hmem).1, (inv.completed other hmem).2.1, hrest other hmem⟩
    · intro promptTokenIds start numTokens offset served
      have := hrequest.symm.trans served.request
      cases this
  · have hsame : pass.tensorsOf reqId promptTokenIds = (state.inProgress.get? reqId).getD
        (List.replicate (promptTokenIds.length - 1) none) := by
      rw [LogprobsPass.tensorsOf, hkept]
    have hready : (pass.tensorsOf reqId promptTokenIds).length = promptTokenIds.length - 1 := by
      rw [hsame]
      cases htensors : state.inProgress.get? reqId with
      | some tensors => exact hlength tensors htensors
      | none => simp
    obtain ⟨tensors, next, hnext, hcollected, hprogress, hdict, hcompleted, hothers⟩ :=
      collectPromptLogprobs_eq num rowWise served hready hfresh
    have hmem : ∀ other, other ∈ next.completedPrefillReqs ↔
        other ∈ pass.completedPrefillReqs ∨
          other = reqId ∧ promptTokenIds.length ≤ start + numTokens := by
      intro other
      rw [hcompleted]
      split
      · rename_i hlast
        simp [hlast]
      · rename_i hmore
        simp [hmore]
    refine ⟨next, hnext, ⟨hnodup.2, ?_, ?_, ?_⟩, hothers, ?_, ?_⟩
    · intro other hin
      have hne : other.1 ≠ reqId := by
        intro heq
        exact hnodup.1 (List.mem_map.mpr ⟨other, hin, heq⟩)
      rw [hothers.inProgress _ hne, hothers.dict _ hne]
      exact inv.untouched other (List.mem_cons_of_mem _ hin)
    · rw [hcompleted]
      split
      · rw [List.nodup_append]
        refine ⟨inv.completed_nodup, List.nodup_singleton _, ?_⟩
        intro other hin last hlast heq
        rw [List.mem_singleton] at hlast
        rw [heq, hlast] at hin
        exact hnew hin
      · exact inv.completed_nodup
    · intro other hin
      rcases (hmem other).mp hin with hold | ⟨rfl, _⟩
      · obtain ⟨hnum, hkeys, _⟩ := inv.completed other hold
        refine ⟨hnum, ?_, hrest other hold⟩
        have hne : other ≠ reqId := fun heq => hnew (heq ▸ hold)
        rw [Dict.mem_keys_iff] at hkeys ⊢
        rwa [hothers.inProgress _ hne]
      · exact ⟨List.mem_map_of_mem (f := Prod.fst) hentry, Dict.mem_keys_of_get? hprogress,
          hnodup.1⟩
    · intro other hne
      rw [hmem other]
      simp [hne]
    · intro prompt first count row other
      obtain ⟨rfl, rfl, rfl, rfl⟩ := served.unique other
      refine ⟨tensors, hsame ▸ hcollected, hprogress, hdict, ?_⟩
      rw [hmem reqId]
      simp [hnew]

/-- The loop as the request `reqId` sees it, before its turn and after. -/
structure RequestInv (score : Hidden → Nat → Token → Row) (batch : LogprobsBatch Hidden)
    (state : PromptLogprobs Row) (reqId : ReqId) (remaining : List (ReqId × Nat))
    (pass : LogprobsPass Row) : Prop where
  entries : ∀ entry ∈ remaining, entry ∈ state.numPromptLogprobs.entries
  loop : CollectInv state remaining pass
  before : (∀ num, (reqId, num) ∈ state.numPromptLogprobs.entries → (reqId, num) ∈ remaining) →
    pass.inProgress.get? reqId = state.inProgress.get? reqId ∧
      pass.promptLogprobsDict.get? reqId = none ∧ reqId ∉ pass.completedPrefillReqs
  after : ∀ num, (reqId, num) ∈ state.numPromptLogprobs.entries → (reqId, num) ∉ remaining →
    ∀ promptTokenIds start numTokens offset,
      Served batch reqId promptTokenIds start numTokens offset →
        ∃ tensors, TurnDone score batch state promptTokenIds num start numTokens offset reqId
          tensors pass

theorem RequestInv.turn (rowWise : model.RowWise score) {reqId : ReqId} {entry : ReqId × Nat}
    {rest : List (ReqId × Nat)} {pass : LogprobsPass Row}
    (ready : ∀ entry ∈ state.numPromptLogprobs.entries, EntryReady batch state entry.1)
    (inv : RequestInv score batch state reqId (entry :: rest) pass) :
    ∃ next, collectPromptLogprobs model batch pass entry = .ok next ∧
      RequestInv score batch state reqId rest next := by
  have hentry := inv.entries entry List.mem_cons_self
  obtain ⟨next, hnext, hloop, hothers, hcompleted, hdone⟩ :=
    inv.loop.turn rowWise hentry (ready entry hentry)
  refine ⟨next, hnext, fun other hmem => inv.entries other (List.mem_cons_of_mem _ hmem), hloop,
    ?_, ?_⟩
  · intro hwaiting
    obtain ⟨hprogress, hdict, hnotyet⟩ :=
      inv.before fun num hmem => List.mem_cons_of_mem _ (hwaiting num hmem)
    have hne : reqId ≠ entry.1 := by
      rintro rfl
      have hnodup := inv.loop.nodup
      rw [List.map_cons, List.nodup_cons] at hnodup
      exact hnodup.1 (List.mem_map_of_mem (f := Prod.fst) (hwaiting entry.2 hentry))
    rw [hothers.inProgress _ hne, hothers.dict _ hne, hcompleted _ hne]
    exact ⟨hprogress, hdict, hnotyet⟩
  · intro num hmem hnot promptTokenIds start numTokens offset served
    by_cases heq : (reqId, num) = entry
    · subst heq
      exact hdone promptTokenIds start numTokens offset served
    · have hne : reqId ≠ entry.1 := by
        rintro rfl
        have hsame := ((Dict.get?_eq_some_iff _ _ _).mpr hmem).symm.trans
          ((Dict.get?_eq_some_iff _ _ _).mpr hentry)
        exact heq (Prod.ext rfl (Option.some.inj hsame))
      obtain ⟨tensors, done⟩ := inv.after num hmem
        (by simp [heq, hnot]) promptTokenIds start numTokens offset served
      refine ⟨tensors, done.collected, ?_, ?_, ?_⟩
      · rw [hothers.inProgress _ hne, done.inProgress]
      · rw [hothers.dict _ hne, done.dict]
      · rw [hcompleted _ hne, done.completed]

/-- The deletions of completed requests, none of which is made twice. -/
theorem dropCompleted_all {completed : List ReqId} (hnodup : completed.Nodup)
    (hkeys : ∀ reqId ∈ completed,
      reqId ∈ state.numPromptLogprobs.keys ∧ reqId ∈ state.inProgress.keys) :
    ∃ next, completed.foldlM dropCompleted state = .ok next ∧
      ∀ reqId, (next.numPromptLogprobs.get? reqId =
          if reqId ∈ completed then none else state.numPromptLogprobs.get? reqId) ∧
        next.inProgress.get? reqId =
          if reqId ∈ completed then none else state.inProgress.get? reqId := by
  induction completed generalizing state with
  | nil => exact ⟨state, rfl, by simp⟩
  | cons head rest ih =>
      rw [List.nodup_cons] at hnodup
      obtain ⟨hnum, hprogress⟩ := hkeys head List.mem_cons_self
      obtain ⟨next, hnext, hget⟩ := @ih
        ⟨state.numPromptLogprobs.pop head, state.inProgress.pop head⟩ hnodup.2 (by
          intro reqId hmem
          have hne : reqId ≠ head := fun heq => hnodup.1 (heq ▸ hmem)
          obtain ⟨hone, hother⟩ := hkeys reqId (List.mem_cons_of_mem _ hmem)
          simp [hne, hone, hother])
      refine ⟨next, ?_, ?_⟩
      · rw [List.foldlM_cons, dropCompleted, if_pos ⟨hnum, hprogress⟩]
        exact hnext
      · intro reqId
        obtain ⟨hfirst, hsecond⟩ := hget reqId
        rw [hfirst, hsecond]
        by_cases hhead : reqId = head
        · subst hhead
          simp
        · simp [hhead, Dict.get?_pop_of_ne]

/-- A call of the function, as the request `reqId` sees it. -/
theorem getPromptLogprobsDict_spec (rowWise : model.RowWise score) (reqId : ReqId)
    (ready : ∀ entry ∈ state.numPromptLogprobs.entries, EntryReady batch state entry.1) :
    ∃ dict next, getPromptLogprobsDict model batch state = .ok (dict, next) ∧
      (state.numPromptLogprobs.get? reqId = none →
        dict.get? reqId = none ∧ next.numPromptLogprobs.get? reqId = none ∧
          next.inProgress.get? reqId = state.inProgress.get? reqId) ∧
      ∀ num, state.numPromptLogprobs.get? reqId = some num →
        ∀ promptTokenIds start numTokens offset,
          Served batch reqId promptTokenIds start numTokens offset →
          ∃ tensors, Collected score batch promptTokenIds num start numTokens offset
              ((state.inProgress.get? reqId).getD
                (List.replicate (promptTokenIds.length - 1) none)) tensors ∧
            (promptTokenIds.length ≤ start + numTokens →
              next.numPromptLogprobs.get? reqId = none ∧ next.inProgress.get? reqId = none ∧
                dict.get? reqId =
                  if start + 1 < promptTokenIds.length then some tensors else none) ∧
            (start + numTokens < promptTokenIds.length →
              next.numPromptLogprobs.get? reqId = some num ∧
                next.inProgress.get? reqId = some tensors ∧ dict.get? reqId = none) := by
  have hstart : RequestInv score batch state reqId state.numPromptLogprobs.entries
      ({ inProgress := state.inProgress } : LogprobsPass Row) :=
    ⟨fun _ hmem => hmem, ⟨state.numPromptLogprobs.nodup, fun _ _ => ⟨rfl, rfl⟩,
      List.nodup_nil, fun _ hmem => absurd hmem List.not_mem_nil⟩,
      fun _ => ⟨rfl, rfl, List.not_mem_nil⟩, fun _ hmem hnot => absurd hmem hnot⟩
  obtain ⟨pass, hpass, inv⟩ := foldlM_returns hstart
    fun entry rest pass inv => inv.turn rowWise ready
  have hkeys : ∀ other ∈ pass.completedPrefillReqs,
      other ∈ ({ state with inProgress := pass.inProgress } :
          PromptLogprobs Row).numPromptLogprobs.keys ∧
        other ∈ pass.inProgress.keys :=
    fun other hmem => ⟨(inv.loop.completed other hmem).1, (inv.loop.completed other hmem).2.1⟩
  obtain ⟨next, hnext, hget⟩ := dropCompleted_all inv.loop.completed_nodup hkeys
  have hcall : getPromptLogprobsDict model batch state = .ok (pass.promptLogprobsDict, next) := by
    simp only [getPromptLogprobsDict, hpass]
    change (List.foldlM dropCompleted _ pass.completedPrefillReqs >>= _) = _
    rw [hnext]
    rfl
  obtain ⟨hnum, hprogress⟩ := hget reqId
  refine ⟨pass.promptLogprobsDict, next, hcall, ?_, ?_⟩
  · intro hnone
    obtain ⟨hsame, hdict, hnot⟩ := inv.before fun num hmem => by
      rw [(Dict.get?_eq_some_iff _ _ _).mpr hmem] at hnone
      cases hnone
    rw [hnum, hprogress, if_neg hnot, if_neg hnot]
    exact ⟨hdict, hnone, hsame⟩
  · intro num hsome promptTokenIds start numTokens offset served
    obtain ⟨tensors, done⟩ := inv.after num ((Dict.get?_eq_some_iff _ _ _).mp hsome)
      List.not_mem_nil promptTokenIds start numTokens offset served
    refine ⟨tensors, done.collected, ?_, ?_⟩
    · intro hlast
      rw [hnum, hprogress, if_pos (done.completed.mpr hlast), if_pos (done.completed.mpr hlast),
        done.dict]
      simp [hlast]
    · intro hmore
      have hnot : reqId ∉ pass.completedPrefillReqs := by
        intro hmem
        have := done.completed.mp hmem
        omega
      rw [hnum, hprogress, if_neg hnot, if_neg hnot, done.dict, if_neg (by omega)]
      exact ⟨hsome, done.inProgress, rfl⟩

/-- The life of one request whose prompt logprobs are asked for: its bookkeeping, its computed
tokens, those at the start of each step, and what has been returned for it. -/
structure LogprobsLife (Row : Type) where
  state : PromptLogprobs Row
  computed : Nat := 0
  starts : List Nat := []
  delivered : List (LogprobsTensors Row) := []

/-- A step of the runner. The bookkeeping of other requests may have changed before it. -/
structure LogprobsCall (Hidden Row : Type) where
  batch : LogprobsBatch Hidden
  state : PromptLogprobs Row

def logprobsMachine (model : LogprobModel Hidden Logits Logprobs Row) (reqId : ReqId) :
    Machine (LogprobsLife Row) (LogprobsCall Hidden Row) Error where
  step := fun life call => do
    let (dict, state) ← getPromptLogprobsDict model call.batch call.state
    return {
      state := state
      computed := life.computed + (call.batch.numScheduledTokens reqId).getD 0
      starts := life.starts ++ [life.computed]
      delivered := life.delivered ++ (dict.get? reqId).toList }

/-- The request has a chunk in the step, whose rows are the hidden states of its positions. -/
structure LogprobsStep (hidden : Nat → Hidden) (reqId : ReqId) (promptTokenIds : List Token)
    (life : LogprobsLife Row) (call : LogprobsCall Hidden Row) : Prop where
  num : call.state.numPromptLogprobs.get? reqId = life.state.numPromptLogprobs.get? reqId
  inProgress : call.state.inProgress.get? reqId = life.state.inProgress.get? reqId
  ready : ∀ entry ∈ call.state.numPromptLogprobs.entries, entry.1 ≠ reqId →
    EntryReady call.batch call.state entry.1
  served : ∃ numTokens offset,
    Served call.batch reqId promptTokenIds life.computed numTokens offset ∧
      ∀ j < numTokens, call.batch.hiddenStates[offset + j]? = some (hidden (life.computed + j))

/-- The entries before position `count` come from the logits of their positions. -/
def Scored (score : Hidden → Nat → Token → Row) (hidden : Nat → Hidden)
    (promptTokenIds : List Token) (numPromptLogprobs count : Nat)
    (tensors : LogprobsTensors Row) : Prop :=
  tensors.length = promptTokenIds.length - 1 ∧
    ∀ i < count, i + 1 < promptTokenIds.length →
      ∃ token, promptTokenIds[i + 1]? = some token ∧
        tensors[i]? = some (some (score (hidden i) numPromptLogprobs token))

/-- The bookkeeping grows with the prefill, and with its end everything is settled. -/
structure LifeInv (score : Hidden → Nat → Token → Row) (hidden : Nat → Hidden) (reqId : ReqId)
    (promptTokenIds : List Token) (num : Nat) (life : LogprobsLife Row) : Prop where
  starts : ∀ start ∈ life.starts, start < life.computed
  collecting : life.computed < promptTokenIds.length →
    life.state.numPromptLogprobs.get? reqId = some num ∧ life.delivered = [] ∧
      Scored score hidden promptTokenIds num life.computed
        ((life.state.inProgress.get? reqId).getD (List.replicate (promptTokenIds.length - 1) none))
  settled : promptTokenIds.length ≤ life.computed →
    life.state.numPromptLogprobs.get? reqId = none ∧ life.state.inProgress.get? reqId = none ∧
      (promptTokenIds.length - 1 ∈ life.starts → life.delivered = []) ∧
      (promptTokenIds.length - 1 ∉ life.starts → ∃ tensors, life.delivered = [tensors] ∧
        Scored score hidden promptTokenIds num promptTokenIds.length tensors)

section Life

variable {hidden : Nat → Hidden} {reqId : ReqId} {promptTokenIds : List Token} {num : Nat}
  {life : LogprobsLife Row} {call : LogprobsCall Hidden Row}

theorem LogprobsStep.allReady (step : LogprobsStep hidden reqId promptTokenIds life call)
    (inv : LifeInv score hidden reqId promptTokenIds num life) :
    ∀ entry ∈ call.state.numPromptLogprobs.entries, EntryReady call.batch call.state entry.1 := by
  intro entry hmem
  by_cases hne : entry.1 = reqId
  · obtain ⟨numTokens, offset, served, _⟩ := step.served
    refine .inr ⟨promptTokenIds, life.computed, numTokens, offset, hne ▸ served, ?_⟩
    intro tensors htensors
    rw [hne, step.inProgress] at htensors
    by_cases hmore : life.computed < promptTokenIds.length
    · have hlength := (inv.collecting hmore).2.2.1
      rwa [htensors] at hlength
    · have := (inv.settled (by omega)).2.1
      rw [htensors] at this
      cases this
  · exact step.ready entry hmem hne

/-- The tensors of this step hold the positions before it and those of its chunk. -/
theorem Collected.scored {batch : LogprobsBatch Hidden} {start numTokens offset : Nat}
    {old new : LogprobsTensors Row}
    (collected : Collected score batch promptTokenIds num start numTokens offset old new)
    (hidden_eq : ∀ j < numTokens, batch.hiddenStates[offset + j]? = some (hidden (start + j)))
    (scored : Scored score hidden promptTokenIds num start old) :
    Scored score hidden promptTokenIds num (start + numTokens) new := by
  refine ⟨collected.length, ?_⟩
  intro i hi hprompt
  by_cases hbefore : i < start
  · rw [collected.kept i (by omega)]
    exact scored.2 i hbefore hprompt
  · obtain ⟨state, token, hstate, htoken, hentry⟩ :=
      collected.filled i (by omega) hi hprompt
    have hposition : start + (i - start) = i := by omega
    rw [hidden_eq (i - start) (by omega), hposition] at hstate
    cases hstate
    exact ⟨token, htoken, hentry⟩

theorem LogprobsStep.keeps (rowWise : model.RowWise score)
    (step : LogprobsStep hidden reqId promptTokenIds life call)
    (inv : LifeInv score hidden reqId promptTokenIds num life) :
    ∃ next, (logprobsMachine model reqId).step life call = .ok next ∧
      LifeInv score hidden reqId promptTokenIds num next := by
  obtain ⟨numTokens, offset, served, hidden_eq⟩ := step.served
  obtain ⟨dict, state, hcall, hidle, hbusy⟩ :=
    getPromptLogprobsDict_spec rowWise reqId (step.allReady inv)
  have hpos := served.positive
  have hnext : (logprobsMachine model reqId).step life call = .ok
      { state := state
        computed := life.computed + numTokens
        starts := life.starts ++ [life.computed]
        delivered := life.delivered ++ (dict.get? reqId).toList } := by
    simp only [logprobsMachine, hcall, served.scheduled]
    rfl
  refine ⟨_, hnext, ?_⟩
  have hstarts : ∀ start ∈ life.starts ++ [life.computed], start < life.computed + numTokens := by
    intro start hmem
    rcases List.mem_append.mp hmem with hold | hlast
    · have := inv.starts start hold
      omega
    · rw [List.mem_singleton] at hlast
      omega
  by_cases hmore : life.computed < promptTokenIds.length
  · obtain ⟨hnum, hdelivered, hscored⟩ := inv.collecting hmore
    obtain ⟨tensors, hcollected, hlast, hchunk⟩ :=
      hbusy num (step.num.trans hnum) promptTokenIds life.computed numTokens offset served
    rw [step.inProgress] at hcollected
    have hnew := hcollected.scored hidden_eq hscored
    refine ⟨hstarts, ?_, ?_⟩
    · intro hcollecting
      obtain ⟨hnumNext, hprogress, hdict⟩ := hchunk hcollecting
      refine ⟨hnumNext, ?_, ?_⟩
      · simp only [hdelivered, hdict, Option.toList_none, List.append_nil]
      · simpa only [hprogress, Option.getD_some] using hnew
    · intro hsettled
      obtain ⟨hnumNext, hprogress, hdict⟩ := hlast hsettled
      refine ⟨hnumNext, hprogress, ?_, ?_⟩
      · intro hmem
        have hstart : promptTokenIds.length - 1 = life.computed := by
          rcases List.mem_append.mp hmem with hold | hlast
          · have := inv.starts _ hold
            omega
          · exact List.mem_singleton.mp hlast
        rw [if_neg (by omega)] at hdict
        simp only [hdelivered, hdict, Option.toList_none, List.append_nil]
      · intro hnot
        have hstart : life.computed ≠ promptTokenIds.length - 1 := by
          intro heq
          exact hnot (List.mem_append_right _ (List.mem_singleton.mpr heq.symm))
        rw [if_pos (by omega)] at hdict
        refine ⟨tensors, ?_, hnew.1, ?_⟩
        · simp only [hdelivered, hdict, Option.toList_some, List.nil_append]
        · intro i hi hprompt
          exact hnew.2 i (lt_of_lt_of_le hi hsettled) hprompt
  · obtain ⟨hnum, hprogress, hmissed, honce⟩ := inv.settled (by omega)
    obtain ⟨hdict, hnumNext, hkept⟩ := hidle (step.num.trans hnum)
    have hstart : promptTokenIds.length - 1 ∈ life.starts ++ [life.computed] ↔
        promptTokenIds.length - 1 ∈ life.starts := by
      have := served.prompt
      rw [List.mem_append, List.mem_singleton]
      constructor
      · rintro (hold | hlast)
        · exact hold
        · omega
      · exact Or.inl
    refine ⟨hstarts, fun hcollecting => ?_, fun _ => ⟨hnumNext, ?_, ?_, ?_⟩⟩
    · have hle : promptTokenIds.length ≤ life.computed := by omega
      exact absurd hcollecting (by simp only; omega)
    · rw [hkept, step.inProgress, hprogress]
    · intro hmem
      simp only [hdict, Option.toList_none, List.append_nil]
      exact hmissed (hstart.mp hmem)
    · intro hnot
      simp only [hdict, Option.toList_none, List.append_nil]
      exact honce fun hmem => hnot (hstart.mpr hmem)

/-- Over the steps of a request's life nothing is returned before the end of its prompt;
then its prompt logprobs have been returned in one step, with every row from the logits of
its position, exactly if no step started one token before the end of the prompt. -/
theorem prompt_logprobs_once_iff (rowWise : model.RowWise score)
    (hprompt : 2 ≤ promptTokenIds.length) {state : PromptLogprobs Row}
    (hnum : state.numPromptLogprobs.get? reqId = some num)
    (hfresh : state.inProgress.get? reqId = none)
    (run : (logprobsMachine model reqId).Run (LogprobsStep hidden reqId promptTokenIds)
      { state := state } life) :
    (∀ call, LogprobsStep hidden reqId promptTokenIds life call →
      ∃ next, (logprobsMachine model reqId).step life call = .ok next) ∧
    (life.computed < promptTokenIds.length → life.delivered = []) ∧
    (promptTokenIds.length ≤ life.computed →
      (((∃ tensors, life.delivered = [tensors] ∧ tensors.length = promptTokenIds.length - 1 ∧
          ∀ i, i + 1 < promptTokenIds.length → ∃ token, promptTokenIds[i + 1]? = some token ∧
            tensors[i]? = some (some (score (hidden i) num token))) ∧
        life.state.numPromptLogprobs.get? reqId = none ∧
          life.state.inProgress.get? reqId = none) ↔
      promptTokenIds.length - 1 ∉ life.starts)) := by
  have hstart : LifeInv score hidden reqId promptTokenIds num
      ({ state := state } : LogprobsLife Row) := by
    refine ⟨fun _ hmem => absurd hmem List.not_mem_nil, fun _ => ⟨hnum, rfl, ?_, ?_⟩, ?_⟩
    · rw [hfresh]
      simp
    · intro i hi
      exact absurd hi (Nat.not_lt_zero i)
    · intro hle
      have : promptTokenIds.length ≤ 0 := hle
      omega
  have inv : LifeInv score hidden reqId promptTokenIds num life := by
    apply run.invariant hstart
    intro before call after hinv step hafter
    obtain ⟨next, hnext, hkept⟩ := step.keeps rowWise hinv
    cases hnext.symm.trans hafter
    exact hkept
  refine ⟨fun call step => ?_, fun hmore => (inv.collecting hmore).2.1, fun hend => ?_⟩
  · obtain ⟨next, hnext, _⟩ := step.keeps rowWise inv
    exact ⟨next, hnext⟩
  · obtain ⟨hnone, hempty, hmissed, honce⟩ := inv.settled hend
    constructor
    · rintro ⟨⟨tensors, hdelivered, _⟩, _⟩ hmem
      rw [hmissed hmem] at hdelivered
      cases hdelivered
    · intro hnot
      obtain ⟨tensors, hdelivered, hlength, hscored⟩ := honce hnot
      exact ⟨⟨tensors, hdelivered, hlength, fun i hi => hscored i (by omega) hi⟩, hnone, hempty⟩

end Life

/-- A model whose hidden states are positions, each scored by itself. -/
def positionModel : LogprobModel Nat Nat Nat (Nat × Nat × Token) where
  computeLogits := id
  computeLogprobs := id
  gatherLogprobs := fun logprobs num tokens =>
    List.zipWith (fun position token => (position, num, token)) logprobs tokens

theorem positionModel_rowWise :
    positionModel.RowWise fun position num token => (position, num, token) :=
  fun _ _ _ _ => rfl

/-- Request 0 alone, with a chunk from `start` on. -/
def soleBatch (promptTokenIds : List Token) (start numTokens : Nat) : LogprobsBatch Nat where
  numScheduledTokens := fun reqId => if reqId = 0 then some numTokens else none
  requests := fun reqId => if reqId = 0 then some ⟨some promptTokenIds, start⟩ else none
  reqIdToIndex := fun reqId => if reqId = 0 then some 0 else none
  queryStartLoc := [0, numTokens]
  hiddenStates := (List.range numTokens).map (start + ·)

def askedState : PromptLogprobs (Nat × Nat × Token) :=
  ⟨Dict.empty.set 0 3, .empty⟩

theorem soleBatch_step (numTokens : Nat) {promptTokenIds : List Token}
    {life : LogprobsLife (Nat × Nat × Token)} (hprompt : 0 < promptTokenIds.length)
    (hpos : 0 < numTokens) (hsole : ∀ entry ∈ life.state.numPromptLogprobs.entries, entry.1 = 0) :
    LogprobsStep id 0 promptTokenIds life
      ⟨soleBatch promptTokenIds life.computed numTokens, life.state⟩ where
  num := rfl
  inProgress := rfl
  ready := fun entry hmem hne => absurd (hsole entry hmem) hne
  served := by
    refine ⟨numTokens, 0, ⟨rfl, hpos, rfl, hprompt, ⟨0, rfl, rfl⟩, by simp [soleBatch]⟩, ?_⟩
    intro j hj
    simp [soleBatch, hj]

/-- A prompt of two tokens in two chunks: its logprobs are never returned. -/
theorem two_chunks_lose_logprobs :
    ∃ life, (logprobsMachine positionModel 0).Run (LogprobsStep id 0 [7, 8])
        { state := askedState } life ∧
      life.computed = 2 ∧ life.delivered = [] :=
  ⟨_, (Machine.Run.refl.step (soleBatch_step 1 (by decide) (by decide) (by decide)) rfl).step
    (soleBatch_step 1 (by decide) (by decide) (by decide)) rfl, rfl, rfl⟩

/-- A prompt of three tokens in chunks of one and two. -/
theorem prompt_logprobs_once_three :
    ∃ life, (logprobsMachine positionModel 0).Run (LogprobsStep id 0 [7, 8, 9])
        { state := askedState } life ∧
      ∃ tensors, life.delivered = [tensors] ∧ tensors[1]? = some (some (1, 3, 9)) := by
  have hfirst : LogprobsStep id 0 [7, 8, 9] { state := askedState }
      ⟨soleBatch [7, 8, 9] 0 1, askedState⟩ :=
    soleBatch_step 1 (by decide) (by decide) (by decide)
  have hchunk : ∃ life, (logprobsMachine positionModel 0).Run (LogprobsStep id 0 [7, 8, 9])
      { state := askedState } life ∧ life.computed = 3 ∧ life.starts = [0, 1] :=
    ⟨_, (Machine.Run.refl.step hfirst rfl).step
      (soleBatch_step 2 (by decide) (by decide) (by decide)) rfl, rfl, rfl⟩
  obtain ⟨life, run, hcomputed, hstarts⟩ := hchunk
  obtain ⟨_, _, hend⟩ := prompt_logprobs_once_iff positionModel_rowWise (by decide) rfl rfl run
  obtain ⟨⟨tensors, hdelivered, _, hscored⟩, _⟩ := (hend (by simp [hcomputed])).mpr (by simp [hstarts])
  obtain ⟨token, htoken, hentry⟩ := hscored 1 (by decide)
  cases htoken
  exact ⟨_, run, tensors, hdelivered, hentry⟩

end VllmMlu.Worker
