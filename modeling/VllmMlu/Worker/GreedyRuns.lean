import VllmMlu.Library.Speculation
import VllmMlu.Worker.PagedTracking

/-! Greedy sampling over whole runs: whatever is scheduled, preempted or drafted, every request
gets the tokens of decoding one token at a time. -/
namespace VllmMlu.Worker
open VllmMlu.Library VllmMlu.Library.Cuts VllmMlu.Library.Packed VllmMlu.Library.Speculation
  VllmMlu.Sched

variable {Slot κ η : Type} {layout : BlockLayout Slot} {model : CausalModel Token κ η}
  {cfg : RunnerConfig} {helpers : InputHelpers Slot} {forward : ForwardPass Slot κ η}
  {output : SchedulerOutput} {reqIds : List ReqId} {sampled : List (List Token)}
  {pick : η → Token}

/-- The token that the model gives behind the others. -/
def nextToken (model : CausalModel Token κ η) (pick : η → Token) (tokens : List Token) : Token :=
  (model.lastHidden tokens).elim 0 pick

/-- `rejection_greedy_sample_kernel` on one row: a draft is accepted where it is the token that is
picked in its place. -/
def greedyVerdict (pick : η → Token) (drafts : List Token) (hiddens : List η) : Verdict Token where
  drafts := drafts
  accepts pos := decide (drafts[pos]? = some (hiddens[pos]?.elim 0 pick))
  correction pos := hiddens[pos]?.elim 0 pick
  bonus := hiddens[drafts.length]?.elim 0 pick

/-- The tokens of the rows, whose hidden states stand one after another. -/
def sampleGreedy (pick : η → Token) (drafts : List (List Token)) (hiddens : List η) :
    List (List Token) :=
  List.zipWith (fun drafts hiddens => (greedyVerdict pick drafts hiddens).emitted) drafts
    ((drafts.map fun drafts => drafts.length + 1).splitLengths hiddens)

/-- What is sampled comes from the hidden states of the step. -/
def PagedTracking.SamplesGreedily (cfg : RunnerConfig) (helpers : InputHelpers Slot)
    (forward : ForwardPass Slot κ η) (pick : η → Token) (state : PagedTracking Slot κ) :
    TrackingEvent → Prop
  | .preempt _ => True
  | .step output reqIds sampled => ∀ result inputs hiddens,
      state.tracking.runner.step cfg helpers output reqIds sampled = .ok result →
      result.forward = some inputs →
      result.logitsIndices.mapM (pyIndex (forward inputs state.kvCache).2) = .ok hiddens →
      sampled = sampleGreedy pick (reqIds.map output.specTokens) hiddens

/-- The tokens that the request was given are those that decoding gives. -/
def KnownRequest.Decodes (model : CausalModel Token κ η) (pick : η → Token)
    (request : KnownRequest) : Prop :=
  request.emitted = decode (nextToken model pick) (request.prompt ++ request.received)
    request.emitted.length

/-! ### One request -/

section Request

variable {served : ReqId → Option KnownRequest} {request : KnownRequest} {id : ReqId}
  (grant : request.Grant cfg (scheduledOf output id) (output.specTokens id))
  (hserved : served id = some request)
  (hcomplete : request.tokens.length ≤ request.numComputedTokens + scheduledOf output id)
include grant hserved

theorem length_sampleHiddens :
    (sampleHiddens model served output id).length = (output.specTokens id).length + 1 := by
  have hdrafts := grant.drafts_lt
  rw [sampleHiddens, hserved, Option.elim_some, List.length_drop, CausalModel.length_hiddens,
    KnownRequest.length_computes grant]
  omega

include hcomplete

/-- The hidden states of a complete request are behind its tokens and its first drafts. -/
theorem getElem?_sampleHiddens {pos : Nat} (hpos : pos ≤ (output.specTokens id).length) :
    (sampleHiddens model served output id)[pos]? =
      model.lastHidden (request.tokens ++ (output.specTokens id).take pos) := by
  have hcomputed := grant.computed_lt
  have hplace : (request.tokens ++ output.specTokens id).length -
      ((output.specTokens id).length + 1) + pos + 1 = request.tokens.length + pos := by
    rw [List.length_append]
    omega
  rw [sampleHiddens, hserved, Option.elim_some, grant.computes_complete hcomplete,
    List.getElem?_drop, CausalModel.getElem?_hiddens, hplace, List.take_length_add_append]
  rw [List.length_append] at hplace ⊢
  omega

/-- What is emitted for a complete request is what decoding gives behind its tokens. -/
theorem emitted_greedyVerdict :
    (greedyVerdict pick (output.specTokens id) (sampleHiddens model served output id)).emitted =
      decode (nextToken model pick) request.tokens
        ((greedyVerdict pick (output.specTokens id)
          (sampleHiddens model served output id)).accepted + 1) := by
  have hhidden := fun pos hpos =>
    @getElem?_sampleHiddens κ η model cfg output served request id grant hserved hcomplete pos hpos
  apply emitted_eq_decode
  · exact fun _ _ => rfl
  · intro pos hpos
    change ((sampleHiddens model served output id)[pos]?).elim 0 pick = _
    rw [hhidden pos (Nat.le_of_lt hpos)]
    rfl
  · change ((sampleHiddens model served output id)[(output.specTokens id).length]?).elim 0 pick = _
    rw [hhidden _ le_rfl, List.take_length]
    rfl

end Request

theorem KnownRequest.Decodes.emit {request : KnownRequest} {ids : List Token}
    (decodes : request.Decodes model pick)
    (hids : ids = decode (nextToken model pick) request.tokens ids.length) :
    (request.emit ids).Decodes model pick := by
  have htokens : request.tokens = request.prompt ++ request.received ++ request.emitted := by
    rw [KnownRequest.tokens, KnownRequest.outputs, List.append_assoc]
  rw [Decodes] at decodes
  change request.emitted ++ ids = decode _ (request.prompt ++ request.received)
    (request.emitted ++ ids).length
  rw [List.length_append, decode_add, ← decodes, ← htokens, ← hids]

/-! ### Runs -/

/-- The tokens of a step, row by row. -/
theorem sampleGreedy_eq {state : Tracking} (tracks : state.Tracks cfg)
    (feeds : Feeds cfg state.served output reqIds sampled) :
    sampleGreedy pick (reqIds.map output.specTokens)
        (reqIds.flatMap (sampleHiddens model (renew state.served output) output)) =
      reqIds.map fun id => (greedyVerdict pick (output.specTokens id)
        (sampleHiddens model (renew state.served output) output id)).emitted := by
  have hlength : ∀ id ∈ reqIds,
      (sampleHiddens model (renew state.served output) output id).length =
        (output.specTokens id).length + 1 := by
    intro id hid
    obtain ⟨_, hrenew, -, grant⟩ := tracks.exists_renew feeds (feeds.order.subset hid)
    exact length_sampleHiddens grant hrenew
  rw [sampleGreedy, List.map_map, Function.comp_def, splitLengths_flatMap hlength,
    List.zipWith_map, List.zipWith_self]

/-- The requests that the scheduler goes on with have what decoding gives. -/
theorem decodes_of_renew {served : ReqId → Option KnownRequest}
    (decodes : ∀ id request, served id = some request → request.Decodes model pick) {id : ReqId}
    {request : KnownRequest} (hrenew : renew served output id = some request) :
    request.Decodes model pick := by
  rw [Worker.renew] at hrenew
  split at hrenew
  · cases hrenew
    rfl
  · split at hrenew
    · cases hrenew
    · split at hrenew
      all_goals
        obtain ⟨old, hserved, rfl⟩ := Option.map_eq_some_iff.mp hrenew
        exact decodes id old hserved

section Runs

variable {state : PagedTracking Slot κ}

theorem PagedTracking.decodes_step (documented : helpers.Documented layout.slotOf)
    (computes : forward.Computes layout model) {after : PagedTracking Slot κ}
    (tracks : state.tracking.Tracks cfg) (holds : state.Holds layout model)
    (feeds : Feeds cfg state.tracking.served output reqIds sampled)
    (places : Places layout model state output reqIds sampled)
    (samples : state.SamplesGreedily cfg helpers forward pick (.step output reqIds sampled))
    (hafter : (pagedTracking cfg helpers forward).step state (.step output reqIds sampled) =
      .ok after)
    (decodes : ∀ id request, state.tracking.served id = some request →
      request.Decodes model pick) :
    ∀ id request, after.tracking.served id = some request → request.Decodes model pick := by
  obtain ⟨result, hresult, serves, hiddens⟩ :=
    samples_from documented computes tracks holds feeds places
  obtain ⟨other, hother, hnext⟩ := bind_eq_ok.mp hafter
  cases hresult.symm.trans hother
  cases hnext
  have hfst := serves.map_fst_results feeds
  intro id request hcollect
  change collect _ result.results id = some request at hcollect
  by_cases hid : id ∈ reqIds
  · have hne : reqIds ≠ [] := List.ne_nil_of_mem hid
    have hforward := serves.forward
    rw [if_neg hne] at hforward
    have hsampled := samples result _ _ hresult hforward (hiddens _ hforward)
    rw [sampleGreedy_eq tracks feeds] at hsampled
    obtain ⟨ids, hmem, ⟨i, hi, hids⟩, -⟩ :=
      exists_result feeds places (renew state.tracking.served output) hid
    rw [hsampled, List.getElem?_map, hi] at hids
    cases hids
    obtain ⟨old, hrenew, -, grant⟩ := tracks.exists_renew feeds (feeds.order.subset hid)
    rw [← serves.results] at hmem
    rw [collect_of_mem (serves.nodup_results feeds) hmem, hrenew] at hcollect
    cases hcollect
    apply (decodes_of_renew decodes hrenew).emit
    dsimp only
    rw [completes_of_some hrenew]
    split
    · rename_i hcomplete
      rw [Verdict.length_emitted]
      exact emitted_greedyVerdict grant hrenew (of_decide_eq_true hcomplete)
    · rfl
  · rw [← hfst] at hid
    rw [collect_of_not_mem hid] at hcollect
    exact decodes_of_renew decodes hcollect

end Runs

/-! ### The prefill and the verification -/

namespace DraftRun

def pickToken (hidden : Int) : Token := if hidden = 56 then 7 else if hidden = 167 then 8 else 9

theorem prefill_samples : PagedTracking.SamplesGreedily config (.plain twoSlotBlocks.slotOf)
    DraftRun.forward pickToken {} (.step prefill [0] [[7]]) := by
  intro result inputs hiddens hresult hforward hhiddens
  have holds : PagedTracking.Holds twoSlotBlocks runningSums {} := by
    intro id request hserved
    cases hserved
  obtain ⟨other, hother, -, hfrom⟩ := PagedTracking.samples_from
    (InputHelpers.plain_documented twoSlotBlocks.slotOf) forward_computes tracks_start holds
    prefill_feeds prefill_places
  cases hresult.symm.trans hother
  cases hhiddens.symm.trans (hfrom inputs hforward)
  decide

theorem verification_samples {state : PagedTracking Nat Int}
    (tracks : state.tracking.Tracks config) (holds : state.Holds twoSlotBlocks runningSums)
    (hserved : state.tracking.served 0 = some request)
    (hothers : ∀ id, id ≠ 0 → state.tracking.served id = none) (hcomputed : state.computed 0 = 2) :
    state.SamplesGreedily config (.plain twoSlotBlocks.slotOf) DraftRun.forward pickToken
      (.step verification [0] [[8, 9]]) := by
  intro result inputs hiddens hresult hforward hhiddens
  obtain ⟨other, hother, -, hfrom⟩ := PagedTracking.samples_from
    (InputHelpers.plain_documented twoSlotBlocks.slotOf) forward_computes tracks holds
    (verification_feeds hserved) (verification_places hserved hothers hcomputed)
  cases hresult.symm.trans hother
  cases hhiddens.symm.trans (hfrom inputs hforward)
  rw [List.flatMap_singleton, sampleHiddens, renew_verification hserved]
  decide

end DraftRun

end VllmMlu.Worker
