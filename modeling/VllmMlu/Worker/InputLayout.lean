import VllmMlu.Worker.PrepareInputs

/-! Where each row of the batch stands in the flat arrays of `_prepare_inputs`. -/
namespace VllmMlu.Worker
open VllmMlu.Library VllmMlu.Library.Cuts VllmMlu.Library.Packed VllmMlu.Sched

variable {Slot : Type} {slotOf : KVCacheBlocks → Nat → Slot} {helpers : InputHelpers Slot}
  {cfg : RunnerConfig} {output : SchedulerOutput} {rows : List InputRow}

/-- Of each request the last tokens are drafts, and its logits start before the first of them. -/
structure SpecDecodeMetadata.Describes (metadata : SpecDecodeMetadata)
    (numDraftTokens nums : List Nat) (inputIds : List Token) : Prop where
  numDraftTokens_eq : metadata.numDraftTokens = numDraftTokens
  logitsIndices_eq : metadata.logitsIndices =
    ends (startLocs nums).tail (numDraftTokens.map (· + 1))
  draftTokenIds_eq : (ends (startLocs nums).tail numDraftTokens).mapM (fun i => inputIds[i]?) =
    some metadata.draftTokenIds
  targetLogitsIndices_eq : metadata.targetLogitsIndices =
    (List.zipWith List.range' (startLocs (numDraftTokens.map (· + 1))) numDraftTokens).flatten
  bonusLogitsIndices_eq : metadata.bonusLogitsIndices =
    (startLocs (numDraftTokens.map (· + 1))).tail.map (· - 1)

/-- What the helpers are documented to compute; `slotOf` is the slot of a position. -/
structure InputHelpers.Documented (helpers : InputHelpers Slot)
    (slotOf : KVCacheBlocks → Nat → Slot) : Prop where
  cumsum : ∀ nums, helpers.getCumsumAndArange nums = ((startLocs nums).tail, nums.flatMap List.range)
  slots : ∀ tables reqIndices positions, reqIndices.length = positions.length →
    (∀ reqIdx ∈ reqIndices, reqIdx < tables.length) → (∀ pos ∈ positions, 0 ≤ pos) →
    helpers.computeSlotMapping tables reqIndices positions =
      List.zipWith (fun reqIdx pos => slotOf (tables.getD reqIdx []) pos.toNat) reqIndices positions
  metadata : ∀ numDraftTokens nums inputIds, List.Forall₂ (· < ·) numDraftTokens nums →
    inputIds.length = nums.sum →
    (helpers.calcSpecDecodeMetadata numDraftTokens (startLocs nums).tail inputIds).Describes
      numDraftTokens nums inputIds

namespace InputRow

def computed (entry : InputRow) : Nat := entry.row.numComputedTokensCpu.toNat

/-- The positions of the scheduled tokens. -/
def positions (entry : InputRow) : List Nat :=
  List.range' entry.computed entry.numScheduledTokens

def inputIds (entry : InputRow) : List Token := entry.positions.map entry.row.tokenIdsCpu

/-- The row can be prepared. -/
structure Fits (cfg : RunnerConfig) (entry : InputRow) : Prop where
  computed_nonneg : 0 ≤ entry.row.numComputedTokensCpu
  scheduled_pos : 0 < entry.numScheduledTokens
  within : entry.computed + entry.numScheduledTokens ≤ cfg.maxModelLen

@[simp] theorem length_positions (entry : InputRow) :
    entry.positions.length = entry.numScheduledTokens := List.length_range'

@[simp] theorem length_inputIds (entry : InputRow) :
    entry.inputIds.length = entry.numScheduledTokens := by
  simp [inputIds]

theorem Fits.computed_eq {entry : InputRow} (fits : entry.Fits cfg) :
    (entry.computed : Int) = entry.row.numComputedTokensCpu :=
  Int.toNat_of_nonneg fits.computed_nonneg

end InputRow

theorem selectToken_eq {reqIdx pos : Nat} {entry : InputRow} (hrow : rows[reqIdx]? = some entry)
    (hpos : pos < cfg.maxModelLen) :
    selectToken cfg rows ((pos : Int) + (reqIdx * cfg.maxModelLen : Nat)) =
      .ok (entry.row.tokenIdsCpu pos) := by
  have hindex : ((pos : Int) + (reqIdx * cfg.maxModelLen : Nat)).toNat =
      pos + reqIdx * cfg.maxModelLen := by
    omega
  rw [selectToken, if_neg (by omega), hindex, Nat.add_mul_div_right _ _ (Nat.zero_lt_of_lt hpos),
    Nat.div_eq_of_lt hpos, Nat.zero_add, hrow, Nat.add_mul_mod_self_right, Nat.mod_eq_of_lt hpos]

theorem broadcast_eq {α : Type} {size : Nat} {values : List α} (h : values.length = size) :
    broadcast size values = .ok values := if_pos h

/-- One part for each row, at the index of the row. -/
theorem repeatEach_range (f : Nat → Nat) :
    (repeatEach (List.range rows.length) (rows.map InputRow.numScheduledTokens)).map f =
      rows.zipIdx.flatMap fun entry => List.replicate entry.1.numScheduledTokens (f entry.2) := by
  have hrange : (List.range rows.length).map f = rows.zipIdx.map fun entry => f entry.2 := by
    rw [List.range_eq_range', ← List.zipIdx_map_snd 0 rows, List.map_map]
    rfl
  have hnums : rows.map InputRow.numScheduledTokens =
      rows.zipIdx.map fun entry => entry.1.numScheduledTokens := by
    conv_lhs => rw [← List.zipIdx_map_fst 0 rows, List.map_map]
    rfl
  rw [map_repeatEach, hrange, hnums, repeatEach_map]

theorem zipWith_replicate_eq_map {α β γ : Type} (f : α → β → γ) (value : α) (values : List β) :
    List.zipWith f (List.replicate values.length value) values = values.map (f value) := by
  induction values with
  | nil => rfl
  | cons first rest ih => simp [List.replicate_succ, ih]

section Arrays

variable (hfits : ∀ entry ∈ rows, entry.Fits cfg)
include hfits

/-- The positions, which stand behind the computed tokens of their requests. -/
theorem positions_eq :
    List.zipWith (fun (start : Int) (offset : Nat) => start + (offset : Int))
        ((repeatEach (List.range rows.length) (rows.map InputRow.numScheduledTokens)).map
          fun reqIdx => (rows.map fun entry => entry.row.numComputedTokensCpu).getD reqIdx 0)
        ((rows.map InputRow.numScheduledTokens).flatMap List.range) =
      rows.flatMap fun entry => entry.positions.map Int.ofNat := by
  have hstarts : (repeatEach (List.range rows.length) (rows.map InputRow.numScheduledTokens)).map
        (fun reqIdx => (rows.map fun entry => entry.row.numComputedTokensCpu).getD reqIdx 0) =
      rows.flatMap fun entry =>
        List.replicate entry.numScheduledTokens entry.row.numComputedTokensCpu := by
    have hvalues := map_getD_range (rows.map fun entry => entry.row.numComputedTokensCpu) 0
    rw [List.length_map] at hvalues
    rw [map_repeatEach, hvalues, repeatEach_map]
  rw [hstarts, List.flatMap_map, zipWith_flatMap (by simp)]
  apply List.flatMap_congr
  intro entry hmem
  have hparts := zipWith_replicate_eq_map (fun (start : Int) (offset : Nat) => start + (offset : Int))
    entry.row.numComputedTokensCpu (List.range entry.numScheduledTokens)
  rw [List.length_range] at hparts
  rw [hparts, ← (hfits entry hmem).computed_eq, InputRow.positions, List.range'_eq_map_range,
    List.map_map]
  apply List.map_congr_left
  intro offset _
  simp

/-- The token ids are those at the positions of each row. -/
theorem inputIds_eq :
    (List.zipWith (fun (pos : Int) (offset : Nat) => pos + (offset : Int))
        (rows.flatMap fun entry => entry.positions.map Int.ofNat)
        ((repeatEach (List.range rows.length) (rows.map InputRow.numScheduledTokens)).map
          fun reqIdx => reqIdx * cfg.maxModelLen)).mapM (selectToken cfg rows) =
      .ok (rows.flatMap InputRow.inputIds) := by
  rw [repeatEach_range, ← flatMap_fst_zipIdx, ← flatMap_fst_zipIdx InputRow.inputIds,
    zipWith_flatMap (by simp)]
  apply mapM_flatMap_ok
  rintro ⟨entry, reqIdx⟩ hmem
  have hrow : rows[reqIdx]? = some entry := List.mem_zipIdx_iff_getElem?.mp hmem
  have hentry := hfits entry (List.mem_of_getElem? hrow)
  have hparts := zipWith_replicate_eq_map
    (fun (offset : Nat) (pos : Nat) => (pos : Int) + (offset : Int))
    (reqIdx * cfg.maxModelLen) entry.positions
  rw [InputRow.length_positions] at hparts
  rw [List.zipWith_map_left, List.zipWith_comm]
  rw [show (List.zipWith (fun (offset : Nat) (pos : Nat) => Int.ofNat pos + (offset : Int))
    (List.replicate entry.numScheduledTokens (reqIdx * cfg.maxModelLen)) entry.positions) = _ from
    hparts, List.mapM_map]
  apply mapM_ok_eq_map
  intro pos hpos
  rw [InputRow.positions, List.mem_range'_1] at hpos
  have := hentry.within
  exact selectToken_eq hrow (by omega)

end Arrays

theorem slotMapping_eq (documented : helpers.Documented slotOf) :
    helpers.computeSlotMapping (rows.map fun entry => entry.row.blockTable)
        (repeatEach (List.range rows.length) (rows.map InputRow.numScheduledTokens))
        (rows.flatMap fun entry => entry.positions.map Int.ofNat) =
      rows.flatMap fun entry => entry.positions.map (slotOf entry.row.blockTable) := by
  have hindices := @repeatEach_range rows id
  rw [List.map_id] at hindices
  have hlength : (repeatEach (List.range rows.length) (rows.map InputRow.numScheduledTokens)).length =
      (rows.flatMap fun entry => entry.positions.map Int.ofNat).length := by
    rw [length_repeatEach (by simp), List.length_flatMap]
    congr 1
    apply List.map_congr_left
    simp
  rw [documented.slots _ _ _ hlength]
  · rw [hindices, ← flatMap_fst_zipIdx fun entry : InputRow => entry.positions.map Int.ofNat,
      ← flatMap_fst_zipIdx fun entry : InputRow => entry.positions.map (slotOf entry.row.blockTable),
      zipWith_flatMap (by simp)]
    apply List.flatMap_congr
    rintro ⟨entry, reqIdx⟩ hmem
    have hrow : rows[reqIdx]? = some entry := List.mem_zipIdx_iff_getElem?.mp hmem
    have htable : (rows.map fun entry => entry.row.blockTable).getD reqIdx [] =
        entry.row.blockTable := by
      simp [hrow]
    have hparts := zipWith_replicate_eq_map
      (fun (i : Nat) (pos : Nat) => slotOf ((rows.map fun entry => entry.row.blockTable).getD i []) pos)
      reqIdx entry.positions
    rw [InputRow.length_positions, htable] at hparts
    rw [List.zipWith_map_right]
    exact hparts
  · intro reqIdx hmem
    rw [hindices, List.mem_flatMap] at hmem
    obtain ⟨⟨entry, other⟩, hentry, hreq⟩ := hmem
    have hlt := (List.getElem?_eq_some_iff.mp (List.mem_zipIdx_iff_getElem?.mp hentry)).1
    rw [List.eq_of_mem_replicate hreq, List.length_map]
    exact hlt
  · intro pos hmem
    rw [List.mem_flatMap] at hmem
    obtain ⟨entry, -, hpos⟩ := hmem
    obtain ⟨place, -, rfl⟩ := List.mem_map.mp hpos
    exact Int.natCast_nonneg place

/-! ### Drafts -/

/-- The drafts that are scheduled for the request of the row. -/
def InputRow.drafts (output : SchedulerOutput) (entry : InputRow) : List Token :=
  output.specTokens entry.reqId

/-- `num_decode_draft_tokens` of a row with so many drafts. -/
def InputRow.decodeDrafts (entry : InputRow) (numDrafts : Nat) : Int :=
  if (entry.row.numPromptTokens : Int) ≤ entry.row.numComputedTokensCpu then numDrafts else -1

/-- The counts change for the request of the item alone. -/
theorem set_map_of_findIdx? {α : Type} {f g : InputRow → α} {id : ReqId} {reqIdx : Nat}
    {entry : InputRow} (hnodup : (rows.map InputRow.reqId).Nodup)
    (hrow : rows[reqIdx]? = some entry) (hid : entry.reqId = id)
    (hother : ∀ other ∈ rows, other.reqId ≠ id → g other = f other) :
    (rows.map f).set reqIdx (g entry) = rows.map g := by
  apply List.ext_getElem?
  intro i
  rw [List.getElem?_set, List.length_map, List.getElem?_map, List.getElem?_map]
  have hlt := (List.getElem?_eq_some_iff.mp hrow).1
  split
  · rename_i heq
    rw [← heq, hrow]
    simp
  · rename_i hne
    cases hget : rows[i]? with
    | none => rfl
    | some other =>
        have hdiff : other.reqId ≠ id := by
          intro heq
          apply hne
          have hi := (List.getElem?_eq_some_iff.mp hget).1
          apply (List.getElem?_inj (by simpa using hlt) hnodup).mp
          simp [hrow, hget, hid, heq]
        simp [hother other (List.mem_of_getElem? hget) hdiff]

/-- The counts of each row are those of its item, or else the ones before. -/
theorem foldlM_countItem {items : List (ReqId × List Token)}
    (hnodup : (rows.map InputRow.reqId).Nodup) (hkeys : (items.map Prod.fst).Nodup)
    (hmem : ∀ item ∈ items, ∃ entry ∈ rows, entry.reqId = item.1) (count : InputRow → Nat)
    (decodeCount : InputRow → Int) :
    items.foldlM (countItem rows) (rows.map count, rows.map decodeCount) =
      .ok (rows.map fun entry => (Dict.find entry.reqId items).elim (count entry) List.length,
        rows.map fun entry => (Dict.find entry.reqId items).elim (decodeCount entry)
          fun drafts => entry.decodeDrafts drafts.length) := by
  induction items generalizing count decodeCount with
  | nil => rfl
  | cons item rest ih =>
      obtain ⟨hfirst, hkeys⟩ := List.nodup_cons.mp hkeys
      obtain ⟨entry, hentry, hid⟩ := hmem item List.mem_cons_self
      obtain ⟨reqIdx, hfound⟩ : ∃ reqIdx,
          rows.findIdx? (fun entry => entry.reqId == item.1) = some reqIdx := by
        apply Option.isSome_iff_exists.mp
        rw [List.findIdx?_isSome, List.any_eq_true]
        exact ⟨entry, hentry, by simp [hid]⟩
      obtain ⟨hlt, hfoundId, -⟩ := List.findIdx?_eq_some_iff_getElem.mp hfound
      have hrow : rows[reqIdx]? = some rows[reqIdx] := List.getElem?_eq_getElem hlt
      have hreq : rows[reqIdx].reqId = item.1 := by simpa using hfoundId
      have hcount := @set_map_of_findIdx? rows Nat count
        (fun other => if other.reqId = item.1 then item.2.length else count other) item.1 reqIdx
        rows[reqIdx] hnodup hrow hreq fun other _ hne => if_neg hne
      have hdecode := @set_map_of_findIdx? rows Int decodeCount
        (fun other => if other.reqId = item.1 then other.decodeDrafts item.2.length
          else decodeCount other) item.1 reqIdx
        rows[reqIdx] hnodup hrow hreq fun other _ hne => if_neg hne
      rw [if_pos hreq] at hcount hdecode
      have hitem : countItem rows (rows.map count, rows.map decodeCount) item =
          .ok (rows.map fun other => if other.reqId = item.1 then item.2.length else count other,
            rows.map fun other => if other.reqId = item.1 then other.decodeDrafts item.2.length
              else decodeCount other) := by
        rw [countItem, hfound, ← hcount, ← hdecode]
        simp [hrow, InputRow.decodeDrafts]
      have hlater : Dict.find item.1 rest = none := by
        cases hfind : Dict.find item.1 rest with
        | none => rfl
        | some drafts =>
            have hin := (Dict.find_eq_some_iff item.1 drafts rest hkeys).mp hfind
            exact absurd (List.mem_map_of_mem hin) hfirst
      rw [List.foldlM_cons, hitem]
      refine (ih hkeys (fun other hother => hmem other (List.mem_cons_of_mem _ hother)) _ _).trans ?_
      congr 2
      all_goals
        apply List.map_congr_left
        intro other _
        by_cases heq : other.reqId = item.1
        · simp [Dict.find, heq, hlater]
        · simp [Dict.find, heq, Ne.symm heq]

/-- The flat arrays of a step, of which `_prepare_inputs` fills the front. -/
structure PreparedInputs.LaysOut (prepared : PreparedInputs Slot)
    (slotOf : KVCacheBlocks → Nat → Slot) (output : SchedulerOutput) (rows : List InputRow) :
    Prop where
  inputIds_eq : prepared.inputIds = rows.flatMap InputRow.inputIds
  positions_eq : prepared.positions = rows.flatMap fun entry => entry.positions.map Int.ofNat
  slotMapping_eq : prepared.slotMapping =
    rows.flatMap fun entry => entry.positions.map (slotOf entry.row.blockTable)
  queryStartLoc_eq : prepared.queryStartLoc.take (rows.length + 1) =
    startLocs (rows.map InputRow.numScheduledTokens)
  seqLens_eq : prepared.seqLens.take rows.length =
    rows.map fun entry => ((entry.computed + entry.numScheduledTokens : Nat) : Int)
  discarded_iff : ∀ (reqIdx : Nat) (entry : InputRow), rows[reqIdx]? = some entry →
    (reqIdx ∈ prepared.discardRequestIndices ↔
      entry.computed + entry.numScheduledTokens < entry.numTokens)
  logitsIndices_eq : prepared.logitsIndices =
    (ends (startLocs (rows.map InputRow.numScheduledTokens)).tail
      (rows.map fun entry => (entry.drafts output).length + 1)).map Int.ofNat
  drafts_eq_nil : prepared.specDecodeMetadata = none → ∀ entry ∈ rows, entry.drafts output = []
  describes : ∀ metadata, prepared.specDecodeMetadata = some metadata →
    metadata.Describes (rows.map fun entry => (entry.drafts output).length)
      (rows.map InputRow.numScheduledTokens) prepared.inputIds

/-- The scheduler output goes with the rows. -/
structure SchedulerOutput.Covers (output : SchedulerOutput) (rows : List InputRow) : Prop where
  nodup : (rows.map InputRow.reqId).Nodup
  total : output.totalNumScheduledTokens = (rows.map InputRow.numScheduledTokens).sum
  drafts_lt : ∀ entry ∈ rows, (entry.drafts output).length < entry.numScheduledTokens
  drafts_mem : ∀ id ∈ output.scheduledSpecDecodeTokens.keys, ∃ entry ∈ rows, entry.reqId = id

section Drafts

variable (covers : SchedulerOutput.Covers output rows)
include covers

theorem countDrafts_eq :
    countDrafts rows output.scheduledSpecDecodeTokens.entries =
      .ok (rows.map fun entry => (entry.drafts output).length,
        rows.map fun entry => (output.scheduledSpecDecodeTokens.get? entry.reqId).elim (-1)
          fun drafts => entry.decodeDrafts drafts.length) := by
  have hmem : ∀ item ∈ output.scheduledSpecDecodeTokens.entries,
      ∃ entry ∈ rows, entry.reqId = item.1 :=
    fun item hitem => covers.drafts_mem item.1 (List.mem_map_of_mem hitem)
  have hfold := foldlM_countItem covers.nodup output.scheduledSpecDecodeTokens.nodup hmem
    (fun _ => 0) fun _ => -1
  rw [List.map_const', List.map_const'] at hfold
  rw [countDrafts, hfold]
  congr 2
  apply List.map_congr_left
  intro entry _
  rw [InputRow.drafts, SchedulerOutput.specTokens, Dict.get?]
  cases Dict.find entry.reqId output.scheduledSpecDecodeTokens.entries <;> rfl

theorem prepareDrafts_ok (documented : helpers.Documented slotOf) {inputIds : List Token}
    (hlength : inputIds.length = (rows.map InputRow.numScheduledTokens).sum) :
    ∃ drafted, prepareDrafts cfg helpers output rows
        (startLocs (rows.map InputRow.numScheduledTokens)).tail inputIds = .ok drafted ∧
      drafted.2.1 = (ends (startLocs (rows.map InputRow.numScheduledTokens)).tail
        (rows.map fun entry => (entry.drafts output).length + 1)).map Int.ofNat ∧
      (drafted.1 = none → ∀ entry ∈ rows, entry.drafts output = []) ∧
      ∀ metadata, drafted.1 = some metadata →
        metadata.Describes (rows.map fun entry => (entry.drafts output).length)
          (rows.map InputRow.numScheduledTokens) inputIds := by
  rw [prepareDrafts]
  split
  · rename_i hnone
    have hdrafts : ∀ entry ∈ rows, entry.drafts output = [] := by
      intro entry _
      rw [InputRow.drafts, SchedulerOutput.specTokens, Dict.get?, hnone]
      rfl
    have hones : (rows.map fun entry => (entry.drafts output).length + 1) =
        (rows.map InputRow.numScheduledTokens).map fun _ => 1 := by
      rw [List.map_map]
      apply List.map_congr_left
      intro entry hmem
      rw [hdrafts entry hmem]
      rfl
    refine ⟨_, rfl, ?_, fun _ => hdrafts, by simp⟩
    dsimp only
    rw [hones, startLocs, map_ends_one 0]
    intro num hmem
    obtain ⟨entry, hentry, rfl⟩ := List.mem_map.mp hmem
    exact Nat.zero_lt_of_lt (covers.drafts_lt entry hentry)
  · rw [countDrafts_eq covers]
    have hlt : List.Forall₂ (· < ·) (rows.map fun entry => (entry.drafts output).length)
        (rows.map InputRow.numScheduledTokens) := by
      rw [List.forall₂_map_left_iff, List.forall₂_map_right_iff, List.forall₂_same]
      exact covers.drafts_lt
    have hdescribes := documented.metadata _ _ inputIds hlt hlength
    refine ⟨_, rfl, ?_, by simp, ?_⟩
    · dsimp only
      rw [hdescribes.logitsIndices_eq, List.map_map]
      rfl
    · intro metadata heq
      cases heq
      exact hdescribes

end Drafts

theorem prepareInputs_ok (documented : helpers.Documented slotOf)
    (covers : SchedulerOutput.Covers output rows) (hfits : ∀ entry ∈ rows, entry.Fits cfg)
    (hne : rows ≠ []) :
    ∃ prepared, prepareInputs cfg helpers output rows = .ok prepared ∧
      prepared.LaysOut slotOf output rows := by
  have hsum : 0 < (rows.map InputRow.numScheduledTokens).sum := by
    obtain ⟨entry, rest, rfl⟩ := List.exists_cons_of_ne_nil hne
    have := (hfits entry List.mem_cons_self).scheduled_pos
    rw [List.map_cons, List.sum_cons]
    omega
  have hsize : output.totalNumScheduledTokens.toNat =
      (rows.map InputRow.numScheduledTokens).sum := by
    rw [covers.total, Int.toNat_natCast]
  have hindices : (repeatEach (List.range rows.length)
      (rows.map InputRow.numScheduledTokens)).length =
        (rows.map InputRow.numScheduledTokens).sum := length_repeatEach (by simp)
  have harange : ((rows.map InputRow.numScheduledTokens).flatMap List.range).length =
      (rows.map InputRow.numScheduledTokens).sum := by
    simp [List.length_flatMap, Function.comp_def]
  have hids : (rows.flatMap InputRow.inputIds).length =
      (rows.map InputRow.numScheduledTokens).sum := by
    simp [List.length_flatMap]
  obtain ⟨drafted, hdrafts, hlogits, hnone, hdescribes⟩ :=
    @prepareDrafts_ok Slot slotOf helpers cfg output rows covers documented _ hids
  unfold prepareInputs
  rw [if_neg (by rw [covers.total]; omega), if_neg hne]
  simp only [documented.cumsum, hsize]
  rw [broadcast_eq (by rw [List.length_map, hindices]), broadcast_eq harange,
    broadcast_eq (by rw [List.length_map, hindices])]
  have hlens : List.zipWith (fun (computed : Int) (count : Nat) => computed + (count : Int))
      (rows.map fun entry => entry.row.numComputedTokensCpu)
      (rows.map InputRow.numScheduledTokens) =
        rows.map fun entry => ((entry.computed + entry.numScheduledTokens : Nat) : Int) := by
    rw [List.zipWith_map, List.zipWith_self]
    apply List.map_congr_left
    intro entry hmem
    rw [Nat.cast_add, (hfits entry hmem).computed_eq]
  simp only [bind, Except.bind]
  rw [positions_eq hfits, inputIds_eq hfits, slotMapping_eq documented, hlens]
  dsimp only
  rw [hdrafts]
  refine ⟨_, rfl, rfl, rfl, rfl, ?_, ?_, ?_, hlogits, hnone, hdescribes⟩
  · dsimp only
    rw [cons_tail_startLocs, List.take_append_of_le_length (by simp),
      List.take_of_length_le (by simp)]
  · dsimp only
    rw [List.take_append_of_le_length (by simp), List.take_of_length_le (by simp)]
  · intro reqIdx entry hrow
    obtain ⟨hlt, rfl⟩ := List.getElem?_eq_some_iff.mp hrow
    simp [hlt]
    omega

/-! ### Helpers -/

/-- The helpers as they are documented. -/
def InputHelpers.plain (slotOf : KVCacheBlocks → Nat → Slot) : InputHelpers Slot where
  getCumsumAndArange nums := ((startLocs nums).tail, nums.flatMap List.range)
  computeSlotMapping tables reqIndices positions :=
    List.zipWith (fun reqIdx pos => slotOf (tables.getD reqIdx []) pos.toNat) reqIndices positions
  calcSpecDecodeMetadata numDraftTokens cuNumTokens inputIds := {
    draftTokenIds := ((ends cuNumTokens numDraftTokens).mapM fun i => inputIds[i]?).getD []
    numDraftTokens := numDraftTokens
    targetLogitsIndices := (List.zipWith List.range' (startLocs (numDraftTokens.map (· + 1)))
      numDraftTokens).flatten
    bonusLogitsIndices := (startLocs (numDraftTokens.map (· + 1))).tail.map (· - 1)
    logitsIndices := ends cuNumTokens (numDraftTokens.map (· + 1)) }

theorem InputHelpers.plain_documented (slotOf : KVCacheBlocks → Nat → Slot) :
    (plain slotOf).Documented slotOf where
  cumsum _ := rfl
  slots _ _ _ _ _ _ := rfl
  metadata numDraftTokens nums inputIds hlt hlength := by
    have hrows : (nums.splitLengths inputIds).map List.length = nums :=
      List.map_splitLengths_length inputIds nums (Nat.le_of_eq hlength.symm)
    have hflat : (nums.splitLengths inputIds).flatten = inputIds :=
      List.flatten_splitLengths inputIds nums (Nat.le_of_eq hlength)
    have hle : List.Forall₂ (· ≤ ·) numDraftTokens
        ((nums.splitLengths inputIds).map List.length) := by
      rw [hrows]
      exact hlt.imp fun _ _ => Nat.le_of_lt
    have hdrafts := mapM_ends hle
    rw [hrows, hflat] at hdrafts
    refine ⟨rfl, rfl, ?_, rfl, rfl⟩
    simp only [plain, hdrafts, Option.getD_some]

end VllmMlu.Worker
