import VllmMlu.Parallel.PartitionUtils

/-! Whether the splitters of a prefill step cut it at the same points. -/
namespace VllmMlu.Parallel

open Library Worker

variable {α β Slot : Type}

/-! ### A rank's own batch -/

/-- A prefill-only batch with at least one request, none of which has computed tokens.
The layer metadata counts the first `numDecodes` requests as decodes. -/
structure PrefillBatch (Slot : Type) where
  lens : List Nat
  slots : List Slot
  numDecodes : Nat
  lens_ne_nil : lens ≠ []
  lens_pos : ∀ len ∈ lens, 0 < len
  length_slots : slots.length = lens.sum
  numDecodes_le : numDecodes ≤ lens.length

/-- The metadata that the model runner and the FlashMLA builder make of the batch. -/
def PrefillBatch.attnMetadata (batch : PrefillBatch Slot) : AttnMetadata Slot where
  common := {
    queryStartLoc := Cuts.startLocs batch.lens
    seqLens := batch.lens
    numReqs := batch.lens.length
    numActualTokens := batch.lens.sum
    maxQueryLen := batch.lens.max?.getD 0
    maxSeqLen := batch.lens.max?.getD 0
    slotMapping := batch.slots
    seqStartLoc := Cuts.startLocs batch.lens
    numInputTokens := 0
    inferMode := .prefillOnly
    numPrefillQueryTokens := batch.lens.sum
    numPrefillKvTokens := batch.lens.sum }
  layer := {
    numReqs := batch.lens.length
    maxQueryLen := batch.lens.max?.getD 0
    maxSeqLen := batch.lens.max?.getD 0
    numActualTokens := batch.lens.sum
    queryStartLoc := Cuts.startLocs batch.lens
    slotMapping := batch.slots
    numDecodes := batch.numDecodes
    numDecodeTokens := (batch.lens.take batch.numDecodes).sum
    numPrefills := batch.lens.length - batch.numDecodes
    numPrefillTokens := (batch.lens.drop batch.numDecodes).sum
    prefill :=
      if batch.numDecodes < batch.lens.length then
        some {
          queryStartLoc := Cuts.startLocs (batch.lens.drop batch.numDecodes)
          maxQueryLen := batch.lens.max?.getD 0
          chunkedContext := false
          numPrefills := batch.lens.length - batch.numDecodes
          maxSeqLen := (batch.lens.drop batch.numDecodes).max?.getD 0
          cuSeqlensKv := none }
      else
        none }

/-- The query lengths of a rank; an idle one (`none`) runs a dummy batch of one token. -/
def ownLens : Option (PrefillBatch Slot) → List Nat
  | none => [1]
  | some batch => batch.lens

def ownMetadata (own : Option (PrefillBatch Slot)) : Option (AttnMetadata Slot) :=
  own.map PrefillBatch.attnMetadata

/-- The data parallel parameters of a step: none without data parallelism, else what
`make_oot` makes of the query lengths gathered from all ranks. -/
inductive StepParams (group : DPGroup) (own : List Nat) : Option MLUDPMetadata → Prop
  | single : StepParams group own none
  | gathered (lensPerRank : List (List Nat)) (dpIsPrefill : List Bool) (lists : SplitLists)
      (params : MLUDPMetadata) (hsize : lensPerRank.length = group.dataParallelSize)
      (hown : lensPerRank[group.dpRank]? = some own)
      (hmake : MLUDPMetadata.makeOot group.dpRank group.dataParallelSize
        group.tensorParallelSize (lensPerRank.map List.sum) dpIsPrefill
        group.prefillDispatchUseRSAG
        { lists with
          seqLens := if dpIsPrefill.all id then some lensPerRank.flatten else none
          batchSizes := some (lensPerRank.map List.length) } = some params) :
      StepParams group own (some params)

/-! ### Agreement -/

/-- What the own entry of the parameters of a part says. -/
def OwnEntry (dpRank : Nat) (params : Option MLUDPMetadata) (tokens : Nat) : Prop :=
  ∀ dp ∈ params, dp.tokenNum = tokens ∧ dp.tokenSplitList[dpRank]? = some tokens

/-- What the metadata of a part says, where it has any. -/
def MetadataOf (metadata : Option (AttnMetadata Slot)) (tokens : Nat) : Prop :=
  ∀ part ∈ metadata,
    (part.common.numActualTokens = tokens ∧ part.layer.numActualTokens = tokens) ∧
      (part.common.queryStartLoc.getLast? = some tokens ∧
        part.layer.queryStartLoc.getLast? = some tokens) ∧
      part.layer.slotMapping.length = tokens

/-- All splitters return, and part by part they speak of the rows of `split_input`. -/
def SplittersAgree (group : DPGroup) (dpParams : Option MLUDPMetadata)
    (attnMetadata : Option (AttnMetadata Slot)) (input : List α) (positions : List β)
    (bsPartsToSplit seqPartsToSplit : Nat) : Prop :=
  ∃ (paramsParts : List (Option MLUDPMetadata)) (metadataParts : List (Option (AttnMetadata Slot)))
      (inputParts : List (List α)) (positionParts : List (List β)),
    splitDpParams group dpParams bsPartsToSplit seqPartsToSplit = some paramsParts ∧
    splitAttnMetadata attnMetadata bsPartsToSplit seqPartsToSplit = some metadataParts ∧
    splitInput (some input) bsPartsToSplit seqPartsToSplit metadataParts =
      some (inputParts.map some) ∧
    splitPositions positions bsPartsToSplit seqPartsToSplit attnMetadata = some positionParts ∧
    List.Forall₂ (OwnEntry group.dpRank) paramsParts (inputParts.map List.length) ∧
    List.Forall₂ MetadataOf metadataParts (inputParts.map List.length) ∧
    inputParts.flatten = input ∧
    (∀ whole ∈ attnMetadata, (metadataParts.flatMap fun part =>
      (part.map fun metadata => metadata.layer.slotMapping).getD []) = whole.layer.slotMapping) ∧
    (1 < seqPartsToSplit → positionParts.map List.length = inputParts.map List.length ∧
      positionParts.flatten = positions)

/-! ### Numbers and offsets -/

/-- The sizes of `get_data_num_and_offset`. -/
def dataNums (totalSize partsToSplit : Nat) : List Nat :=
  List.replicate (totalSize % partsToSplit) (totalSize / partsToSplit + 1) ++
    List.replicate (partsToSplit - totalSize % partsToSplit) (totalSize / partsToSplit)

section DataNums

variable {totalSize partsToSplit : Nat} (hparts : 0 < partsToSplit)
include hparts

theorem getDataNumAndOffset_eq : getDataNumAndOffset totalSize partsToSplit =
    some (dataNums totalSize partsToSplit,
      (Cuts.startLocs (dataNums totalSize partsToSplit)).dropLast) := by
  rw [getDataNumAndOffset, if_neg (by omega)]
  rfl

theorem length_dataNums : (dataNums totalSize partsToSplit).length = partsToSplit := by
  have hmod := Nat.mod_lt totalSize hparts
  simp [dataNums]
  omega

theorem sum_dataNums : (dataNums totalSize partsToSplit).sum = totalSize := by
  have hmod := Nat.mod_lt totalSize hparts
  have hdiv := Nat.div_add_mod totalSize partsToSplit
  have hsplit : partsToSplit * (totalSize / partsToSplit) =
      totalSize % partsToSplit * (totalSize / partsToSplit) +
        (partsToSplit - totalSize % partsToSplit) * (totalSize / partsToSplit) := by
    rw [← Nat.add_mul]
    congr 1
    omega
  simp only [dataNums, List.sum_append, List.sum_replicate_nat, Nat.mul_add]
  omega

end DataNums

/-! ### Inputs, positions -/

theorem splitInput_eq {input : List α} {bs seq : Nat} {counts : List Nat}
    {metadataParts : List (Option (AttnMetadata Slot))} (hone : seq = 1 ∨ bs = 1)
    (hmany : bs * seq ≠ 1) (hlength : counts.length = bs * seq)
    (hcounts : metadataParts.mapIdx (partTokenNum input.length) = counts) :
    splitInput (some input) bs seq metadataParts =
      some ((counts.splitLengths input).map some) := by
  simp only [splitInput, if_pos hone, if_neg hmany, hcounts]
  rw [← hlength, Cuts.mapM_slices]
  rfl

/-- The parts have the sizes that the metadata gives for them. -/
theorem mapIdx_partTokenNum {inputLength : Nat} {parts : List (AttnMetadata Slot)}
    {counts : List Nat} (h : parts.map (·.layer.numActualTokens) = counts) :
    (parts.map some).mapIdx (partTokenNum inputLength) = counts := by
  rw [← h]
  apply List.ext_getElem?
  intro i
  simp only [List.getElem?_mapIdx, List.getElem?_map, Option.map_map]
  rfl

theorem mapIdx_partTokenNum_replicate (inputLength parts : Nat) :
    (List.replicate (parts + 1) (none : Option (AttnMetadata Slot))).mapIdx
      (partTokenNum inputLength) = inputLength :: List.replicate parts 0 := by
  apply List.ext_getElem?
  intro i
  simp only [List.getElem?_mapIdx, List.getElem?_replicate]
  cases i with
  | zero => simp [partTokenNum]
  | succ i =>
      simp only [List.getElem?_cons_succ, List.getElem?_replicate, Nat.add_lt_add_iff_right]
      split
      · simp [partTokenNum]
      · rfl

/-! ### Attention metadata -/

/-- A part that says `tokens` wherever it gives its number of tokens. -/
structure CountsTokens (part : AttnMetadata Slot) (tokens : Nat) : Prop where
  common : part.common.numActualTokens = tokens
  layer : part.layer.numActualTokens = tokens
  commonLast : part.common.queryStartLoc.getLast? = some tokens
  layerLast : part.layer.queryStartLoc.getLast? = some tokens

/-- Parts of the given sizes, over consecutive slots. -/
structure PartsOf (counts : List Nat) (slots : List Slot) (parts : List (AttnMetadata Slot)) :
    Prop where
  counted : List.Forall₂ CountsTokens parts counts
  slotMapping : parts.map (·.layer.slotMapping) = counts.splitLengths slots

theorem PartsOf.cons {count : Nat} {counts : List Nat} {slots : List Slot}
    {part : AttnMetadata Slot} {parts : List (AttnMetadata Slot)} (hpart : CountsTokens part count)
    (hslots : part.layer.slotMapping = slots.take count)
    (h : PartsOf counts (slots.drop count) parts) : PartsOf (count :: counts) slots (part :: parts) where
  counted := .cons hpart h.counted
  slotMapping := by simp [hslots, h.slotMapping]

theorem PartsOf.layerTokens {counts : List Nat} {slots : List Slot}
    {parts : List (AttnMetadata Slot)} (h : PartsOf counts slots parts) :
    parts.map (·.layer.numActualTokens) = counts := by
  rw [← List.map_id counts]
  symm
  apply Cuts.map_eq_map_of_forall₂
  exact h.counted.imp fun part count hpart => hpart.layer.symm

theorem PartsOf.metadataOf {counts : List Nat} {slots : List Slot}
    {parts : List (AttnMetadata Slot)} (h : PartsOf counts slots parts)
    (hsum : counts.sum ≤ slots.length) : List.Forall₂ MetadataOf (parts.map some) counts := by
  have hlengths : parts.map (·.layer.slotMapping.length) = counts := by
    have hmap := congrArg (List.map List.length) h.slotMapping
    rwa [List.map_splitLengths_length _ _ hsum, List.map_map] at hmap
  rw [List.forall₂_map_left_iff, List.forall₂_iff_get]
  have hlength := h.counted.length_eq
  refine ⟨hlength, fun i hleft hright part hpart => ?_⟩
  cases hpart
  have hcounted := h.counted.get hleft hright
  refine ⟨⟨hcounted.common, hcounted.layer⟩, ⟨hcounted.commonLast, hcounted.layerLast⟩, ?_⟩
  have hget := List.getElem_of_eq hlengths.symm hright
  rw [List.get_eq_getElem, List.get_eq_getElem, hget, List.getElem_map]

section PrefillBatch

variable (batch : PrefillBatch Slot)

theorem PrefillBatch.length_pos : 0 < batch.lens.length :=
  List.length_pos_iff.mpr batch.lens_ne_nil

theorem PrefillBatch.exists_prefill (hdecodes : batch.numDecodes < batch.lens.length) :
    ∃ prefill, batch.attnMetadata.layer.prefill = some prefill ∧
      prefill.chunkedContext = false := by
  simp [attnMetadata, hdecodes]

theorem PrefillBatch.sequencePart_eq {len : Nat} (hlens : batch.lens = [len])
    (hdecodes : batch.numDecodes = 0) {prefill : PrefillMetadata}
    (hprefill : batch.attnMetadata.layer.prefill = some prefill) (offset tokens : Nat) :
    sequencePart batch.attnMetadata offset tokens =
      some (batch.attnMetadata.forTokens prefill offset tokens) := by
  obtain ⟨prefill', hprefill', hchunked⟩ := batch.exists_prefill (hdecodes ▸ batch.length_pos)
  rw [hprefill, Option.some.injEq] at hprefill'
  subst hprefill'
  have hcommon : ¬(batch.attnMetadata.common.queryStartLoc.length < 2 ∨
      batch.attnMetadata.common.seqStartLoc.length < 2) := by
    simp [attnMetadata, hlens]
  have hlayer : batch.attnMetadata.layer.numDecodes = 0 ∧
      batch.attnMetadata.layer.numDecodeTokens = 0 ∧
      batch.attnMetadata.layer.numPrefills = 1 := by
    simp [attnMetadata, hlens, hdecodes]
  rw [sequencePart, if_neg hcommon, if_pos hlayer, hprefill]
  simp [hchunked]

/-- The parts of the only sequence, each with its offset and its number of tokens. -/
def PrefillBatch.tokenParts (prefill : PrefillMetadata) (nums : List Nat) :
    List (AttnMetadata Slot) :=
  ((Cuts.startLocs nums).dropLast.zip nums).map fun part =>
    batch.attnMetadata.forTokens prefill part.1 part.2

theorem PrefillBatch.partsOf_tokenParts (prefill : PrefillMetadata) (nums : List Nat) :
    PartsOf nums batch.slots (batch.tokenParts prefill nums) := by
  have hsnd : ((Cuts.startLocs nums).dropLast.zip nums).map Prod.snd = nums :=
    List.map_snd_zip (by simp)
  constructor
  · conv_rhs => rw [← hsnd]
    rw [tokenParts, List.forall₂_map_left_iff, List.forall₂_map_right_iff, List.forall₂_same]
    intro part _
    exact ⟨rfl, rfl, rfl, rfl⟩
  · rw [tokenParts, List.map_map, ← Cuts.zipWith_slice_startLocs, List.zip, List.map_zipWith]
    rfl

theorem PrefillBatch.sequenceParts {len parts : Nat} (hlens : batch.lens = [len])
    (hdecodes : batch.numDecodes = 0) {prefill : PrefillMetadata}
    (hprefill : batch.attnMetadata.layer.prefill = some prefill) :
    ((Cuts.startLocs (dataNums len parts)).dropLast.zip (dataNums len parts)).mapM
        (fun part => sequencePart batch.attnMetadata part.1 part.2) =
      some (batch.tokenParts prefill (dataNums len parts)) := by
  apply Cuts.mapM_eq_map
  intro part _
  exact batch.sequencePart_eq hlens hdecodes hprefill part.1 part.2

theorem PrefillBatch.partStartLoc_eq {front back : List Nat} {i num : Nat}
    (hfirst : i = 0 → front = []) (hnum : num ≤ back.length) :
    partStartLoc (Cuts.startLocs (front ++ back)) i front.length num =
      some (Cuts.startLocs (back.take num)) := by
  have hslice := Cuts.slice_startLocs front back hnum
  unfold partStartLoc
  split
  · rw [Cuts.getElem?_startLocs (by simp), List.take_left]
    exact congrArg some hslice
  · rename_i hzero
    rw [hfirst (by omega)] at hslice ⊢
    simpa using hslice

theorem PrefillBatch.batchPart_eq {front back : List Nat} (hlens : batch.lens = front ++ back)
    (hdecodes : batch.numDecodes < batch.lens.length) {i num : Nat} (hfirst : i = 0 → front = [])
    (hnum : num ≤ back.length) :
    batchPart batch.attnMetadata i front.length num front.sum =
      some (batch.attnMetadata.forRequests front.length num (Cuts.startLocs (back.take num))
        front.sum (back.take num).sum) := by
  have hloc : partStartLoc batch.attnMetadata.common.queryStartLoc i front.length num =
      some (Cuts.startLocs (back.take num)) := by
    simp only [attnMetadata, hlens]
    exact partStartLoc_eq hfirst hnum
  obtain ⟨prefill, hprefill, -⟩ := batch.exists_prefill hdecodes
  simp [batchPart, hloc, hprefill]

/-- The metadata of a part that consists of the requests `own`. -/
def PrefillBatch.OwnPart (own : List Nat) (part : AttnMetadata Slot) : Prop :=
  ∃ start slotStart, Rows.slice start own.length batch.lens = own ∧
    part = batch.attnMetadata.forRequests start own.length (Cuts.startLocs own) slotStart own.sum

/-- The loop over the parts of the batch, from a part boundary on. -/
theorem PrefillBatch.batchParts_eq (hdecodes : batch.numDecodes < batch.lens.length)
    {nums : List Nat} {front back : List Nat} (hlens : batch.lens = front ++ back) {i : Nat}
    (hfirst : i = 0 → front = []) (hnums : nums.sum ≤ back.length) :
    ∃ parts, batchParts batch.attnMetadata i front.sum
        (((Cuts.startLocs nums).dropLast.map (front.length + ·)).zip nums) = some parts ∧
      PartsOf ((nums.splitLengths back).map List.sum) (batch.slots.drop front.sum) parts ∧
      List.Forall₂ batch.OwnPart (nums.splitLengths back) parts := by
  induction nums generalizing front back i with
  | nil => exact ⟨[], rfl, ⟨.nil, rfl⟩, .nil⟩
  | cons num rest ih =>
      rw [List.sum_cons] at hnums
      have hpart := batch.batchPart_eq hlens hdecodes hfirst (by omega : num ≤ back.length)
      have hcounts : CountsTokens (batch.attnMetadata.forRequests front.length num
          (Cuts.startLocs (back.take num)) front.sum (back.take num).sum) (back.take num).sum :=
        ⟨rfl, rfl, Cuts.getLast?_startLocs _, Cuts.getLast?_startLocs _⟩
      have htaken : (back.take num).length = num := List.length_take_of_le (by omega)
      obtain ⟨parts, hparts, hrest, hown⟩ := @ih (front ++ back.take num) (back.drop num)
        (by rw [hlens, List.append_assoc, List.take_append_drop]) (i + 1) (by omega)
        (by rw [List.length_drop]; omega)
      refine ⟨batch.attnMetadata.forRequests front.length num (Cuts.startLocs (back.take num))
        front.sum (back.take num).sum :: parts, ?_, ?_, ?_⟩
      · rw [Cuts.startLocs_cons, List.dropLast_cons_of_ne_nil
          (by simp [Cuts.startLocs_ne_nil]), List.map_cons, List.zip_cons_cons, batchParts,
          Nat.add_zero, hpart]
        rw [List.sum_append, List.length_append, htaken] at hparts
        simp only [Option.bind_eq_bind, Option.bind_some, hcounts.common, ← List.map_dropLast,
          List.map_map, Function.comp_def, ← Nat.add_assoc, hparts]
        rfl
      · rw [List.splitLengths_cons, List.map_cons]
        apply PartsOf.cons hcounts rfl
        rwa [List.drop_drop, ← List.sum_append]
      · rw [List.splitLengths_cons]
        refine .cons ⟨front.length, front.sum, ?_, ?_⟩ hown
        · rw [htaken, hlens, Rows.slice, List.drop_left]
        · rw [htaken]

end PrefillBatch

/-! ### Data parallel parameters -/

section Params

variable (group : DPGroup)

theorem DPGroup.makePart_own {dpTokenNums : List Nat} {tokens : Nat}
    (h : dpTokenNums[group.dpRank]? = some tokens) (seqLens batchSizes : List Nat) :
    ∃ dp, group.makePart dpTokenNums seqLens batchSizes = some dp ∧
      OwnEntry group.dpRank (some dp) tokens := by
  obtain ⟨hrank, -⟩ := List.getElem?_eq_some_iff.mp h
  obtain ⟨dp, hmake⟩ := Option.isSome_iff_exists.mp ((MLUDPMetadata.makeOot_isSome group.dpRank
    group.dataParallelSize group.tensorParallelSize dpTokenNums
    (List.replicate group.dataParallelSize true) group.prefillDispatchUseRSAG
    { seqLens := some seqLens, batchSizes := some batchSizes }).trans (decide_eq_true hrank))
  obtain ⟨htoken, hlist, -⟩ := MLUDPMetadata.makeOot_eq_some hmake
  refine ⟨dp, hmake, ?_⟩
  rintro own ⟨⟩
  exact ⟨Option.some.inj (htoken.symm.trans h), by rw [hlist, h]⟩

theorem queryLensPerDpRank_eq {parts : Nat} (hparts : 0 < parts) {seqLens : List Nat}
    {lensPerRank : List (List Nat)} {bsOffset : Nat}
    (h : seqLens.drop bsOffset = lensPerRank.flatten) :
    queryLensPerDpRank seqLens parts bsOffset (lensPerRank.map List.length) =
      some (lensPerRank.map fun lens =>
        (lens.head?.map (dataNums · parts)).getD (List.replicate parts 0)) := by
  induction lensPerRank generalizing bsOffset with
  | nil => rfl
  | cons lens rest ih =>
      have hrest := @ih (bsOffset + lens.length)
        (by rw [← List.drop_drop, h, List.flatten_cons, List.drop_left])
      rw [List.map_cons, List.map_cons]
      cases lens with
      | nil => simp_all [queryLensPerDpRank]
      | cons len others =>
          have hfirst : seqLens[bsOffset]? = some len := by
            rw [← Nat.add_zero bsOffset, ← List.getElem?_drop, h]
            rfl
          rw [List.length_cons] at hrest
          simp [queryLensPerDpRank, hrest, hfirst, getDataNumAndOffset_eq hparts]

theorem sequenceParams_own {queryLens dpSeqLens : List (List Nat)} {counts batchSizes : List Nat}
    (hquery : ∀ tokens ∈ queryLens, tokens.length = counts.length)
    (hseq : ∀ tokens ∈ dpSeqLens, tokens.length = counts.length)
    (hown : queryLens[group.dpRank]? = some counts) {i tokens : Nat}
    (htokens : counts[i]? = some tokens) :
    ∃ dp, sequenceParams group queryLens dpSeqLens batchSizes i = some dp ∧
      OwnEntry group.dpRank (some dp) tokens := by
  obtain ⟨hi, -⟩ := List.getElem?_eq_some_iff.mp htokens
  obtain ⟨dpTokenNums, hcolumn, hentry⟩ := Cuts.exists_column fun row hmem =>
    (hquery row hmem).symm ▸ hi
  obtain ⟨seqLens, hseqColumn, -⟩ := Cuts.exists_column fun row hmem =>
    (hseq row hmem).symm ▸ hi
  rw [sequenceParams, hcolumn, hseqColumn]
  exact group.makePart_own ((hentry _ _ hown).trans htokens) _ _

theorem mapM_dataNums {parts : Nat} (hparts : 0 < parts) (seqLens : List Nat) :
    (seqLens.mapM fun seqLen => do
      let (tokens, _) ← getDataNumAndOffset seqLen parts
      return tokens) = some (seqLens.map (dataNums · parts)) := by
  apply Cuts.mapM_eq_map
  intro seqLen _
  rw [getDataNumAndOffset_eq hparts]
  rfl

/-- The parts of the sequence plan, where the own rank has one request. -/
theorem splitDpParamsSequence_own {parts len : Nat} (hparts : 0 < parts)
    {lensPerRank : List (List Nat)} {params : MLUDPMetadata}
    (hsize : lensPerRank.length = group.dataParallelSize)
    (hown : lensPerRank[group.dpRank]? = some [len])
    (hseq : params.seqLens = some lensPerRank.flatten)
    (hbatch : params.batchSizes = some (lensPerRank.map List.length)) :
    ∃ paramsParts, splitDpParamsSequence group params parts = some paramsParts ∧
      List.Forall₂ (OwnEntry group.dpRank) (paramsParts.map some) (dataNums len parts) := by
  have hseqLens := mapM_dataNums hparts lensPerRank.flatten
  have hqueryLens := @queryLensPerDpRank_eq parts hparts _ lensPerRank 0 rfl
  have hlengths : ∀ tokens ∈ lensPerRank.map (fun lens => (lens.head?.map (dataNums · parts)).getD
      (List.replicate parts 0)), tokens.length = (dataNums len parts).length := by
    intro tokens hmem
    obtain ⟨lens, -, rfl⟩ := List.mem_map.mp hmem
    cases lens <;> simp [length_dataNums hparts]
  have hseqLengths : ∀ tokens ∈ lensPerRank.flatten.map (dataNums · parts),
      tokens.length = (dataNums len parts).length := by
    intro tokens hmem
    obtain ⟨seqLen, -, rfl⟩ := List.mem_map.mp hmem
    simp [length_dataNums hparts]
  obtain ⟨paramsParts, hmap, hrel⟩ := Cuts.exists_mapM_range fun i tokens htokens =>
    @sequenceParams_own group _ _ _ (lensPerRank.map List.length) hlengths hseqLengths
      (by simp [hown]) i tokens htokens
  rw [length_dataNums hparts] at hmap
  refine ⟨paramsParts, ?_, List.forall₂_map_left_iff.mpr hrel⟩
  have hlength : ¬(lensPerRank.map List.length).length < group.dataParallelSize := by
    simp [hsize]
  have htake : (lensPerRank.map List.length).take group.dataParallelSize =
      lensPerRank.map List.length := List.take_of_length_le (by simp [hsize])
  rw [splitDpParamsSequence, hseq, hbatch]
  simp only [Option.bind_eq_bind, Option.bind_some, if_neg hlength, htake, hqueryLens]
  simp only [Option.bind_eq_bind] at hseqLens
  rw [hseqLens]
  exact hmap

theorem splitBatchSize_eq {parts : Nat} (hparts : 0 < parts) {lensPerRank : List (List Nat)}
    {dpRank : Nat} {lens : List Nat} (hlens : lensPerRank[dpRank]? = some lens) :
    splitBatchSize lensPerRank.flatten (lensPerRank.map List.length) parts dpRank =
      some (dataNums lens.length parts, (dataNums lens.length parts).splitLengths lens) := by
  have hsize : (lensPerRank.map List.length)[dpRank]? = some lens.length := by
    rw [List.getElem?_map, hlens]
    rfl
  have hslices := Cuts.zipWith_slice_flatten hlens (sum_dataNums hparts).le
  simp [splitBatchSize, hsize, getDataNumAndOffset_eq hparts, hslices]

theorem batchParams_own {split : List (List Nat × List (List Nat))} {ownParts : List (List Nat)}
    (hsizes : ∀ rank ∈ split, rank.1.length = ownParts.length)
    (hquery : ∀ rank ∈ split, rank.2.length = ownParts.length) {ownSizes : List Nat}
    (hown : split[group.dpRank]? = some (ownSizes, ownParts)) {i tokens : Nat}
    (htokens : (ownParts.map List.sum)[i]? = some tokens) :
    ∃ dp, batchParams group split i = some dp ∧ OwnEntry group.dpRank (some dp) tokens := by
  rw [List.getElem?_map] at htokens
  obtain ⟨lens, hlens, hsum⟩ := Option.map_eq_some_iff.mp htokens
  obtain ⟨hi, -⟩ := List.getElem?_eq_some_iff.mp hlens
  obtain ⟨queryLens, hcolumn, hentry⟩ := Cuts.exists_column fun rank hmem =>
    (hquery rank hmem).symm ▸ hi
  obtain ⟨batchSizes, hsizeColumn, -⟩ := Cuts.exists_column fun rank hmem =>
    (hsizes rank hmem).symm ▸ hi
  rw [batchParams, hcolumn, hsizeColumn]
  apply group.makePart_own
  rw [List.getElem?_map, hentry _ _ hown, hlens]
  exact congrArg some hsum

/-- The parts of the batch plan. -/
theorem splitDpParamsBatch_own {parts : Nat} (hparts : 0 < parts) {own : List Nat}
    {lensPerRank : List (List Nat)} {params : MLUDPMetadata}
    (hsize : lensPerRank.length = group.dataParallelSize)
    (hown : lensPerRank[group.dpRank]? = some own)
    (hseq : params.seqLens = some lensPerRank.flatten)
    (hbatch : params.batchSizes = some (lensPerRank.map List.length)) :
    ∃ paramsParts, splitDpParamsBatch group params parts = some paramsParts ∧
      List.Forall₂ (OwnEntry group.dpRank) (paramsParts.map some)
        (((dataNums own.length parts).splitLengths own).map List.sum) := by
  have hsplit : (List.range group.dataParallelSize).mapM
      (splitBatchSize lensPerRank.flatten (lensPerRank.map List.length) parts) =
      some (lensPerRank.map fun lens =>
        (dataNums lens.length parts, (dataNums lens.length parts).splitLengths lens)) := by
    rw [← hsize, ← List.length_map]
    apply Cuts.mapM_range_eq
    intro i entry hentry
    rw [List.getElem?_map] at hentry
    obtain ⟨lens, hlens, rfl⟩ := Option.map_eq_some_iff.mp hentry
    exact splitBatchSize_eq hparts hlens
  obtain ⟨paramsParts, hmap, hrel⟩ := Cuts.exists_mapM_range fun i tokens htokens =>
    @batchParams_own group (lensPerRank.map fun lens =>
        (dataNums lens.length parts, (dataNums lens.length parts).splitLengths lens))
      ((dataNums own.length parts).splitLengths own) (by simp [length_dataNums hparts])
      (by simp [length_dataNums hparts]) _ (by simp [hown]; rfl) i tokens htokens
  rw [List.length_map, List.length_splitLengths, length_dataNums hparts] at hmap
  refine ⟨paramsParts, ?_, List.forall₂_map_left_iff.mpr hrel⟩
  rw [splitDpParamsBatch, hseq, hbatch]
  simp only [Option.bind_eq_bind, Option.bind_some, hsplit]
  exact hmap

/-- Under a batch plan with several parts. -/
theorem StepParams.splitBatch {group : DPGroup} {own : List Nat} {dpParams : Option MLUDPMetadata}
    (h : StepParams group own dpParams)
    (hprefill : ∀ params ∈ dpParams, params.dpIsPrefill.all id = true) {parts : Nat}
    (hparts : 1 < parts) :
    ∃ paramsParts, splitDpParams group dpParams parts 1 = some paramsParts ∧
      List.Forall₂ (OwnEntry group.dpRank) paramsParts
        (((dataNums own.length parts).splitLengths own).map List.sum) := by
  have hpos : 0 < parts := by omega
  cases h with
  | single =>
      refine ⟨List.replicate parts none, by simp [splitDpParams], ?_⟩
      rw [List.forall₂_iff_get]
      refine ⟨by simp [length_dataNums hpos], fun i _ _ params hparams => ?_⟩
      simp at hparams
  | gathered lensPerRank dpIsPrefill lists params hsize hown hmake =>
      obtain ⟨-, -, hflags, hseq, hbatch⟩ := MLUDPMetadata.makeOot_eq_some hmake
      have hall := hprefill params rfl
      rw [hflags] at hall
      rw [if_pos hall] at hseq
      obtain ⟨paramsParts, hsplit, hrel⟩ :=
        splitDpParamsBatch_own group hpos hsize hown hseq hbatch
      refine ⟨paramsParts.map some, ?_, hrel⟩
      simp [splitDpParams, show parts ≠ 1 by omega, hsplit]

/-- Under a sequence plan with several parts. -/
theorem StepParams.splitSequence {group : DPGroup} {len : Nat} {dpParams : Option MLUDPMetadata}
    (h : StepParams group [len] dpParams)
    (hprefill : ∀ params ∈ dpParams, params.dpIsPrefill.all id = true) {parts : Nat}
    (hparts : 1 < parts) :
    ∃ paramsParts, splitDpParams group dpParams 1 parts = some paramsParts ∧
      List.Forall₂ (OwnEntry group.dpRank) paramsParts (dataNums len parts) := by
  have hpos : 0 < parts := by omega
  cases h with
  | single =>
      refine ⟨List.replicate parts none, by simp [splitDpParams], ?_⟩
      rw [List.forall₂_iff_get]
      refine ⟨by simp [length_dataNums hpos], fun i _ _ params hparams => ?_⟩
      simp at hparams
  | gathered lensPerRank dpIsPrefill lists params hsize hown hmake =>
      obtain ⟨-, -, hflags, hseq, hbatch⟩ := MLUDPMetadata.makeOot_eq_some hmake
      have hall := hprefill params rfl
      rw [hflags] at hall
      rw [if_pos hall] at hseq
      obtain ⟨paramsParts, hsplit, hrel⟩ :=
        splitDpParamsSequence_own group hpos hsize hown hseq hbatch
      refine ⟨paramsParts.map some, ?_, hrel⟩
      simp [splitDpParams, show parts ≠ 1 by omega, hsplit]

theorem StepParams.ownEntry {group : DPGroup} {own : List Nat} {dpParams : Option MLUDPMetadata}
    (h : StepParams group own dpParams) : OwnEntry group.dpRank dpParams own.sum := by
  cases h with
  | single => rintro params ⟨⟩
  | gathered lensPerRank dpIsPrefill lists params hsize hown hmake =>
      rintro params ⟨⟩
      obtain ⟨htoken, hlist, -⟩ := MLUDPMetadata.makeOot_eq_some hmake
      have hentry : (lensPerRank.map List.sum)[group.dpRank]? = some own.sum := by
        rw [List.getElem?_map, hown]
        rfl
      exact ⟨Option.some.inj (htoken.symm.trans hentry), by rw [hlist, hentry]⟩

end Params

/-! ### When the splitters agree -/

section Agreement

variable {group : DPGroup} {dpParams : Option MLUDPMetadata} {own : Option (PrefillBatch Slot)}
  {input : List α} {positions : List β}

theorem agree_unsplit (hstep : StepParams group (ownLens own) dpParams)
    (hinput : input.length = (ownLens own).sum) :
    SplittersAgree group dpParams (ownMetadata own) input positions 1 1 := by
  refine ⟨[dpParams], [ownMetadata own], [input], [positions], ?_, rfl, rfl, rfl, ?_, ?_, by simp,
    ?_, by omega⟩
  · cases dpParams <;> rfl
  · rw [List.map_singleton, hinput]
    exact .cons hstep.ownEntry .nil
  · refine .cons ?_ .nil
    cases own with
    | none => rintro part ⟨⟩
    | some batch =>
        rintro part ⟨⟩
        rw [hinput]
        exact ⟨⟨rfl, rfl⟩, ⟨Cuts.getLast?_startLocs _, Cuts.getLast?_startLocs _⟩,
          batch.length_slots⟩
  · cases own with
    | none => rintro whole ⟨⟩
    | some batch =>
        rintro whole ⟨⟩
        simp [ownMetadata]

/-- What remains once the parts of a batch with metadata are known. -/
theorem agree_of_parts {batch : PrefillBatch Slot} {bs seq : Nat} {counts : List Nat}
    {paramsParts : List (Option MLUDPMetadata)} {metadataParts : List (AttnMetadata Slot)}
    (hone : seq = 1 ∨ bs = 1) (hmany : bs * seq ≠ 1) (hlength : counts.length = bs * seq)
    (hinput : input.length = batch.lens.sum) (hsum : counts.sum = batch.lens.sum)
    (hparams : splitDpParams group dpParams bs seq = some paramsParts)
    (hown : List.Forall₂ (OwnEntry group.dpRank) paramsParts counts)
    (hmetadata : splitAttnMetadata (some batch.attnMetadata) bs seq =
      some (metadataParts.map some))
    (hparts : PartsOf counts batch.slots metadataParts) {positionParts : List (List β)}
    (hpositions : splitPositions positions bs seq (some batch.attnMetadata) = some positionParts)
    (hsequence : 1 < seq → positionParts.map List.length = counts ∧
      positionParts.flatten = positions) :
    SplittersAgree group dpParams (some batch.attnMetadata) input positions bs seq := by
  have hcounts : (counts.splitLengths input).map List.length = counts :=
    List.map_splitLengths_length _ _ (by omega)
  refine ⟨paramsParts, metadataParts.map some, counts.splitLengths input, positionParts, hparams,
    hmetadata, splitInput_eq hone hmany hlength (mapIdx_partTokenNum hparts.layerTokens),
    hpositions, ?_, ?_, ?_, ?_, ?_⟩
  · rwa [hcounts]
  · rw [hcounts]
    exact hparts.metadataOf (by rw [batch.length_slots]; omega)
  · exact List.flatten_splitLengths _ _ (by omega)
  · rintro whole ⟨⟩
    rw [List.flatMap_map, List.flatMap_def]
    simp only [Option.map_some, Option.getD_some, hparts.slotMapping]
    exact List.flatten_splitLengths _ _ (by rw [batch.length_slots]; omega)
  · rwa [hcounts]

theorem sum_map_sum_splitLengths (nums own : List Nat) :
    ((nums.splitLengths own).map List.sum).sum = (own.take nums.sum).sum := by
  induction nums generalizing own with
  | nil => simp
  | cons num rest ih =>
      rw [List.splitLengths_cons, List.map_cons, List.sum_cons, ih, List.sum_cons, List.take_add,
        List.sum_append]

/-- The metadata of the parts of a batch plan, of as many requests as the layer
metadata counts as prefills. -/
theorem PrefillBatch.splitBatch (batch : PrefillBatch Slot)
    (hdecodes : batch.numDecodes < batch.lens.length) {parts : Nat} (hparts : 1 < parts) :
    ∃ metadataParts, splitAttnMetadata (some batch.attnMetadata) parts 1 =
        some (metadataParts.map some) ∧
      PartsOf (((dataNums (batch.lens.length - batch.numDecodes) parts).splitLengths
        batch.lens).map List.sum) batch.slots metadataParts ∧
      List.Forall₂ batch.OwnPart ((dataNums (batch.lens.length - batch.numDecodes)
        parts).splitLengths batch.lens) metadataParts := by
  have hpos : 0 < parts := by omega
  obtain ⟨metadataParts, hsplit, hpartsOf⟩ := @batchParts_eq _ batch hdecodes
    (dataNums (batch.lens.length - batch.numDecodes) parts) [] batch.lens rfl 0 (fun _ => rfl)
    (by rw [sum_dataNums hpos]; omega)
  refine ⟨metadataParts, ?_, hpartsOf⟩
  have hprefills : batch.attnMetadata.layer.numPrefills =
      batch.lens.length - batch.numDecodes := rfl
  simp only [List.sum_nil, List.length_nil, Nat.zero_add, List.map_id'] at hsplit
  simp [splitAttnMetadata, show parts ≠ 1 by omega, hparts, hprefills,
    getDataNumAndOffset_eq hpos, hsplit]

/-- The metadata of the parts of a sequence plan. -/
theorem PrefillBatch.splitSequence (batch : PrefillBatch Slot) {len : Nat}
    (hlens : batch.lens = [len]) (hdecodes : batch.numDecodes = 0) {prefill : PrefillMetadata}
    (hprefill : batch.attnMetadata.layer.prefill = some prefill) {parts : Nat}
    (hparts : 1 < parts) :
    splitAttnMetadata (some batch.attnMetadata) 1 parts =
      some ((batch.tokenParts prefill (dataNums len parts)).map some) := by
  have htokens : batch.attnMetadata.common.numActualTokens = len := by
    simp [attnMetadata, hlens]
  simp [splitAttnMetadata, show parts ≠ 1 by omega, hparts, htokens,
    getDataNumAndOffset_eq (show 0 < parts by omega),
    batch.sequenceParts hlens hdecodes hprefill]

theorem agree_batch {batch : PrefillBatch Slot} (hstep : StepParams group batch.lens dpParams)
    (hprefill : ∀ params ∈ dpParams, params.dpIsPrefill.all id = true)
    (hdecodes : batch.numDecodes = 0) (hinput : input.length = batch.lens.sum) {parts : Nat}
    (hparts : 1 < parts) :
    SplittersAgree group dpParams (some batch.attnMetadata) input positions parts 1 := by
  have hpos : 0 < parts := by omega
  obtain ⟨paramsParts, hparams, hown⟩ := hstep.splitBatch hprefill hparts
  obtain ⟨metadataParts, hmetadata, hpartsOf, -⟩ :=
    batch.splitBatch (hdecodes ▸ batch.length_pos) hparts
  rw [hdecodes, Nat.sub_zero] at hpartsOf
  apply agree_of_parts (.inl rfl) (by omega) _ hinput _ hparams hown hmetadata hpartsOf rfl
  · omega
  · simp [length_dataNums hpos]
  · rw [sum_map_sum_splitLengths, sum_dataNums hpos, List.take_length]

theorem agree_sequence {batch : PrefillBatch Slot} {len : Nat} (hlens : batch.lens = [len])
    (hstep : StepParams group batch.lens dpParams)
    (hprefill : ∀ params ∈ dpParams, params.dpIsPrefill.all id = true)
    (hdecodes : batch.numDecodes = 0) (hinput : input.length = batch.lens.sum)
    (hpositions : positions.length = batch.lens.sum) {parts : Nat} (hparts : 1 < parts) :
    SplittersAgree group dpParams (some batch.attnMetadata) input positions 1 parts := by
  have hpos : 0 < parts := by omega
  rw [hlens] at hstep
  obtain ⟨paramsParts, hparams, hown⟩ := hstep.splitSequence hprefill hparts
  obtain ⟨prefill, hprefill, -⟩ := batch.exists_prefill (hdecodes ▸ batch.length_pos)
  have hsum : batch.lens.sum = len := by simp [hlens]
  have hmetadata := batch.splitSequence hlens hdecodes hprefill hparts
  have hpositionParts : splitPositions positions 1 parts (some batch.attnMetadata) =
      some ((dataNums len parts).splitLengths positions) := by
    have htokens : batch.attnMetadata.layer.numActualTokens = len := hsum
    simp only [splitPositions, if_neg (show parts ≠ 1 by omega), htokens,
      getDataNumAndOffset_eq hpos, Option.bind_eq_bind, Option.bind_some, sliceParts,
      Cuts.zipWith_slice_startLocs]
    rfl
  have hcounts : (dataNums len parts).sum = batch.lens.sum := by rw [sum_dataNums hpos, hsum]
  apply agree_of_parts (.inr rfl) (by omega) _ hinput hcounts hparams hown hmetadata
    (batch.partsOf_tokenParts prefill _) hpositionParts
  · intro _
    exact ⟨List.map_splitLengths_length _ _ (by omega), List.flatten_splitLengths _ _ (by omega)⟩
  · rw [length_dataNums hpos, Nat.one_mul]

theorem dataNums_one (parts : Nat) :
    dataNums 1 (parts + 2) = 1 :: List.replicate (parts + 1) 0 := by
  have hmod : 1 % (parts + 2) = 1 := Nat.mod_eq_of_lt (by omega)
  have hdiv : 1 / (parts + 2) = 0 := Nat.div_eq_of_lt (by omega)
  simp [dataNums, hmod, hdiv]

theorem splitLengths_replicate_zero (parts : Nat) (own : List Nat) :
    (List.replicate parts 0).splitLengths own = List.replicate parts [] := by
  induction parts with
  | zero => rfl
  | succ parts ih => rw [List.replicate_succ, List.splitLengths_cons, List.drop_zero, ih]; rfl

/-- The dummy batch of an idle rank is all in the first part of a batch plan. -/
theorem agree_idle_batch (hstep : StepParams group [1] dpParams)
    (hprefill : ∀ params ∈ dpParams, params.dpIsPrefill.all id = true)
    (hinput : input.length = 1) (parts : Nat) :
    SplittersAgree group dpParams (none : Option (AttnMetadata Slot)) input positions
      (parts + 2) 1 := by
  obtain ⟨paramsParts, hparams, hown⟩ := hstep.splitBatch hprefill (by omega : 1 < parts + 2)
  have hcounts : ((dataNums [1].length (parts + 2)).splitLengths [1]).map List.sum =
      input.length :: List.replicate (parts + 1) 0 := by
    rw [List.length_singleton, dataNums_one, List.splitLengths_cons, hinput]
    simp [splitLengths_replicate_zero]
  rw [hcounts] at hown
  have hlengths : ((input.length :: List.replicate (parts + 1) 0).splitLengths input).map
      List.length = input.length :: List.replicate (parts + 1) 0 :=
    List.map_splitLengths_length _ _ (by simp)
  refine ⟨paramsParts, List.replicate (parts + 2) none, _, List.replicate (parts + 2) positions,
    hparams, by simp [splitAttnMetadata], splitInput_eq (.inl rfl) (by omega) (by simp)
      (mapIdx_partTokenNum_replicate _ _), rfl, ?_, ?_, ?_, ?_, by omega⟩
  · rwa [hlengths]
  · rw [hlengths, List.forall₂_iff_get]
    refine ⟨by simp, fun i _ _ part hpart => ?_⟩
    simp at hpart
  · exact List.flatten_splitLengths _ _ (by simp)
  · rintro whole ⟨⟩

/-- Without metadata the positions are cut as if there were no tokens. -/
theorem idle_sequence_disagrees (hpositions : positions ≠ []) {parts : Nat} (hparts : 1 < parts) :
    ¬SplittersAgree group dpParams (none : Option (AttnMetadata Slot)) input positions 1 parts := by
  rintro ⟨_, _, _, positionParts, _, _, _, hsplit, _, _, _, _, hsequence⟩
  obtain ⟨-, hflatten⟩ := hsequence hparts
  have hzero : dataNums 0 parts = List.replicate parts 0 := by simp [dataNums]
  simp only [splitPositions, if_neg (show parts ≠ 1 by omega),
    getDataNumAndOffset_eq (show 0 < parts by omega), Option.bind_eq_bind, Option.bind_some,
    sliceParts, Cuts.zipWith_slice_startLocs, hzero] at hsplit
  cases hsplit
  apply hpositions
  rw [← hflatten, List.flatten_eq_nil_iff]
  intro part hmem
  have hlength := List.length_mem_splitLengths positions (List.replicate parts 0) 0
    (by simp) part hmem
  exact List.length_eq_zero_iff.mp (Nat.le_zero.mp hlength)

/-- No parts hold no rows. -/
theorem no_parts_disagree {metadata : Option (AttnMetadata Slot)} (hinput : input ≠ [])
    {bs seq : Nat} (hparts : bs * seq = 0) :
    ¬SplittersAgree group dpParams metadata input positions bs seq := by
  rintro ⟨_, _, inputParts, _, _, _, hsplit, _, _, _, hflatten, _⟩
  unfold splitInput at hsplit
  split at hsplit
  · simp only [hparts, Nat.zero_ne_one, if_false, List.range_zero, List.mapM_nil,
      Option.bind_eq_bind, Option.pure_def, Option.bind_some, List.map_nil, Option.some.injEq,
      List.nil_eq, List.map_eq_nil_iff] at hsplit
    rw [hsplit] at hflatten
    exact hinput hflatten.symm
  · cases hsplit

theorem sum_take_lt {lens : List Nat} (hpos : ∀ len ∈ lens, 0 < len) {count : Nat}
    (h : count < lens.length) : (lens.take count).sum < lens.sum := by
  have hsplit := List.take_append_drop count lens
  have hrest : 0 < (lens.drop count).sum := by
    rw [List.drop_eq_getElem_cons h, List.sum_cons]
    have := hpos _ (List.getElem_mem h)
    omega
  have hsum := congrArg List.sum hsplit
  rw [List.sum_append] at hsum
  omega

theorem tokens_of_metadataOf {metadataParts : List (AttnMetadata Slot)} {counts : List Nat}
    (h : List.Forall₂ MetadataOf (metadataParts.map some) counts) :
    metadataParts.map (·.layer.numActualTokens) = counts := by
  rw [← List.map_id counts]
  symm
  apply Cuts.map_eq_map_of_forall₂
  rw [List.forall₂_map_left_iff] at h
  exact h.imp fun part count hpart => (hpart part rfl).1.2.symm

theorem exists_first_part (total : Nat) {parts : Nat} (hparts : 0 < parts) :
    ∃ num rest, (Cuts.startLocs (dataNums total parts)).dropLast.zip (dataNums total parts) =
      (0, num) :: rest := by
  cases hnums : dataNums total parts with
  | nil =>
      have hlength := @length_dataNums total parts hparts
      rw [hnums, List.length_nil] at hlength
      omega
  | cons num rest =>
      rw [Cuts.startLocs_cons, List.dropLast_cons_of_ne_nil (by simp [Cuts.startLocs_ne_nil])]
      exact ⟨num, _, rfl⟩

/-- Where all requests count as decodes, there are no prefills to split. -/
theorem PrefillBatch.splitBatch_eq_none (batch : PrefillBatch Slot)
    (hdecodes : batch.lens.length ≤ batch.numDecodes) {parts : Nat} (hparts : 1 < parts) :
    splitAttnMetadata (some batch.attnMetadata) parts 1 = none := by
  have hprefill : batch.attnMetadata.layer.prefill = none := by
    simp [PrefillBatch.attnMetadata, hdecodes]
  obtain ⟨num, rest, hzip⟩ := exists_first_part batch.attnMetadata.layer.numPrefills
    (by omega : 0 < parts)
  have hfirst : batchPart batch.attnMetadata 0 0 num 0 = none := by
    simp [batchPart, hprefill]
  simp [splitAttnMetadata, show parts ≠ 1 by omega, hparts,
    getDataNumAndOffset_eq (show 0 < parts by omega), hzip, batchParts, hfirst]

theorem PrefillBatch.splitSequence_eq_none (batch : PrefillBatch Slot)
    (hdecodes : batch.numDecodes ≠ 0) {parts : Nat} (hparts : 1 < parts) :
    splitAttnMetadata (some batch.attnMetadata) 1 parts = none := by
  obtain ⟨num, rest, hzip⟩ := exists_first_part batch.attnMetadata.common.numActualTokens
    (by omega : 0 < parts)
  have hlayer : batch.attnMetadata.layer.numDecodes ≠ 0 := hdecodes
  have hfirst : sequencePart batch.attnMetadata 0 num = none := by
    simp [sequencePart, hlayer]
  simp [splitAttnMetadata, show parts ≠ 1 by omega, hparts,
    getDataNumAndOffset_eq (show 0 < parts by omega), hzip, hfirst]

/-- The requests that count as decodes are in no part. -/
theorem PrefillBatch.tokens_lt_of_splitBatch {batch : PrefillBatch Slot}
    (hdecodes : batch.numDecodes ≠ 0) {parts : Nat} (hparts : 1 < parts)
    {metadataParts : List (AttnMetadata Slot)}
    (h : splitAttnMetadata (some batch.attnMetadata) parts 1 = some (metadataParts.map some)) :
    (metadataParts.map (·.layer.numActualTokens)).sum < batch.lens.sum := by
  have hle := batch.numDecodes_le
  rcases Nat.lt_or_ge batch.numDecodes batch.lens.length with hlt | hge
  · obtain ⟨parts', hsplit, hpartsOf, -⟩ := batch.splitBatch hlt hparts
    rw [hsplit, Option.some.injEq] at h
    rw [← List.map_injective_iff.mpr (Option.some_injective _) h, hpartsOf.layerTokens,
      sum_map_sum_splitLengths, sum_dataNums (by omega)]
    exact sum_take_lt batch.lens_pos (by omega)
  · rw [batch.splitBatch_eq_none hge hparts] at h
    cases h

theorem decodes_disagree_batch {batch : PrefillBatch Slot} (hdecodes : batch.numDecodes ≠ 0)
    (hinput : input.length = batch.lens.sum) {parts : Nat} (hparts : 1 < parts) :
    ¬SplittersAgree group dpParams (some batch.attnMetadata) input positions parts 1 := by
  rintro ⟨_, metadataParts, inputParts, _, _, hmetadata, _, _, _, hcounted, hflatten, _⟩
  have hle := batch.numDecodes_le
  rcases Nat.lt_or_ge batch.numDecodes batch.lens.length with hlt | hge
  · obtain ⟨parts', hsplit, -, -⟩ := batch.splitBatch hlt hparts
    have hlost := PrefillBatch.tokens_lt_of_splitBatch hdecodes hparts hsplit
    rw [hsplit, Option.some.injEq] at hmetadata
    subst hmetadata
    rw [tokens_of_metadataOf hcounted, ← List.length_flatten, hflatten, hinput] at hlost
    omega
  · rw [batch.splitBatch_eq_none hge hparts] at hmetadata
    cases hmetadata

theorem decodes_disagree_sequence {batch : PrefillBatch Slot} (hdecodes : batch.numDecodes ≠ 0)
    {parts : Nat} (hparts : 1 < parts) :
    ¬SplittersAgree group dpParams (some batch.attnMetadata) input positions 1 parts := by
  rintro ⟨_, _, _, _, _, hmetadata, _⟩
  rw [batch.splitSequence_eq_none hdecodes hparts] at hmetadata
  cases hmetadata

/-- What a plan can be: no split, a batch plan, or a sequence plan for at most one
request on every rank. -/
theorem attnMccPlan_cases (hstep : StepParams group (ownLens own) dpParams) {partsToSplit : Nat}
    {plan : Nat × Nat} (hplan : attnMccPlan (ownMetadata own) dpParams partsToSplit = some plan) :
    plan = (1, 1) ∨ (∀ params ∈ dpParams, params.dpIsPrefill.all id = true) ∧
      ∃ parts, (0 < parts ↔ 0 < partsToSplit) ∧
        (plan = (parts, 1) ∨ plan = (1, parts) ∧ (ownLens own).length ≤ 1) := by
  cases hstep with
  | single =>
      cases own with
      | none => exact .inl (Option.some.inj hplan).symm
      | some batch =>
          simp only [attnMccPlan, ownMetadata, Option.map_some] at hplan
          split at hplan
          · exact .inl (Option.some.inj hplan).symm
          · have hlength : batch.attnMetadata.layer.queryStartLoc.length - 1 =
                batch.lens.length := by simp [PrefillBatch.attnMetadata]
            rw [hlength] at hplan
            split at hplan
            · rename_i hmany
              refine .inr ⟨by simp, _, ?_, .inl (Option.some.inj hplan).symm⟩
              omega
            · rename_i hone
              split at hplan
              · exact .inl (Option.some.inj hplan).symm
              · rename_i maxQueryLen _
                split at hplan
                · exact .inl (Option.some.inj hplan).symm
                · rename_i hthreshold
                  refine .inr ⟨by simp, _, ?_, .inr ⟨(Option.some.inj hplan).symm, ?_⟩⟩
                  · unfold sequenceDimPartitionThreshold at hthreshold
                    omega
                  · exact Nat.le_of_not_lt hone
  | gathered lensPerRank dpIsPrefill lists params hsize hown hmake =>
      obtain ⟨-, -, -, -, hbatch⟩ := MLUDPMetadata.makeOot_eq_some hmake
      simp only [attnMccPlan] at hplan
      split at hplan
      · exact .inl (Option.some.inj hplan).symm
      · rename_i hprefill
        have hall : params.dpIsPrefill.all id = true := by simpa using hprefill
        rw [hbatch] at hplan
        simp only [Option.bind_eq_bind, Option.bind_some] at hplan
        obtain ⟨maxBs, hmaxBs, hplan⟩ := Option.bind_eq_some_iff.mp hplan
        obtain ⟨maxTokens, -, hplan⟩ := Option.bind_eq_some_iff.mp hplan
        split at hplan
        · split at hplan
          · exact .inl (Option.some.inj hplan).symm
          · refine .inr ⟨by rintro _ ⟨⟩; exact hall, _, ?_, .inl (Option.some.inj hplan).symm⟩
            omega
        · rename_i hone
          split at hplan
          · exact .inl (Option.some.inj hplan).symm
          · refine .inr ⟨by rintro _ ⟨⟩; exact hall, _, Iff.rfl,
              .inr ⟨(Option.some.inj hplan).symm, ?_⟩⟩
            have hmem := List.mem_of_getElem? hown
            have hle := (List.max?_eq_some_iff.mp hmaxBs).2 _ (List.mem_map_of_mem hmem)
            omega

/-- The splitters agree exactly on unsplit steps, and on those split into parts where
an idle rank meets a batch plan and no request of a batch counts as a decode. -/
theorem partition_agreement_iff (group : DPGroup) (own : Option (PrefillBatch Slot))
    {dpParams : Option MLUDPMetadata} (hstep : StepParams group (ownLens own) dpParams)
    {input : List α} (hinput : input.length = (ownLens own).sum) {positions : List β}
    (hpositions : positions.length = (ownLens own).sum) {partsToSplit : Nat} {plan : Nat × Nat}
    (hplan : attnMccPlan (ownMetadata own) dpParams partsToSplit = some plan) :
    SplittersAgree group dpParams (ownMetadata own) input positions plan.1 plan.2 ↔
      plan = (1, 1) ∨ 0 < partsToSplit ∧ (own = none → plan.2 = 1) ∧
        ∀ batch, own = some batch → batch.numDecodes = 0 := by
  have hpos : 0 < (ownLens own).sum := by
    cases own with
    | none => exact Nat.one_pos
    | some batch =>
        have hlt := sum_take_lt batch.lens_pos batch.length_pos
        rwa [List.take_zero, List.sum_nil] at hlt
  rcases attnMccPlan_cases hstep hplan with rfl | ⟨hprefill, parts, hparts, hcases⟩
  · exact iff_of_true (agree_unsplit hstep hinput) (.inl rfl)
  rcases Nat.lt_trichotomy parts 1 with hzero | hone | hmany
  · have hinput' : input ≠ [] := List.ne_nil_of_length_pos (by omega)
    apply iff_of_false
    · apply no_parts_disagree hinput'
      rcases hcases with rfl | ⟨rfl, -⟩
      · simp only; omega
      · simp only; omega
    · rintro (rfl | ⟨hsome, -⟩)
      · simp only [Prod.mk.injEq] at hcases
        omega
      · omega
  · subst hone
    have hplan' : plan = (1, 1) := by
      rcases hcases with h | ⟨h, -⟩ <;> exact h
    subst hplan'
    exact iff_of_true (agree_unsplit hstep hinput) (.inl rfl)
  · have hsplit : plan ≠ (1, 1) := by
      rintro rfl
      simp only [Prod.mk.injEq] at hcases
      omega
    rw [or_iff_right hsplit]
    rcases hcases with rfl | ⟨rfl, hlength⟩
    · cases own with
      | none =>
          obtain ⟨rest, rfl⟩ : ∃ rest, parts = rest + 2 := ⟨parts - 2, by omega⟩
          exact iff_of_true (agree_idle_batch hstep hprefill hinput rest)
            ⟨hparts.mp (by omega), fun _ => rfl, nofun⟩
      | some batch =>
          by_cases hdecodes : batch.numDecodes = 0
          · exact iff_of_true (agree_batch hstep hprefill hdecodes hinput hmany)
              ⟨hparts.mp (by omega), nofun, fun _ h => Option.some.inj h ▸ hdecodes⟩
          · exact iff_of_false (decodes_disagree_batch hdecodes hinput hmany)
              fun h => hdecodes (h.2.2 batch rfl)
    · cases own with
      | none =>
          apply iff_of_false
          · exact idle_sequence_disagrees (List.ne_nil_of_length_pos (by omega)) hmany
          · intro h
            have := h.2.1 rfl
            simp only at this
            omega
      | some batch =>
          by_cases hdecodes : batch.numDecodes = 0
          · obtain ⟨len, hlens⟩ := List.length_eq_one_iff.mp
              (Nat.le_antisymm hlength batch.length_pos)
            exact iff_of_true
              (agree_sequence hlens hstep hprefill hdecodes hinput hpositions hmany)
              ⟨hparts.mp (by omega), nofun, fun _ h => Option.some.inj h ▸ hdecodes⟩
          · exact iff_of_false (decodes_disagree_sequence hdecodes hmany)
              fun h => hdecodes (h.2.2 batch rfl)

/-- Two requests, cut into two parts without data parallelism. -/
def twoPrefills : PrefillBatch Nat where
  lens := [3, 1]
  slots := [8, 9, 10, 16]
  numDecodes := 0
  lens_ne_nil := by decide
  lens_pos := by decide
  length_slots := rfl
  numDecodes_le := by decide

theorem partition_agreement_two_parts :
    SplittersAgree ⟨0, 1, 1, false⟩ none (ownMetadata (some twoPrefills)) [5, 6, 7, 5]
      [0, 1, 2, 0] 2 1 :=
  (partition_agreement_iff _ (some twoPrefills) .single rfl rfl
    (show attnMccPlan _ none 2 = some (2, 1) by decide)).mpr
      (.inr ⟨by decide, nofun, fun _ h => Option.some.inj h ▸ rfl⟩)

/-- Rank 0 of two. -/
def firstOfTwo : DPGroup where
  dpRank := 0
  dataParallelSize := 2
  tensorParallelSize := 1
  prefillDispatchUseRSAG := false

/-- An idle rank beside one that prefills 2000 tokens: the plan is two parts of the
sequence, in which the dummy batch has one input row but no position. -/
theorem idle_rank_loses_position :
    ∃ params, StepParams firstOfTwo [1] (some params) ∧
      attnMccPlan (none : Option (AttnMetadata Nat)) (some params) 2 = some (1, 2) ∧
      ¬SplittersAgree firstOfTwo (some params) (none : Option (AttnMetadata Nat)) [7] [0] 1 2 :=
  ⟨_, .gathered [[1], [2000]] [true, true] {} _ rfl rfl rfl, by decide,
    idle_sequence_disagrees (by decide) (by decide)⟩

end Agreement

end VllmMlu.Parallel
