import VllmMlu.Worker.FlashMLA
import VllmMlu.Worker.LocalIdMapper

/-! The slots in which the recurrent states of a linear-attention model are kept from one step
to the next, as `GDNAttentionMetadataBuilder.build` gives them to the kernels. -/
namespace VllmMlu.Worker
open VllmMlu.Library VllmMlu.Sched

def padSlotId : Int := -1

/-- The blocks of a request: its row of the block table, of which a speculative step uses one
for each token. -/
structure StateBlocks (numSpec : Nat) where
  ids : List Int
  filled : numSpec < ids.length
  valid : ∀ id ∈ ids, 0 ≤ id

namespace StateBlocks

variable {numSpec : Nat}

/-- `block_table_tensor[:, 0]`. -/
def first (blocks : StateBlocks numSpec) : Int :=
  blocks.ids.get ⟨0, Nat.zero_lt_of_lt blocks.filled⟩

/-- `block_table_tensor[:, : num_spec + 1]`. -/
def window (blocks : StateBlocks numSpec) : List Int := blocks.ids.take (numSpec + 1)

theorem length_window (blocks : StateBlocks numSpec) : blocks.window.length = numSpec + 1 := by
  have := blocks.filled
  rw [window, List.length_take]
  omega

theorem first_mem (blocks : StateBlocks numSpec) : blocks.first ∈ blocks.ids :=
  List.getElem_mem _

end StateBlocks

/-- What the runner gives to the builder of one sequence. -/
structure GdnSequence (numSpec : Nat) where
  queryLen : Nat
  scheduled : 0 < queryLen
  numComputedTokens : Nat
  blockTable : StateBlocks numSpec
  numDecodeDraftTokens : Int
  numAcceptedTokens : Nat

/-- `spec_sequence_masks` at this sequence. -/
def GdnSequence.isSpec {numSpec : Nat} (seq : GdnSequence numSpec) : Bool :=
  0 ≤ seq.numDecodeDraftTokens

structure GdnConfig where
  numSpec : Nat
  useFullCudaGraph : Bool
  decodeCudagraphMaxBs : Nat
  padForCudagraph : Nat → Nat
  pads : ∀ numTokens, numTokens ≤ padForCudagraph numTokens
  setOrder : List Int → List Int
  ordered : ∀ misses, (setOrder misses).Perm misses

inductive GdnError where
  /-- `None` has no `device`. -/
  | attributeError
  | keyError (reqId : ReqId)
  | mapper (err : MapperError)
deriving DecidableEq, Repr

structure GDNAttentionMetadata where
  numPrefills : Nat
  numPrefillTokens : Nat
  numDecodes : Nat
  numDecodeTokens : Nat
  numSpecDecodes : Nat
  numSpecDecodeTokens : Nat
  numActualTokens : Nat
  hasInitialState : Option (List Bool)
  specStateIndicesTensor : Option (List (List Int))
  nonSpecStateIndicesTensor : List Nat
  specSequenceMasks : Option (List Bool)
  numAcceptedTokens : Option (List Nat)

namespace GdnConfig

/-- `spec_sequence_masks is not None`; `drafts` says that the step has scheduled drafts, with
which the runner passes their numbers. -/
def usesMasks (config : GdnConfig) (drafts : Bool) (seqs : List (GdnSequence config.numSpec)) :
    Bool :=
  0 < config.numSpec && drafts &&
    ((seqs.map GdnSequence.numDecodeDraftTokens).filter (0 ≤ ·)).sum ≠ 0 &&
    (seqs.filter GdnSequence.isSpec).length ≠ 0

/-- The sequences that are not handled as speculative ones. -/
def nonSpecSequences (config : GdnConfig) (drafts : Bool)
    (seqs : List (GdnSequence config.numSpec)) : List (GdnSequence config.numSpec) :=
  if config.usesMasks drafts seqs then seqs.filter fun seq => !seq.isSpec else seqs

/-- `(num_decodes, num_prefills, num_decode_tokens, num_prefill_tokens)`. -/
def splitCounts (config : GdnConfig) (drafts : Bool) (seqs : List (GdnSequence config.numSpec)) :
    Nat × Nat × Nat × Nat :=
  let queryLens := (config.nonSpecSequences drafts seqs).map GdnSequence.queryLen
  if config.usesMasks drafts seqs then
    let numDecodes := (queryLens.filter (· = 1)).length
    (numDecodes, queryLens.length - numDecodes, numDecodes, queryLens.sum - numDecodes)
  else
    let split := splitDecodesAndPrefills 1 queryLens
    (split.1, split.2, (queryLens.take split.1).sum, (queryLens.drop split.1).sum)

/-- A step of decodes alone is padded for its graph. -/
def padded (config : GdnConfig) (drafts : Bool) (seqs : List (GdnSequence config.numSpec)) :
    Bool :=
  config.useFullCudaGraph && (config.splitCounts drafts seqs).2.1 = 0 &&
    !config.usesMasks drafts seqs && (config.splitCounts drafts seqs).1 ≤ config.decodeCudagraphMaxBs

/-- `pad_for_cudagraph(m.num_actual_tokens)`. -/
def paddedTokens (config : GdnConfig) (seqs : List (GdnSequence config.numSpec)) : Nat :=
  config.padForCudagraph (seqs.map GdnSequence.queryLen).sum

/-- `non_spec_state_indices_tensor` before the mapper; `None` if all sequences are
speculative. -/
def nonSpecBlocks (config : GdnConfig) (drafts : Bool) (seqs : List (GdnSequence config.numSpec)) :
    Option (List Int) :=
  let blocks := (config.nonSpecSequences drafts seqs).map fun seq => seq.blockTable.first
  if config.usesMasks drafts seqs && (config.nonSpecSequences drafts seqs).length = 0 then none
  else if config.padded drafts seqs then
    let batchSize := min config.decodeCudagraphMaxBs (config.paddedTokens seqs)
    some (blocks.take batchSize ++
      List.replicate (batchSize - (config.splitCounts drafts seqs).1) padSlotId)
  else some blocks

/-- The metadata with the slots that the mapper has given for the blocks. -/
def metadata (config : GdnConfig) (drafts : Bool) (seqs : List (GdnSequence config.numSpec))
    (localIds : List Nat) : GDNAttentionMetadata :=
  let spec := seqs.filter GdnSequence.isSpec
  let nonSpec := config.nonSpecSequences drafts seqs
  let counts := config.splitCounts drafts seqs
  let masked := config.usesMasks drafts seqs
  let numSpecDecodeTokens :=
    if masked then (seqs.map GdnSequence.queryLen).sum - counts.2.2.2 - counts.2.2.1 else 0
  { numPrefills := counts.2.1
    numPrefillTokens := counts.2.2.2
    numDecodes := counts.1
    numDecodeTokens := counts.2.2.1
    numSpecDecodes := if masked then spec.length else 0
    numSpecDecodeTokens := numSpecDecodeTokens
    numActualTokens :=
      if config.padded drafts seqs then config.paddedTokens seqs
      else counts.2.2.2 + counts.2.2.1 + numSpecDecodeTokens
    hasInitialState :=
      if 0 < counts.2.1 then some (nonSpec.map fun seq => decide (0 < seq.numComputedTokens))
      else none
    specStateIndicesTensor :=
      if masked then some (spec.map fun seq => seq.blockTable.window) else none
    nonSpecStateIndicesTensor := localIds
    specSequenceMasks := if masked then some (seqs.map GdnSequence.isSpec) else none
    numAcceptedTokens :=
      if masked then some (spec.map GdnSequence.numAcceptedTokens) else none }

/-- `GDNAttentionMetadataBuilder.build` of a step, which has at least one sequence: only the
blocks of the other sequences go through the mapper, and it is called on `None` if there are
none. -/
def build (config : GdnConfig) (mapper : DeviceAwareLocalIdMapper) (drafts : Bool)
    (seqs : List (GdnSequence config.numSpec)) :
    Except GdnError (GDNAttentionMetadata × DeviceAwareLocalIdMapper) :=
  match config.nonSpecBlocks drafts seqs with
  | none => .error .attributeError
  | some blocks =>
      match mapper.batchGetLocalIds config.setOrder blocks with
      | .error err => .error (.mapper err)
      | .ok (localIds, next) => .ok (config.metadata drafts seqs localIds, next)

end GdnConfig

/-- Where a kernel keeps the state of a sequence: in one slot, or in one for each token of a
speculative sequence. -/
inductive StateSlots where
  | inPlace (slot : Int)
  | perToken (slots : List Int)
deriving DecidableEq, Repr

def StateSlots.ofLocalId (localId : Nat) : StateSlots := .inPlace localId

/-- The slot of the state after that many accepted tokens. -/
def StateSlots.after (accepted : Nat) : StateSlots → Option Int
  | .inPlace slot => some slot
  | .perToken slots => slots[accepted - 1]?

/-- The slots that the kernels use for the sequence at `index`. -/
def GDNAttentionMetadata.stateSlots (metadata : GDNAttentionMetadata) (index : Nat) :
    Option StateSlots :=
  match metadata.specSequenceMasks, metadata.specStateIndicesTensor with
  | some masks, some specStateIndices =>
      if masks[index]? = some true then
        specStateIndices[(masks.take index).count true]?.map .perToken
      else
        metadata.nonSpecStateIndicesTensor[(masks.take index).count false]?.map .ofLocalId
  | _, _ => metadata.nonSpecStateIndicesTensor[index]?.map .ofLocalId

theorem getElem?_filter_countP {α : Type} {p : α → Bool} {xs : List α} {i : Nat} {x : α}
    (hget : xs[i]? = some x) (hp : p x = true) :
    (xs.filter p)[(xs.take i).countP p]? = some x := by
  obtain ⟨hlt, hx⟩ := List.getElem?_eq_some_iff.mp hget
  have hsplit : xs = xs.take i ++ x :: xs.drop (i + 1) := by
    rw [← hx, ← List.drop_eq_getElem_cons hlt, List.take_append_drop]
  have hfilter : xs.filter p = (xs.take i).filter p ++ x :: (xs.drop (i + 1)).filter p := by
    conv_lhs => rw [hsplit]
    rw [List.filter_append, List.filter_cons_of_pos hp]
  rw [hfilter, List.countP_eq_length_filter, List.getElem?_append_right (Nat.le_refl _),
    Nat.sub_self]
  rfl

section Slots

variable {config : GdnConfig} {drafts : Bool} {seqs : List (GdnSequence config.numSpec)}

theorem stateSlots_of_isSpec (localIds : List Nat) {i : Nat} {seq : GdnSequence config.numSpec}
    (hmasks : config.usesMasks drafts seqs = true) (hget : seqs[i]? = some seq)
    (hspec : seq.isSpec = true) :
    (config.metadata drafts seqs localIds).stateSlots i =
      some (.perToken seq.blockTable.window) := by
  have hcount : ((seqs.map GdnSequence.isSpec).take i).count true =
      (seqs.take i).countP GdnSequence.isSpec := by
    rw [← List.map_take, List.count, List.countP_map]
    congr 1
    funext seq
    simp
  simp only [GDNAttentionMetadata.stateSlots, GdnConfig.metadata, hmasks, if_true,
    List.getElem?_map, hget, Option.map_some, hspec, hcount, getElem?_filter_countP hget hspec]

/-- Where a sequence that is not handled as speculative stands among those that are not. -/
theorem stateSlots_of_not_spec {i : Nat} {seq : GdnSequence config.numSpec}
    (hget : seqs[i]? = some seq)
    (hspec : (config.usesMasks drafts seqs && seq.isSpec) = false) :
    ∃ j : Nat, (config.nonSpecSequences drafts seqs)[j]? = some seq ∧
      ∀ localIds : List Nat, (config.metadata drafts seqs localIds).stateSlots i =
        localIds[j]?.map .ofLocalId := by
  cases hmasks : config.usesMasks drafts seqs with
  | false =>
      refine ⟨i, by simpa [GdnConfig.nonSpecSequences, hmasks] using hget, fun localIds => ?_⟩
      simp [GDNAttentionMetadata.stateSlots, GdnConfig.metadata, hmasks]
  | true =>
      have hother : seq.isSpec = false := by simpa [hmasks] using hspec
      have hcount : ((seqs.map GdnSequence.isSpec).take i).count false =
          (seqs.take i).countP fun seq => !seq.isSpec := by
        rw [← List.map_take, List.count, List.countP_map]
        congr 1
        funext seq
        simp
      refine ⟨(seqs.take i).countP fun seq => !seq.isSpec, ?_, fun localIds => ?_⟩
      · rw [GdnConfig.nonSpecSequences, hmasks, if_pos rfl]
        exact getElem?_filter_countP (p := fun seq => !seq.isSpec) hget (by simp [hother])
      · simp [GDNAttentionMetadata.stateSlots, GdnConfig.metadata, hmasks, hget, hother, hcount]

/-- In a padded step every sequence is a decode, and the padding has room for them. -/
theorem length_le_of_padded (hpadded : config.padded drafts seqs = true) :
    (config.nonSpecSequences drafts seqs).length = (config.splitCounts drafts seqs).1 ∧
      (config.splitCounts drafts seqs).1 ≤
        min config.decodeCudagraphMaxBs (config.paddedTokens seqs) := by
  simp only [GdnConfig.padded, Bool.and_eq_true, decide_eq_true_eq, Bool.not_eq_true'] at hpadded
  obtain ⟨⟨⟨-, hprefills⟩, hmasks⟩, hbound⟩ := hpadded
  have hnonSpec : config.nonSpecSequences drafts seqs = seqs := by
    rw [GdnConfig.nonSpecSequences, hmasks]
    rfl
  have hcounts : (config.splitCounts drafts seqs).1 + (config.splitCounts drafts seqs).2.1 =
      seqs.length := by
    simp only [GdnConfig.splitCounts, hmasks, hnonSpec, splitDecodesAndPrefills]
    have := (List.takeWhile_sublist (· ≤ 1) (l := seqs.map GdnSequence.queryLen)).length_le
    simp only [List.length_map] at this ⊢
    simp only [Bool.false_eq_true, if_false]
    omega
  have hsum : seqs.length ≤ (seqs.map GdnSequence.queryLen).sum := by
    have := List.length_le_sum_of_one_le (seqs.map GdnSequence.queryLen) (by
      intro queryLen hmem
      obtain ⟨seq, -, rfl⟩ := List.mem_map.mp hmem
      exact seq.scheduled)
    simpa using this
  have hpads := config.pads (seqs.map GdnSequence.queryLen).sum
  rw [hnonSpec]
  refine ⟨by omega, Nat.le_min.mpr ⟨hbound, ?_⟩⟩
  rw [GdnConfig.paddedTokens]
  omega

theorem some_nonSpec
    (hsome : config.usesMasks drafts seqs = true → ∃ seq ∈ seqs, seq.isSpec = false) :
    (config.usesMasks drafts seqs && (config.nonSpecSequences drafts seqs).length = 0) =
      false := by
  rw [Bool.and_eq_false_imp]
  intro hmasks
  obtain ⟨seq, hmem, hother⟩ := hsome hmasks
  have hin : seq ∈ config.nonSpecSequences drafts seqs := by
    rw [GdnConfig.nonSpecSequences, hmasks, if_pos rfl, List.mem_filter]
    exact ⟨hmem, by simp [hother]⟩
  have hpos := List.length_pos_of_mem hin
  simp only [decide_eq_false_iff_not]
  omega

/-- The mapper is given the first block of each sequence that is not speculative, and perhaps
padding. -/
theorem nonSpecBlocks_spec
    (hsome : config.usesMasks drafts seqs = true → ∃ seq ∈ seqs, seq.isSpec = false) :
    ∃ blocks, config.nonSpecBlocks drafts seqs = some blocks ∧
      (∀ (j : Nat) seq, (config.nonSpecSequences drafts seqs)[j]? = some seq →
        blocks[j]? = some seq.blockTable.first) ∧
      ∀ block ∈ blocks, block = padSlotId ∨
        ∃ seq ∈ config.nonSpecSequences drafts seqs, block = seq.blockTable.first := by
  unfold GdnConfig.nonSpecBlocks
  simp only [some_nonSpec hsome, Bool.false_eq_true, if_false]
  split
  · rename_i hpadded
    obtain ⟨hlength, hroom⟩ := length_le_of_padded hpadded
    rw [List.take_of_length_le (by rw [List.length_map, hlength]; exact hroom)]
    refine ⟨_, rfl, fun j seq hget => ?_, fun block hmem => ?_⟩
    · rw [List.getElem?_append_left (by
        rw [List.length_map]
        exact (List.getElem?_eq_some_iff.mp hget).1), List.getElem?_map, hget]
      rfl
    · rcases List.mem_append.mp hmem with hmem | hmem
      · obtain ⟨seq, hseq, rfl⟩ := List.mem_map.mp hmem
        exact .inr ⟨seq, hseq, rfl⟩
      · exact .inl (List.eq_of_mem_replicate hmem)
  · refine ⟨_, rfl, fun j seq hget => by rw [List.getElem?_map, hget]; rfl, fun block hmem => ?_⟩
    obtain ⟨seq, hseq, rfl⟩ := List.mem_map.mp hmem
    exact .inr ⟨seq, hseq, rfl⟩

/-- If all sequences of a step are speculative, the mapper is called on `None`. -/
theorem build_all_speculative (mapper : DeviceAwareLocalIdMapper)
    (hmasks : config.usesMasks drafts seqs = true) (hall : ∀ seq ∈ seqs, seq.isSpec = true) :
    config.build mapper drafts seqs = .error .attributeError := by
  have hnone : config.nonSpecSequences drafts seqs = [] := by
    rw [GdnConfig.nonSpecSequences, hmasks, if_pos rfl, List.filter_eq_nil_iff]
    intro seq hmem
    simp [hall seq hmem]
  have hblocks : config.nonSpecBlocks drafts seqs = none := by
    unfold GdnConfig.nonSpecBlocks
    rw [if_pos (by simp [hmasks, hnone])]
  rw [GdnConfig.build, hblocks]

end Slots

end VllmMlu.Worker
