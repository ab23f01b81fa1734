import VllmMlu.Library.Swaps
import VllmMlu.Worker.InferMode

/-! The decodes and the prefills of a batch as `FlashMLAMetadataBuilder` and the inference
mode see them: `reorder_batch` counts by the progress of the prompts, `build` by the lengths
of the queries, the mode by the longest query and the most computed tokens. -/
namespace VllmMlu.Worker
open VllmMlu.Library Swaps

/-- A scheduled request. -/
structure BatchRequest where
  numTokens : Nat
  numComputedTokens : Nat
  numPromptTokens : Nat
  scheduled : 0 < numTokens
  prompt : 0 < numPromptTokens

/-- `reorder_batch` takes a request for a decode. -/
def BatchRequest.isDecode (numSpeculativeTokens : Nat) (request : BatchRequest) : Bool :=
  request.numTokens ≤ 1 + numSpeculativeTokens ∧ request.numPromptTokens ≤ request.numComputedTokens

/-- `FlashMLAMetadataBuilder.reorder_batch`: the decodes in front, by as few swaps as possible. -/
def reorderBatch (numSpeculativeTokens : Nat) (batch : List BatchRequest) : List BatchRequest :=
  bringForward (BatchRequest.isDecode numSpeculativeTokens) batch

/-- The number of requests that `reorder_batch` counts as decodes. -/
def numReorderedDecodes (numSpeculativeTokens : Nat) (batch : List BatchRequest) : Nat :=
  (batch.filter (BatchRequest.isDecode numSpeculativeTokens)).length

/-- vLLM's `split_decodes_and_prefills`: the requests before the first whose query is longer
than the threshold. -/
def splitDecodesAndPrefills (decodeThreshold : Nat) (queryLens : List Nat) : Nat × Nat :=
  let numDecodes := (queryLens.takeWhile (· ≤ decodeThreshold)).length
  (numDecodes, queryLens.length - numDecodes)

/-- The split of `build`, to which the runner passes no input batch. -/
def buildSplit (numSpeculativeTokens : Nat) (batch : List BatchRequest) : Nat × Nat :=
  splitDecodesAndPrefills (1 + numSpeculativeTokens) (batch.map BatchRequest.numTokens)

/-- The mode of a batch that the runner gives to `MLUInferMode.build`. -/
def batchMode (numSpeculativeTokens : Nat) (batch : List BatchRequest) : MLUInferMode :=
  .build ((batch.map BatchRequest.numTokens).foldl max 0)
    ((batch.map BatchRequest.numComputedTokens).foldl max 0 : Nat) (1 + numSpeculativeTokens)

/-- After the reordering the three classifications agree on every request. -/
structure SplitAgrees (numSpeculativeTokens : Nat) (batch : List BatchRequest) : Prop where
  count : (buildSplit numSpeculativeTokens (reorderBatch numSpeculativeTokens batch)).1 =
    numReorderedDecodes numSpeculativeTokens batch
  rows : ∀ i request, (reorderBatch numSpeculativeTokens batch)[i]? = some request →
    (i < (buildSplit numSpeculativeTokens (reorderBatch numSpeculativeTokens batch)).1 ↔
      request.isDecode numSpeculativeTokens = true)
  prefillOnly :
    batchMode numSpeculativeTokens (reorderBatch numSpeculativeTokens batch) = .prefillOnly →
      (buildSplit numSpeculativeTokens (reorderBatch numSpeculativeTokens batch)).1 = 0 ∧
        ∀ request ∈ reorderBatch numSpeculativeTokens batch,
          request.isDecode numSpeculativeTokens = false
  decodeOnly :
    batchMode numSpeculativeTokens (reorderBatch numSpeculativeTokens batch) = .decodeOnly →
      (buildSplit numSpeculativeTokens (reorderBatch numSpeculativeTokens batch)).2 = 0 ∧
        ∀ request ∈ reorderBatch numSpeculativeTokens batch,
          request.isDecode numSpeculativeTokens = true

/-- The prefill that ends up first behind the decodes: the last one among the requests up to
the place behind them. -/
def leadingPrefill (numSpeculativeTokens : Nat) (batch : List BatchRequest) :
    Option BatchRequest :=
  ((batch.take (numReorderedDecodes numSpeculativeTokens batch + 1)).filter fun request =>
    !request.isDecode numSpeculativeTokens).getLast?

theorem length_takeWhile_eq_iff {α : Type} {p : α → Bool} {xs : List α} {count : Nat}
    (hcount : count ≤ xs.length)
    (hfront : ∀ i x, i < count → xs[i]? = some x → p x = true) :
    (xs.takeWhile p).length = count ↔ ∀ x, xs[count]? = some x → p x = false := by
  have htake : ∀ x ∈ xs.take count, p x = true := by
    intro x hmem
    obtain ⟨i, hi⟩ := List.mem_iff_getElem?.mp hmem
    have hlt : i < count := by
      have := (List.getElem?_eq_some_iff.mp hi).1
      rw [List.length_take] at this
      omega
    exact hfront i x hlt (by rwa [List.getElem?_take_of_lt hlt] at hi)
  have hsplit : (xs.takeWhile p).length = count + ((xs.drop count).takeWhile p).length := by
    conv_lhs => rw [← List.take_append_drop count xs]
    rw [List.takeWhile_append_of_pos htake, List.length_append, List.length_take,
      Nat.min_eq_left hcount]
  rw [hsplit]
  cases hnext : xs[count]? with
  | none =>
      rw [List.drop_eq_nil_of_le (List.getElem?_eq_none_iff.mp hnext)]
      simp
  | some x =>
      obtain ⟨hlt, hx⟩ := List.getElem?_eq_some_iff.mp hnext
      rw [List.drop_eq_getElem_cons hlt, hx, List.takeWhile_cons]
      cases hpx : p x with
      | true => simp [hpx]
      | false => simp [hpx]

section Split

variable {numSpeculativeTokens : Nat} {batch : List BatchRequest}

theorem buildSplit_eq (batch : List BatchRequest) :
    (buildSplit numSpeculativeTokens batch).1 =
      (batch.takeWhile fun request => request.numTokens ≤ 1 + numSpeculativeTokens).length := by
  rw [buildSplit, splitDecodesAndPrefills, List.takeWhile_map, List.length_map]
  rfl

theorem numReorderedDecodes_le :
    numReorderedDecodes numSpeculativeTokens batch ≤
      (reorderBatch numSpeculativeTokens batch).length := by
  rw [reorderBatch, length_bringForward]
  exact List.length_filter_le _ _

theorem count_eq_iff :
    (buildSplit numSpeculativeTokens (reorderBatch numSpeculativeTokens batch)).1 =
        numReorderedDecodes numSpeculativeTokens batch ↔
      ∀ request, leadingPrefill numSpeculativeTokens batch = some request →
        1 + numSpeculativeTokens < request.numTokens := by
  have hnext : (reorderBatch numSpeculativeTokens batch)[
      numReorderedDecodes numSpeculativeTokens batch]? = leadingPrefill numSpeculativeTokens batch :=
    bringForward_next _ batch
  rw [buildSplit_eq, length_takeWhile_eq_iff numReorderedDecodes_le, hnext]
  · simp only [decide_eq_false_iff_not, not_le]
  · intro i request hi hget
    have hdecode := (bringForward_front _ batch hget).mp hi
    simp only [BatchRequest.isDecode, decide_eq_true_eq] at hdecode ⊢
    exact hdecode.1

theorem batchMode_decodeOnly (batch : List BatchRequest) :
    batchMode numSpeculativeTokens batch = .decodeOnly ↔
      ∀ request ∈ batch, request.numTokens ≤ 1 + numSpeculativeTokens := by
  rw [batchMode, MLUInferMode.build_eq_decodeOnly, foldl_max_le_iff]
  simp

theorem batchMode_prefillOnly (batch : List BatchRequest) :
    batchMode numSpeculativeTokens batch = .prefillOnly →
      ∀ request ∈ batch, request.numComputedTokens = 0 := by
  intro hmode request hmem
  have hzero : (batch.map BatchRequest.numComputedTokens).foldl max 0 ≤ 0 := by
    have := MLUInferMode.maxComputedTokens_of_prefillOnly hmode
    omega
  exact Nat.le_zero.mp
    (((foldl_max_le_iff _ 0 0).mp hzero).2 _ (List.mem_map_of_mem hmem))

/-- A prompt that has not begun is no decode. -/
theorem BatchRequest.isDecode_of_not_begun {request : BatchRequest}
    (hcomputed : request.numComputedTokens = 0) :
    request.isDecode numSpeculativeTokens = false := by
  have := request.prompt
  simp only [BatchRequest.isDecode, decide_eq_false_iff_not]
  omega

theorem buildSplit_of_short (hshort : ∀ request ∈ batch,
      request.numTokens ≤ 1 + numSpeculativeTokens) :
    buildSplit numSpeculativeTokens batch = (batch.length, 0) := by
  have hall : (batch.takeWhile fun request =>
      decide (request.numTokens ≤ 1 + numSpeculativeTokens)) = batch := by
    rw [List.takeWhile_eq_self_iff]
    simpa using hshort
  have hfst : (buildSplit numSpeculativeTokens batch).1 = _ := buildSplit_eq batch
  rw [hall] at hfst
  apply Prod.ext
  · exact hfst
  · change (batch.map BatchRequest.numTokens).length -
      (buildSplit numSpeculativeTokens batch).1 = 0
    rw [hfst, List.length_map, Nat.sub_self]

/-- The split of `build`, the count of `reorder_batch` and the inference mode agree exactly
if the prefill that ends up first behind the decodes is longer than a decode may be. -/
theorem split_agrees_iff (numSpeculativeTokens : Nat) (batch : List BatchRequest) :
    SplitAgrees numSpeculativeTokens batch ↔
      ∀ request, leadingPrefill numSpeculativeTokens batch = some request →
        1 + numSpeculativeTokens < request.numTokens := by
  rw [← count_eq_iff]
  constructor
  · exact SplitAgrees.count
  · intro hcount
    have hrows : ∀ i request, (reorderBatch numSpeculativeTokens batch)[i]? = some request →
        (i < (buildSplit numSpeculativeTokens (reorderBatch numSpeculativeTokens batch)).1 ↔
          request.isDecode numSpeculativeTokens = true) := by
      intro i request hget
      rw [hcount]
      exact bringForward_front _ batch hget
    refine ⟨hcount, hrows, ?_, ?_⟩
    · intro hmode
      have hprefill : ∀ request ∈ reorderBatch numSpeculativeTokens batch,
          request.isDecode numSpeculativeTokens = false := fun request hmem =>
        BatchRequest.isDecode_of_not_begun (batchMode_prefillOnly _ hmode request hmem)
      refine ⟨?_, hprefill⟩
      by_contra hpos
      have hlt : 0 < (reorderBatch numSpeculativeTokens batch).length := by
        have hle : numReorderedDecodes numSpeculativeTokens batch ≤ _ := numReorderedDecodes_le
        omega
      have hdecode := (hrows 0 _ (List.getElem?_eq_getElem hlt)).mp (by omega)
      rw [hprefill _ (List.getElem_mem hlt)] at hdecode
      cases hdecode
    · intro hmode
      have hsplit := buildSplit_of_short ((batchMode_decodeOnly _).mp hmode)
      refine ⟨by rw [hsplit], fun request hmem => ?_⟩
      obtain ⟨i, hi⟩ := List.mem_iff_getElem?.mp hmem
      refine (hrows i request hi).mp ?_
      rw [hsplit]
      exact (List.getElem?_eq_some_iff.mp hi).1

/-- A decode and a new prompt of one token: the mode and the split of `build` take both for
decodes. -/
theorem short_prompt_is_a_decode :
    ¬SplitAgrees 0
      [{ numTokens := 1, numComputedTokens := 5, numPromptTokens := 4,
         scheduled := by decide, prompt := by decide },
       { numTokens := 1, numComputedTokens := 0, numPromptTokens := 1,
         scheduled := by decide, prompt := by decide }] := fun hagrees =>
  absurd hagrees.count (by decide)

end Split

end VllmMlu.Worker
