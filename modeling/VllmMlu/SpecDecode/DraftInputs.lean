import VllmMlu.SpecDecode.Eagle

/-! The inputs of the drafter: the tokens of a verified batch that are kept, and where the last
accepted token of each request stands. -/
namespace VllmMlu.SpecDecode
open VllmMlu.Library VllmMlu.Library.Cuts VllmMlu.Library.Packed VllmMlu.Worker

variable {α Slot : Type}

/-- A request of a verified batch, with the number of its tokens that are rejected. -/
structure QueryRequest where
  numComputedTokens : Nat
  queryLen : Nat
  numRejected : Nat
  numRejected_lt : numRejected < queryLen

namespace QueryRequest

def seqLen (request : QueryRequest) : Nat := request.numComputedTokens + request.queryLen

def keptLen (request : QueryRequest) : Nat := request.queryLen - request.numRejected

end QueryRequest

/-- A packed batch and its metadata. -/
structure QueryBatch (Slot : Type) where
  requests : List QueryRequest
  metadata : DraftMetadata Slot
  maxNumTokens : Nat
  ne_nil : requests ≠ []
  numReqs_eq : metadata.numReqs = requests.length
  queryStartLoc_eq : metadata.queryStartLoc = startLocs (requests.map QueryRequest.queryLen)
  seqLens_eq : metadata.seqLens = requests.map QueryRequest.seqLen
  length_slotMapping :
    metadata.slotMapping.length = (requests.map QueryRequest.queryLen).sum
  fits : (requests.map QueryRequest.queryLen).sum ≤ maxNumTokens

/-- A request whose tokens are rejected by the number of valid sampled tokens. -/
structure DraftRequest extends QueryRequest where
  numDraftTokens : Nat
  validCount : Nat
  queryLen_eq : 0 < numDraftTokens → queryLen = numDraftTokens + 1
  valid_pos : 0 < numDraftTokens → 1 ≤ validCount
  valid_le : 0 < numDraftTokens → validCount ≤ numDraftTokens + 1
  numRejected_eq :
    numRejected = if 0 < numDraftTokens then numDraftTokens + 1 - validCount else 0

/-- The place of the last accepted token among the tokens of a request. -/
def DraftRequest.lastAccepted (request : DraftRequest) : Nat :=
  if 0 < request.numDraftTokens then request.validCount - 1 else request.queryLen - 1

structure DraftBatch (Slot : Type) where
  requests : List DraftRequest
  batch : QueryBatch Slot
  requests_eq : batch.requests = requests.map DraftRequest.toQueryRequest

theorem takeAt_spec {values : List α} {indices : List Nat} (h : ∀ i ∈ indices, i < values.length) :
    ∃ taken, takeAt values indices = some taken ∧
      List.Forall₂ (fun i value => values[i]? = some value) indices taken := by
  apply exists_mapM
  intro i hi
  have hget := List.getElem?_eq_getElem (h i hi)
  exact ⟨_, hget, hget⟩

namespace QueryBatch

variable (batch : QueryBatch Slot)

def queryLens : List Nat := batch.requests.map QueryRequest.queryLen

def keptLens : List Nat := batch.requests.map QueryRequest.keptLen

/-- The kept places of the packed batch: the first ones of each request's own range. -/
def keptIndices : List Nat :=
  (List.zipWith List.range' (startLocs batch.queryLens) batch.keptLens).flatten

variable {batch}

theorem keptLens_le : List.Forall₂ (· ≤ ·) batch.keptLens batch.queryLens := by
  rw [keptLens, queryLens, List.forall₂_map_left_iff, List.forall₂_map_right_iff]
  exact List.forall₂_same.mpr fun request _ => Nat.sub_le _ _

theorem keptIndices_lt {i : Nat} (h : i ∈ batch.keptIndices) : i < batch.queryLens.sum := by
  have hlt := lt_of_mem_parts keptLens_le h
  rwa [Nat.zero_add] at hlt

theorem keptLens_sum_le : batch.keptLens.sum ≤ batch.queryLens.sum :=
  keptLens_le.sum_le_sum

theorem seqLens_ne_nil : batch.metadata.seqLens ≠ [] := by
  rw [batch.seqLens_eq]
  simpa using batch.ne_nil

theorem queryLens_ne_nil : batch.queryLens ≠ [] := by
  rw [queryLens]
  simpa using batch.ne_nil

/-- The kept tokens, and the metadata that describes them. -/
theorem prepareInputs_spec :
    ∃ spec, prepareInputs batch.maxNumTokens batch.metadata
        (batch.requests.map QueryRequest.numRejected) = some (spec, batch.keptIndices) ∧
      spec.queryStartLoc = startLocs batch.keptLens ∧
      spec.seqLens = batch.requests.map (fun request => request.seqLen - request.numRejected) ∧
      spec.seqStartLoc = startLocs spec.seqLens ∧
      List.Forall₂ (fun i slot => batch.metadata.slotMapping[i]? = some slot) batch.keptIndices
        spec.slotMapping ∧
      spec.numReqs = batch.metadata.numReqs ∧ spec.inferMode = batch.metadata.inferMode := by
  have hkept : List.zipWith (· - ·) (diffs batch.metadata.queryStartLoc)
      (batch.requests.map QueryRequest.numRejected) = batch.keptLens := by
    rw [batch.queryStartLoc_eq, diffs_startLocs, keptLens, List.zipWith_map]
    simp [List.zipWith_self, QueryRequest.keptLen]
  have hseqLens : List.zipWith (· - ·) batch.metadata.seqLens
      (batch.requests.map QueryRequest.numRejected) =
      batch.requests.map (fun request => request.seqLen - request.numRejected) := by
    rw [batch.seqLens_eq, List.zipWith_map]
    simp [List.zipWith_self]
  have hfits : batch.keptLens.sum ≤ batch.maxNumTokens := keptLens_sum_le.trans batch.fits
  have hlength : batch.keptLens.length = batch.queryLens.length := by
    simp [keptLens, queryLens]
  have hindices : List.zipWith (· + ·)
      (List.zipWith (· - ·) ((List.range batch.maxNumTokens).take batch.keptLens.sum)
        (repeatEach (startLocs batch.keptLens).dropLast batch.keptLens))
      (repeatEach batch.metadata.queryStartLoc.dropLast batch.keptLens) = batch.keptIndices := by
    rw [List.take_range, Nat.min_eq_left hfits, repeatEach_dropLast (by simp),
      batch.queryStartLoc_eq, repeatEach_dropLast (by simp [keptLens]),
      moveStarts (by simp [keptLens])]
    rfl
  obtain ⟨slotMapping, hslots, hrelated⟩ := @takeAt_spec _ batch.metadata.slotMapping
    batch.keptIndices fun i hi => by
      rw [batch.length_slotMapping]
      exact keptIndices_lt hi
  obtain ⟨most, hmost, -⟩ := exists_max? batch.queryLens_ne_nil
  have hmax : (diffs batch.metadata.queryStartLoc).max? = some most := by
    rw [batch.queryStartLoc_eq, diffs_startLocs]
    exact hmost
  refine ⟨{
    queryStartLoc := startLocs batch.keptLens
    seqLens := batch.requests.map (fun request => request.seqLen - request.numRejected)
    numReqs := batch.metadata.numReqs
    numActualTokens := batch.keptLens.sum
    maxQueryLen := most
    maxSeqLen := none
    slotMapping
    seqStartLoc := startLocs
      (batch.requests.map (fun request => request.seqLen - request.numRejected))
    numInputTokens := batch.keptLens.sum
    numPrefillQueryTokens := batch.keptLens.sum
    numPrefillKvTokens := batch.keptLens.sum
    inferMode := batch.metadata.inferMode }, ?_, rfl, rfl, rfl, hrelated, rfl, rfl⟩
  rw [prepareInputs]
  simp only [hkept, hseqLens, getLast?_startLocs, Option.bind_eq_bind, Option.bind_some,
    hindices, hmax, hslots]
  rfl

end QueryBatch

namespace DraftRequest

variable (request : DraftRequest)

theorem lastAccepted_eq :
    request.lastAccepted = request.queryLen - 1 - request.numRejected := by
  have hrejected := request.numRejected_eq
  rw [lastAccepted]
  split
  case isTrue hdrafts =>
    have hquery := request.queryLen_eq hdrafts
    have hpos := request.valid_pos hdrafts
    have hle := request.valid_le hdrafts
    rw [if_pos hdrafts] at hrejected
    omega
  case isFalse hnone =>
    rw [if_neg hnone] at hrejected
    omega

theorem lastAccepted_lt : request.lastAccepted < request.queryLen := by
  have hlt := request.numRejected_lt
  rw [lastAccepted_eq]
  omega

end DraftRequest

namespace DraftBatch

variable (batch : DraftBatch Slot)

/-- `cu_num_draft_tokens`. -/
def cuNumDraftTokens : List Nat :=
  (startLocs (batch.requests.map DraftRequest.numDraftTokens)).tail

/-- `valid_sampled_tokens_count`. -/
def validSampledTokensCount : List Nat := batch.requests.map DraftRequest.validCount

variable {batch}

theorem queryLens_eq :
    batch.batch.queryLens = batch.requests.map fun request => request.queryLen := by
  rw [QueryBatch.queryLens, batch.requests_eq, List.map_map]
  rfl

theorem prepareInputsPadded_spec :
    ∃ padded, prepareInputsPadded batch.batch.maxNumTokens batch.batch.metadata
        batch.cuNumDraftTokens batch.validSampledTokensCount = some padded ∧
      padded.tokenIndices = List.range batch.batch.queryLens.sum ∧
      padded.metadata.seqLens = batch.batch.metadata.seqLens ∧
      padded.metadata.numReqs = batch.batch.metadata.numReqs ∧
      padded.metadata.inferMode = batch.batch.metadata.inferMode ∧
      padded.tokenIndicesToSample = List.zipWith (fun last (request : DraftRequest) =>
        last - 1 - request.numRejected) (startLocs batch.batch.queryLens).tail batch.requests := by
  have hrejected : List.zipWith (fun num valid => if 0 < num then num + 1 - valid else 0)
      (batch.cuNumDraftTokens.take 1 ++ diffs batch.cuNumDraftTokens)
      batch.validSampledTokensCount =
      batch.requests.map fun request => request.numRejected := by
    rw [cuNumDraftTokens, diffs_tail_startLocs, validSampledTokensCount, List.zipWith_map]
    simp [List.zipWith_self, DraftRequest.numRejected_eq]
  have hindices : (List.range batch.batch.maxNumTokens).take batch.batch.queryLens.sum =
      List.range batch.batch.queryLens.sum := by
    rw [List.take_range, Nat.min_eq_left
      (show batch.batch.queryLens.sum ≤ batch.batch.maxNumTokens from batch.batch.fits)]
  obtain ⟨slotMapping, hslots, -⟩ := @takeAt_spec _ batch.batch.metadata.slotMapping
    (List.range batch.batch.queryLens.sum) fun i hi => by
      rw [batch.batch.length_slotMapping]
      exact List.mem_range.mp hi
  obtain ⟨mostQueries, hqueries, -⟩ := exists_max? batch.batch.queryLens_ne_nil
  obtain ⟨mostKeys, hkeys, -⟩ := exists_max? batch.batch.seqLens_ne_nil
  have hstarts : batch.batch.metadata.queryStartLoc = startLocs batch.batch.queryLens :=
    batch.batch.queryStartLoc_eq
  refine ⟨{
    metadata := { batch.batch.metadata with
      numActualTokens := batch.batch.queryLens.sum
      maxQueryLen := mostQueries
      maxSeqLen := some mostKeys
      slotMapping
      seqStartLoc := startLocs batch.batch.metadata.seqLens
      numInputTokens := batch.batch.queryLens.sum
      numPrefillQueryTokens := batch.batch.queryLens.sum
      numPrefillKvTokens := batch.batch.queryLens.sum }
    tokenIndices := List.range batch.batch.queryLens.sum
    tokenIndicesToSample := List.zipWith (fun last rejected => last - 1 - rejected)
      batch.batch.metadata.queryStartLoc.tail (batch.requests.map fun request => request.numRejected)
    numRejectedTokens := batch.requests.map fun request => request.numRejected },
    ?_, rfl, rfl, rfl, rfl, ?_⟩
  · rw [prepareInputsPadded]
    simp only [hrejected, hstarts, getLast?_startLocs, Option.bind_eq_bind, Option.bind_some,
      diffs_startLocs, hqueries, hkeys, hindices, hslots]
    rfl
  · simp only [hstarts, List.zipWith_map_right]

/-- The index to sample of a request is that of its last accepted token. -/
theorem indexToSample_eq {i : Nat} {request : DraftRequest}
    (h : batch.requests[i]? = some request) :
    (List.zipWith (fun last (request : DraftRequest) => last - 1 - request.numRejected)
      (startLocs batch.batch.queryLens).tail batch.requests)[i]? =
      some ((batch.batch.queryLens.take i).sum + request.lastAccepted) := by
  have hlen : batch.batch.queryLens[i]? = some request.queryLen := by
    rw [queryLens_eq, List.getElem?_map, h]
    rfl
  have hlt : i < batch.batch.queryLens.length := (List.getElem?_eq_some_iff.mp hlen).1
  have hlast := request.lastAccepted_eq
  have hbound := request.numRejected_lt
  rw [List.getElem?_zipWith, List.getElem?_tail, getElem?_startLocs hlt, h, List.take_add_one,
    hlen, List.sum_append]
  simp
  omega

end DraftBatch

end VllmMlu.SpecDecode
