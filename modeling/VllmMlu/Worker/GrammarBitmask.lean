import VllmMlu.Library.Dict
import VllmMlu.Library.Kernel
import VllmMlu.Library.Packed

/-! `apply_grammar_bitmask`: the bitmask rows of the structured requests, which come in the order
of the grammar output, are brought to the logits rows of the batch. -/
namespace VllmMlu.Worker
open Library Library.Cuts Library.Packed Library.Kernel

variable {Req : Type} [DecidableEq Req]

structure GrammarOutput (Req : Type) where
  structuredOutputRequestIds : List Req
  grammarBitmask : List (List Int)
  /-- `grammar_bitmask.shape[1]`. -/
  width : Nat

/-- `len(scheduled_spec_decode_tokens.get(req_id, []))`. -/
def numSpecTokens (scheduledSpecDecodeTokens : Dict Req (List Int)) (reqId : Req) : Nat :=
  ((scheduledSpecDecodeTokens.get? reqId).getD []).length

/-- A turn of the loop over the batch, with the offset so far. -/
def noteLogitIndex (scheduledSpecDecodeTokens : Dict Req (List Int)) (structured : List Req)
    (state : Nat × Dict Req Nat) (item : Req × Nat) : Nat × Dict Req Nat :=
  let logitIndex := item.2 + state.1
  (state.1 + numSpecTokens scheduledSpecDecodeTokens item.1,
    if item.1 ∈ structured then state.2.set item.1 logitIndex else state.2)

/-- `sorted(req_id_to_index.items(), key=lambda x: x[1])`. -/
def sortedItems (reqIdToIndex : Dict Req Nat) : List (Req × Nat) :=
  reqIdToIndex.entries.insertionSort fun item other => item.2 ≤ other.2

def structOutReqBatchIndices (scheduledSpecDecodeTokens : Dict Req (List Int))
    (structured : List Req) (reqIdToIndex : Dict Req Nat) : Dict Req Nat :=
  ((sortedItems reqIdToIndex).foldl (noteLogitIndex scheduledSpecDecodeTokens structured)
    (0, .empty)).2

structure MaskState where
  cumulativeIndex : Nat
  sortedBitmask : List (List Int)
  outIndices : List Nat

def copyRow (grammarBitmask : List (List Int)) (logitIndex cumulativeIndex : Nat)
    (state : MaskState) (i : Nat) : Except KernelError MaskState := do
  let row ← load grammarBitmask (cumulativeIndex + i)
  let sortedBitmask ← store state.sortedBitmask (logitIndex + i) row
  pure { state with sortedBitmask, outIndices := state.outIndices ++ [logitIndex + i] }

/-- A turn of the loop over the structured requests. -/
def copyRows (scheduledSpecDecodeTokens : Dict Req (List Int)) (grammarBitmask : List (List Int))
    (batchIndices : Dict Req Nat) (state : MaskState) (reqId : Req) :
    Except KernelError MaskState := do
  let numRows := 1 + numSpecTokens scheduledSpecDecodeTokens reqId
  let copied ← match batchIndices.get? reqId with
    | some logitIndex =>
        (List.range' 0 numRows).foldlM (copyRow grammarBitmask logitIndex state.cumulativeIndex)
          state
    | none => pure state
  pure { copied with cumulativeIndex := copied.cumulativeIndex + numRows }

/-- The bitmask of the logits, and the indices that are passed on: `none` stands for all rows. -/
def applyGrammarBitmask (scheduledSpecDecodeTokens : Dict Req (List Int))
    (output : GrammarOutput Req) (reqIdToIndex : Dict Req Nat) (numLogits : Nat) :
    Except KernelError (List (List Int) × Option (List Nat)) := do
  let batchIndices := structOutReqBatchIndices scheduledSpecDecodeTokens
    output.structuredOutputRequestIds reqIdToIndex
  let state ← output.structuredOutputRequestIds.foldlM
    (copyRows scheduledSpecDecodeTokens output.grammarBitmask batchIndices)
    ⟨0, List.replicate numLogits (List.replicate output.width (-1)), []⟩
  pure (state.sortedBitmask,
    if state.outIndices.length = numLogits then none else some state.outIndices)

/-- A batch with the grammar output for it: the logits and the bitmask have a row for each
scheduled position of each request. -/
structure GrammarBatch (Req : Type) [DecidableEq Req] where
  batch : List Req
  reqIdToIndex : Dict Req Nat
  scheduledSpecDecodeTokens : Dict Req (List Int)
  output : GrammarOutput Req
  numLogits : Nat
  entries_perm : reqIdToIndex.entries.Perm batch.zipIdx
  structured_nodup : output.structuredOutputRequestIds.Nodup
  length_grammarBitmask : output.grammarBitmask.length =
    (output.structuredOutputRequestIds.map
      fun reqId => 1 + numSpecTokens scheduledSpecDecodeTokens reqId).sum
  numLogits_eq : numLogits =
    (batch.map fun reqId => 1 + numSpecTokens scheduledSpecDecodeTokens reqId).sum

namespace GrammarBatch

variable (batch : GrammarBatch Req)

/-- The rows of a request. -/
def numRows (reqId : Req) : Nat := 1 + numSpecTokens batch.scheduledSpecDecodeTokens reqId

def structured : List Req := batch.output.structuredOutputRequestIds

/-- The first row of request `i` of a list of requests. -/
def rowStart (requests : List Req) (i : Nat) : Nat := ((requests.map batch.numRows).take i).sum

def blankRow : List Int := List.replicate batch.output.width (-1)

variable {batch}

theorem batch_nodup : batch.batch.Nodup := by
  have hkeys := batch.reqIdToIndex.keys_nodup
  have hperm := batch.entries_perm.map Prod.fst
  rw [Dict.keys, hperm.nodup_iff] at hkeys
  simpa using hkeys

/-- The sorted items are the requests in batch order. -/
theorem sortedItems_eq : sortedItems batch.reqIdToIndex = batch.batch.zipIdx := by
  have hperm := (List.perm_insertionSort
    (fun item other : Req × Nat => item.2 ≤ other.2) _).trans batch.entries_perm
  refine hperm.eq_of_pairwise ?_ (List.pairwise_insertionSort _ _) ?_
  · intro item other hitem hother hle hge
    have hitem := List.mem_zipIdx_iff_getElem?.mp (hperm.subset hitem)
    have hother := List.mem_zipIdx_iff_getElem?.mp hother
    have hindex : item.2 = other.2 := Nat.le_antisymm hle hge
    rw [hindex, hother, Option.some.injEq] at hitem
    exact Prod.ext hitem.symm hindex
  · have hsnd : (batch.batch.zipIdx.map Prod.snd).Pairwise (· ≤ ·) := by
      rw [List.zipIdx_map_snd, List.range'_eq_map_range, List.pairwise_map]
      exact List.pairwise_lt_range.imp fun hlt => by omega
    rwa [List.pairwise_map] at hsnd

end GrammarBatch

section LogitIndices

variable {tokens : Dict Req (List Int)} {structured : List Req} {reqId : Req}

theorem get?_foldl_noteLogitIndex {requests : List Req} (h : reqId ∉ requests) (start : Nat)
    (state : Nat × Dict Req Nat) :
    ((requests.zipIdx start).foldl (noteLogitIndex tokens structured) state).2.get? reqId =
      state.2.get? reqId := by
  induction requests generalizing start state with
  | nil => rfl
  | cons first rest ih =>
      rw [List.mem_cons, not_or] at h
      rw [List.zipIdx_cons, List.foldl_cons, ih h.2]
      simp only [noteLogitIndex]
      split
      · rw [Dict.get?_set_of_ne _ _ h.1]
      · rfl

/-- The offset of a request counts the rows of the requests before it. -/
theorem get?_foldl_of_mem (hstructured : reqId ∈ structured) {back : List Req}
    (hback : reqId ∉ back) (front : List Req) (start : Nat) (state : Nat × Dict Req Nat) :
    (((front ++ reqId :: back).zipIdx start).foldl (noteLogitIndex tokens structured)
        state).2.get? reqId =
      some (start + state.1 + (front.map fun other => 1 + numSpecTokens tokens other).sum) := by
  induction front generalizing start state with
  | nil =>
      rw [List.nil_append, List.zipIdx_cons, List.foldl_cons, get?_foldl_noteLogitIndex hback]
      simp only [noteLogitIndex, if_pos hstructured, Dict.get?_set_self]
      rfl
  | cons first rest ih =>
      rw [List.cons_append, List.zipIdx_cons, List.foldl_cons, ih, List.map_cons, List.sum_cons]
      simp only [noteLogitIndex]
      congr 1
      omega

end LogitIndices

theorem set_next {α : Type} (front back : List α) {block old : List α} {turn : Nat} {value : α}
    (hvalue : block[turn]? = some value) (hold : turn < old.length) :
    (front ++ (block.take turn ++ old.drop turn) ++ back).set (front.length + turn) value =
      front ++ (block.take (turn + 1) ++ old.drop (turn + 1)) ++ back := by
  have hturn := (List.getElem?_eq_some_iff.mp hvalue).1
  have hfront : front.length + turn = (front ++ block.take turn).length := by
    rw [List.length_append, List.length_take, Nat.min_eq_left hturn.le]
  rw [List.drop_eq_getElem_cons hold, List.take_add_one, hvalue, hfront]
  generalize List.get old ⟨turn, hold⟩ = first
  generalize old.drop (turn + 1) = rest
  simp

/-- The loop over the rows of one request replaces its rows of the bitmask by its block. -/
theorem copyRow_loop {grammarBitmask front old back block : List (List Int)}
    {cumulativeIndex : Nat} {state : MaskState} (hlength : old.length = block.length)
    (hblock : ∀ i < block.length, grammarBitmask[cumulativeIndex + i]? = block[i]?)
    (hmask : state.sortedBitmask = front ++ old ++ back) :
    (List.range' 0 block.length).foldlM (copyRow grammarBitmask front.length cumulativeIndex) state =
      .ok { state with
        sortedBitmask := front ++ block ++ back
        outIndices := state.outIndices ++ List.range' front.length block.length } := by
  obtain ⟨result, hresult, hinv⟩ := @loop_returns _ _
    (copyRow grammarBitmask front.length cumulativeIndex)
    (fun turn current => current = { state with
      sortedBitmask := front ++ (block.take turn ++ old.drop turn) ++ back
      outIndices := state.outIndices ++ List.range' front.length turn })
    block.length 1 0 state (by
      cases state
      simp_all) (by
      intro turn hturn current hcurrent
      rw [hcurrent]
      have hrow := List.getElem?_eq_getElem hturn
      have hold : turn < old.length := hlength ▸ hturn
      have hbound : front.length + turn <
          (front ++ (block.take turn ++ old.drop turn) ++ back).length := by
        simp only [List.length_append, List.length_take, List.length_drop]
        omega
      refine ⟨_, ?_, rfl⟩
      rw [copyRow, Nat.one_mul, Nat.zero_add, load_eq_ok ((hblock turn hturn).trans hrow)]
      change (store _ _ _ >>= _) = _
      rw [store_eq_ok hbound, set_next front back hrow hold, List.range'_concat,
        ← List.append_assoc state.outIndices, Nat.one_mul]
      rfl)
  rw [hresult, hinv]
  simp [hlength.le]

namespace GrammarBatch

variable {batch : GrammarBatch Req}

def batchIndices (batch : GrammarBatch Req) : Dict Req Nat :=
  structOutReqBatchIndices batch.scheduledSpecDecodeTokens batch.structured batch.reqIdToIndex

theorem batchIndices_of_not_mem {reqId : Req} (h : reqId ∉ batch.batch) :
    batch.batchIndices.get? reqId = none := by
  rw [batchIndices, structOutReqBatchIndices, sortedItems_eq, get?_foldl_noteLogitIndex h]
  rfl

theorem batchIndices_of_mem {reqId : Req} {front back : List Req}
    (hbatch : batch.batch = front ++ reqId :: back) (h : reqId ∈ batch.structured) :
    batch.batchIndices.get? reqId = some (front.map batch.numRows).sum := by
  have hback : reqId ∉ back := by
    have hnodup := batch.batch_nodup
    rw [hbatch] at hnodup
    exact (List.nodup_cons.mp hnodup.of_append_right).1
  rw [batchIndices, structOutReqBatchIndices, sortedItems_eq, hbatch, get?_foldl_of_mem h hback,
    Nat.zero_add, Nat.zero_add]
  rfl

/-- The bitmask rows of a structured request, in the order of the grammar output. -/
def ownRows (batch : GrammarBatch Req) (reqId : Req) : List (List Int) :=
  Rows.slice (batch.rowStart batch.structured (batch.structured.idxOf reqId)) (batch.numRows reqId)
    batch.output.grammarBitmask

/-- What stands at the rows of a request once the requests of `done` are copied. -/
def block (batch : GrammarBatch Req) (done : List Req) (reqId : Req) : List (List Int) :=
  if reqId ∈ done then batch.ownRows reqId
  else List.replicate (batch.numRows reqId) batch.blankRow

/-- The bitmask once the requests of `done` are copied. -/
def maskOf (batch : GrammarBatch Req) (done : List Req) : List (List Int) :=
  (batch.batch.map (batch.block done)).flatten

/-- The rows of a request of the batch. -/
def rowIndices (batch : GrammarBatch Req) (reqId : Req) : List Nat :=
  List.range' (batch.rowStart batch.batch (batch.batch.idxOf reqId)) (batch.numRows reqId)

def indicesOf (batch : GrammarBatch Req) (done : List Req) : List Nat :=
  ((done.filter (· ∈ batch.batch)).map batch.rowIndices).flatten

theorem rowStart_append (front : List Req) (reqId : Req) (back : List Req) :
    batch.rowStart (front ++ reqId :: back) front.length = (front.map batch.numRows).sum := by
  rw [rowStart, List.map_append, List.take_left' (List.length_map _)]

/-- The place of a request among requests that are all different. -/
theorem rowStart_idxOf {requests front back : List Req} {reqId : Req} (hnodup : requests.Nodup)
    (h : requests = front ++ reqId :: back) :
    batch.rowStart requests (requests.idxOf reqId) = (front.map batch.numRows).sum := by
  rw [h] at hnodup
  have hfront : reqId ∉ front := fun hmem =>
    List.disjoint_of_nodup_append hnodup hmem List.mem_cons_self
  rw [h, List.idxOf_append_of_notMem hfront, List.idxOf_cons_self, Nat.add_zero, rowStart_append]

theorem ownRows_spec {front back : List Req} {reqId : Req}
    (h : batch.structured = front ++ reqId :: back) :
    (batch.ownRows reqId).length = batch.numRows reqId ∧
      ∀ i < batch.numRows reqId,
        batch.output.grammarBitmask[(front.map batch.numRows).sum + i]? =
          (batch.ownRows reqId)[i]? := by
  have hlength : batch.output.grammarBitmask.length = (batch.structured.map batch.numRows).sum :=
    batch.length_grammarBitmask
  rw [h, List.map_append, List.map_cons, List.sum_append, List.sum_cons] at hlength
  have hnodup : batch.structured.Nodup := batch.structured_nodup
  rw [ownRows, rowStart_idxOf hnodup h]
  constructor
  · rw [Rows.length_slice]
    omega
  · intro i hi
    rw [Rows.slice, List.getElem?_take_of_lt hi, List.getElem?_drop]

theorem length_block {done : List Req} (hdone : done ⊆ batch.structured) (reqId : Req) :
    (batch.block done reqId).length = batch.numRows reqId := by
  rw [block]
  split
  case isTrue hmem =>
    obtain ⟨front, back, hsplit⟩ := List.append_of_mem (hdone hmem)
    exact (ownRows_spec hsplit).1
  case isFalse => exact List.length_replicate

theorem length_flatten_block {done : List Req} (hdone : done ⊆ batch.structured)
    (requests : List Req) :
    ((requests.map (batch.block done)).flatten).length = (requests.map batch.numRows).sum := by
  rw [List.length_flatten, List.map_map]
  congr 1
  apply List.map_congr_left
  intro reqId _
  exact length_block hdone reqId

theorem block_append_of_ne {done : List Req} {reqId other : Req} (h : other ≠ reqId) :
    batch.block (done ++ [reqId]) other = batch.block done other := by
  simp [block, h]

theorem map_block_append {done requests : List Req} {reqId : Req} (h : reqId ∉ requests) :
    requests.map (batch.block (done ++ [reqId])) = requests.map (batch.block done) := by
  apply List.map_congr_left
  intro other hother
  exact block_append_of_ne fun heq => h (heq ▸ hother)

def stateOf (batch : GrammarBatch Req) (done : List Req) : MaskState :=
  ⟨(done.map batch.numRows).sum, batch.maskOf done, batch.indicesOf done⟩

/-- One turn of the loop over the structured requests. -/
theorem copyRows_spec {done rest : List Req} {reqId : Req}
    (h : batch.structured = done ++ reqId :: rest) :
    copyRows batch.scheduledSpecDecodeTokens batch.output.grammarBitmask batch.batchIndices
        (batch.stateOf done) reqId = .ok (batch.stateOf (done ++ [reqId])) := by
  have hdone : done ⊆ batch.structured := h ▸ List.subset_append_left _ _
  have hstructured : reqId ∈ batch.structured := by simp [h]
  have hsum : ((done ++ [reqId]).map batch.numRows).sum =
      (done.map batch.numRows).sum + batch.numRows reqId := by
    simp
  by_cases hmem : reqId ∈ batch.batch
  · obtain ⟨front, back, hbatch⟩ := List.append_of_mem hmem
    have hnodup := batch.batch_nodup
    rw [hbatch, List.nodup_append, List.nodup_cons] at hnodup
    have hfront : reqId ∉ front := fun hin => hnodup.2.2 _ hin _ List.mem_cons_self rfl
    have hback : reqId ∉ back := hnodup.2.1.1
    obtain ⟨hown, hread⟩ := ownRows_spec h
    have hnext : batch.maskOf (done ++ [reqId]) = (front.map (batch.block done)).flatten ++
        batch.ownRows reqId ++ (back.map (batch.block done)).flatten := by
      rw [maskOf, hbatch, List.map_append, List.map_cons, map_block_append hfront,
        map_block_append hback]
      simp [block]
    have hindices : batch.indicesOf (done ++ [reqId]) = batch.indicesOf done ++
        List.range' (front.map batch.numRows).sum (batch.numRows reqId) := by
      rw [← rowStart_idxOf batch.batch_nodup hbatch, indicesOf, indicesOf, List.filter_append,
        List.filter_singleton]
      simp [hmem, rowIndices]
    have hmask : (batch.stateOf done).sortedBitmask =
        (front.map (batch.block done)).flatten ++ batch.block done reqId ++
          (back.map (batch.block done)).flatten := by
      rw [stateOf, maskOf, hbatch]
      simp
    have hloop := @copyRow_loop batch.output.grammarBitmask
      (front.map (batch.block done)).flatten (batch.block done reqId)
      (back.map (batch.block done)).flatten (batch.ownRows reqId) (done.map batch.numRows).sum
      (batch.stateOf done) (by rw [length_block hdone, hown])
      (fun i hi => hread i (hown ▸ hi)) hmask
    rw [length_flatten_block hdone, hown] at hloop
    rw [copyRows, batchIndices_of_mem hbatch hstructured]
    change ((List.range' 0 (batch.numRows reqId)).foldlM (copyRow _ _ (done.map batch.numRows).sum)
      (batch.stateOf done) >>= _) = _
    rw [hloop, stateOf, stateOf, hsum, hnext, hindices]
    rfl
  · have hnext : batch.maskOf (done ++ [reqId]) = batch.maskOf done := by
      rw [maskOf, map_block_append hmem, maskOf]
    have hindices : batch.indicesOf (done ++ [reqId]) = batch.indicesOf done := by
      rw [indicesOf, indicesOf, List.filter_append, List.filter_singleton]
      simp [hmem]
    rw [copyRows, batchIndices_of_not_mem hmem, stateOf, stateOf, hsum, hnext, hindices]
    rfl

theorem applyGrammarBitmask_eq :
    applyGrammarBitmask batch.scheduledSpecDecodeTokens batch.output batch.reqIdToIndex
        batch.numLogits =
      .ok (batch.maskOf batch.structured,
        if (batch.indicesOf batch.structured).length = batch.numLogits then none
        else some (batch.indicesOf batch.structured)) := by
  have hstart : (⟨0, List.replicate batch.numLogits (List.replicate batch.output.width (-1)), []⟩ :
      MaskState) = batch.stateOf [] := by
    have hblank : batch.maskOf [] = List.replicate batch.numLogits batch.blankRow := by
      have hblock : batch.block [] = fun reqId =>
          List.replicate (batch.numRows reqId) batch.blankRow := by
        funext reqId
        exact if_neg (List.not_mem_nil)
      rw [maskOf, hblock, flatten_map_replicate, batch.numLogits_eq]
      rfl
    rw [stateOf, hblank]
    rfl
  obtain ⟨result, hresult, done, hdone, hstate⟩ := @foldlM_returns _ _ _
    (copyRows batch.scheduledSpecDecodeTokens batch.output.grammarBitmask batch.batchIndices)
    (fun rest state => ∃ done, batch.structured = done ++ rest ∧ state = batch.stateOf done)
    batch.structured (batch.stateOf []) ⟨[], rfl, rfl⟩ (by
      intro reqId rest state ⟨done, hsplit, hstate⟩
      refine ⟨_, hstate ▸ copyRows_spec hsplit, done ++ [reqId], ?_, rfl⟩
      rw [hsplit, List.append_assoc, List.singleton_append])
  rw [List.append_nil] at hdone
  rw [applyGrammarBitmask, hstart]
  change (batch.structured.foldlM (copyRows _ _ batch.batchIndices) _ >>= _) = _
  rw [hresult, hstate, ← hdone]
  rfl

theorem getElem?_maskOf {done : List Req} (hdone : done ⊆ batch.structured) {i j : Nat} {reqId : Req}
    (h : batch.batch[i]? = some reqId) (hj : j < batch.numRows reqId) :
    (batch.maskOf done)[batch.rowStart batch.batch i + j]? = (batch.block done reqId)[j]? := by
  have hlengths : (batch.batch.map (batch.block done)).map List.length =
      batch.batch.map batch.numRows := by
    rw [List.map_map]
    apply List.map_congr_left
    intro other _
    exact length_block hdone other
  rw [rowStart, ← hlengths, maskOf]
  exact getElem?_flatten (by rw [List.getElem?_map, h]; rfl) (by rwa [length_block hdone])

theorem rowStart_of_getElem? {requests : List Req} {k : Nat} {reqId : Req}
    (h : requests[k]? = some reqId) :
    ∃ front back, requests = front ++ reqId :: back ∧
      batch.rowStart requests k = (front.map batch.numRows).sum := by
  obtain ⟨hk, rfl⟩ := List.getElem?_eq_some_iff.mp h
  refine ⟨requests.take k, requests.drop (k + 1), ?_, ?_⟩
  · rw [← List.drop_eq_getElem_cons hk, List.take_append_drop]
  · rw [rowStart, List.map_take]

theorem mem_indicesOf {index : Nat} : index ∈ batch.indicesOf batch.structured ↔
    ∃ i reqId j, batch.batch[i]? = some reqId ∧ reqId ∈ batch.structured ∧
      j < batch.numRows reqId ∧ index = batch.rowStart batch.batch i + j := by
  rw [indicesOf, List.mem_flatten]
  simp only [List.mem_map, List.mem_filter, decide_eq_true_eq]
  constructor
  · rintro ⟨_, ⟨reqId, ⟨hstructured, hmem⟩, rfl⟩, hindex⟩
    rw [rowIndices, List.mem_range'_1] at hindex
    refine ⟨batch.batch.idxOf reqId, reqId,
      index - batch.rowStart batch.batch (batch.batch.idxOf reqId), ?_, hstructured, ?_, ?_⟩
    · rw [List.getElem?_eq_getElem (List.idxOf_lt_length_of_mem hmem), List.getElem_idxOf]
    · omega
    · omega
  · rintro ⟨i, reqId, j, hi, hstructured, hj, rfl⟩
    obtain ⟨front, back, hsplit, hstart⟩ := @rowStart_of_getElem? _ _ batch _ _ _ hi
    refine ⟨_, ⟨reqId, ⟨hstructured, List.mem_of_getElem? hi⟩, rfl⟩, ?_⟩
    rw [rowIndices, rowStart_idxOf batch.batch_nodup hsplit, hstart, List.mem_range'_1]
    omega

/-- As many indices as there are logits: every request is structured. -/
theorem structured_of_length_eq
    (h : (batch.indicesOf batch.structured).length = batch.numLogits) {reqId : Req}
    (hmem : reqId ∈ batch.batch) : reqId ∈ batch.structured := by
  have hnodup : batch.structured.Nodup := batch.structured_nodup
  have hlength : (batch.indicesOf batch.structured).length =
      ((batch.structured.filter (· ∈ batch.batch)).map batch.numRows).sum := by
    rw [indicesOf, List.length_flatten, List.map_map]
    congr 1
    apply List.map_congr_left
    intro other _
    exact List.length_range'
  have hperm : (batch.structured.filter (· ∈ batch.batch)).Perm
      (batch.batch.filter (· ∈ batch.structured)) := by
    rw [List.perm_ext_iff_of_nodup (hnodup.filter _) (batch.batch_nodup.filter _)]
    intro other
    simp [and_comm]
  rw [hlength, (hperm.map batch.numRows).sum_eq, batch.numLogits_eq] at h
  have hall := forall_of_sum_filter_eq (fun other _ => Nat.add_pos_left Nat.one_pos _) h
  exact of_decide_eq_true (hall reqId hmem)

end GrammarBatch

end VllmMlu.Worker
