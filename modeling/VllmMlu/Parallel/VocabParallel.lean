import VllmMlu.Parallel.DraftStep
import VllmMlu.Parallel.PostAttention

/-! Embedding and logits with the vocabulary split over a logits group. A group is taken as a
world of its own, with one card for each of its ranks. -/
namespace VllmMlu.Parallel
open Library

variable {α σ : Type}

/-- What the cards of a group exchange: token ids, rows, or logits with their columns. -/
inductive Tensor (α σ : Type) where
  | ids (values : List Nat)
  | rows (values : List α)
  | logits (values : List (List σ))

namespace Tensor

def ids? : Tensor α σ → Option (List Nat)
  | .ids values => some values
  | _ => none

def rows? : Tensor α σ → Option (List α)
  | .rows values => some values
  | _ => none

def logits? : Tensor α σ → Option (List (List σ))
  | .logits values => some values
  | _ => none

end Tensor

/-- A collective along the rows, or the gather of the columns. -/
inductive GroupCall where
  | rowwise (call : Collective)
  | allGatherColumns
deriving DecidableEq

section Exchange

variable {size : Nat} [AddCommMonoid α]

/-- All tensors of one kind, if they are. -/
def ofKind {Value : Type} (kind : Tensor α σ → Option Value)
    (inputs : Rank size 1 → Tensor α σ) : Option (Rank size 1 → Value) :=
  if h : ∀ rank, (kind (inputs rank)).isSome then
    some fun rank => (kind (inputs rank)).get (h rank)
  else none

/-- The columns of all cards side by side. -/
def besides (inputs : Rank size 1 → List (List σ)) (rows : Nat) : List (List σ) :=
  (List.range rows).map fun row =>
    ((List.finRange size).map fun card => (inputs (card, 0)).getD row []).flatten

def GroupCall.exchange :
    GroupCall → (Rank size 1 → Tensor α σ) → Option (Rank size 1 → Tensor α σ)
  | .rowwise call, inputs =>
      match ofKind Tensor.ids? inputs, ofKind Tensor.rows? inputs with
      | some ids, _ => (call.exchange ids).map fun replies rank => .ids (replies rank)
      | none, some rows => (call.exchange rows).map fun replies rank => .rows (replies rank)
      | none, none => none
  | .allGatherColumns, inputs =>
      match ofKind Tensor.logits? inputs with
      | some logits =>
          if Group.dp.SameRows logits then
            some fun rank => .logits (besides logits (logits rank).length)
          else none
      | none => none

end Exchange

abbrev GroupComm (α σ Result : Type) := Program GroupCall (Tensor α σ) Result

def onIds {Result : Type} (program : Comm Nat Result) : GroupComm α σ Result :=
  program.embed .rowwise .ids Tensor.ids?

def onRows {Result : Type} (program : Comm α Result) : GroupComm α σ Result :=
  program.embed .rowwise .rows Tensor.rows?

/-- Embedding and LM head of a model; `embedding` and `score` are the whole tables, of which a
card holds the rows of its partition. -/
structure VocabLayers (size : Nat) (α σ : Type) where
  orgVocabSize : Nat
  numEmbeddingsPerPartition : Nat
  covers : orgVocabSize ≤ size * numEmbeddingsPerPartition
  embedding : Nat → α
  score : Nat → α → σ

namespace VocabLayers

variable {size : Nat} [AddCommMonoid α]

/-- The card's partition has the token: it is between `org_vocab_start_index` and
`org_vocab_end_index`. -/
def inShard (layers : VocabLayers size α σ) (card : Fin size) (token : Nat) : Bool :=
  min (card * layers.numEmbeddingsPerPartition) layers.orgVocabSize ≤ token ∧
    token < min ((card + 1) * layers.numEmbeddingsPerPartition) layers.orgVocabSize

/-- The own rows of a tensor with the rows of all cards. -/
def ownRows {β : Type} (splits : Option (List Nat)) (card : Fin size) (output : List β) :
    GroupComm α σ (List β) :=
  match splits with
  | none => .done output
  | some splits => do
      let own ← .ofOption splits[card.val]?
      pure (Rows.slice (splits.take card).sum own output)

/-- `DPVocabParallelEmbedding.forward`. -/
def embed (layers : VocabLayers size α σ) (rank : Rank size 1) (input : List Nat)
    (embTokenSplitList : Option (List Nat)) : GroupComm α σ (List α) := do
  let input ← match embTokenSplitList with
    | none => pure input
    | some splits =>
        onIds (tensorModelParallelAllGatherDp splits (Group.dp.position rank) input .dp)
  let outputParallel := input.map fun token =>
    if 1 < size then (if layers.inShard rank.1 token then layers.embedding token else 0)
    else layers.embedding token
  let output ← onRows (tensorModelParallelAllReduce outputParallel .dp)
  ownRows embTokenSplitList rank.1 output

/-- `tensor_model_parallel_all_gather(logits)` along the last dimension. -/
def allGatherColumns (logits : List (List σ)) : GroupComm α σ (List (List σ)) :=
  .collective .allGatherColumns (.logits logits) fun reply => .ofOption reply.logits?

/-- The columns of the card's partition. -/
def scores (layers : VocabLayers size α σ) (card : Fin size) (row : α) : List σ :=
  (List.range layers.numEmbeddingsPerPartition).map fun column =>
    layers.score (card * layers.numEmbeddingsPerPartition + column) row

/-- `DPLogitsProcessor._get_logits`; `use_all_gather()` of the platform is true. -/
def getLogits (layers : VocabLayers size α σ) (rank : Rank size 1) (hiddenStates : List α)
    (logitsBatchSplitList : Option (List Nat)) : GroupComm α σ (List (List σ)) := do
  let hiddenStates ← match logitsBatchSplitList with
    | none => pure hiddenStates
    | some batchSizes =>
        onRows (tensorModelParallelAllGatherDp batchSizes (Group.dp.position rank) hiddenStates .dp)
  let logits ← allGatherColumns (hiddenStates.map (layers.scores rank.1))
  ownRows logitsBatchSplitList rank.1 (logits.map fun row => row.take layers.orgVocabSize)

/-- The logits of an LM head that is not split. -/
def fullLogits (layers : VocabLayers size α σ) (row : α) : List σ :=
  (List.range layers.orgVocabSize).map fun column => layers.score column row

end VocabLayers

section Rules

variable {size : Nat} [AddCommMonoid α] (lead : Rank size 1)

theorem ofKind_eq_some {Value : Type} {kind : Tensor α σ → Option Value}
    {inputs : Rank size 1 → Tensor α σ} {values : Rank size 1 → Value}
    (h : ∀ rank, kind (inputs rank) = some (values rank)) : ofKind kind inputs = some values := by
  rw [ofKind, dif_pos fun rank => by rw [h]; rfl]
  simp [h]

theorem ofKind_eq_none {Value : Type} {kind : Tensor α σ → Option Value}
    {inputs : Rank size 1 → Tensor α σ} (h : kind (inputs lead) = none) :
    ofKind kind inputs = none := by
  rw [ofKind, dif_neg fun hall => by simpa [h] using hall lead]

/-- A run on token ids alone is one among the tensors of the group, and so is one on rows. -/
theorem run_onIds {Result : Type} {programs : Rank size 1 → Comm Nat Result}
    {values : Rank size 1 → Result}
    (hrun : Program.run Collective.exchange lead programs = some values) :
    Program.run (GroupCall.exchange (α := α) (σ := σ)) lead (fun rank => onIds (programs rank)) =
      some values := by
  have hexchange : ∀ (call : Collective) (inputs replies : Rank size 1 → List Nat),
      call.exchange inputs = some replies →
        GroupCall.exchange (.rowwise call) (fun rank => (.ids (inputs rank) : Tensor α σ)) =
          some fun rank => .ids (replies rank) := by
    intro call inputs replies hreplies
    have hids : ofKind Tensor.ids? (fun rank => (Tensor.ids (inputs rank) : Tensor α σ)) =
        some inputs := ofKind_eq_some fun _ => rfl
    simp only [GroupCall.exchange, hids, hreplies, Option.map_some]
  have hproject : ∀ values : List Nat, (Tensor.ids values : Tensor α σ).ids? = some values :=
    fun _ => rfl
  exact Program.run_embed Collective.exchange lead hproject hexchange hrun

theorem run_onRows {Result : Type} {programs : Rank size 1 → Comm α Result}
    {values : Rank size 1 → Result}
    (hrun : Program.run Collective.exchange lead programs = some values) :
    Program.run (GroupCall.exchange (α := α) (σ := σ)) lead (fun rank => onRows (programs rank)) =
      some values := by
  have hexchange : ∀ (call : Collective) (inputs replies : Rank size 1 → List α),
      call.exchange inputs = some replies →
        GroupCall.exchange (.rowwise call) (fun rank => (.rows (inputs rank) : Tensor α σ)) =
          some fun rank => .rows (replies rank) := by
    intro call inputs replies hreplies
    have hids : ofKind Tensor.ids? (fun rank => (Tensor.rows (inputs rank) : Tensor α σ)) =
        none := ofKind_eq_none lead rfl
    have hrows : ofKind Tensor.rows? (fun rank => (Tensor.rows (inputs rank) : Tensor α σ)) =
        some inputs := ofKind_eq_some fun _ => rfl
    simp only [GroupCall.exchange, hids, hrows, hreplies, Option.map_some]
  have hproject : ∀ values : List α, (Tensor.rows values : Tensor α σ).rows? = some values :=
    fun _ => rfl
  exact Program.run_embed Collective.exchange lead hproject hexchange hrun

theorem run_allReduce_group (inputs : Rank size 1 → List α) {rows : Nat}
    (h : ∀ rank, (inputs rank).length = rows) :
    Program.run Collective.exchange lead
        (fun rank => tensorModelParallelAllReduce (inputs rank) .dp) =
      some fun _ => Rows.sum ((List.finRange size).map fun card => inputs (card, 0)) := by
  simp only [tensorModelParallelAllReduce, Program.run_collective, Collective.exchange]
  rw [if_pos (sameRows_of_const h), Option.bind_some, Program.run_done]
  congr 1
  funext rank
  rw [Group.members, List.map_map]
  congr 2
  funext card
  exact congrArg inputs (Prod.ext rfl (Subsingleton.elim _ _))

theorem run_allGatherColumns (logits : Rank size 1 → List (List σ)) {rows : Nat}
    (h : ∀ rank, (logits rank).length = rows) :
    Program.run (GroupCall.exchange (α := α)) lead
        (fun rank => VocabLayers.allGatherColumns (logits rank)) =
      some fun _ => besides logits rows := by
  have hkind : ofKind Tensor.logits? (fun rank => (Tensor.logits (logits rank) : Tensor α σ)) =
      some logits := ofKind_eq_some fun _ => rfl
  simp only [VocabLayers.allGatherColumns, Program.run_collective, GroupCall.exchange, hkind]
  rw [if_pos (sameRows_of_const h), Option.bind_some]
  simp only [h, Tensor.logits?, Program.ofOption, Program.run_done]

/-- The own rows out of the rows of all cards. -/
theorem ownRows_eq {β : Type} (blocks : Fin size → List β) (card : Fin size) :
    VocabLayers.ownRows (α := α) (σ := σ)
        (some ((List.finRange size).map fun card => (blocks card).length)) card
        ((List.finRange size).map blocks).flatten = .done (blocks card) := by
  have hlens : ((List.finRange size).map fun card => (blocks card).length) =
      ((List.finRange size).map blocks).map List.length := by rw [List.map_map]; rfl
  have hcard : card.val < ((List.finRange size).map blocks).length := by simp
  have hget : (((List.finRange size).map blocks).map List.length)[card.val]? =
      some (blocks card).length := by simp
  have hslice : Rows.slice ((((List.finRange size).map blocks).map List.length).take card).sum
      (blocks card).length ((List.finRange size).map blocks).flatten = blocks card := by
    rw [Rows.slice, List.drop_sum_flatten, List.drop_eq_getElem_cons hcard, List.flatten_cons]
    simp
  simp only [VocabLayers.ownRows, hlens, hget, Program.ofOption, Program.done_bind, hslice,
    Program.pure_eq_done]

theorem foldl_map_rows {β Card : Type} (rows : List β) (start : β → α) (cards : List Card)
    (value : Card → β → α) :
    (cards.map fun card => rows.map (value card)).foldl (List.zipWith (· + ·)) (rows.map start) =
      rows.map fun row => start row + (cards.map fun card => value card row).sum := by
  induction cards generalizing start with
  | nil => simp
  | cons card rest ih =>
      have hadd : List.zipWith (· + ·) (rows.map start) (rows.map (value card)) =
          rows.map fun row => start row + value card row := by
        rw [List.zipWith_map, List.zipWith_self]
      rw [List.map_cons, List.foldl_cons, hadd, ih]
      simp only [List.map_cons, List.sum_cons, add_assoc]

/-- Summing over the cards, row by row. -/
theorem sum_map_rows {β Card : Type} (rows : List β) {cards : List Card} (hcards : cards ≠ [])
    (value : Card → β → α) :
    Rows.sum (cards.map fun card => rows.map (value card)) =
      rows.map fun row => (cards.map fun card => value card row).sum := by
  cases cards with
  | nil => exact absurd rfl hcards
  | cons card rest => exact foldl_map_rows rows (value card) rest value

/-- Every token of the vocabulary is in the partition of one card. -/
theorem inShard_iff (layers : VocabLayers size α σ) {token : Nat}
    (htoken : token < layers.orgVocabSize) (card : Fin size) :
    layers.inShard card token = true ↔ card.val = token / layers.numEmbeddingsPerPartition := by
  have hpos : 0 < layers.numEmbeddingsPerPartition := by
    have := layers.covers
    by_contra hzero
    rw [Nat.eq_zero_of_not_pos hzero, Nat.mul_zero] at this
    omega
  rw [VocabLayers.inShard, decide_eq_true_eq, eq_comm, Nat.div_eq_iff hpos]
  rw [Nat.succ_mul]
  omega

theorem shards_sum (layers : VocabLayers size α σ) {token : Nat}
    (htoken : token < layers.orgVocabSize) :
    ((List.finRange size).map fun card =>
      if layers.inShard card token then layers.embedding token else 0).sum =
        layers.embedding token := by
  have howner : token / layers.numEmbeddingsPerPartition < size := by
    apply Nat.div_lt_of_lt_mul
    rw [Nat.mul_comm]
    exact htoken.trans_le layers.covers
  rw [← Fin.sum_univ_def, Finset.sum_eq_single ⟨_, howner⟩]
  · rw [if_pos ((inShard_iff layers htoken _).mpr rfl)]
  · intro card _ hne
    rw [if_neg fun hin => hne (Fin.ext ((inShard_iff layers htoken card).mp hin))]
  · intro hnot
    exact absurd (Finset.mem_univ _) hnot

/-- The embeddings of the own tokens, on every card. -/
theorem run_embed (layers : VocabLayers size α σ) (ids : Fin size → List Nat)
    (hvocab : ∀ card, ∀ token ∈ ids card, token < layers.orgVocabSize)
    (hsome : ∃ card, ids card ≠ []) :
    Program.run (GroupCall.exchange (α := α) (σ := σ)) lead (fun rank =>
        layers.embed rank (ids rank.1)
          (some ((List.finRange size).map fun card => (ids card).length))) =
      some fun rank => (ids rank.1).map layers.embedding := by
  have hgather := run_onIds (α := α) (σ := σ) lead (run_allGatherDp_dp lead hsome)
  set input := ((List.finRange size).map ids).flatten with hinput
  have hin : ∀ token ∈ input, token < layers.orgVocabSize := by
    intro token hmem
    simp only [hinput, List.mem_flatten, List.mem_map] at hmem
    obtain ⟨block, ⟨card, -, rfl⟩, htoken⟩ := hmem
    exact hvocab card token htoken
  let value : Fin size → Nat → α := fun card token =>
    if 1 < size then (if layers.inShard card token then layers.embedding token else 0)
    else layers.embedding token
  have hvalue : ∀ token ∈ input,
      ((List.finRange size).map fun card => value card token).sum = layers.embedding token := by
    intro token hmem
    by_cases hmany : 1 < size
    · simp only [value, if_pos hmany]
      exact shards_sum layers (hin token hmem)
    · have hone : size = 1 := by
        have := Fin.pos lead.1
        omega
      subst hone
      simp [value]
  have hreduce := run_onRows (α := α) (σ := σ) lead (run_allReduce_group lead
    (fun rank => input.map (value rank.1)) (show ∀ rank, _ = input.length by simp))
  have hcards : List.finRange size ≠ [] := by
    rw [Ne, List.finRange_eq_nil_iff]
    exact (Fin.pos lead.1).ne'
  have hsum : Rows.sum ((List.finRange size).map fun card => input.map (value card)) =
      ((List.finRange size).map fun card => (ids card).map layers.embedding).flatten := by
    rw [sum_map_rows input hcards, List.map_congr_left hvalue, hinput, List.map_flatten,
      List.map_map]
    rfl
  simp only [VocabLayers.embed]
  rw [Program.run_bind _ lead hgather, Program.run_bind _ lead hreduce]
  have hown := ownRows_eq (α := α) (σ := σ) fun card => (ids card).map layers.embedding
  simp only [List.length_map] at hown
  simp only [hsum, hown, Program.run_done]

theorem besides_map {β : Type} (rows : List β) (columns : Fin size → β → List σ) :
    besides (fun rank : Rank size 1 => rows.map (columns rank.1)) rows.length =
      rows.map fun row => ((List.finRange size).map fun card => columns card row).flatten := by
  apply List.ext_getElem
  · simp [besides]
  · intro i hleft hright
    have hi : i < rows.length := by simpa using hright
    simp [besides, hi]

/-- The partitions side by side are the whole table. -/
theorem flatten_scores (layers : VocabLayers size α σ) (row : α) :
    ((List.finRange size).map fun card => layers.scores card row).flatten =
      (List.range (size * layers.numEmbeddingsPerPartition)).map fun column =>
        layers.score column row := by
  set table := (List.range (size * layers.numEmbeddingsPerPartition)).map fun column =>
    layers.score column row with htable
  have hlength : table.length = size * layers.numEmbeddingsPerPartition := by simp [htable]
  have hchunk : ∀ card : Fin size, layers.scores card row =
      Rows.chunk layers.numEmbeddingsPerPartition card table := by
    intro card
    have hlen := Rows.length_chunk card.isLt hlength
    apply List.ext_getElem
    · simp [VocabLayers.scores, hlen]
    · intro i hleft hright
      simp [VocabLayers.scores, Rows.chunk, Rows.slice, htable]
  simp only [hchunk]
  exact Rows.flatten_chunks hlength

/-- The logits of the own rows, on every card. -/
theorem run_getLogits (layers : VocabLayers size α σ) (hidden : Fin size → List α)
    (hsome : ∃ card, hidden card ≠ []) :
    Program.run (GroupCall.exchange (α := α) (σ := σ)) lead (fun rank =>
        layers.getLogits rank (hidden rank.1)
          (some ((List.finRange size).map fun card => (hidden card).length))) =
      some fun rank => (hidden rank.1).map layers.fullLogits := by
  have hgather := run_onRows (α := α) (σ := σ) lead (run_allGatherDp_dp lead hsome)
  set rows := ((List.finRange size).map hidden).flatten with hrows
  have hcolumns := run_allGatherColumns (α := α) lead
    (fun rank => rows.map (layers.scores rank.1)) (show ∀ rank, _ = rows.length by simp)
  have hfull : (besides (fun rank : Rank size 1 => rows.map (layers.scores rank.1))
      rows.length).map (fun row => row.take layers.orgVocabSize) =
        ((List.finRange size).map fun card => (hidden card).map layers.fullLogits).flatten := by
    have hrow : ∀ row, (((List.finRange size).map fun card => layers.scores card row).flatten).take
        layers.orgVocabSize = layers.fullLogits row := by
      intro row
      rw [flatten_scores, ← List.map_take, List.take_range, Nat.min_eq_left layers.covers]
      rfl
    rw [besides_map, List.map_map]
    simp only [Function.comp_def, hrow]
    rw [hrows, List.map_flatten, List.map_map]
    rfl
  simp only [VocabLayers.getLogits]
  rw [Program.run_bind _ lead hgather, Program.run_bind _ lead hcolumns]
  have hown := ownRows_eq (α := α) (σ := σ) fun card => (hidden card).map layers.fullLogits
  simp only [List.length_map] at hown
  simp only [hfull, hown, Program.run_done]

end Rules

namespace DPConfig

variable (cfg : DPConfig)

/-- The card at a place of the logits group of a rank. -/
def groupCard (rank : Rank cfg.dpSize cfg.tpSize) (place : Fin cfg.logitsTpSize) :
    Rank cfg.dpSize cfg.tpSize :=
  (cfg.logitsMembers rank).get (place.cast (cfg.length_logitsMembers rank).symm)

/-- The split lists announce the rows that every rank brings, and embedding and logits give every
rank those of its own rows, in order, as unsplit layers would. -/
structure OwnRows [AddCommMonoid α] (layers : VocabLayers cfg.logitsTpSize α σ)
    (batches : Fin cfg.dpSize → StepBatch cfg.numSpecTokens)
    (params : Rank cfg.dpSize cfg.tpSize → MLUDPMetadata) : Prop where
  embAnnounced : ∀ rank, ∃ splits, (params rank).embTokenSplitList = some splits ∧
    splits[cfg.logitsTpRank rank]? = some (batches rank.1).numTokens
  logitsAnnounced : ∀ rank, ∃ splits, (params rank).logitsBatchSplitList = some splits ∧
    splits[cfg.logitsTpRank rank]? = some (batches rank.1).logitsRows
  embedding : ∀ (rank : Rank cfg.dpSize cfg.tpSize) (lead : Rank cfg.logitsTpSize 1)
      (ids : Rank cfg.dpSize cfg.tpSize → List Nat),
    (∀ card, (ids card).length = (batches card.1).numTokens ∧
      ∀ token ∈ ids card, token < layers.orgVocabSize) →
    Program.run (GroupCall.exchange (α := α) (σ := σ)) lead (fun place =>
        layers.embed place (ids (cfg.groupCard rank place.1))
          (params (cfg.groupCard rank place.1)).embTokenSplitList) =
      some fun place => (ids (cfg.groupCard rank place.1)).map layers.embedding
  logits : ∀ (rank : Rank cfg.dpSize cfg.tpSize) (lead : Rank cfg.logitsTpSize 1)
      (hidden : Rank cfg.dpSize cfg.tpSize → List α),
    (∀ card, (hidden card).length = (batches card.1).logitsRows) →
    Program.run (GroupCall.exchange (α := α) (σ := σ)) lead (fun place =>
        layers.getLogits place (hidden (cfg.groupCard rank place.1))
          (params (cfg.groupCard rank place.1)).logitsBatchSplitList) =
      some fun place => (hidden (cfg.groupCard rank place.1)).map layers.fullLogits

/-- The step and the dummy batch meet this with the metadata that they gather. -/
def StepOwnRows [AddCommMonoid α] (layers : VocabLayers cfg.logitsTpSize α σ)
    (lead : Rank cfg.dpSize cfg.tpSize)
    (batches : Fin cfg.dpSize → StepBatch cfg.numSpecTokens) : Prop :=
  ∃ params, Program.run cfg.exchange lead (fun rank => cfg.stepMetadata rank (batches rank.1)) =
      some params ∧ cfg.OwnRows layers batches params

theorem getElem?_groupCard (rank : Rank cfg.dpSize cfg.tpSize) (place : Fin cfg.logitsTpSize) :
    (cfg.logitsMembers rank)[place.val]? = some (cfg.groupCard rank place) :=
  List.getElem?_eq_getElem _

/-- The list over the cards of a group is the same on each of them. -/
theorem map_logitsMembers_groupCard (rank : Rank cfg.dpSize cfg.tpSize)
    (place : Fin cfg.logitsTpSize) (num : Rank cfg.dpSize cfg.tpSize → Nat) :
    (cfg.logitsMembers (cfg.groupCard rank place)).map num =
      (List.finRange cfg.logitsTpSize).map fun place => num (cfg.groupCard rank place) := by
  rw [(cfg.of_getElem?_logitsMembers (cfg.getElem?_groupCard rank place)).2]
  apply List.ext_getElem
  · simp [length_logitsMembers]
  · intro i hleft hright
    simp [groupCard]

theorem numTokens_pos {numSpecTokens : Nat} (batch : StepBatch numSpecTokens) :
    0 < batch.numTokens := by
  cases batch with
  | dummy => exact Nat.one_pos
  | scheduled first rest =>
      have := first.drafts_lt
      simp only [StepBatch.numTokens, StepBatch.requests, List.map_cons, List.sum_cons]
      omega

theorem logitsRows_pos {numSpecTokens : Nat} (batch : StepBatch numSpecTokens) :
    0 < batch.logitsRows := by
  cases batch with
  | dummy => exact Nat.one_pos
  | scheduled first rest =>
      simp only [StepBatch.logitsRows, StepBatch.requests, List.map_cons, List.sum_cons]
      omega

section Steps

variable {cfg} [AddCommMonoid α] {layers : VocabLayers cfg.logitsTpSize α σ}
  {batches : Fin cfg.dpSize → StepBatch cfg.numSpecTokens}
  {params : Rank cfg.dpSize cfg.tpSize → MLUDPMetadata}

/-- With the announced numbers of logits right, every rank gets its own rows. -/
theorem OwnRows.of_fullDrafts (hcustom : cfg.enableEmbLogitsCustomParallel = true)
    (hparams : ∀ rank, Announces rank (fun dpRank => (batches dpRank).numTokens)
      (fun dpRank => cfg.announcedReqs (batches dpRank)) (params rank))
    (hfull : ∀ dpRank, (batches dpRank).FullDrafts) : cfg.OwnRows layers batches params := by
  have hemb : ∀ rank, (params rank).embTokenSplitList =
      some ((cfg.logitsMembers rank).map fun card => (batches card.1).numTokens) := by
    intro rank
    rw [(hparams rank).emb, if_pos hcustom]
  have hlogits : ∀ rank, (params rank).logitsBatchSplitList =
      some ((cfg.logitsMembers rank).map fun card => (batches card.1).logitsRows) := by
    intro rank
    rw [(hparams rank).logits, if_pos hcustom]
    simp only [(cfg.announcedReqs_eq_iff _).mpr (hfull _)]
  refine ⟨fun rank => ⟨_, hemb rank, ?_⟩, fun rank => ⟨_, hlogits rank, ?_⟩, ?_, ?_⟩
  · rw [List.getElem?_map, getElem?_logitsMembers]
    rfl
  · rw [List.getElem?_map, getElem?_logitsMembers]
    rfl
  · intro rank lead ids hids
    have hrun := run_embed lead layers
      (fun place => ids (cfg.groupCard rank place))
      (fun place token hmem => (hids _).2 token hmem)
      ⟨lead.1, List.ne_nil_of_length_pos (by rw [(hids _).1]; exact numTokens_pos _)⟩
    simp only [(hids _).1] at hrun
    simp only [hemb, map_logitsMembers_groupCard]
    exact hrun
  · intro rank lead hidden hhidden
    have hrun := run_getLogits lead layers
      (fun place => hidden (cfg.groupCard rank place))
      ⟨lead.1, List.ne_nil_of_length_pos (by rw [hhidden]; exact logitsRows_pos _)⟩
    simp only [hhidden] at hrun
    simp only [hlogits, map_logitsMembers_groupCard]
    exact hrun

end Steps

end DPConfig

/-- Three tokens on two cards, numbers as rows. -/
def threeTokens : VocabLayers 2 Nat Nat where
  orgVocabSize := 3
  numEmbeddingsPerPartition := 2
  covers := by decide
  embedding := fun token => token + 10
  score := fun token row => token * row

end VllmMlu.Parallel
