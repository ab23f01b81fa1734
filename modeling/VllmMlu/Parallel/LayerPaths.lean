import VllmMlu.Parallel.DecoderLayers

/-! Both layer functions compute one function of the hidden states of all data
parallel ranks. The scattered path holds, between layers, the normed rows and
its chunk of the rows themselves as residual. -/
namespace VllmMlu.Parallel

open Library

variable {dpSize tpSize : Nat} {α : Type} [AddCommMonoid α]

/-! ### What a layer computes -/

/-- The sum of the partials of all cards. -/
def worldSum (inputs : Rank dpSize tpSize → List α) : List α :=
  Rows.sum (((List.finRange dpSize).flatMap fun dpRank =>
    (List.finRange tpSize).map fun tpRank => (dpRank, tpRank)).map inputs)

namespace DecoderLayer

variable (layer : DecoderLayer dpSize tpSize α) (positions : Fin dpSize → List Nat)
  (hidden : Fin dpSize → List α)

def attnPartials (rank : Rank dpSize tpSize) : List α :=
  layer.selfAttn rank (positions rank.1) (layer.inputNorm.forward (hidden rank.1))

/-- Attention with its residual, on the rows of one data parallel rank. -/
def attended (dpRank : Fin dpSize) : List α :=
  List.zipWith (· + ·) (tpSum (layer.attnPartials positions hidden) dpRank) (hidden dpRank)

/-- The experts on the rows of all ranks. -/
def experts : List α :=
  worldSum fun rank => layer.mlp rank
    (layer.postNorm.forward ((List.finRange dpSize).map (layer.attended positions hidden)).flatten)

def output (rows : Nat) (dpRank : Fin dpSize) : List α :=
  List.zipWith (· + ·)
    (Rows.slice (dpRank * rows) rows (layer.experts positions hidden))
    (layer.attended positions hidden dpRank)

end DecoderLayer

theorem DecoderLayer.selfAttn_eq (layer : DecoderLayer dpSize tpSize α)
    (positions : Fin dpSize → List Nat) (hidden : Fin dpSize → List α)
    (rank : Rank dpSize tpSize) :
    layer.selfAttn rank (positions rank.1) (layer.inputNorm.forward (hidden rank.1)) =
      layer.attnPartials positions hidden rank := rfl

theorem DecoderLayer.experts_eq (layer : DecoderLayer dpSize tpSize α)
    (positions : Fin dpSize → List Nat) (hidden : Fin dpSize → List α) :
    (worldSum fun rank => layer.mlp rank (layer.postNorm.forward
      ((List.finRange dpSize).map (layer.attended positions hidden)).flatten)) =
      layer.experts positions hidden := rfl

/-- The layers one after the other. -/
def outputs (positions : Fin dpSize → List Nat) (rows : Nat) :
    List (DecoderLayer dpSize tpSize α) → (Fin dpSize → List α) → Fin dpSize → List α
  | [], hidden => hidden
  | layer :: rest, hidden => outputs positions rows rest (layer.output positions hidden rows)

/-! ### Rows -/

@[simp] theorem RowNorm.length_forward (norm : RowNorm α) (rows : List α) :
    (norm.forward rows).length = rows.length := List.length_map _

theorem RowNorm.forward_chunk (norm : RowNorm α) (size index : Nat) (rows : List α) :
    norm.forward (Rows.chunk size index rows) = Rows.chunk size index (norm.forward rows) :=
  Rows.map_slice _ _ _ _

theorem RowNorm.forward_flatten (norm : RowNorm α) (blocks : List (List α)) :
    norm.forward blocks.flatten = (blocks.map norm.forward).flatten :=
  List.map_flatten

theorem RowNorm.forwardAdd_chunk (norm : RowNorm α) {size index : Nat} {left right : List α}
    (h : left.length = right.length) :
    norm.forwardAdd (Rows.chunk size index left) (Rows.chunk size index right) =
      some (Rows.chunk size index (norm.forward (List.zipWith (· + ·) left right)),
        Rows.chunk size index (List.zipWith (· + ·) left right)) := by
  rw [RowNorm.forwardAdd, Rows.add?_eq (by simp [Rows.chunk, h]), Rows.chunk, Rows.chunk,
    Rows.zipWith_slice]
  simp only [Option.bind_eq_bind, Option.bind_some, Option.pure_def]
  rw [← Rows.chunk, norm.forward_chunk]

/-- The residual that the first rank of the group adds is added to the sum. -/
theorem tpSum_add_first {partials : Rank dpSize tpSize → List α} {extra : Fin dpSize → List α}
    (hpos : 0 < tpSize) (dpRank : Fin dpSize) :
    tpSum (fun rank => if rank.2.val == 0 then
        List.zipWith (· + ·) (partials rank) (extra rank.1) else partials rank) dpRank =
      List.zipWith (· + ·) (tpSum partials dpRank) (extra dpRank) := by
  obtain ⟨others, rfl⟩ : ∃ others, tpSize = others + 1 := ⟨tpSize - 1, by omega⟩
  unfold tpSum
  rw [List.finRange_succ]
  simp only [List.map_cons, List.map_map, Function.comp_def, Fin.val_zero, Fin.val_succ, Rows.sum,
    beq_self_eq_true, if_true, Nat.add_eq_zero_iff, Nat.one_ne_zero, and_false, beq_iff_eq,
    if_false]
  exact Rows.foldl_add_start _ _ _

theorem length_worldSum {inputs : Rank dpSize tpSize → List α} {rows : Nat}
    (lead : Rank dpSize tpSize) (h : ∀ rank, (inputs rank).length = rows) :
    (worldSum inputs).length = rows := by
  apply Rows.length_sum
  · have hmem : inputs lead ∈ ((List.finRange dpSize).flatMap fun dpRank =>
        (List.finRange tpSize).map fun tpRank => (dpRank, tpRank)).map inputs := by
      apply List.mem_map_of_mem
      simp
    exact List.ne_nil_of_mem hmem
  · intro part hmem
    obtain ⟨rank, _, rfl⟩ := List.mem_map.mp hmem
    exact h rank

section Collectives

variable (lead : Rank dpSize tpSize) {inputs : Rank dpSize tpSize → List α}

theorem run_allReduce_world {rows : Nat} (h : ∀ rank, (inputs rank).length = rows) :
    Program.run Collective.exchange lead
        (fun rank => tensorModelParallelAllReduce (inputs rank) .world) =
      some fun _ => worldSum inputs := by
  simp only [tensorModelParallelAllReduce, Program.run_collective, Collective.exchange]
  rw [if_pos (sameRows_of_const h), Option.bind_some, Program.run_done]
  rfl

/-- Every card receives its chunk of the own data parallel rank's rows. -/
theorem run_reduceScatter_world {size : Nat}
    (h : ∀ rank, (inputs rank).length = dpSize * (tpSize * size)) :
    Program.run Collective.exchange lead
        (fun rank => tensorModelParallelReduceScatter (inputs rank) .world) =
      some fun rank => Rows.chunk size rank.2
        (Rows.slice (rank.1 * (tpSize * size)) (tpSize * size) (worldSum inputs)) := by
  have hpos : 0 < dpSize * tpSize := Nat.mul_pos (Fin.pos lead.1) (Fin.pos lead.2)
  have hrows : dpSize * (tpSize * size) = dpSize * tpSize * size := (Nat.mul_assoc _ _ _).symm
  simp only [tensorModelParallelReduceScatter, Program.run_collective, Collective.exchange]
  rw [if_pos ⟨sameRows_of_const h, fun rank => by
    rw [length_members_world, h, hrows]
    exact Nat.dvd_mul_right _ _⟩, Option.bind_some, Program.run_done]
  congr 1
  funext rank
  have hchunk : (rank.2.val + 1) * size ≤ tpSize * size := Nat.mul_le_mul_right _ rank.2.isLt
  rw [Nat.succ_mul] at hchunk
  rw [length_members_world, h, hrows, Nat.mul_div_cancel_left _ hpos, Rows.chunk, Rows.chunk,
    Rows.slice_slice hchunk, Group.position, Nat.add_mul, Nat.mul_assoc]
  rfl

/-- Gathering a rank's chunks over its tensor parallel group gathers its rows. -/
theorem run_allGatherDp_tp {blocks : Fin dpSize → List α} {size : Nat} (count : Nat)
    (h : ∀ dpRank, (blocks dpRank).length = tpSize * size) :
    Program.run Collective.exchange lead (fun rank : Rank dpSize tpSize =>
        tensorModelParallelAllGatherDp (List.replicate count size) (Group.tp.position rank)
          (Rows.chunk size rank.2 (blocks rank.1)) .tp) =
      some fun rank => blocks rank.1 := by
  have hsame : Group.tp.SameRows fun rank : Rank dpSize tpSize =>
      Rows.chunk size rank.2 (blocks rank.1) :=
    sameRows_of_const fun rank => Rows.length_chunk rank.2.isLt (h rank.1)
  simp only [tensorModelParallelAllGatherDp, all_eq_head?_replicate, if_true, tensorModelParallelAllGather,
    Program.run_collective, Collective.exchange]
  rw [if_pos hsame, Option.bind_some, Program.run_done]
  congr 1
  funext rank
  simp only [Group.members, List.map_map, Function.comp_def]
  exact Rows.flatten_chunks (h rank.1)

end Collectives

/-! ### Both layer functions compute it -/

/-- What the layers read from the metadata of a step with `tpSize * size` tokens
on every data parallel rank. -/
structure ScatteredParams (size : Nat) (params : Rank dpSize tpSize → MLUDPMetadata) : Prop where
  tokenNum : ∀ rank, (params rank).tokenNum = tpSize * size
  tokenNumOffset : ∀ rank, (params rank).tokenNumOffset = rank.1 * (tpSize * size)
  noPadding : ∀ rank, (params rank).prefillPadToTokenNum = -1
  tokenSplitList : ∀ rank, (params rank).tokenSplitList =
    (List.finRange dpSize).map fun _ => tpSize * size
  attnSplit : ∀ rank, (params rank).attnTokenSplitListReduceScatter =
    some (List.replicate (dpSize * tpSize) size)
  moeSplit : ∀ rank, (params rank).moeTokenSplitListReduceScatter =
    some (List.replicate tpSize size)

section Steps

variable (lead : Rank dpSize tpSize) {size : Nat} {params : Rank dpSize tpSize → MLUDPMetadata}
  (layer : DecoderLayer dpSize tpSize α) (positions : Fin dpSize → List Nat)
  {hidden : Fin dpSize → List α}

theorem DecoderLayer.length_attnPartials (hrows : ∀ dpRank, (hidden dpRank).length = tpSize * size)
    (rank : Rank dpSize tpSize) :
    (layer.attnPartials positions hidden rank).length = tpSize * size := by
  simp [attnPartials, hrows]

theorem DecoderLayer.length_attended (lead : Rank dpSize tpSize)
    (hrows : ∀ dpRank, (hidden dpRank).length = tpSize * size) (dpRank : Fin dpSize) :
    (layer.attended positions hidden dpRank).length = tpSize * size := by
  have hsum := length_tpSum (fun _ => tpSize * size) (tpSize_pos lead)
    (layer.length_attnPartials positions hrows) dpRank
  simp [attended, hsum, hrows]

theorem length_flatten_const {blocks : Fin dpSize → List α} {rows : Nat}
    (h : ∀ dpRank, (blocks dpRank).length = rows) :
    ((List.finRange dpSize).map blocks).flatten.length = dpSize * rows := by
  simp [List.length_flatten, Function.comp_def, h]

theorem DecoderLayer.length_experts (lead : Rank dpSize tpSize)
    (hrows : ∀ dpRank, (hidden dpRank).length = tpSize * size) :
    (layer.experts positions hidden).length = dpSize * (tpSize * size) := by
  apply length_worldSum lead
  intro rank
  rw [layer.length_mlp, RowNorm.length_forward,
    length_flatten_const (layer.length_attended positions lead hrows)]

theorem slice_flatten_finRange {blocks : Fin dpSize → List α} {rows : Nat}
    (h : ∀ dpRank, (blocks dpRank).length = rows) (dpRank : Fin dpSize) :
    Rows.slice (dpRank * rows) rows ((List.finRange dpSize).map blocks).flatten =
      blocks dpRank := by
  rw [Rows.slice_flatten (by simpa using h) (by simp)]
  simp

theorem DecoderLayer.length_ownExperts (lead : Rank dpSize tpSize)
    (hrows : ∀ dpRank, (hidden dpRank).length = tpSize * size) (dpRank : Fin dpSize) :
    (Rows.slice (dpRank * (tpSize * size)) (tpSize * size)
      (layer.experts positions hidden)).length = tpSize * size := by
  have hchunk : (dpRank.val + 1) * (tpSize * size) ≤ dpSize * (tpSize * size) :=
    Nat.mul_le_mul_right _ dpRank.isLt
  rw [Nat.succ_mul] at hchunk
  rw [Rows.length_slice, layer.length_experts positions lead hrows]
  omega

theorem DecoderLayer.length_output (lead : Rank dpSize tpSize)
    (hrows : ∀ dpRank, (hidden dpRank).length = tpSize * size) (dpRank : Fin dpSize) :
    (layer.output positions hidden (tpSize * size) dpRank).length = tpSize * size := by
  simp [output, layer.length_ownExperts positions lead hrows,
    layer.length_attended positions lead hrows]

/-- The layer on whole tensors: its output is also the next residual. -/
theorem run_dpForwardLayerCommon (hparams : ScatteredParams size params) (hsize : 0 < size)
    (hrows : ∀ dpRank, (hidden dpRank).length = tpSize * size)
    {residual : Rank dpSize tpSize → Option (List α)}
    (hresidual : ∀ rank, (residual rank).getD (hidden rank.1) = hidden rank.1)
    (isFirst isLast : Bool) (next : Option (RowNorm α)) :
    Program.run Collective.exchange lead (fun rank =>
        dpForwardLayerCommon rank (params rank) layer (positions rank.1) (hidden rank.1)
          (residual rank) isFirst isLast next) =
      some fun rank => (layer.output positions hidden (tpSize * size) rank.1,
        some (layer.output positions hidden (tpSize * size) rank.1)) := by
  have hpos := tpSize_pos lead
  have hpartials := layer.length_attnPartials positions hrows
  have hattended := layer.length_attended positions lead hrows
  let summands : Rank dpSize tpSize → List α := fun rank =>
    if rank.2.val == 0 then
      List.zipWith (· + ·) (layer.attnPartials positions hidden rank) (hidden rank.1)
    else
      layer.attnPartials positions hidden rank
  have hsummand : ∀ rank : Rank dpSize tpSize, addResidualIf (rank.2.val == 0)
      (layer.attnPartials positions hidden rank) (hidden rank.1) = some (summands rank) := by
    intro rank
    simp only [summands, addResidualIf]
    split
    · exact Rows.add?_eq (by rw [hpartials, hrows])
    · rfl
  have hlength : ∀ rank, (summands rank).length = tpSize * size := by
    intro rank
    simp only [summands]
    split
    · simp [hpartials, hrows]
    · exact hpartials rank
  have hsum : tpSum summands = layer.attended positions hidden :=
    funext fun dpRank => tpSum_add_first hpos dpRank
  have hgather := @run_plain _ _ _ _ lead _ (fun _ => tpSize * size) _ hlength
    ⟨lead.1, by have := Nat.mul_pos hpos hsize; omega⟩ hparams.noPadding hparams.tokenSplitList
  rw [hsum] at hgather
  have hreduce := run_allReduce_world lead (show ∀ rank, (layer.mlp rank (layer.postNorm.forward
      ((List.finRange dpSize).map (layer.attended positions hidden)).flatten)).length =
        dpSize * (tpSize * size) from
    fun rank => by rw [layer.length_mlp, RowNorm.length_forward, length_flatten_const hattended])
  simp only [dpForwardLayerCommon, hresidual, hparams.tokenNum, hparams.tokenNumOffset]
  simp only [layer.selfAttn_eq positions, hsummand, Program.ofOption, Program.done_bind]
  rw [Program.run_bind _ _ hgather]
  rw [Program.run_bind _ _ hreduce]
  simp only [slice_flatten_finRange hattended, layer.experts_eq positions]
  have hadd : ∀ dpRank : Fin dpSize, Rows.add?
      (Rows.slice (dpRank * (tpSize * size)) (tpSize * size) (layer.experts positions hidden))
      (layer.attended positions hidden dpRank) =
        some (layer.output positions hidden (tpSize * size) dpRank) := by
    intro dpRank
    rw [Rows.add?_eq (by rw [layer.length_ownExperts positions lead hrows, hattended])]
    rfl
  simp only [hadd, Program.done_bind, Program.pure_eq_done, Program.run_done]

/-- What the scattered path holds when a layer starts: before the first layer the
rows, before every other one their norm, and a chunk of them as residual. -/
def entering (isFirst : Bool) (norm : RowNorm α) (size : Nat) (hidden : Fin dpSize → List α)
    (rank : Rank dpSize tpSize) : List α × Option (List α) :=
  if isFirst then (hidden rank.1, none)
  else (norm.forward (hidden rank.1), some (Rows.chunk size rank.2 (hidden rank.1)))

/-- The rows after a layer, the next input norm applied. -/
def leavingRows (next : Option (RowNorm α)) (hidden : Fin dpSize → List α) (dpRank : Fin dpSize) :
    List α :=
  match next with
  | none => hidden dpRank
  | some norm => norm.forward (hidden dpRank)

def leaving (next : Option (RowNorm α)) (size : Nat) (hidden : Fin dpSize → List α)
    (rank : Rank dpSize tpSize) : List α × Option (List α) :=
  (leavingRows next hidden rank.1, next.map fun _ => Rows.chunk size rank.2 (hidden rank.1))

/-- The summands of the first reduce-scatter. -/
def DecoderLayer.summand (isFirst : Bool) (hidden : Fin dpSize → List α)
    (rank : Rank dpSize tpSize) : List α :=
  if isFirst && rank.2.val == 0 then
    List.zipWith (· + ·) (layer.attnPartials positions hidden rank) (hidden rank.1)
  else
    layer.attnPartials positions hidden rank

theorem DecoderLayer.addResidualIf_entering
    (hrows : ∀ dpRank, (hidden dpRank).length = tpSize * size) (isFirst : Bool)
    (rank : Rank dpSize tpSize) :
    addResidualIf (isFirst && rank.2.val == 0) (layer.attnPartials positions hidden rank)
      ((entering isFirst layer.inputNorm size hidden rank).2.getD
        (entering isFirst layer.inputNorm size hidden rank).1) =
      some (layer.summand positions isFirst hidden rank) := by
  unfold addResidualIf DecoderLayer.summand
  cases isFirst with
  | false => rfl
  | true =>
      split
      · exact Rows.add?_eq (by
          rw [layer.length_attnPartials positions hrows]
          exact (hrows rank.1).symm)
      · rfl

theorem DecoderLayer.length_summand (hrows : ∀ dpRank, (hidden dpRank).length = tpSize * size)
    (isFirst : Bool) (rank : Rank dpSize tpSize) :
    (layer.summand positions isFirst hidden rank).length = tpSize * size := by
  have hpartials := layer.length_attnPartials positions hrows rank
  unfold DecoderLayer.summand
  split
  · simp [hpartials, hrows]
  · exact hpartials

/-- The norm between the collectives leaves a chunk of the attended rows, whether
their residual came with the sum or is added by the norm. -/
theorem DecoderLayer.between_entering (hpos : 0 < tpSize)
    (hrows : ∀ dpRank, (hidden dpRank).length = tpSize * size) (isFirst : Bool)
    (rank : Rank dpSize tpSize) :
    layer.postNorm.between isFirst
      (Rows.chunk size rank.2 (tpSum (layer.summand positions isFirst hidden) rank.1))
      ((entering isFirst layer.inputNorm size hidden rank).2.getD
        (entering isFirst layer.inputNorm size hidden rank).1) =
      some (Rows.chunk size rank.2
          (layer.postNorm.forward (layer.attended positions hidden rank.1)),
        Rows.chunk size rank.2 (layer.attended positions hidden rank.1)) := by
  cases isFirst with
  | true =>
      have hsum : tpSum (layer.summand positions true hidden) rank.1 =
          layer.attended positions hidden rank.1 := tpSum_add_first hpos rank.1
      rw [RowNorm.between, if_pos rfl, hsum, layer.postNorm.forward_chunk]
  | false =>
      have hpartials := layer.length_attnPartials positions hrows
      have hsum := length_tpSum (fun _ => tpSize * size) hpos hpartials rank.1
      exact layer.postNorm.forwardAdd_chunk (hsum.trans (hrows rank.1).symm)

/-- The end of the layer: the experts' rows and the residual, on one chunk. -/
theorem DecoderLayer.finishLayer_chunk (lead : Rank dpSize tpSize)
    (hrows : ∀ dpRank, (hidden dpRank).length = tpSize * size) (next : Option (RowNorm α))
    (rank : Rank dpSize tpSize) :
    finishLayer next.isNone next
      (Rows.chunk size rank.2 (Rows.slice (rank.1 * (tpSize * size)) (tpSize * size)
        (layer.experts positions hidden)))
      (Rows.chunk size rank.2 (layer.attended positions hidden rank.1)) =
      some (Rows.chunk size rank.2
          (leaving next size (layer.output positions hidden (tpSize * size)) rank).1,
        (leaving next size (layer.output positions hidden (tpSize * size)) rank).2) := by
  have hown := layer.length_ownExperts positions lead hrows rank.1
  have hattended := layer.length_attended positions lead hrows rank.1
  cases next with
  | none =>
      simp only [finishLayer, Option.isNone_none, if_true]
      rw [Rows.add?_eq (by simp only [Rows.chunk, Rows.length_slice] at *; omega), Rows.chunk,
        Rows.chunk, Rows.zipWith_slice]
      rfl
  | some norm =>
      simp only [finishLayer, Option.isNone_some, Bool.false_eq_true, if_false,
        Option.bind_eq_bind, Option.bind_some]
      rw [norm.forwardAdd_chunk (hown.trans hattended.symm)]
      rfl

theorem length_leavingRows {rows : Nat} (hrows : ∀ dpRank, (hidden dpRank).length = rows)
    (next : Option (RowNorm α)) (dpRank : Fin dpSize) :
    (leavingRows next hidden dpRank).length = rows := by
  cases next with
  | none => exact hrows dpRank
  | some norm => exact (norm.length_forward _).trans (hrows dpRank)

/-- One layer of the scattered path. -/
theorem run_dpForwardLayerRsAg (hparams : ScatteredParams size params)
    (hrows : ∀ dpRank, (hidden dpRank).length = tpSize * size) (isFirst : Bool)
    (next : Option (RowNorm α)) :
    Program.run Collective.exchange lead (fun rank =>
        dpForwardLayerRsAg rank (params rank) layer (positions rank.1)
          (entering isFirst layer.inputNorm size hidden rank).1
          (entering isFirst layer.inputNorm size hidden rank).2 isFirst next.isNone next) =
      some fun rank => leaving next size (layer.output positions hidden (tpSize * size)) rank := by
  have hpos := tpSize_pos lead
  have hnormed : ∀ rank : Rank dpSize tpSize,
      (if isFirst then
          layer.inputNorm.forward (entering isFirst layer.inputNorm size hidden rank).1
        else (entering isFirst layer.inputNorm size hidden rank).1) =
        layer.inputNorm.forward (hidden rank.1) := by
    cases isFirst <;> exact fun _ => rfl
  have hscatter := run_reduceScatter_tp lead (fun _ => tpSize * size)
    (layer.length_summand positions hrows isFirst) (fun _ => Nat.dvd_mul_right _ _)
  rw [Nat.mul_div_cancel_left _ hpos] at hscatter
  have hgather := run_allGatherDp_world lead (show ∀ dpRank, (layer.postNorm.forward
      (layer.attended positions hidden dpRank)).length = tpSize * size from
    fun dpRank => by rw [RowNorm.length_forward, layer.length_attended positions lead hrows])
  have hnorm : ((List.finRange dpSize).map fun dpRank =>
      layer.postNorm.forward (layer.attended positions hidden dpRank)).flatten =
      layer.postNorm.forward
        ((List.finRange dpSize).map (layer.attended positions hidden)).flatten := by
    rw [RowNorm.forward_flatten, List.map_map]
    rfl
  have hexperts := run_reduceScatter_world lead (show ∀ rank, (layer.mlp rank
      (layer.postNorm.forward
        ((List.finRange dpSize).map (layer.attended positions hidden)).flatten)).length =
        dpSize * (tpSize * size) from
    fun rank => by
      rw [layer.length_mlp, RowNorm.length_forward,
        length_flatten_const (layer.length_attended positions lead hrows)])
  rw [layer.experts_eq positions] at hexperts
  have hfinish := run_allGatherDp_tp lead tpSize
    (length_leavingRows (layer.length_output positions lead hrows) next)
  simp only [dpForwardLayerRsAg, hnormed, layer.selfAttn_eq positions,
    layer.addResidualIf_entering positions hrows, hparams.attnSplit, hparams.moeSplit,
    Program.ofOption, Program.done_bind]
  rw [Program.run_bind _ _ hscatter]
  simp only [layer.between_entering positions hpos hrows, Program.ofOption, Program.done_bind]
  rw [Program.run_bind _ _ hgather, hnorm]
  rw [Program.run_bind _ _ hexperts]
  simp only [layer.finishLayer_chunk positions lead hrows, Program.ofOption, Program.done_bind,
    leaving]
  rw [Program.run_bind _ _ hfinish]
  simp only [Program.pure_eq_done, Program.run_done]

end Steps

/-! ### All layers -/

section Layers

variable (lead : Rank dpSize tpSize) {size : Nat} {params : Rank dpSize tpSize → MLUDPMetadata}
  (positions : Fin dpSize → List Nat) {hidden : Fin dpSize → List α}

theorem dpLayersForward_cons (forward : LayerForward dpSize tpSize α) (rank : Rank dpSize tpSize)
    (dpParams : MLUDPMetadata) (ownPositions : List Nat) (isFirst : Bool)
    (layer : DecoderLayer dpSize tpSize α) (rest : List (DecoderLayer dpSize tpSize α))
    (hiddenStates : List α) (residual : Option (List α)) :
    dpLayersForward forward rank dpParams ownPositions isFirst (layer :: rest) hiddenStates
        residual =
      forward rank dpParams layer ownPositions hiddenStates residual isFirst rest.isEmpty
        (rest.head?.map DecoderLayer.inputNorm) >>= fun after =>
          dpLayersForward forward rank dpParams ownPositions false rest after.1 after.2 := rfl

theorem run_layers_rsAg (hparams : ScatteredParams size params)
    (hrows : ∀ dpRank, (hidden dpRank).length = tpSize * size) (isFirst : Bool)
    (layer : DecoderLayer dpSize tpSize α) (rest : List (DecoderLayer dpSize tpSize α)) :
    Program.run Collective.exchange lead (fun rank =>
        dpLayersForward dpForwardLayerRsAg rank (params rank) (positions rank.1) isFirst
          (layer :: rest) (entering isFirst layer.inputNorm size hidden rank).1
          (entering isFirst layer.inputNorm size hidden rank).2) =
      some fun rank => (outputs positions (tpSize * size) (layer :: rest) hidden rank.1, none) := by
  induction rest generalizing layer hidden isFirst with
  | nil =>
      have hstep := run_dpForwardLayerRsAg lead layer positions hparams hrows isFirst none
      simp only [dpLayersForward, List.isEmpty_nil, List.head?_nil, Option.map_none]
      rw [Option.isNone_none] at hstep
      rw [Program.run_bind _ _ hstep]
      simp only [Program.pure_eq_done, Program.run_done]
      rfl
  | cons next rest ih =>
      have hstep := run_dpForwardLayerRsAg lead layer positions hparams hrows isFirst
        (some next.inputNorm)
      have hrest := ih (layer.length_output positions lead hrows) false next
      simp only [dpLayersForward_cons _ _ _ _ _ layer, List.isEmpty_cons, List.head?_cons,
        Option.map_some]
      rw [Option.isNone_some] at hstep
      rw [Program.run_bind _ _ hstep]
      exact hrest

theorem run_layers_common (hparams : ScatteredParams size params) (hsize : 0 < size)
    (hrows : ∀ dpRank, (hidden dpRank).length = tpSize * size)
    {residual : Rank dpSize tpSize → Option (List α)}
    (hresidual : ∀ rank, (residual rank).getD (hidden rank.1) = hidden rank.1) (isFirst : Bool)
    (layers : List (DecoderLayer dpSize tpSize α)) :
    ∃ last : Rank dpSize tpSize → Option (List α),
      Program.run Collective.exchange lead (fun rank =>
        dpLayersForward dpForwardLayerCommon rank (params rank) (positions rank.1) isFirst layers
          (hidden rank.1) (residual rank)) =
      some fun rank => (outputs positions (tpSize * size) layers hidden rank.1, last rank) := by
  induction layers generalizing hidden residual isFirst with
  | nil =>
      refine ⟨residual, ?_⟩
      simp only [dpLayersForward, Program.pure_eq_done, Program.run_done]
      rfl
  | cons layer rest ih =>
      have hstep := run_dpForwardLayerCommon lead layer positions hparams hsize hrows hresidual
        isFirst rest.isEmpty (rest.head?.map DecoderLayer.inputNorm)
      obtain ⟨last, hrest⟩ := ih (layer.length_output positions lead hrows)
        (show ∀ rank, (some (layer.output positions hidden (tpSize * size) rank.1)).getD _ = _ from
          fun _ => rfl) false
      refine ⟨last, ?_⟩
      simp only [dpLayersForward]
      rw [Program.run_bind _ _ hstep]
      exact hrest

end Layers

theorem exists_size (lead : Rank dpSize tpSize) {tokens : Fin dpSize → Nat}
    (hselected : layerCanUseReduceScatter tpSize ((List.finRange dpSize).map tokens) = true) :
    ∃ size, 0 < size ∧ ∀ dpRank, tokens dpRank = tpSize * size := by
  obtain ⟨hdvd, hequal⟩ := layerCanUseReduceScatter_eq_true.mp hselected
  have hmem : ∀ dpRank, tokens dpRank ∈ (List.finRange dpSize).map tokens := fun dpRank =>
    List.mem_map.mpr ⟨dpRank, List.mem_finRange _, rfl⟩
  obtain ⟨hne, size, hsize⟩ := hdvd _ (hmem lead.1)
  refine ⟨size, Nat.pos_of_ne_zero fun hzero => hne (by rw [hsize, hzero, Nat.mul_zero]), ?_⟩
  intro dpRank
  have hsame := (hequal _ (hmem dpRank)).trans (hequal _ (hmem lead.1)).symm
  rw [Option.some.inj hsame, hsize]

theorem exists_scatteredParams (lead : Rank dpSize tpSize) {tokens : Fin dpSize → Nat} {size : Nat}
    (hselected : layerCanUseReduceScatter tpSize ((List.finRange dpSize).map tokens) = true)
    (htokens : ∀ dpRank, tokens dpRank = tpSize * size) (dpIsPrefill : List Bool)
    (useRSAG : Bool) (lists : SplitLists) :
    ∃ params : Rank dpSize tpSize → MLUDPMetadata,
      (∀ rank : Rank dpSize tpSize, MLUDPMetadata.makeOot rank.1 dpSize tpSize
        ((List.finRange dpSize).map tokens) dpIsPrefill useRSAG lists = some (params rank)) ∧
      ScatteredParams size params := by
  have hown : ∀ dpRank : Fin dpSize,
      ((List.finRange dpSize).map tokens)[dpRank.val]? = some (tpSize * size) := by
    intro dpRank
    simp [htokens]
  have hfirst : ((List.finRange dpSize).map tokens).head? = some (tpSize * size) := by
    rw [List.head?_eq_getElem?]
    exact hown ⟨0, Fin.pos lead.1⟩
  have hmoe : (List.replicate (dpSize * tpSize) size).take tpSize = List.replicate tpSize size := by
    rw [List.take_replicate, Nat.min_eq_left (Nat.le_mul_of_pos_left _ (Fin.pos lead.1))]
  refine ⟨_, fun rank => MLUDPMetadata.makeOot_layer (hown rank.1) hfirst hselected,
    fun _ => rfl, ?_, fun _ => rfl, ?_, ?_, ?_⟩
  · intro rank
    have hconst : (List.finRange dpSize).map tokens = List.replicate dpSize (tpSize * size) := by
      rw [List.eq_replicate_iff]
      simp [htokens]
    have hle : min rank.1.val dpSize = rank.1 := Nat.min_eq_left (Nat.le_of_lt rank.1.isLt)
    show (((List.finRange dpSize).map tokens).take rank.1).sum = rank.1 * (tpSize * size)
    rw [hconst, List.take_replicate, List.sum_replicate, hle, smul_eq_mul]
  · intro rank
    exact List.map_congr_left fun dpRank _ => htokens dpRank
  · intro rank
    rw [Nat.mul_div_cancel_left _ (tpSize_pos lead)]
  · intro rank
    rw [Nat.mul_div_cancel_left _ (tpSize_pos lead), hmoe]

/-- A stage that computes its metadata and runs `forward` for every layer. -/
def stageForward (forward : LayerForward dpSize tpSize α) (dpTokenNums : List Nat)
    (dpIsPrefill : List Bool) (prefillDispatchUseRSAG : Bool) (lists : SplitLists)
    (positions : Fin dpSize → List Nat) (inputsEmbeds : Fin dpSize → List α)
    (modelNormLayer : RowNorm α) (layers : List (DecoderLayer dpSize tpSize α))
    (rank : Rank dpSize tpSize) : Comm α (List α) := do
  let dpParams ← .ofOption (MLUDPMetadata.makeOot rank.1 dpSize tpSize dpTokenNums dpIsPrefill
    prefillDispatchUseRSAG lists)
  dpModelForward forward rank dpParams (positions rank.1) (inputsEmbeds rank.1) modelNormLayer
    layers

/-- The layers with scattered residuals end with the rows that the layers on
whole tensors end with, on every rank. -/
theorem rs_ag_layers_eq_common (lead : Rank dpSize tpSize)
    (layers : List (DecoderLayer dpSize tpSize α)) (modelNormLayer : RowNorm α)
    (positions : Fin dpSize → List Nat) (inputsEmbeds : Fin dpSize → List α)
    (tokens : Fin dpSize → Nat) (hrows : ∀ dpRank, (inputsEmbeds dpRank).length = tokens dpRank)
    (hselected : layerCanUseReduceScatter tpSize ((List.finRange dpSize).map tokens) = true)
    (dpIsPrefill : List Bool) (useRSAG : Bool) (lists : SplitLists) :
    let stage forward := Program.run Collective.exchange lead
      (stageForward forward ((List.finRange dpSize).map tokens) dpIsPrefill useRSAG lists positions
        inputsEmbeds modelNormLayer layers)
    stage dpForwardLayerRsAg = stage dpForwardLayerCommon ∧
      stage dpForwardLayerRsAg = some fun rank =>
        modelNormLayer.forward (outputs positions (tokens rank.1) layers inputsEmbeds rank.1) := by
  obtain ⟨size, hsize, htokens⟩ := exists_size lead hselected
  have hlength : ∀ dpRank, (inputsEmbeds dpRank).length = tpSize * size := fun dpRank =>
    (hrows dpRank).trans (htokens dpRank)
  obtain ⟨params, hmake, hparams⟩ := exists_scatteredParams lead hselected htokens
    dpIsPrefill useRSAG lists
  obtain ⟨last, hcommon⟩ := run_layers_common lead positions hparams hsize hlength
    (show ∀ rank : Rank dpSize tpSize, (none : Option (List α)).getD (inputsEmbeds rank.1) =
      inputsEmbeds rank.1 from
      fun _ => rfl) true layers
  have hscattered : Program.run Collective.exchange lead (fun rank =>
      dpLayersForward dpForwardLayerRsAg rank (params rank) (positions rank.1) true layers
        (inputsEmbeds rank.1) none) =
      some fun rank => (outputs positions (tpSize * size) layers inputsEmbeds rank.1, none) := by
    cases layers with
    | nil => simp only [dpLayersForward, Program.pure_eq_done, Program.run_done, outputs]
    | cons layer rest => exact run_layers_rsAg lead positions hparams hlength true layer rest
  have hstage : ∀ forward : LayerForward dpSize tpSize α,
      stageForward forward ((List.finRange dpSize).map tokens) dpIsPrefill useRSAG lists positions
          inputsEmbeds modelNormLayer layers =
        fun rank => dpLayersForward forward rank (params rank) (positions rank.1) true layers
            (inputsEmbeds rank.1) none >>= fun after =>
          .done (modelNormLayer.forward after.1) := by
    intro forward
    funext rank
    simp only [stageForward, hmake]
    rfl
  simp only [hstage, htokens]
  rw [Program.run_bind _ _ hscattered, Program.run_bind _ _ hcommon]
  simp only [Program.run_done, and_self]

/-- A layer whose partials differ from card to card. -/
def shiftLayer : DecoderLayer 2 2 Int where
  inputNorm := ⟨fun row => 2 * row⟩
  postNorm := ⟨fun row => row - 1⟩
  selfAttn rank _ rows := rows.map fun row => row + rank.2
  mlp rank rows := rows.map fun row => row * (rank.1 + 2 * rank.2)
  length_selfAttn _ _ _ := List.length_map _
  length_mlp _ _ := List.length_map _

def twoEmbeds : Fin 2 → List Int := ![[1, 2], [3, 4]]

theorem rs_ag_layers_eq_common_shift :
    Program.run Collective.exchange (0, 0) (stageForward dpForwardLayerRsAg [2, 2] [true, true]
        true {} (fun _ => [0, 1]) twoEmbeds ⟨fun row => row⟩ [shiftLayer, shiftLayer]) =
      Program.run Collective.exchange (0, 0) (stageForward dpForwardLayerCommon [2, 2] [true, true]
        true {} (fun _ => [0, 1]) twoEmbeds ⟨fun row => row⟩ [shiftLayer, shiftLayer]) :=
  (rs_ag_layers_eq_common (0, 0) [shiftLayer, shiftLayer] ⟨fun row => row⟩ (fun _ => [0, 1])
    twoEmbeds (fun _ => 2) (by decide) (by decide) [true, true] true {}).1

end VllmMlu.Parallel
