import VllmMlu.Parallel.PostAttention

/-! The decoder layers under data parallelism: the layer that keeps whole
tensors on every rank, the layer that scatters them between its two
collectives, and the loop over the layers of a stage. -/
namespace VllmMlu.Parallel

open Library

variable {dpSize tpSize : Nat} {α : Type}

/-- A norm that acts on each row by itself. -/
structure RowNorm (α : Type) where
  row : α → α

def RowNorm.forward (norm : RowNorm α) (hiddenStates : List α) : List α :=
  hiddenStates.map norm.row

/-- The attention partials sum over the tensor parallel group, those of the
experts over all cards. -/
structure DecoderLayer (dpSize tpSize : Nat) (α : Type) where
  inputNorm : RowNorm α
  postNorm : RowNorm α
  selfAttn : Rank dpSize tpSize → List Nat → List α → List α
  mlp : Rank dpSize tpSize → List α → List α
  length_selfAttn : ∀ rank positions rows, (selfAttn rank positions rows).length = rows.length
  length_mlp : ∀ rank rows, (mlp rank rows).length = rows.length

attribute [simp] DecoderLayer.length_selfAttn DecoderLayer.length_mlp

variable [AddCommMonoid α]

/-- The fused form: the norm of the sum, and the sum as the next residual. -/
def RowNorm.forwardAdd (norm : RowNorm α) (hiddenStates residual : List α) :
    Option (List α × List α) := do
  let sum ← Rows.add? hiddenStates residual
  return (norm.forward sum, sum)

/-- The residual enters a sum of partials once. -/
def addResidualIf (enters : Bool) (partialSum residual : List α) : Option (List α) :=
  if enters then Rows.add? partialSum residual else some partialSum

/-- The norm between reduce-scatter and all-gather, and the residual it leaves. -/
def RowNorm.between (norm : RowNorm α) (isFirstLayer : Bool) (scattered residual : List α) :
    Option (List α × List α) :=
  if isFirstLayer then some (norm.forward scattered, scattered)
  else norm.forwardAdd scattered residual

/-- The end of a scattered layer: the input norm of the next layer is moved here. -/
def finishLayer (isLastLayer : Bool) (nextInputLayernorm : Option (RowNorm α))
    (scattered residual : List α) : Option (List α × Option (List α)) := do
  if isLastLayer then
    let sum ← Rows.add? scattered residual
    return (sum, none)
  else
    let next ← nextInputLayernorm
    let (normed, sum) ← next.forwardAdd scattered residual
    return (normed, some sum)

def dpForwardLayerRsAg (rank : Rank dpSize tpSize) (dpParams : MLUDPMetadata)
    (layer : DecoderLayer dpSize tpSize α) (positions : List Nat) (hiddenStates : List α)
    (residual : Option (List α)) (isFirstLayer isLastLayer : Bool)
    (nextInputLayernorm : Option (RowNorm α)) : Comm α (List α × Option (List α)) := do
  let residual := residual.getD hiddenStates
  let normed := if isFirstLayer then layer.inputNorm.forward hiddenStates else hiddenStates
  let partialSum := layer.selfAttn rank positions normed
  let summand ← .ofOption (addResidualIf (isFirstLayer && rank.2.val == 0) partialSum residual)
  let scattered ← tensorModelParallelReduceScatter summand
  let postNormed ← .ofOption (layer.postNorm.between isFirstLayer scattered residual)
  let attnSplit ← .ofOption dpParams.attnTokenSplitListReduceScatter
  let gathered ← tensorModelParallelAllGatherDp attnSplit (Group.world.position rank)
    postNormed.1 .world
  let expertSum := layer.mlp rank gathered
  let scattered ← tensorModelParallelReduceScatter expertSum .world
  let output ← .ofOption (finishLayer isLastLayer nextInputLayernorm scattered postNormed.2)
  let moeSplit ← .ofOption dpParams.moeTokenSplitListReduceScatter
  let own ← tensorModelParallelAllGatherDp moeSplit (Group.tp.position rank) output.1 .tp
  return (own, output.2)

def dpForwardLayerCommon (rank : Rank dpSize tpSize) (dpParams : MLUDPMetadata)
    (layer : DecoderLayer dpSize tpSize α) (positions : List Nat) (hiddenStates : List α)
    (residual : Option (List α)) (_isFirstLayer _isLastLayer : Bool)
    (_nextInputLayernorm : Option (RowNorm α)) : Comm α (List α × Option (List α)) := do
  let residual := residual.getD hiddenStates
  let partialSum := layer.selfAttn rank positions (layer.inputNorm.forward hiddenStates)
  let summand ← .ofOption (addResidualIf (rank.2.val == 0) partialSum residual)
  let gathered ← processPostAttentionCommunication rank summand dpParams
  let residual := Rows.slice dpParams.tokenNumOffset dpParams.tokenNum gathered
  let expertSum := layer.mlp rank (layer.postNorm.forward gathered)
  let reduced ← tensorModelParallelAllReduce expertSum .world
  let own := Rows.slice dpParams.tokenNumOffset dpParams.tokenNum reduced
  let sum ← .ofOption (Rows.add? own residual)
  return (sum, some sum)

/-- The type of both layer functions, after the metadata of the step. -/
abbrev LayerForward (dpSize tpSize : Nat) (α : Type) :=
  Rank dpSize tpSize → MLUDPMetadata → DecoderLayer dpSize tpSize α → List Nat → List α →
    Option (List α) → Bool → Bool → Option (RowNorm α) → Comm α (List α × Option (List α))

/-- The loop of `dp_model_forward` from the layer `layers.head?` on. -/
def dpLayersForward (forward : LayerForward dpSize tpSize α) (rank : Rank dpSize tpSize)
    (dpParams : MLUDPMetadata) (positions : List Nat) :
    Bool → List (DecoderLayer dpSize tpSize α) → List α → Option (List α) →
      Comm α (List α × Option (List α))
  | _, [], hiddenStates, residual => return (hiddenStates, residual)
  | isFirstLayer, layer :: rest, hiddenStates, residual => do
      let (hiddenStates, residual) ← forward rank dpParams layer positions hiddenStates residual
        isFirstLayer rest.isEmpty (rest.head?.map DecoderLayer.inputNorm)
      dpLayersForward forward rank dpParams positions false rest hiddenStates residual

/-- One stage that is both the first and the last of the pipeline. -/
def dpModelForward (forward : LayerForward dpSize tpSize α) (rank : Rank dpSize tpSize)
    (dpParams : MLUDPMetadata) (positions : List Nat) (inputsEmbeds : List α)
    (modelNormLayer : RowNorm α) (layers : List (DecoderLayer dpSize tpSize α)) :
    Comm α (List α) := do
  let (hiddenStates, _) ← dpLayersForward forward rank dpParams positions true layers
    inputsEmbeds none
  return modelNormLayer.forward hiddenStates

end VllmMlu.Parallel
