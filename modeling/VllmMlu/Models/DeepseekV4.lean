import VllmMlu.Library.Dict
import VllmMlu.Library.Paged
import VllmMlu.Worker.InferMode

/-! `MLUDeepseekV4ForCausalLM.update_forward_args`: the cache slots of the tokens in the
attention window and of the compressed groups. -/
namespace VllmMlu.Models
open VllmMlu.Library Rows Paged Cuts
open VllmMlu.Worker

structure DeepseekV4Config where
  windowSize : Nat
  compressRatios : List Nat

/-- What `update_forward_args` reads of `MLUCommonAttentionMetadata`. -/
structure CommonMetadata where
  inferMode : MLUInferMode
  queryStartLoc : List Nat
  seqLens : List Nat
  blockTableTensor : Option (List (List Int))

def CommonMetadata.queryLens (metadata : CommonMetadata) : List Nat :=
  metadata.queryStartLoc.tail.zipWith (· - ·) metadata.queryStartLoc

/-- `torch.gather(rows, 1, columns.unsqueeze(1)).squeeze(1)`. -/
def gather (rows : List (List Int)) (columns : List Int) : Except TensorError (List Int) :=
  if columns.length ≤ rows.length then
    (rows.zip columns).mapM fun (row, column) =>
      if column < 0 then .error .indexOutOfRange else index row column.toNat
  else .error .indexOutOfRange

/-- One request of a prefill: its last `window_size` tokens in the order of the ring, where
the tail of the ring holds the tokens before those at its head. -/
def prefillWindowRow (windowSize : Nat) (metadata : CommonMetadata) (blockTable : List (List Int))
    (windowSlotMapping : List Int) (i : Nat) : Except TensorError (List Int) := do
  let seqLen ← index metadata.seqLens i
  let row ← index blockTable i
  let start ← index metadata.queryStartLoc i
  if seqLen < windowSize then
    let stop ← index metadata.queryStartLoc (i + 1)
    assign windowSlotMapping start stop (slice 0 seqLen row)
  else if windowSize = 0 then
    throw .zeroDivision
  else
    let tailPos := start + seqLen - windowSize
    let headSize := seqLen % windowSize
    let tailSize := windowSize - headSize
    let windowSlotMapping ← assign windowSlotMapping tailPos (tailPos + tailSize)
      (slice headSize tailSize row)
    assign windowSlotMapping (tailPos + tailSize) (tailPos + windowSize) (slice 0 headSize row)

def prefillWindowSlots (windowSize : Nat) (metadata : CommonMetadata)
    (blockTable : List (List Int)) : Except TensorError (List Int) := do
  let numTokens ← index metadata.queryStartLoc (metadata.queryStartLoc.length - 1)
  (List.range metadata.seqLens.length).foldlM
    (prefillWindowRow windowSize metadata blockTable) (List.replicate numTokens (-1))

def decodeWindowSlots (windowSize : Nat) (metadata : CommonMetadata)
    (blockTable : List (List Int)) : Except TensorError (List Int) :=
  if windowSize = 0 then .error .zeroDivision
  else
    gather blockTable (metadata.seqLens.map fun (seqLen : Nat) =>
      ((seqLen : Int) - 1) % (windowSize : Int))

/-- The pairs of `window_offsets` and `compress_ratios`. -/
def compressorPairs : List (Nat × Nat) := [(128, 128), (128, 4), (0, 4)]

def prefillCompressorSlots (metadata : CommonMetadata) (blockTables : List (List Int))
    (windowOffset compressRatio : Nat) : Except TensorError (List Int) := do
  let slotLens := metadata.queryLens.map (· / compressRatio)
  let cuSlotLens := startLocs slotLens
  -- The entries of `torch.empty` are arbitrary; each of them is assigned below.
  (List.range metadata.queryLens.length).foldlM (fun slotMapping i => do
      let start ← index cuSlotLens i
      let stop ← index cuSlotLens (i + 1)
      let row ← index blockTables i
      let slotLen ← index slotLens i
      assign slotMapping start stop (slice windowOffset slotLen row))
    (List.replicate slotLens.sum 0)

def decodeCompressorSlots (metadata : CommonMetadata) (blockTables : List (List Int))
    (windowOffset compressRatio : Nat) : Except TensorError (List Int) :=
  if metadata.seqLens.length = metadata.queryLens.length then
    gather blockTables (metadata.seqLens.zipWith (fun (seqLen queryLen : Nat) =>
      (windowOffset : Int) + ((seqLen : Int) - queryLen) / (compressRatio : Int))
        metadata.queryLens)
  else .error .shapeMismatch

/-- `window_slot_mapping` and `compressor_slot_mapping`. -/
def updateForwardArgs (cfg : DeepseekV4Config) (metadata : Option CommonMetadata) :
    Except TensorError (Option (List Int) × Dict (Nat × Nat) (List Int)) := do
  let tables := metadata.bind fun metadata =>
    metadata.blockTableTensor.map fun blockTable => (metadata, blockTable)
  let windowSlotMapping ←
    match tables with
    | none => pure none
    | some (metadata, blockTable) =>
        if metadata.inferMode.isPrefillOnly then
          some <$> prefillWindowSlots cfg.windowSize metadata blockTable
        else some <$> decodeWindowSlots cfg.windowSize metadata blockTable
  if cfg.compressRatios.toFinset ≠ {0, 4, 128} then throw .assertion
  let compressorSlotMapping ←
    match tables with
    | none => pure .empty
    | some (metadata, blockTables) =>
        compressorPairs.foldlM (fun mapping (windowOffset, compressRatio) => do
            let slots ←
              if metadata.inferMode.isPrefillOnly then
                prefillCompressorSlots metadata blockTables windowOffset compressRatio
              else decodeCompressorSlots metadata blockTables windowOffset compressRatio
            return mapping.set (windowOffset, compressRatio) slots)
          .empty
  return (windowSlotMapping, compressorSlotMapping)

/-- The columns of a request's row of the block table that its slots are read from. -/
def columnsUsed (windowSize : Nat) (inferMode : MLUInferMode) (seqLen queryLen : Nat) : List Nat :=
  if inferMode.isPrefillOnly then
    List.range (min seqLen windowSize) ++ compressorPairs.flatMap fun (windowOffset, compressRatio) =>
      (List.range (queryLen / compressRatio)).map (windowOffset + ·)
  else
    (seqLen - 1) % windowSize :: compressorPairs.map fun (windowOffset, compressRatio) =>
      windowOffset + (seqLen - queryLen) / compressRatio

end VllmMlu.Models
