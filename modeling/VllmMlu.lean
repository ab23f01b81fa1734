import VllmMlu.Library.Dict
import VllmMlu.Library.Machine
import VllmMlu.Library.Spmd
import VllmMlu.Library.Rows
import VllmMlu.Library.Cuts
import VllmMlu.Sched.Request
import VllmMlu.Sched.Host
import VllmMlu.Sched.KVCacheManager
import VllmMlu.Sched.Pass
import VllmMlu.Sched.Schedule
import VllmMlu.Sched.Action
import VllmMlu.Sched.Placement
import VllmMlu.Sched.Tracking
import VllmMlu.Sched.Budget
import VllmMlu.Sched.RunningLoop
import VllmMlu.Sched.WaitingLoop
import VllmMlu.Sched.Outcome
import VllmMlu.Sched.Fate
import VllmMlu.Sched.Update
import VllmMlu.Sched.Rows
import VllmMlu.Sched.Calls
import VllmMlu.Sched.Pipeline
import VllmMlu.Sched.Settling
import VllmMlu.Sched.Placeholders
import VllmMlu.Sched.PoolHost
import VllmMlu.Sched.Consistency
import VllmMlu.Sched.AsyncRuns
import VllmMlu.Sched.WholePrefill
import VllmMlu.Sched.Progress
import VllmMlu.Sched.Scan
import VllmMlu.Worker.ModelRunner
import VllmMlu.Worker.InferMode
import VllmMlu.Worker.KvState
import VllmMlu.Worker.KvSlots
import VllmMlu.Parallel.DPMetadata
import VllmMlu.Parallel.DPUtils
import VllmMlu.Parallel.PartitionUtils
import VllmMlu.Parallel.Partition
import VllmMlu.Parallel.PostAttention
import VllmMlu.Parallel.DecoderLayers
import VllmMlu.Parallel.LayerPaths
import VllmMlu.Parallel.GraphInfo
import VllmMlu.Allocator.CnMem
import VllmMlu.Allocator.SleepMode
import VllmMlu.Cache.KVCacheInterface
import VllmMlu.Cache.HybridMemory
import VllmMlu.Connector.SharedStorage
import VllmMlu.Connector.Agreement
import VllmMlu.Models.DeepseekV4
import VllmMlu.Models.WindowSlots
import VllmMlu.Models.WindowRing
import VllmMlu.Models.SlotBounds
import VllmMlu.Worker.PromptLogprobs
import VllmMlu.Worker.PromptLogprobsRuns
import VllmMlu.Library.Swaps
import VllmMlu.Worker.FlashMLA
import VllmMlu.Library.Recency
import VllmMlu.Worker.LocalIdMapper
import VllmMlu.Worker.GdnAttention
import VllmMlu.Worker.GdnStates
import VllmMlu.Parallel.LogitsGroup
import VllmMlu.Parallel.DraftStep
import VllmMlu.Parallel.VocabParallel
import VllmMlu.Sched.Grants
import VllmMlu.Sched.DraftCounts
import VllmMlu.Sched.Transfers
import VllmMlu.Sched.RowRouting
import VllmMlu.Worker.LocalIdRuns
import VllmMlu.Worker.GdnPadding
import VllmMlu.Library.Kernel
import VllmMlu.Library.Buckets
import VllmMlu.Moe.AlignBlockSize
import VllmMlu.Moe.AlignedTokens
import VllmMlu.Library.Cycles
import VllmMlu.Worker.BatchOrder
import VllmMlu.Library.Speculation
import VllmMlu.Sample.RejectionSampler
import VllmMlu.Sample.RejectionRows
import VllmMlu.Sample.AcceptanceRate
import VllmMlu.Library.FirstMax
import VllmMlu.Sample.RecoveredTokens
import VllmMlu.Library.Packed
import VllmMlu.SpecDecode.Eagle
import VllmMlu.SpecDecode.DraftInputs
import VllmMlu.SpecDecode.DraftSteps
import VllmMlu.Worker.AttnPadding
import VllmMlu.Worker.ChunkedContext
import VllmMlu.Library.Ascending
import VllmMlu.Config.CudagraphSizes
import VllmMlu.Worker.GrammarBitmask
import VllmMlu.Library.Strided
import VllmMlu.Cache.MambaState
import VllmMlu.Library.VarlenAttention
import VllmMlu.Parallel.SplitAttention
import VllmMlu.Connector.ExternalMatch
import VllmMlu.Library.Grouping
import VllmMlu.Executor.RayExecutor
import VllmMlu.Connector.Nixl
import VllmMlu.Moe.SparseMoeMlp
import VllmMlu.Library.Dispatch
import VllmMlu.Moe.ForwardExperts
import VllmMlu.Moe.Longcat
import VllmMlu.Moe.FusedMoe
import VllmMlu.Moe.LocalExperts
import VllmMlu.Moe.ExpertTiles
import VllmMlu.Moe.FusedExperts
import VllmMlu.Moe.FusedChunks
import VllmMlu.Moe.FusedExact
import VllmMlu.Library.BitFields
import VllmMlu.Library.Grid
import VllmMlu.Quantization.IntFields
import VllmMlu.Quantization.GptqMlu
import VllmMlu.Quantization.AwqMlu
import VllmMlu.Library.Tensor
import VllmMlu.Layers.Linear
import VllmMlu.Layers.KeptWeights
import VllmMlu.Layers.FeedForward
import VllmMlu.Library.Tiles
import VllmMlu.Lora.SgmvKernels
import VllmMlu.Lora.SegmentTiles
import VllmMlu.Lora.SegmentSums
import VllmMlu.Lora.MultiLora
import VllmMlu.Sample.MluSampler
import VllmMlu.Sched.InFlightBound
import VllmMlu.Engine.Core
import VllmMlu.Engine.BatchQueue
import VllmMlu.Engine.Refinement
import VllmMlu.Engine.Deferral
import VllmMlu.Engine.GrammarMasks
import VllmMlu.Worker.GreedyRuns
