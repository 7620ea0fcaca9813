import Verl.Lib.Run
import Verl.Lib.Relay
import Verl.Lib.Python
import Verl.Lib.Dict
import Verl.Lib.FirstCome
import Verl.Lib.GroupBy
import Verl.Lib.Numbering
import Verl.Lib.PriorityQueue
import Verl.FullyAsync.MessageQueue
import Verl.FullyAsync.Rollouter
import Verl.FullyAsync.Trainer
import Verl.FullyAsync.TrainerVersions
import Verl.Lib.ExpLog
import Verl.Lib.ExtendedRat
import Verl.Ppo.AggLoss
import Verl.Ppo.GaeAdvantage
import Verl.Ppo.GroupIndex
import Verl.Ppo.GroupNumbering
import Verl.Ppo.RouterShift
import Verl.Ppo.PolicyLoss
import Verl.Ppo.PolicyLossParallel
import Verl.Ppo.Advantage
import Verl.Ppo.AdvantageGroups
import Verl.Ppo.Whitening
import Verl.Ppo.ReturnResets
import Verl.Ppo.MaskedExtended
import Verl.Balance.KarmarkarKarp
import Verl.Balance.Partition
import Verl.Balance.Spread
import Verl.Balance.MicroBatch
import Verl.Balance.TokenBudget
import Verl.Lib.Labels
import Verl.Balance.UidGroups
import Verl.Lib.LeastLoaded
import Verl.Balance.Greedy
import Verl.Lib.Pooling
import Verl.ReplayBuffer.DropMetrics
import Verl.PpoTrainer.MetricsAggregator
import Verl.PpoTrainer.DropAggregation
import Verl.ActivationOffload.Handler
import Verl.ActivationOffload.Autograd
import Verl.ActivationOffload.Copies
import Verl.ActivationOffload.Passes
import Verl.ActivationOffload.BackwardPass
import Verl.ActivationOffload.OffloadRuns
import Verl.AgentLoop.RunPrompt
import Verl.AgentLoop.Gemma4ToolParser
import Verl.AgentLoop.Gemma4Arguments
import Verl.AgentLoop.Gemma4RoundTrip
import Verl.Lib.Slices
import Verl.Lib.Intervals
import Verl.Lib.Rows
import Verl.Lib.Strings
import Verl.Lib.Regex
import Verl.Lib.Json
import Verl.Lib.Jagged
import Verl.Lib.Shards
import Verl.Lib.Tensors
import Verl.Lib.Tiles
import Verl.Checkpoint.Chunks
import Verl.Checkpoint.Nccl
import Verl.Checkpoint.NcclLossless
import Verl.Checkpoint.NcclProgress
import Verl.Checkpoint.Nixl
import Verl.Checkpoint.NixlChain
import Verl.Checkpoint.NixlRelay
import Verl.Checkpoint.NixlProgress
import Verl.Checkpoint.NixlTopology
import Verl.Checkpoint.MooncakeBuckets
import Verl.Checkpoint.MooncakeChain
import Verl.Checkpoint.MooncakeSafe
import Verl.Checkpoint.MooncakeProgress
import Verl.Checkpoint.MooncakeResync
import Verl.Checkpoint.Bucketed
import Verl.Checkpoint.BucketedLossless
import Verl.Tokenizer.ContinuousToken
import Verl.Tokenizer.ResponseToken
import Verl.Tokenizer.MergeAlignment
import Verl.AgentLoop.ToolAgentLoop
import Verl.AgentLoop.ToolAlignment
import Verl.Workers.Padding
import Verl.Workers.ParameterUpdatePolicy
import Verl.Workers.PolicyAudit
import Verl.Workers.PpoLoss
import Verl.Workers.SftLoss
import Verl.Workers.RouterShiftLoss
import Verl.Workers.RouterTraceCapture
import Verl.Workers.ForwardStep
import Verl.Workers.Ulysses
import Verl.Workers.UlyssesTokens
import Verl.AgentLoop.Postprocess
import Verl.AgentLoop.LayoutAgreement
import Verl.Kernel.Backward
import Verl.Kernel.BackwardMethods
import Verl.Kernel.Forward
import Verl.Kernel.ForwardLoops
import Verl.Kernel.ForwardPlain
import Verl.Kernel.ForwardRanks
import Verl.Kernel.Gradient
import Verl.LLMServer.LoadBalancer
import Verl.LLMServer.InflightCounts
import Verl.LLMServer.HybridReplicas
import Verl.LLMServer.HybridBookkeeping
import Verl.Lib.Decoding
import Verl.LLMServer.PartialRollout
import Verl.LLMServer.RolloutResume
import Verl.ReplayBuffer.TransferQueue
import Verl.Ppo.PaddingUtils
import Verl.Ppo.PaddingInert
import Verl.Ppo.MultiTrajectories
import Verl.Ppo.PaddedBatch
import Verl.Ppo.PasskPadding
import Verl.ReplayBuffer.Sample
import Verl.PpoTrainer.PromptQueue
import Verl.PpoTrainer.FitLoop
import Verl.PpoTrainer.FitInvariant
import Verl.PpoTrainer.Resume
import Verl.PpoTrainer.OldRouterTraces
import Verl.PpoTrainer.OutputKeys
import Verl.PpoTrainer.RouterAlignment
import Verl.PpoTrainer.Validate
import Verl.PpoTrainer.ValidationRecords
import Verl.ReplayBuffer.Interleaving
import Verl.SingleController.DataProto
import Verl.SingleController.MeshDispatch
import Verl.SingleController.MetaInfo
import Verl.RouterReplay.Assembly
import Verl.RouterReplay.LayerAssignment
import Verl.RouterReplay.LayerOffset
import Verl.RouterReplay.LayerTiling
import Verl.RouterReplay.UnevenTiling
import Verl.RouterReplay.ReplayIdentity
import Verl.RouterReplay.ReplayRun
import Verl.RouterReplay.RouterReplay
import Verl.SingleController.AutoPadding
import Verl.RewardLoop.TokenBucket
import Verl.RewardLoop.TokenRate
import Verl.Distillation.DenseGradient
import Verl.Distillation.TopkLosses
import Verl.Distillation.VocabParallel
import Verl.Dataset.MultiTurnSft
import Verl.Dataset.PadModes
import Verl.ModelMerger.PipelineShards
import Verl.ModelMerger.FusedProjections
import Verl.Checkpoint.Retention
import Verl.Lib.Bytes
import Verl.Lib.Batching
import Verl.Lib.Overlay
import Verl.DeltaSync.Tensors
import Verl.DeltaSync.SparseGather
import Verl.DeltaSync.Engine
import Verl.DeltaSync.Loader
import Verl.DeltaSync.Params
import Verl.DeltaSync.Stream
import Verl.DeltaSync.Apply
import Verl.DeltaSync.Diff
import Verl.DeltaSync.Send
import Verl.DeltaSync.Sync
import Verl.SingleController.DivisorPadding
import Verl.Ppo.VectorizedGrpo
import Verl.Ppo.OptimalTokenBaseline
import Verl.Ppo.BaselineCompaction
import Verl.Ppo.RolloutRejection
