import Xllm.Block.LinearStateRuns
import Xllm.PrefixCache.Precomputed
import Xllm.Parallel.CpPlanLossless
import Xllm.Sampling.TokenMaskCache
import Xllm.KvCacheTransfer.PrefetchRuns
import Xllm.Speculative.CleanPrefix
import Xllm.Eplb.RebalanceRounds
import Xllm.Parallel.CpCausal
import Xllm.FunctionCall.KimiK3Stream
import Xllm.KvCacheTransfer.ReshardAdmission
import Xllm.XTensor.PageAccounting
import Xllm.Scheduler.HandoffSafety
import Xllm.KvCacheTransfer.PrefetchSessionRuns
import Xllm.KvCacheTransfer.CachePeerLinks
import Xllm.Multimodal.ChunkedPrefill
import Xllm.Speculative.PruningOptimal
import Xllm.Speculative.AcceptedViews
import Xllm.Scheduler.DisaggRoundTrip
import Xllm.Request.OverlapCommits
import Xllm.ApiService.AnthropicEvents
import Xllm.ApiService.ChatDelivery
import Xllm.DistributedRuntime.StepChannelSync
import Xllm.Scheduler.ResponseDelivery
import Xllm.Tokenizer.RwkvSegments
import Xllm.Tokenizer.DecodedText
import Xllm.KvCacheTransfer.KvCacheStoreWriters
import Xllm.Parallel.ConsistentTopologies
import Xllm.Parallel.DpEpPaddingLossless
import Xllm.Util.TensorRoundTrip
import Xllm.KvCacheTransfer.LinkSessionsAtomic
import Xllm.KvCacheTransfer.XTensorPaired
import Xllm.KvCacheTransfer.HostTransfersAgree
import Xllm.Scheduler.BudgetRoot
import Xllm.KvCache.ShapeRoundTrip
import Xllm.Scheduler.LinkEpochRuns
import Xllm.Util.MPMCThreadPool
import Xllm.DistributedRuntime.RateLimiter
import Xllm.Sampling.BatchConcat
import Xllm.Sampling.ReasoningMarker
import Xllm.Sampling.TopKTopP
import Xllm.Eplb.GreedyEplbPolicy
