import Edmm.RemapFailure
import Edmm.StaleTensor
import Edmm.StepOutcomes
import Edmm.PagedMemory
import Edmm.OwnerAccess
import Edmm.RemapBytes
import Edmm.SchedulerHook
import Edmm.HookIsolation
import Edmm.HookHandles
import Edmm.Request
import Edmm.SchedulerState
import Edmm.KvSurvival
import Edmm.QueueConservation
import Edmm.ArrivalOrder
import Edmm.PrefixHashes
import Edmm.SessionTokens
import Edmm.KvTokens
import Edmm.SessionRuns
import Edmm.ConcurrentRemaps
import Edmm.RemapFreeRace
import Edmm.PausedRequests
import Edmm.WorkerPayload
import Edmm.HookCleanup
import Edmm.SentinelDetection
import Edmm.HookShutdown
import Edmm.CleanupRaces
import Edmm.AllocationFailure
import Edmm.FreeFailure
import Edmm.IntegrityCheck
import Edmm.KvCacheIntegrity
import Edmm.CacheEngine
import Edmm.ForcedReset
import Edmm.Lib.Ranking
import Edmm.LoopBounds
import Edmm.RequestLife
import Edmm.PriorityQueues
import Edmm.PriorityOrder
import Edmm.PreemptionOrder
import Edmm.ScheduleOutput
import Edmm.KnownRequests
import Edmm.ClientStream
import Edmm.InvalidBlocks
import Edmm.CacheBudget
import Edmm.CpuLoad
import Edmm.BlockHashes
import Edmm.HashInjection
import Edmm.TrimmedStats
import Edmm.KvCacheClone
import Edmm.BenchmarkInputs
