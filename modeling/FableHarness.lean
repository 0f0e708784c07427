import FableHarness.Library.OrderedDict
import FableHarness.Library.KeyedTable
import FableHarness.Library.ExceptionState
import FableHarness.Library.EventLog
import FableHarness.Library.LabelledRun
import FableHarness.Library.Noninterference
import FableHarness.Core.Python
import FableHarness.Core.Budgets
import FableHarness.Core.Context
import FableHarness.Core.Permissions
import FableHarness.Memory.Uuid
import FableHarness.Memory.Store
import FableHarness.Memory.PgVectorStore
import FableHarness.Memory.ScopeIsolation
import FableHarness.Memory.EmbeddingSpaces
import FableHarness.Memory.ReadCommitted
import FableHarness.Memory.ClosedOnce
import FableHarness.Library.CommitOrder
import FableHarness.Memory.RecordedCalls
import FableHarness.Memory.Serializability
import FableHarness.Memory.RowHistory
import FableHarness.Tools.Registry
import FableHarness.Tools.ChokePoint
import FableHarness.Tools.EntryDecision
import FableHarness.Core.FailureDetector
import FableHarness.Routing.Router
import FableHarness.Flows.Turn
import FableHarness.Tools.McpClient
import FableHarness.Tools.GateParity
import FableHarness.Flows.Agent
import FableHarness.Memory.Extraction
import FableHarness.Flows.SingleAgent
import FableHarness.Flows.Orchestrator
import FableHarness.Core.Loop
import FableHarness.Core.RoutedTurn
import FableHarness.Flows.BudgetCeiling
import FableHarness.Flows.Confinement
import FableHarness.Flows.Denials
import FableHarness.Flows.FirstFailure
import FableHarness.Flows.RepeatedFailure
import FableHarness.Flows.Runaway
import FableHarness.Flows.Spending
import FableHarness.Core.Session
import FableHarness.Cli.Run
import FableHarness.Cli.RunLedger
import FableHarness.Cli.Preparation
import FableHarness.Flows.Provenance
import FableHarness.Memory.MemoryDb
import FableHarness.Cli.SessionMemory
import FableHarness.Cli.SharedMemory
import FableHarness.Tools.DemoTools
import FableHarness.Tools.FlowScoping
import FableHarness.Routing.TieredRouter
import FableHarness.Routing.Escalation
import FableHarness.Core.ModeDispatch
import FableHarness.Library.ValidTime
import FableHarness.Memory.IntervalOrder
import FableHarness.Memory.Reconstruction
import FableHarness.Flows.FanOut
import FableHarness.Flows.PostTurn
import FableHarness.Library.Indifference
import FableHarness.Flows.MemoryFree
import FableHarness.Flows.Ablations
import FableHarness.Flows.GatherLoop
import FableHarness.Flows.ToolAhead
import FableHarness.Flows.TurnEnd
import FableHarness.Flows.GatherRefinement
import FableHarness.Core.Compaction
import FableHarness.Core.StickyExhaustion
import FableHarness.Memory.AllOrNothing
import FableHarness.Memory.Replay
import FableHarness.Memory.ReadBack
import FableHarness.Library.Delimited
import FableHarness.Core.JsonText
import FableHarness.Core.FailureCounting
import FableHarness.Core.OutcomeStamps
import FableHarness.Flows.LedgerAgreement
import FableHarness.Memory.Invalidation
import FableHarness.Tools.FailuresAsData
import FableHarness.Library.Regrouping
import FableHarness.Core.UsageTotals
import FableHarness.Library.StableRanking
import FableHarness.Retrieval.McpServer
import FableHarness.Retrieval.TopChunks
import FableHarness.Core.SessionLedger
import FableHarness.Core.SessionStatements
import FableHarness.Core.SessionHistory
import FableHarness.Flows.DispatchCount
import FableHarness.Flows.TurnLedger
import FableHarness.Flows.Conversation
import FableHarness.Flows.Unreachable
import FableHarness.Library.SharedTasks
import FableHarness.Flows.IndependentWorkers
import FableHarness.Config.RiskMatrix
import FableHarness.Cli.Enforcement
import FableHarness.Flows.MemoryUse
import FableHarness.Flows.WholeTurn
import FableHarness.Cli.MemoryGrowth
import FableHarness.Library.Lockstep
import FableHarness.Flows.MemorySimulation
import FableHarness.Memory.ScopeMemory
import FableHarness.Cli.MemorySimulation
import FableHarness.Cli.OwnScope
import FableHarness.Flows.ServedTools
import FableHarness.Cli.ShippedTools
import FableHarness.Flows.AnsweredRecall
import FableHarness.Flows.MemoryProtocol
import FableHarness.Cli.MemoryProtocol
import FableHarness.Cli.ConcurrentTurns
import FableHarness.Cli.SeparateUsers
