import Occp.Adapters.BreakGlassOverride
import Occp.Adapters.BridgeFiles
import Occp.Adapters.BrowserHosts
import Occp.Adapters.ChatCompletions
import Occp.Adapters.CircuitBreaker
import Occp.Adapters.ConfirmationCleanup
import Occp.Adapters.ConfirmationOutcome
import Occp.Adapters.DirectiveLoss
import Occp.Adapters.Levenshtein
import Occp.Adapters.McpBridge
import Occp.Adapters.McpClient
import Occp.Adapters.MultiLlmPlanner
import Occp.Adapters.NodeExec
import Occp.Adapters.SharedTrail
import Occp.Adapters.TelegramPolling
import Occp.Api.IssuedTokens
import Occp.Api.KeyLifecycle
import Occp.Api.RateLimit
import Occp.Autodev.Coverage
import Occp.Autodev.DailyLimits
import Occp.Autodev.DiffSections
import Occp.Autodev.Expiry
import Occp.Autodev.MergeGate
import Occp.Autodev.RiskOrder
import Occp.Autodev.TerminalStates
import Occp.Evaluation.FeatureFlags
import Occp.Evaluation.GlobLanguage
import Occp.Evaluation.KillSwitchFleet
import Occp.Evaluation.Spelling
import Occp.JsonText
import Occp.Lib.Calendar
import Occp.Lib.Chains
import Occp.Lib.Descent
import Occp.Lib.Escapes
import Occp.Lib.Fields
import Occp.Lib.SlidingWindow
import Occp.Lib.Words
import Occp.Lib.Workers
import Occp.Observability.Collected
import Occp.Observability.ExportedNames
import Occp.Observability.Exposition
import Occp.Observability.ExpositionLines
import Occp.Observability.Families
import Occp.Observability.Metrics
import Occp.Observability.MetricsFaithful
import Occp.Observability.Recordings
import Occp.Orchestrator.BatchRunner
import Occp.Orchestrator.CancelWords
import Occp.Orchestrator.ConfigLoader
import Occp.Orchestrator.CronFiring
import Occp.Orchestrator.CronGaps
import Occp.Orchestrator.CronJobs
import Occp.Orchestrator.CronSearch
import Occp.Orchestrator.Delivery
import Occp.Orchestrator.Isolation
import Occp.Orchestrator.NetworkScope
import Occp.Orchestrator.OutputScan
import Occp.Orchestrator.Persistence
import Occp.Orchestrator.PipelineOrder
import Occp.Orchestrator.PipelineOutcome
import Occp.Orchestrator.Projects
import Occp.Orchestrator.ReportedTasks
import Occp.Orchestrator.SessionFinality
import Occp.Orchestrator.SkillExecutor
import Occp.Orchestrator.SkillScope
import Occp.Orchestrator.StopFinal
import Occp.Policy.AbacCombining
import Occp.Policy.AuditTrail
import Occp.Policy.BudgetCap
import Occp.Policy.BudgetOutage
import Occp.Policy.BudgetRounding
import Occp.Policy.BudgetShared
import Occp.Policy.HumanOversight
import Occp.Policy.RateHistories
import Occp.Policy.Replay
import Occp.Policy.Scanning
import Occp.Policy.Verdict
import Occp.Security.CachedVerdicts
import Occp.Security.Forgery
import Occp.Security.InputSanitizer
import Occp.Security.PermanentRevocations
import Occp.Security.RevocationText
import Occp.Security.RotationFailure
import Occp.Security.Sbom
import Occp.Security.SiemDecoding
import Occp.Security.SiemEvents
import Occp.Security.SiemExport
import Occp.Security.SiemFaithful
import Occp.Security.SiemUnambiguous
import Occp.Security.SkillIntegrity
import Occp.Security.SupplyChain
import Occp.Store.CostAgreement
import Occp.Store.CostCalculator
import Occp.Store.MemoryCompaction
import Occp.Store.PublishedRoots
import Occp.Store.Tampering
import Occp.Store.TokenMap
import Occp.Workflow.Cancellation
import Occp.Workflow.Halting
import Occp.Workflow.Ordering
import Occp.Workflow.ParallelDispatch
import Occp.Workflow.Pausing
import Occp.Workflow.Refinement
import Occp.Workflow.RunOnce
