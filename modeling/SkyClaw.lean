import SkyClaw.Agent.ChatHistory
import SkyClaw.Agent.DownloadMod
import SkyClaw.Agent.HermesParser
import SkyClaw.Agent.Providers
import SkyClaw.Agent.RetrievedContext
import SkyClaw.Agent.TokenCircuitBreaker
import SkyClaw.Agent.TokenEstimates
import SkyClaw.Assets.AssetConflicts
import SkyClaw.Comms.GatewayServer
import SkyClaw.Comms.TelegramPolling
import SkyClaw.Comms.TelegramRateLimit
import SkyClaw.Comms.TelegramSplit
import SkyClaw.Comms.UiBroadcast
import SkyClaw.Comms.UpdateConfig
import SkyClaw.ConfigClearText
import SkyClaw.Core.BusDelivery
import SkyClaw.Core.DatabaseAgent
import SkyClaw.Core.DbLifecycle
import SkyClaw.Core.DlqPayload
import SkyClaw.Core.HandlerIndex
import SkyClaw.Core.PathResolver
import SkyClaw.Core.RetryDelivery
import SkyClaw.Db.JournalOrder
import SkyClaw.Db.RegistryBatches
import SkyClaw.Db.SnapshotRestore
import SkyClaw.Db.SnapshotRetention
import SkyClaw.Fomod.Conditions
import SkyClaw.Fomod.InstallOrder
import SkyClaw.Fomod.Preview
import SkyClaw.Mo2.ModlistChanges
import SkyClaw.Orchestrator.FileOperations
import SkyClaw.Orchestrator.HitlGate
import SkyClaw.Orchestrator.IdempotencyMiddleware
import SkyClaw.Orchestrator.SyncRun
import SkyClaw.Orchestrator.UpdateCycle
import SkyClaw.Orchestrator.WatcherDaemon
import SkyClaw.Orchestrator.WorkflowStart
import SkyClaw.Reasoning.RepeatedStates
import SkyClaw.Reasoning.MctsProgress
import SkyClaw.Reasoning.ParallelExpansion
import SkyClaw.Reasoning.Pruning
import SkyClaw.Scraper.ConcurrentDownloads
import SkyClaw.Scraper.DownloadFailures
import SkyClaw.Scraper.MasterlistBreaker
import SkyClaw.Scraper.RedditClient
import SkyClaw.Scraper.ScraperBreaker
import SkyClaw.Security.AuthToken
import SkyClaw.Security.FilePermissions
import SkyClaw.Security.HopCredentials
import SkyClaw.Security.LoopGuardrail
import SkyClaw.Security.OutputGate
import SkyClaw.Security.SafeResolver
import SkyClaw.Security.ScanVerdicts
import SkyClaw.Security.SqlitePool
import SkyClaw.Security.VaultSalt
import SkyClaw.Security.Whitelist
import SkyClaw.Tools.DynDOLODOutput
import SkyClaw.Tools.PatcherPipeline
import SkyClaw.Tools.ServiceTransactions
import SkyClaw.Tools.SynthesisRollback
import SkyClaw.Tools.ToolsInstaller
import SkyClaw.Tools.VramrCleanup
import SkyClaw.Validators.SsrfNormalize
import SkyClaw.Web.RingBuffer
import SkyClaw.Web.TokenRotation
import SkyClaw.Web.WebSocketClient
import SkyClaw.Xedit.ConflictScript
import SkyClaw.Xedit.ScriptTexts
import SkyClaw.Lib.StableSort
import SkyClaw.Lib.JsonIndented
import SkyClaw.Tools.PatcherOrder
