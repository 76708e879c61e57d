import CanvasOS.Lib.Prog
import CanvasOS.Lib.System
import CanvasOS.Lib.RelyGuarantee
import CanvasOS.Lib.Python
import CanvasOS.Governance.KillSwitch
import CanvasOS.Governance.ResourceClaim
import CanvasOS.Publisher.Store
import CanvasOS.Publisher.Publish
import CanvasOS.Publisher.SingleUse
import CanvasOS.Gatekeeper.Policy
import CanvasOS.Gatekeeper.Handlers
import CanvasOS.Gatekeeper.Inbox
import CanvasOS.Gatekeeper.Approvals
import CanvasOS.Gatekeeper.Agreement
import CanvasOS.Lib.Chain
import CanvasOS.Gatekeeper.LinkLifecycle
import CanvasOS.Gatekeeper.ClickFailure
import CanvasOS.Lib.Sequential
import CanvasOS.Lib.Kahn
import CanvasOS.Orchestrator.Loop
import CanvasOS.Orchestrator.TaskStore
import CanvasOS.Orchestrator.Handlers
import CanvasOS.Orchestrator.Worker
import CanvasOS.Orchestrator.Rows
import CanvasOS.Orchestrator.Lawful
import CanvasOS.Orchestrator.Handling
import CanvasOS.Orchestrator.HandlerSpecs
import CanvasOS.Orchestrator.WorkerSpecs
import CanvasOS.Orchestrator.Replay
import CanvasOS.Orchestrator.Absorbing
import CanvasOS.Orchestrator.Gate
import CanvasOS.Orchestrator.Custody
import CanvasOS.Orchestrator.Progress
import CanvasOS.Orchestrator.Replicas
import CanvasOS.Orchestrator.Cascade
import CanvasOS.Orchestrator.Once
import CanvasOS.Orchestrator.Strikes
import CanvasOS.Lib.Text
import CanvasOS.Review.Checks
import CanvasOS.Review.Verdict
import CanvasOS.Lib.Format
import CanvasOS.Lib.Solo
import CanvasOS.Dispatch.Rendering
import CanvasOS.Dispatch.Store
import CanvasOS.Dispatch.QaReview
import CanvasOS.Dispatch.Account
import CanvasOS.Lib.Own
import CanvasOS.Publication.Sweep
import CanvasOS.Lib.Group
import CanvasOS.Publication.Report
import CanvasOS.Metering.Costs
import CanvasOS.Metering.Spend
import CanvasOS.Lib.Converse
import CanvasOS.Publisher.OneRow
import CanvasOS.Gatekeeper.KillSwitchToggle
import CanvasOS.Gateway.Cache
import CanvasOS.Gateway.Orphan
import CanvasOS.Gateway.Callers
import CanvasOS.Gateway.Exclusion
import CanvasOS.Gateway.LocalCache
import CanvasOS.Gateway.Contract
import CanvasOS.Gateway.Completion
import CanvasOS.Gateway.Coverage
import CanvasOS.Dispatch.Reviewing
import CanvasOS.Dispatch.Uncleared
import CanvasOS.Publication.Schedule
import CanvasOS.Publication.SameBytes
import CanvasOS.Gateway.Budget
import CanvasOS.OptionsInbox.Cards
import CanvasOS.OptionsInbox.Policy
import CanvasOS.Analytics.Ingest
import CanvasOS.Analytics.Paging
import CanvasOS.Metering.CostPerAsset
import CanvasOS.Lib.Transaction
import CanvasOS.Vault.Models
import CanvasOS.Vault.Store
import CanvasOS.Vault.Objects
import CanvasOS.Vault.Retention
import CanvasOS.Lib.Part
import CanvasOS.Vault.Pool
import CanvasOS.Lib.Ledger
import CanvasOS.Vault.Ledger
import CanvasOS.Vault.Registering
import CanvasOS.Vault.Keys
import CanvasOS.Vault.Consent
import CanvasOS.Vault.Revocation
import CanvasOS.Vault.Sweeping
import CanvasOS.Vault.FailClosed
import CanvasOS.Orchestrator.Heartbeat
import CanvasOS.Orchestrator.Retrying
import CanvasOS.Ingest.Fallback
import CanvasOS.Analytics.Rollup
import CanvasOS.Analytics.Utm
import CanvasOS.Lib.Trace
import CanvasOS.Vault.Utilisation
import CanvasOS.OptionsInbox.Digest
import CanvasOS.Dispatch.Campaigns
import CanvasOS.Dispatch.ComposeOptions
import CanvasOS.Dispatch.FactCheckGate
import CanvasOS.Lib.BreadthFirst
import CanvasOS.Orchestrator.Lineage
import CanvasOS.Dispatch.LevelReview
import CanvasOS.OptionsInbox.Partition
import CanvasOS.Gatekeeper.OptionDecide
import CanvasOS.Orchestrator.Settlement
import CanvasOS.Lib.Replies
import CanvasOS.Gateway.AllOrNothing
import CanvasOS.Lib.JsonText
import CanvasOS.Governance.ResourceText
import CanvasOS.Dispatch.ModelText
import CanvasOS.Gateway.Rejection
import CanvasOS.Lib.JsonSearch
import CanvasOS.Gateway.Serialised
import CanvasOS.Dispatch.Dedupe
import CanvasOS.Review.Reconcile
import CanvasOS.Signals.Table
import CanvasOS.Signals.Yield
import CanvasOS.Lib.Words
import CanvasOS.Review.Clearance
import CanvasOS.Lib.Stable
import CanvasOS.Signals.Ranking
import CanvasOS.Signals.Brief
import CanvasOS.Signals.Permissions
import CanvasOS.Signals.Memory
import CanvasOS.Lib.Best
import CanvasOS.Signals.Planning
import CanvasOS.Lib.Matches
import CanvasOS.Signals.Robots
import CanvasOS.Lib.Scan
import CanvasOS.Signals.Stripping
import CanvasOS.Lib.Dict
import CanvasOS.Orchestrator.LocalDouble
import CanvasOS.Orchestrator.BlastRadius
import CanvasOS.Analytics.SearchConsole
import CanvasOS.Mcp.RateLimiter
import CanvasOS.Lib.Newline
import CanvasOS.Orchestrator.Prompt
import CanvasOS.Lib.Typestate
import CanvasOS.Mcp.CanvaTokens
import CanvasOS.Dispatch.Transparency
import CanvasOS.Dispatch.InFull
import CanvasOS.Lib.Base64
import CanvasOS.Lib.JsonPretty
import CanvasOS.Lib.Lines
import CanvasOS.Lib.SortBy
import CanvasOS.Registry.Build
import CanvasOS.Registry.Reproducible
import CanvasOS.Registry.Binding
import CanvasOS.Registry.Load
import CanvasOS.Registry.Load
import CanvasOS.Lib.Assure
import CanvasOS.Ingest.Evidence
import CanvasOS.Ingest.Scan
import CanvasOS.Mcp.ToolServer
