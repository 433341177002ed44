import Slide.Metrics.Rollout
import Slide.Workflows.AttemptBound
import Slide.Metrics.DerivedOrder
import Slide.Metrics.DerivedEvidence
import Slide.Workflows.Lanes
import Slide.Display.DisplayAgreement
import Slide.Runtime.StreamDelivery
import Slide.Triggers.InputCacheOverflow
import Slide.Scheduler.SingleCommit
import Slide.Runtime.BudgetBound
import Slide.Runtime.Checkpointing
import Slide.Investigations.ObservationRun
import Slide.Investigations.Replay
import Slide.Investigations.BudgetReuse
import Slide.Alerts.DependencyRun
import Slide.Attention.Splits
import Slide.Templates.DiscoveryRun
import Slide.Actions.VerificationRun
import Slide.Templates.StorageRun
import Slide.Actions.DispatchRun
import Slide.Migrations.RunnerRun
import Slide.Workflows.DeliveryRun
import Slide.Workflows.ReportOccurrenceOwners
import Slide.Bulk.Promises
import Slide.Sessions.FactsSurvive
import Slide.Memory.NothingLost
import Slide.Security.ToolIdempotencyRun
import Slide.Security.RequestAuthRun
import Slide.Memory.Serializable
import Slide.Security.ApprovalRun
import Slide.Agents.AgentRunHistory
import Slide.Cron.ExecutesOnce
import Slide.Events.AdmitsByPolicy
import Slide.Triggers.EpisodeReplay
import Slide.Triggers.WindowEdge
import Slide.Triggers.ArrivalOrder
import Slide.Metrics.CounterWrap
import Slide.Metrics.HistogramContract
import Slide.Security.RbacRun
import Slide.Attention.Grouping
import Slide.Relations.GraphHonest
import Slide.Baselines.Qualification
import Slide.Context.Preparation
import Slide.Runtime.OutputContinuation
import Slide.Lifecycle.WorkerLease
