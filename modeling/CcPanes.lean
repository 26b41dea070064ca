import CcPanes.Terminal.BracketedPaste
import CcPanes.Terminal.StalePark
import CcPanes.Session.ChannelDedup
import CcPanes.TaskQueue.SnapshotClient
import CcPanes.TaskQueue.DeliveryRefinement
import CcPanes.Daemon.SessionStream
import CcPanes.Terminal.LaunchInvariant
import CcPanes.View.DeliveryCredit
import CcPanes.View.DesyncLatch
import CcPanes.View.MirrorViews
import CcPanes.View.ResyncCovers
import CcPanes.View.CheckpointAnchor
import CcPanes.Session.StatusPublication
import CcPanes.TaskQueue.PermissionDecisions
import CcPanes.Daemon.KeptEntries
import CcPanes.History.HistoryThreads
import CcPanes.History.Rollback
import CcPanes.Media.RunOutputs
import CcPanes.Media.OrphanJobs
import CcPanes.Terminal.BufferMode
import CcPanes.Terminal.TitleCarry
import CcPanes.Daemon.IdentityAcks
import CcPanes.Media.RunCreation
import CcPanes.Spec.SpecService
import CcPanes.Daemon.BridgeDelivery
import CcPanes.View.HibernationWake
import CcPanes.TaskBindings.SerialBindings
import CcPanes.Identity.IdentityAgreement
import CcPanes.Identity.IdentityLaws
import CcPanes.Session.ToolMetadata
import CcPanes.Terminal.StallStreak
import CcPanes.Terminal.OscResync
import CcPanes.Terminal.PlainText
import CcPanes.View.BackgroundStripping
import CcPanes.View.AlternateStripping
import CcPanes.View.WriteFlowDisposal
import CcPanes.View.NestedCredit
import CcPanes.View.ReplayCuts
import CcPanes.Terminal.ConptyArtifacts
import CcPanes.Terminal.Utf8Process
import CcPanes.Terminal.InputQueueRuns
import CcPanes.Panes.TabMovesAgree
import CcPanes.Panes.LayoutPresets
import CcPanes.Daemon.IdentityRetention
import CcPanes.History.Tombstones
import CcPanes.History.EventWindows
import CcPanes.History.SizeCleanup
import CcPanes.SessionIndex.LastSummary
import CcPanes.Usage.InputCounting
import CcPanes.History.DiffHunks
import CcPanes.History.LegacyMigration
import CcPanes.SessionIndex.PiBinding
import CcPanes.Spec.SyncConverges
import CcPanes.Usage.ContextReads
import CcPanes.Files.NamedEntries
import CcPanes.View.PipeEvents
import CcPanes.Todo.Recurrence
import CcPanes.TaskBindings.CascadeDelete
import CcPanes.Todo.TagQuery
import CcPanes.Media.EdgeCycles
import CcPanes.Launch.ProviderResolver
import CcPanes.Launch.VersionNames
import CcPanes.Spec.PlanArchive
import CcPanes.Daemon.OutputCursor
import CcPanes.View.CanvasLayout
