import AdCoder.BackgroundRuns.TerminalRuns
import AdCoder.BackgroundRuns.WakePumpRuns
import AdCoder.BackgroundRuns.WakeRuns
import AdCoder.Economics.BlockingLaw
import AdCoder.Economics.ChargedCost
import AdCoder.Orchestration.TrivialEditRuns
import AdCoder.Orchestration.Unattended
import AdCoder.ProjectOperations.BacklogAgreement
import AdCoder.ProjectOperations.DecisionCloseout
import AdCoder.ProjectOperations.DocumentationRuns
import AdCoder.ProjectOperations.ResearchDispatch
import AdCoder.ProjectOperations.StageAccounting
import AdCoder.ProviderAdmission.Cancellation
import AdCoder.SessionManager.LeaseRuns
import AdCoder.SessionManager.LineProtocol
import AdCoder.SessionManager.RoundTrip
import AdCoder.SessionLimit.WrappedCalls
import AdCoder.Waits.StrandedDispatch
import AdCoder.Web.BoundedFetch
import AdCoder.RunStop.StopRuns
import AdCoder.Runner.TransportScan
import AdCoder.BackgroundRuns.ClaimRuns
import AdCoder.PrivateStore.LockRuns
import AdCoder.ProjectStore.JournalWaits
import AdCoder.ProjectStore.JournalRepair
import AdCoder.BackgroundRuns.CoordinatorPauses
import AdCoder.Orchestration.StepAccounting
import AdCoder.Observability.DropAccounting
import AdCoder.Orchestration.EditBreadth
import AdCoder.Orchestration.RemovedTestInventory
import AdCoder.Orchestration.PlanRoundTrip
import AdCoder.BackgroundRuns.WakeUnion
import AdCoder.BackgroundRuns.Subscribers
import AdCoder.ProviderAdmission.Fairness
import AdCoder.ProviderAdmission.Cooldowns
import AdCoder.ProviderAdmission.WorkConservation
import AdCoder.ControlPlane.RetryCoordinator
import AdCoder.StageLimit.Budgets
import AdCoder.Waits.Paging
import AdCoder.Context.Compaction
import AdCoder.Stamp.StampRoundTrip
import AdCoder.ProjectOperations.PublishedPaths
import AdCoder.ProjectOperations.IssueEncoding
import AdCoder.ProjectOperations.ImportedPhases
import AdCoder.Ledger.FileSink
import AdCoder.Conversation.Continuation
import AdCoder.Cli.RendererRuns
import AdCoder.Auth.CredentialMap
import AdCoder.UserProfiles.ImportRuns
import AdCoder.ProjectCalibration.Calibration
import AdCoder.Web.ExtractionLaws
import AdCoder.Waits.Endings
import AdCoder.Registry.Revalidation
