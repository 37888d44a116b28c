import AgzRustMcp.Change.Applicable
import AgzRustMcp.Change.Reverse
import AgzRustMcp.Change.Tamper
import AgzRustMcp.Work.Finality
import AgzRustMcp.Work.Refusals
import AgzRustMcp.Repair.Warnings
import AgzRustMcp.Repair.CandidateHash
import AgzRustMcp.Gate.Joining
import AgzRustMcp.Gate.Closing
import AgzRustMcp.Lsp.Delivery
import AgzRustMcp.Lsp.Mirror
import AgzRustMcp.Gate.Reclaim
import AgzRustMcp.Gate.Execution
import AgzRustMcp.Verify.TestNames
import AgzRustMcp.Verify.WholeWorkspace
import AgzRustMcp.Verify.MatrixRun
import AgzRustMcp.Verify.PlannedOptions
import AgzRustMcp.Verify.ExclusiveFeatures
import AgzRustMcp.Verify.TestCoverage
import AgzRustMcp.Verify.BehaviorContract
import AgzRustMcp.Lsp.Stopping
import AgzRustMcp.Process.Settled
import AgzRustMcp.Process.Recovery
import AgzRustMcp.Context.Delta
import AgzRustMcp.Context.BudgetReport
import AgzRustMcp.Context.Expand
import AgzRustMcp.Cache.FirstWriter
import AgzRustMcp.Docs.LockExclusion
import AgzRustMcp.Diagnostics.Stageable
import AgzRustMcp.Diagnostics.Whole
import AgzRustMcp.Lsp.Robust
import AgzRustMcp.Repair.BaseEvidence
import AgzRustMcp.Repair.Guards
import AgzRustMcp.Repair.AnchorLine
import AgzRustMcp.Migrate.Parameters
import AgzRustMcp.Migrate.Reading
import AgzRustMcp.Repair.LocalMinimum
import AgzRustMcp.Repair.Selection
import AgzRustMcp.Migrate.Composition
import AgzRustMcp.Process.ReadBoundaries
import AgzRustMcp.Workspace.Intersection
import AgzRustMcp.Diagnostics.Retention
import AgzRustMcp.Diagnostics.SilentLoss
import AgzRustMcp.Workspace.FlightRuns
import AgzRustMcp.Cache.Pruning
import AgzRustMcp.Explain.CfgRoundTrip
import AgzRustMcp.Profile.SpeedClaim
import AgzRustMcp.Profile.CriticalPath
import AgzRustMcp.Change.Feedback
import AgzRustMcp.Lsp.Places
import AgzRustMcp.Api.AnchorPatch
import AgzRustMcp.Server.Response
import AgzRustMcp.Api.ModuleSearch
import AgzRustMcp.Repair.ItemTree
import AgzRustMcp.Workspace.MemberGlob
import AgzRustMcp.Telemetry.ActivityLog
import AgzRustMcp.Gate.Progress
import AgzRustMcp.Migrate.Tokenize
import AgzRustMcp.Migrate.Pairing
import AgzRustMcp.Context.CapsuleStore
import AgzRustMcp.Change.Untouched
import AgzRustMcp.Server.TaskAdmission
