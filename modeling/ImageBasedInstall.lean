import ImageBasedInstall.Interactive.Prog
import ImageBasedInstall.Interactive.Meets
import ImageBasedInstall.Interactive.May
import ImageBasedInstall.Interactive.Fallible
import ImageBasedInstall.Interactive.Reach
import ImageBasedInstall.Interactive.Threads
import ImageBasedInstall.Interactive.Aged
import ImageBasedInstall.Interactive.Recorded
import ImageBasedInstall.Patch.Merge
import ImageBasedInstall.Patch.Overlay
import ImageBasedInstall.Text.Paths
import ImageBasedInstall.Text.Pattern
import ImageBasedInstall.Text.Rewrite
import ImageBasedInstall.Posix.Files
import ImageBasedInstall.Posix.Locks
import ImageBasedInstall.Api.Types
import ImageBasedInstall.Api.Webhook
import ImageBasedInstall.Cluster.World
import ImageBasedInstall.Cluster.Answer
import ImageBasedInstall.Cluster.Client
import ImageBasedInstall.Controllers.Conditions
import ImageBasedInstall.Controllers.Common
import ImageBasedInstall.Controllers.InfraID
import ImageBasedInstall.Installer.Config
import ImageBasedInstall.Installer.Assets
import ImageBasedInstall.Installer.Reinstall
import ImageBasedInstall.Credentials
import ImageBasedInstall.Controllers.HostValidation
import ImageBasedInstall.Controllers.ImageData
import ImageBasedInstall.Controllers.Reconciler
import ImageBasedInstall.Controllers.Monitor
import ImageBasedInstall.ClusterStatus
import ImageBasedInstall.ImageServer
import ImageBasedInstall.FileLock
import ImageBasedInstall.TlsConfig
import ImageBasedInstall.Installer.Symbolic
import ImageBasedInstall.Cluster.Rules
import ImageBasedInstall.Cluster.Frame
import ImageBasedInstall.Verify.Footprints
import ImageBasedInstall.Verify.PassFootprints
import ImageBasedInstall.Verify.WorkDir
import ImageBasedInstall.Verify.Build
import ImageBasedInstall.Verify.Steps
import ImageBasedInstall.Verify.Calls
import ImageBasedInstall.Verify.Phases
import ImageBasedInstall.Verify.Pass
import ImageBasedInstall.Verify.Cleanup
import ImageBasedInstall.Verify.Runs
import ImageBasedInstall.Verify.Boot
import ImageBasedInstall.Verify.Ownership
import ImageBasedInstall.Verify.Configuration
import ImageBasedInstall.Verify.Conditions
import ImageBasedInstall.Verify.Copies
import ImageBasedInstall.Verify.Interleaving
import ImageBasedInstall.Verify.Coherence
import ImageBasedInstall.Verify.Updates
import ImageBasedInstall.Verify.ConditionHistory
import ImageBasedInstall.Verify.HostReference
import ImageBasedInstall.Verify.Completion
import ImageBasedInstall.Verify.Admission
import ImageBasedInstall.Verify.Networks
import ImageBasedInstall.Verify.Validation
import ImageBasedInstall.Verify.ClusterIDs
import ImageBasedInstall.Verify.InfraID
import ImageBasedInstall.Verify.MonitorCalls
import ImageBasedInstall.Verify.InstallStates
import ImageBasedInstall.Verify.Restore
import ImageBasedInstall.Verify.Reboots
import ImageBasedInstall.Verify.Reports
import ImageBasedInstall.Verify.Interruption
import ImageBasedInstall.Verify.Files
import ImageBasedInstall.Verify.Reinstall
import ImageBasedInstall.Verify.Secrets
import ImageBasedInstall.Verify.ClusterStatus
import ImageBasedInstall.Verify.Inputs
import ImageBasedInstall.Verify.Images
import ImageBasedInstall.Verify.Branches
import ImageBasedInstall.Verify.Identity
import ImageBasedInstall.Verify.IdentityBuild
import ImageBasedInstall.Verify.IdentityRuns
import ImageBasedInstall.Verify.ImageServer
import ImageBasedInstall.Verify.Waking
import ImageBasedInstall.Verify.Aborts
import ImageBasedInstall.Verify.NilReads
import ImageBasedInstall.Verify.FileLock
import ImageBasedInstall.Verify.TlsConfig
import ImageBasedInstall.Interactive.Projection
import ImageBasedInstall.Verify.Locality
import ImageBasedInstall.Verify.LocalPasses
import ImageBasedInstall.Verify.Regions
import ImageBasedInstall.Verify.Isolation
import ImageBasedInstall.Interactive.Loop
import ImageBasedInstall.Cluster.Smooth
import ImageBasedInstall.Verify.SmoothBuild
import ImageBasedInstall.Verify.SmoothSite
import ImageBasedInstall.Verify.Labels
import ImageBasedInstall.Verify.SmoothPass
import ImageBasedInstall.Verify.Convergence
import ImageBasedInstall.Verify.SmoothCleanup
import ImageBasedInstall.Verify.SmoothMonitor
import ImageBasedInstall.Verify.Settings
import ImageBasedInstall.Interactive.Watcher
import ImageBasedInstall.Controllers.Setup
import ImageBasedInstall.Verify.Following
import ImageBasedInstall.Verify.Continuable
import ImageBasedInstall.Verify.Retries
