import Burla.Lib.Messages
import Burla.Lib.System
import Burla.Mint.Growth
import Burla.Mint.Ledger
import Burla.Mint.Progress
import Burla.Mint.Handback
import Burla.Results.Delivery
import Burla.Steal.Transfer
import Burla.Slots.Cap
import Burla.Workers.Losses
import Burla.Upload.Placement
import Burla.Upload.Retry
import Burla.Upload.Conserved
import Burla.Upload.Fair
import Burla.Jobs.Completion
import Burla.Jobs.Finality
import Burla.Assign.Agreement
import Burla.Assign.Client
import Burla.Grow.Caps
import Burla.Head.Lifecycle
import Burla.ClusterState.NodeReaper
import Burla.ClusterState.JobReaper
import Burla.ClusterState.Persist
import Burla.ClusterState.StayAwake
import Burla.ClusterState.NodeLogs
import Burla.Reserve.Hold
import Burla.Turnover.Errors
import Burla.Leave.Drained
import Burla.Instances.Start
import Burla.Instances.Tombstones
import Burla.Instances.AzureSweep
import Burla.Access.Gate
import Burla.Admission.Ledger
import Burla.Reports.Total
import Burla.ClusterState.Cascade
import Burla.Replace.Settled
import Burla.Slots.Target
import Burla.Results.Timely
import Burla.Nested.Depth
import Burla.Results.Generator
import Burla.Slots.Replay
import Burla.Slots.Inputs
import Burla.Slots.Shed
import Burla.Head.Pin
import Burla.History.Pages
import Burla.History.Import
import Burla.Files.Archive
import Burla.Files.ArchiveNames
import Burla.Files.Directory
import Burla.Files.Kept
import Burla.Files.Resumable
import Burla.Steal.Revoke
import Burla.Scaling.Covered
import Burla.ClusterState.StayAwake
import Burla.ClusterState.NodeLogs
import Burla.Boot.Failed
import Burla.Boot.Overlap
import Burla.Boot.Refines
import Burla.Results.Capture
import Burla.Steal.Ring
import Burla.History.Events
import Burla.History.Status
import Burla.History.JobList
import Burla.History.CallLogs
import Burla.History.DashboardLogs
import Burla.Workload.Walks
import Burla.History.Cursors
import Burla.Usage.Conserved
import Burla.Settings.RoundTrip
import Burla.Workers.WireExact
import Burla.Workers.Spared
import Burla.Env.ScanOrder
import Burla.Env.Replicated
import Burla.Requests.Exact
import Burla.Tls.Recovered
import Burla.Queue.Books
import Burla.Env.Merged
import Burla.Follow.Wire
import Burla.Follow.NodeLogs
import Burla.Relay.Ownership
import Burla.ClusterState.Watch
import Burla.Metrics.Sampler
import Burla.Files.Tickets
import Burla.Admission.Selection
