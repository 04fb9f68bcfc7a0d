import NetworkLoop.Core.Domain
import NetworkLoop.Library.Recorder
import NetworkLoop.Detection.Signals
import NetworkLoop.Detection.Engine
import NetworkLoop.Detection.Moves
import NetworkLoop.Detection.Runs
import NetworkLoop.Detection.Hysteresis
import NetworkLoop.Detection.Recovery
import NetworkLoop.Detection.Invariant
import NetworkLoop.Detection.Transparency
import NetworkLoop.Install.Role
import NetworkLoop.Install.Journal
import NetworkLoop.Install.JournalShape
import NetworkLoop.Install.JournalSteps
import NetworkLoop.Install.JournalValid
import NetworkLoop.Install.JournalRun
import NetworkLoop.Library.FileTree
import NetworkLoop.Library.Interrupt
import NetworkLoop.Library.Wire
import NetworkLoop.Library.Hex
import NetworkLoop.Library.Paging
import NetworkLoop.Evidence.Cursor
import NetworkLoop.Evidence.Index
import NetworkLoop.Install.Layout
import NetworkLoop.Install.Disk
import NetworkLoop.Install.DiskProofs
import NetworkLoop.Install.Filesystem
import NetworkLoop.Install.JournalFile
import NetworkLoop.Install.Placing
import NetworkLoop.Install.Runtime
import NetworkLoop.Install.Untouched
import NetworkLoop.Install.Standing
import NetworkLoop.Install.Recorded
import NetworkLoop.Install.Backward
import NetworkLoop.Install.Forward
import NetworkLoop.Install.Planned
import NetworkLoop.Install.Store
import NetworkLoop.Install.Accepted
import NetworkLoop.Install.PlanOrder
import NetworkLoop.Install.Supplied
import NetworkLoop.Install.Ready
import NetworkLoop.Install.Fresh
import NetworkLoop.Install.Owned
import NetworkLoop.Install.Transactions
import NetworkLoop.Install.Recovery
import NetworkLoop.Install.Histories
import NetworkLoop.Install.Chains
import NetworkLoop.Install.JournalRefusal
import NetworkLoop.Install.Ownership
import NetworkLoop.Install.Documents
import NetworkLoop.Install.Gate
import NetworkLoop.Library.Arrays
import NetworkLoop.Observation.Rates
import NetworkLoop.Observation.Baseline
import NetworkLoop.Observation.Fingerprints
import NetworkLoop.Observation.Scans
import NetworkLoop.Observation.Derive
import NetworkLoop.Observation.History
import NetworkLoop.Observation.RateRuns
import NetworkLoop.Observation.BaselineRuns
import NetworkLoop.Observation.Interleaving
import NetworkLoop.Kernel.Frames
import NetworkLoop.Kernel.Accounting
import NetworkLoop.Kernel.Churn
import NetworkLoop.Kernel.Racing
import NetworkLoop.Kernel.Reference
import NetworkLoop.Kernel.Counting
import NetworkLoop.Observation.BumRates
import NetworkLoop.Observation.Incident
import NetworkLoop.Observation.Service
import NetworkLoop.Observation.Ticks
import NetworkLoop.Observation.Integrity
import NetworkLoop.Observation.Schedule
import NetworkLoop.Library.Grid
import NetworkLoop.Observation.Deadlines
import NetworkLoop.Control.Commands
import NetworkLoop.Control.Protocol
import NetworkLoop.Control.Transport
import NetworkLoop.Library.Effect
import NetworkLoop.Library.Table
import NetworkLoop.Evidence.Disk
import NetworkLoop.Evidence.Store
import NetworkLoop.Evidence.Recovery
import NetworkLoop.Evidence.Accounting
import NetworkLoop.Evidence.Writing
import NetworkLoop.Evidence.Restart
import NetworkLoop.Evidence.Durable
import NetworkLoop.Evidence.Settling
import NetworkLoop.Evidence.Calm
import NetworkLoop.Evidence.Reclaiming
import NetworkLoop.Evidence.Retention
import NetworkLoop.Evidence.Ageing
import NetworkLoop.Evidence.Capacity
import NetworkLoop.Evidence.Drift
import NetworkLoop.Evidence.RoundTrip
import NetworkLoop.Evidence.Refused
import NetworkLoop.Evidence.Survival
import NetworkLoop.Evidence.CursorText
import NetworkLoop.Library.Text
import NetworkLoop.Bundle.Files
import NetworkLoop.Bundle.ServiceUnit
import NetworkLoop.Bundle.Checksums
import NetworkLoop.Bundle.Create
import NetworkLoop.Tc.SafeTc
import NetworkLoop.Tc.Foreign
import NetworkLoop.Tc.Repeat
import NetworkLoop.Library.Grouping
import NetworkLoop.Observation.Relations
import NetworkLoop.Observation.Windows
import NetworkLoop.Observation.PacketCounts
import NetworkLoop.Observation.Pairing
import NetworkLoop.Observation.Thresholds
import NetworkLoop.Library.OrderStatistic
import NetworkLoop.Observation.Robust
import NetworkLoop.Observation.Recording
import NetworkLoop.Evidence.Jobs
import NetworkLoop.Evidence.Alerts
import NetworkLoop.Evidence.Output
import NetworkLoop.Library.Custody
import NetworkLoop.Xdp.SafeXdp
import NetworkLoop.Xdp.Links
import NetworkLoop.Attach.Records
import NetworkLoop.Attach.Transaction
import NetworkLoop.Attach.AllOrNothing
import NetworkLoop.Attach.Control
import NetworkLoop.Attach.Sessions
import NetworkLoop.Observation.Emitting
import NetworkLoop.Attach.Reporting
import NetworkLoop.Attach.Journals
import NetworkLoop.Attach.Repository
