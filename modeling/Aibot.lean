import Aibot.Lib.Dict
import Aibot.Lib.FirstMatch
import Aibot.Lib.Json
import Aibot.Lib.Run
import Aibot.Lib.Trace
import Aibot.Lib.Newest
import Aibot.Lib.Sequence
import Aibot.Lib.Object
import Aibot.Lib.Double
import Aibot.Lib.Value
import Aibot.Lib.Canonical
import Aibot.Lib.Sweep
import Aibot.Lib.Floating
import Aibot.Lib.Listing
import Aibot.Lib.Turns
import Aibot.Lib.Ranked
import Aibot.Lib.Largest
import Aibot.Lib.Dropped
import Aibot.Lib.Conserved
import Aibot.Lib.Window
import Aibot.Lib.Cut
import Aibot.Lib.Decimal
import Aibot.Lib.Dumps
import Aibot.Lib.Join
import Aibot.Lib.Directory
import Aibot.Lib.Durable
import Aibot.Lib.Utf8
import Aibot.Lib.JsonText
import Aibot.Store.Document
import Aibot.Store.Protocol
import Aibot.Store.Codec
import Aibot.Store.Steps
import Aibot.Store.Invariant
import Aibot.Store.Preserve
import Aibot.Store.Linear
import Aibot.Store.Interval
import Aibot.Store.Diagnostics
import Aibot.Store.Bounded
import Aibot.Risk.Ledger
import Aibot.Risk.Ops
import Aibot.Risk.Effect
import Aibot.Risk.History
import Aibot.Risk.Turn
import Aibot.Risk.Books
import Aibot.Risk.Claims
import Aibot.Risk.Sales
import Aibot.Risk.Stored
import Aibot.Risk.Trail
import Aibot.Risk.Capacity
import Aibot.Risk.Flood
import Aibot.Risk.Reentry
import Aibot.Risk.Replay
import Aibot.Risk.Migration
import Aibot.Risk.Migrated
import Aibot.Risk.Identities
import Aibot.Exit.Flow
import Aibot.Exit.Refine
import Aibot.Exit.Orphan
import Aibot.Exit.Current
import Aibot.Exit.Closing
import Aibot.Exit.Streak
import Aibot.Exit.Alone
import Aibot.Exit.Strategy
import Aibot.Live.Executor
import Aibot.Live.Loop
import Aibot.Live.Basis
import Aibot.Live.Jupiter
import Aibot.Live.Tip
import Aibot.Live.Tipped
import Aibot.Monitor.Whale
import Aibot.Monitor.Signatures
import Aibot.Observation.Row
import Aibot.Observation.Retention
import Aibot.Observation.Ops
import Aibot.Observation.Effect
import Aibot.Observation.Archive
import Aibot.Observation.Complete
import Aibot.Observation.Due
import Aibot.Observation.Shadow
import Aibot.Observation.Loop
import Aibot.Observation.Batch
import Aibot.Observation.Delivery
import Aibot.Observation.Duplicate
import Aibot.Observation.Decided
import Aibot.Observation.Integrity
import Aibot.Observation.Stored
import Aibot.Observation.Migrated
import Aibot.Observation.Writers
import Aibot.Observation.Readable
import Aibot.Observation.Queue
import Aibot.Observation.Cooldown
import Aibot.Observation.Retained
import Aibot.Observation.Fair
import Aibot.Observation.ShadowStored
import Aibot.Observation.RowWise
import Aibot.Observation.OverCap
import Aibot.Observation.OneByOne
import Aibot.Observation.Undisturbed
import Aibot.Rpc.Provider
import Aibot.Rpc.Breaker
import Aibot.Rpc.Failover
import Aibot.Rpc.Metrics
import Aibot.Rpc.Pacing
import Aibot.Wallet.Performance
import Aibot.Wallet.Recovery
import Aibot.Wallet.Feeder
import Aibot.Wallet.Listing
import Aibot.Wallet.Tally
import Aibot.Wallet.Selection
import Aibot.Wallet.Rejection
import Aibot.Research.Record
import Aibot.Research.Once
import Aibot.Research.Prospective
import Aibot.Research.Evaluation
import Aibot.Research.Publication
import Aibot.Research.Features
import Aibot.Research.Validation
import Aibot.Research.Leakage
import Aibot.Research.Boundary
import Aibot.Research.Loading
import Aibot.Research.Momentum
import Aibot.Research.Discovery
import Aibot.Research.Reordered
import Aibot.Research.Report
import Aibot.Research.Comparison
import Aibot.Research.Accounting
import Aibot.Telemetry.Schema
import Aibot.Telemetry.Capture
import Aibot.Telemetry.Row
import Aibot.Telemetry.Frozen
import Aibot.Telemetry.Stream
import Aibot.Telemetry.Immutable
import Aibot.Telemetry.Provenance
import Aibot.Telemetry.Signal
import Aibot.Telemetry.Reader
import Aibot.Telemetry.Told
import Aibot.Telemetry.Written
import Aibot.Telemetry.Outcome
import Aibot.Telemetry.Indexed
import Aibot.Telemetry.Accepted
import Aibot.Telemetry.Beside
import Aibot.Telemetry.Joined
import Aibot.Telemetry.Agreed
import Aibot.Retention.Plan
import Aibot.Retention.Planned
import Aibot.Retention.Execute
import Aibot.Retention.Interrupted
import Aibot.Coverage.Bucket
import Aibot.Coverage.Flush
import Aibot.Coverage.Rollup
import Aibot.Coverage.Growth
import Aibot.Coverage.Hourly
import Aibot.Deploy.Trigger
import Aibot.Deploy.Grammar
import Aibot.N3.Records
import Aibot.N3.Observer
import Aibot.N3.Reading
import Aibot.N3.Explained
import Aibot.N3.Processed
import Aibot.N3.Call
import Aibot.N3.Replay
import Aibot.N3.Finish
import Aibot.N3.Crash
import Aibot.N3.Control
import Aibot.N3.Cohort
