import BlockFetch.Document.Json
import BlockFetch.Document.Toml
import BlockFetch.Engine
import BlockFetch.PeerAddress.Parser
import BlockFetch.Document.Report
import BlockFetch.Document.Request
import BlockFetch.Document.Settings
import BlockFetch.Document.Stream
import BlockFetch.Main
import BlockFetch.Channel
import BlockFetch.IndexedBacklog
import BlockFetch.Proofs.Lifecycle.Stage
import BlockFetch.Proofs.Lifecycle.Moves
import BlockFetch.Proofs.Lifecycle.Resolution
import BlockFetch.Proofs.Lifecycle.Passage
import BlockFetch.Proofs.Lifecycle.Notices
import BlockFetch.Proofs.Lifecycle.Ticks
import BlockFetch.Proofs.Lifecycle.Course
import BlockFetch.Proofs.Lifecycle.Ledger
import BlockFetch.Proofs.Lifecycle.Finality
import BlockFetch.Proofs.Lifecycle.Places
import BlockFetch.Proofs.Lifecycle.Repetition
import BlockFetch.Proofs.Workload.Ease
import BlockFetch.Proofs.Workload.Outcome
import BlockFetch.Proofs.Eligibility.Deferral
import BlockFetch.Proofs.Workload.Limit
import BlockFetch.Proofs.Workload.SideTables
import BlockFetch.Proofs.Workload.Counters
import BlockFetch.Proofs.Elements
import BlockFetch.Proofs.Lifecycle.Arrivals
import BlockFetch.Proofs.Deadlines.Watch
import BlockFetch.Proofs.Deadlines.Enforcement
import BlockFetch.Proofs.Service.Refinement
import BlockFetch.Proofs.Dossier
import BlockFetch.Proofs.Upkeep
import BlockFetch.Proofs.Scan.Rounds
import BlockFetch.Proofs.Scan.Greedy
import BlockFetch.Proofs.Scan.Pause
import BlockFetch.Proofs.Scan.Reservation
import BlockFetch.Proofs.Independence.Tandem
import BlockFetch.Proofs.Independence.Reactions
import BlockFetch.Proofs.Independence.Swaps
import BlockFetch.Proofs.Eligibility.Blame
import BlockFetch.Proofs.Eligibility.Cooldown
import BlockFetch.Proofs.Peers.Engagement
import BlockFetch.Proofs.Peers.Connections
import BlockFetch.Proofs.Peers.Pairing
import BlockFetch.Proofs.Delivery.Assembly
import BlockFetch.Proofs.Lifecycle.QueueOrder
import BlockFetch.Proofs.Independence.Diagnostics
import BlockFetch.Proofs.Independence.Buffers
import BlockFetch.Proofs.Lifecycle.Audit
import BlockFetch.Proofs.Service.Reader
import BlockFetch.Proofs.Service.Reception
import BlockFetch.Proofs.Service.Broadcast
import BlockFetch.Proofs.Contracts.FailedAttempt
import BlockFetch.Proofs.Contracts.SessionStop
import BlockFetch.Proofs.Contracts.Request
import BlockFetch.Proofs.Text.RoundTrip
import BlockFetch.Proofs.Contracts.Cancellation
import BlockFetch.Proofs.Contracts.Delivery
import BlockFetch.Proofs.Delivery.Completion
import BlockFetch.Proofs.Waiting.Order
import BlockFetch.Proofs.Waiting.Indexing
import BlockFetch.Proofs.Waiting.Memos
import BlockFetch.Proofs.Text.HashForms
import BlockFetch.Proofs.Configuration.Tables
import BlockFetch.Proofs.Configuration.Defaults
import BlockFetch.Proofs.Configuration.Environment
import BlockFetch.Proofs.Journal.Retention
import BlockFetch.Proofs.Peers.Progress
import BlockFetch.Proofs.Peers.Speed
import BlockFetch.Proofs.Scan.Stability
