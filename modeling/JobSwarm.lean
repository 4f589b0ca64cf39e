import JobSwarm.Agent.Status
import JobSwarm.Checked
import JobSwarm.Codec.Store
import JobSwarm.Coordinator.Standards
import JobSwarm.Emitter.Shared
import JobSwarm.Engine.Blocking
import JobSwarm.Engine.Scripted
import JobSwarm.Engine.Stub
import JobSwarm.Event.Filter
import JobSwarm.Event.Json
import JobSwarm.Job.Basic
import JobSwarm.Job.Config
import JobSwarm.Job.Id
import JobSwarm.Job.Progress
import JobSwarm.Job.Status
import JobSwarm.Json.Reader
import JobSwarm.Json.Record
import JobSwarm.Json.Writer
import JobSwarm.Priority
import JobSwarm.Proofs.Codec.Copy
import JobSwarm.Proofs.Codec.Target
import JobSwarm.Proofs.Coordinator.Shared
import JobSwarm.Proofs.Double.Amount
import JobSwarm.Proofs.Double.Arithmetic
import JobSwarm.Proofs.Double.Exact
import JobSwarm.Proofs.Emitter.Delivery
import JobSwarm.Proofs.Engine.Lifecycle
import JobSwarm.Proofs.Engine.Simulation
import JobSwarm.Proofs.Fleet
import JobSwarm.Proofs.Job.History
import JobSwarm.Proofs.Json.Numeral
import JobSwarm.Proofs.Queue.Deadline
import JobSwarm.Proofs.Queue.Deferral
import JobSwarm.Proofs.Queue.Drain
import JobSwarm.Proofs.Queue.Greedy
import JobSwarm.Proofs.Queue.Log
import JobSwarm.Proofs.Queue.Order
import JobSwarm.Proofs.Queue.Pace
import JobSwarm.Proofs.Queue.Progress
import JobSwarm.Proofs.Queue.Requests
import JobSwarm.Proofs.Queue.Statistics
import JobSwarm.Proofs.Queue.Timeline
import JobSwarm.Proofs.Queue.Watch
import JobSwarm.Proofs.Records
import JobSwarm.Proofs.Results
import JobSwarm.Proofs.Selection
import JobSwarm.Proofs.Serialization
import JobSwarm.Proofs.Settings
import JobSwarm.Proofs.Swarm.Degradation
import JobSwarm.Proofs.Swarm.Ledger
import JobSwarm.Proofs.Swarm.Load
import JobSwarm.Proofs.Swarm.Summary
import JobSwarm.Proofs.Text.Digits
import JobSwarm.Proofs.Time.Calendar
import JobSwarm.Proofs.Time.Instant
import JobSwarm.Proofs.Time.Rfc3339
import JobSwarm.Queue.Message
import JobSwarm.Queue.Stats
import JobSwarm.Swarm.Basic
import JobSwarm.Swarm.Health
import JobSwarm.Task
import JobSwarm.Text.Blank
import JobSwarm.Time.Rfc3339
