import Tether.Binding.Direction
import Tether.Binding.Materialize
import Tether.Binding.Policy
import Tether.Binding.Synchronize
import Tether.Binding.Table
import Tether.Component
import Tether.Coordinator.Basic
import Tether.Coordinator.Flush
import Tether.Coordinator.Lifecycle
import Tether.Coordinator.Reaction
import Tether.Coordinator.Report
import Tether.Coordinator.Step
import Tether.Coordinator.Synchronize
import Tether.Duration
import Tether.Entity.Allocator
import Tether.Entity.Handle
import Tether.Entity.Lifecycle
import Tether.Entity.Registry
import Tether.Error
import Tether.Frame
import Tether.Host.Access
import Tether.Host.Property
import Tether.Host.Scripted
import Tether.Host.Store
import Tether.Journal
import Tether.Mutation
import Tether.Number.Binary64
import Tether.Number.Decimal
import Tether.Random.ChaCha
import Tether.Random.Generator
import Tether.Random.Uniform
import Tether.Settings.Basic
import Tether.Settings.Document
import Tether.Settings.File
import Tether.Signal.Basic
import Tether.Signal.Bus
import Tether.Signal.Delivery
import Tether.Signal.Lookup
import Tether.Signal.Named
import Tether.Signal.Program
import Tether.Signal.View
import Tether.Slots
import Tether.Text.Extending
import Tether.Text.Invisible
import Tether.Text.Quoted
import Tether.Text.Ranges
import Tether.Text.Unassigned
import Tether.Toml.Characters
import Tether.Toml.Node
import Tether.Toml.Number
import Tether.Toml.Quoted
import Tether.Toml.Statement
import Tether.Toml.Value
import Tether.Toml.Written
import Tether.Value
import Tether.Workload.Actors
import Tether.Workload.Churn
import Tether.Workload.Crowd
import Tether.Workload.Scenario
import Tether.Workload.Statistics
import Tether.World.Basic
import Tether.World.Row
import Tether.Proofs.Entities
import Tether.Proofs.Population
import Tether.Proofs.Runs
import Tether.Proofs.Evolution
import Tether.Proofs.Structure
import Tether.Proofs.Refusals
import Tether.Proofs.Staleness
import Tether.Proofs.Replay
import Tether.Proofs.Settlement
import Tether.Proofs.Submission
import Tether.Proofs.Tandem
import Tether.Proofs.Passes
import Tether.Proofs.Subscribers
import Tether.Proofs.Reach
import Tether.Proofs.Flushing
import Tether.Proofs.Dispatches
import Tether.Proofs.Delays
import Tether.Proofs.Placement
import Tether.Proofs.Workers
import Tether.Proofs.Twins
import Tether.Proofs.Schedules
import Tether.Proofs.Bases
import Tether.Proofs.Agreement
import Tether.Proofs.Strings
import Tether.Proofs.Lines
import Tether.Proofs.Documents
import Tether.Proofs.Frames
import Tether.Proofs.Overruns
import Tether.Proofs.Containment
import Tether.Proofs.Nesting
import Tether.Proofs.Reaping
import Tether.Proofs.Requests
import Tether.Proofs.SmoothFrames
import Tether.Proofs.Arrivals
import Tether.Proofs.Actors
import Tether.Proofs.Churning
import Tether.Proofs.Reconciliation
import Tether.Proofs.Gathering
import Tether.Proofs.Editing
import Tether.Proofs.Crowding
import Tether.Proofs.Circulation
import Tether.Proofs.Tenancy
import Tether.Proofs.Accesses
import Tether.Proofs.Confinement
import Tether.Proofs.Exchanges
import Tether.Proofs.Repetition
import Tether.Proofs.Concord
import Tether.Proofs.Isolation
import Tether.Proofs.Freshness
import Tether.Proofs.Materialization
import Tether.Proofs.Tallies
import Tether.Proofs.Registration
import Tether.Proofs.Orphans
import Tether.Proofs.Naming
import Tether.Proofs.Percentiles
import Tether.Proofs.Attribution
import Tether.Proofs.Raising
import Tether.Proofs.Rounding
