import AgentKit.Json.Printer
import AgentKit.Json.Reader
import AgentKit.Error.Details
import AgentKit.Time.Timestamp
import AgentKit.Time.Duration
import AgentKit.Uuid
import AgentKit.Log
import AgentKit.Context.Carried
import AgentKit.Context.History
import AgentKit.Execution
import AgentKit.Settings.Loader
import AgentKit.Agent.Builder
import AgentKit.Agent.Session
import AgentKit.Proofs.Agent.Path
import AgentKit.Agent.Interleaving
import AgentKit.Agent.Workshop
import AgentKit.Proofs.Agent.Sections
import AgentKit.Proofs.Agent.Calls
import AgentKit.Proofs.Agent.Transient
import AgentKit.Proofs.Agent.StartTime
import AgentKit.Proofs.Agent.OwnPhase
import AgentKit.Proofs.Agent.Sessions
import AgentKit.Proofs.Agent.StartHistory
import AgentKit.Proofs.Settings.FilePaths
import AgentKit.Proofs.Settings.Layers
import AgentKit.Proofs.Settings.Stages
import AgentKit.Proofs.Settings.Failures
import AgentKit.Proofs.Time.Scanning
import AgentKit.Proofs.Time.ReadBack
import AgentKit.Proofs.Json.Reading
import AgentKit.Proofs.Execution.RoundTrip
import AgentKit.Proofs.Context.Ancestry
import AgentKit.Proofs.Context.Cancellation
import AgentKit.Proofs.Context.Fate
import AgentKit.Proofs.Agent.Outline
import AgentKit.Proofs.Agent.Comparison
import AgentKit.Proofs.Agent.Observers
import AgentKit.Proofs.Agent.Outcome
import AgentKit.Proofs.Agent.FailedHooks
import AgentKit.Proofs.Error.WireForm
import AgentKit.Proofs.Error.CauseChain
import AgentKit.Proofs.Json.FieldOrder
import AgentKit.Proofs.Error.Overlay
import AgentKit.Proofs.Time.DayCount
import AgentKit.Proofs.Time.Canonical
import AgentKit.Proofs.Number.Decimal
import AgentKit.Proofs.Settings.Integers
import AgentKit.Proofs.Time.Segments
import AgentKit.Proofs.Time.Durations
import AgentKit.Proofs.Time.Leniency
import AgentKit.Proofs.Time.TextOrder
import AgentKit.Proofs.Settings.Reloading
import AgentKit.Proofs.Settings.Leftovers
import AgentKit.Proofs.Context.Values
import AgentKit.Proofs.Identity.Forwarding
import AgentKit.Proofs.Json.KeptRecords
import AgentKit.Proofs.Number.Hexadecimal
import AgentKit.Proofs.Uuid
import AgentKit.Proofs.Agent.Snapshots
import AgentKit.Proofs.Text.Pieces
import AgentKit.Proofs.Json.DottedPaths
import AgentKit.Proofs.Text.CommaLists
