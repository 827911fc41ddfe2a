import Backlog.Clamped
import Backlog.Job
import Backlog.Job.Codec
import Backlog.Backoff
import Backlog.Backoff.Codec
import Backlog.Conditions
import Backlog.Event
import Backlog.Graph
import Backlog.Store
import Backlog.Store.Tables
import Backlog.Store.Database
import Backlog.Store.Backend
import Backlog.Store.Switched
import Backlog.Roster
import Backlog.Roster.Eligibility
import Backlog.Roster.Dependents
import Backlog.Roster.Cycle
import Backlog.Index
import Backlog.Decimal.Shortest
import Backlog.Json
import Backlog.Json.Number
import Backlog.Json.Printer
import Backlog.Json.Reader
import Backlog.Json.Decode
import Backlog.Text.Printable
import Backlog.Text.Quoted
import Backlog.Text.Blank
import Backlog.Text.Hex
import Backlog.Text.Percent
import Backlog.Work
import Backlog.Scripted
import Backlog.Canned
import Backlog.Runner
import Backlog.Decimal.Reading
import Backlog.Yaml.Cursor
import Backlog.Yaml.Token
import Backlog.Yaml.Token.Tag
import Backlog.Yaml.Token.Scalar
import Backlog.Yaml.Token.Layout
import Backlog.Yaml.Node
import Backlog.Yaml.Node.Grammar
import Backlog.Yaml.Scalar
import Backlog.Yaml.Value
import Backlog.Yaml.Decode
import Backlog.Config.Error
import Backlog.Config.Settings
import Backlog.Config.Batch
import Backlog.Config.Codec
import Backlog.Config.Document
import Backlog.Dispatch
import Backlog.Dispatch.Rehearsal
import Backlog.Text.Uuid
import Backlog.Store.Address
import Backlog.Store.Saved
import Backlog.Cli.Arguments
import Backlog.Cli.Directory
import Backlog.Cli.Line
import Backlog.Cli
import Backlog.Main
import Backlog.Proofs.Filed
import Backlog.Proofs.JobList
import Backlog.Proofs.Run
import Backlog.Proofs.Mirror
import Backlog.Proofs.Heads
import Backlog.Proofs.Order
import Backlog.Proofs.Handling
import Backlog.Proofs.Queue.Fifo
import Backlog.Proofs.Queue.Exclusion
import Backlog.Proofs.Graph.Sweep
import Backlog.Proofs.Graph.Acyclic
import Backlog.Proofs.Queue.Progress
import Backlog.Proofs.Queue.Waiting
import Backlog.Proofs.Restart
import Backlog.Proofs.Rows
import Backlog.Proofs.InPlace
import Backlog.Proofs.AllOrNothing
import Backlog.Proofs.Tabular
import Backlog.Proofs.Attempt
import Backlog.Proofs.Dispatch.Steps
import Backlog.Proofs.Rounds
import Backlog.Proofs.Dispatch.InFlight
import Backlog.Proofs.Dispatch.Pass
import Backlog.Proofs.Dispatch.Limits
import Backlog.Proofs.Dispatch.Stranded
import Backlog.Proofs.Dispatch.Rehearsed
import Backlog.Proofs.Graph.Dependents
import Backlog.Proofs.Cascade
import Backlog.Proofs.Rewrite
import Backlog.Proofs.Store.Calls
import Backlog.Proofs.Store.Interchange
import Backlog.Proofs.Dispatch.Struck
import Backlog.Proofs.Queue.Selection
import Backlog.Proofs.Queue.Release
import Backlog.Proofs.Graph.Enumeration
import Backlog.Proofs.Graph.Culprit
import Backlog.Proofs.Batch.Check
import Backlog.Proofs.Graph.Countdown
import Backlog.Proofs.Batch.Accepted
import Backlog.Proofs.Batch.Parts
import Backlog.Proofs.Dispatch.Intake
import Backlog.Proofs.Graph.Layers
import Backlog.Proofs.Due
import Backlog.Proofs.Hooks
import Backlog.Proofs.Codec
import Backlog.Proofs.Scripted.Play
