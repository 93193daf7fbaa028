import CycleWatch.Binary64
import CycleWatch.Bounded
import CycleWatch.Cancellation
import CycleWatch.Cli
import CycleWatch.Clock
import CycleWatch.Config.Admission
import CycleWatch.Config.Basic
import CycleWatch.Config.Form
import CycleWatch.Config.Format
import CycleWatch.Config.Overrides
import CycleWatch.Config.Schema
import CycleWatch.Config.Source
import CycleWatch.CorrelationId
import CycleWatch.Cycle.Check
import CycleWatch.Dict
import CycleWatch.Fault
import CycleWatch.Fault.Io
import CycleWatch.Files
import CycleWatch.Json
import CycleWatch.Json.Reader
import CycleWatch.Json.Writer
import CycleWatch.Log.Event
import CycleWatch.Log.Journal
import CycleWatch.Log.Redaction
import CycleWatch.Main
import CycleWatch.Metric.Counters
import CycleWatch.Metric.KeySet
import CycleWatch.Metric.Line
import CycleWatch.Metric.Name
import CycleWatch.Metric.Violation
import CycleWatch.Proofs.Cancellation.History
import CycleWatch.Proofs.Cancellation.Propagation
import CycleWatch.Proofs.Cancellation.Reach
import CycleWatch.Proofs.Cycle.Beside
import CycleWatch.Proofs.Cycle.Verdict
import CycleWatch.Proofs.Tailer.Feed
import CycleWatch.Proofs.Tailer.Handles
import CycleWatch.Proofs.Tailer.LastLine
import CycleWatch.Proofs.Tailer.Publication
import CycleWatch.Proofs.Tailer.Survival
import CycleWatch.Proofs.Wait.Attempts
import CycleWatch.Rehearsal.Bench
import CycleWatch.Rehearsal.Play
import CycleWatch.Rehearsal.Session
import CycleWatch.Rehearsal.Sink
import CycleWatch.Rehearsal.Stand
import CycleWatch.Routine
import CycleWatch.Secret
import CycleWatch.Session
import CycleWatch.Snapshot
import CycleWatch.Tailer.LastLine
import CycleWatch.Tailer.Machine
import CycleWatch.Text.Blank
import CycleWatch.Text.Decimal
import CycleWatch.Text.Letter
import CycleWatch.Text.Pieces
import CycleWatch.Toml.Document
import CycleWatch.Toml.Literal
import CycleWatch.Toml.Moment
import CycleWatch.Toml.Reader
import CycleWatch.Toml.Scalar
import CycleWatch.Toml.Writer
import CycleWatch.Tree
import CycleWatch.Wait.Policy
import CycleWatch.Wait.Poll
import CycleWatch.Wait.State
import CycleWatch.Wire
import CycleWatch.Word
import CycleWatch.Proofs.Log.History
import CycleWatch.Proofs.Log.Redaction
import CycleWatch.Proofs.Log.Secrecy
import CycleWatch.Proofs.Metric.NormalKeys
import CycleWatch.Proofs.Config.Admission
import CycleWatch.Proofs.Config.Layers
import CycleWatch.Proofs.Metric.Report
import CycleWatch.Proofs.Config.Satisfiable
import CycleWatch.Proofs.Json.Scalar
import CycleWatch.Proofs.Json.Spelling
import CycleWatch.Proofs.Config.JsonText
import CycleWatch.Proofs.Config.Environment
import CycleWatch.Proofs.Metric.Spelling
import CycleWatch.Proofs.Cycle.Diagnostics
import CycleWatch.Proofs.Wait.Events
import CycleWatch.Proofs.Cycle.Stages
import CycleWatch.Proofs.Json.Compact
import CycleWatch.Proofs.Json.Fields
import CycleWatch.Proofs.Log.Lines
import CycleWatch.Proofs.Wire.RoundTrip
import CycleWatch.Proofs.Metric.KeyOrder
import CycleWatch.Proofs.Cancellation.Holders
import CycleWatch.Proofs.Session.Events
import CycleWatch.Proofs.Session.Course
import CycleWatch.Proofs.Session.Supervision
import CycleWatch.Proofs.Session.Rehearsed
import CycleWatch.Proofs.Metric.Times
import CycleWatch.Proofs.Text.Numeral
import CycleWatch.Proofs.Metric.Language
import CycleWatch.Proofs.Metric.Composition
import CycleWatch.Proofs.Toml.Document
import CycleWatch.Proofs.Toml.Literal
import CycleWatch.Proofs.Toml.Tables
import CycleWatch.Proofs.Toml.Values
import CycleWatch.Proofs.Config.TomlText
import CycleWatch.Proofs.Metric.Growth
import CycleWatch.Proofs.Config.KeyLists
import CycleWatch.Proofs.Config.Family
import CycleWatch.Proofs.Text.Letter
import CycleWatch.Proofs.Config.Variables
import CycleWatch.Proofs.Metric.Presence
import CycleWatch.Proofs.Wait.Budget
import CycleWatch.Proofs.Tailer.Segments
import CycleWatch.Proofs.Config.Extension
