import CheckHarness.Main
import CheckHarness.Connection.Stream
import CheckHarness.LineStore.Session
import CheckHarness.Workload
import CheckHarness.Proofs.Connection.Reception
import CheckHarness.Proofs.Connection.Capacity
import CheckHarness.Proofs.Connection.Lifecycle
import CheckHarness.Proofs.Execution.Report
import CheckHarness.Proofs.Json.Spelling
import CheckHarness.Proofs.Json.Tree
import CheckHarness.Proofs.Json.Grammar
import CheckHarness.Proofs.Text.Encoding
import CheckHarness.Proofs.Text.Numeral
import CheckHarness.Proofs.Json.Escape
import CheckHarness.Proofs.Json.Printer
import CheckHarness.Proofs.Json.Record
import CheckHarness.Proofs.Task.ChainId
import CheckHarness.Proofs.Task.Request
import CheckHarness.Proofs.Fault
import CheckHarness.Proofs.Task.Validation
import CheckHarness.Proofs.Task.Admission
import CheckHarness.Proofs.Task.Transmission
import CheckHarness.Proofs.Messages
import CheckHarness.Proofs.Execution.Announcement
import CheckHarness.Proofs.Report
import CheckHarness.Proofs.ServiceInfo
import CheckHarness.Proofs.Api.Submission
import CheckHarness.Proofs.LineStore.Conversation
import CheckHarness.Proofs.LineStore.Exchange
import CheckHarness.Proofs.LineStore.Verdict
import CheckHarness.Proofs.LineStore.Service
import CheckHarness.Proofs.Task.Noise
import CheckHarness.Proofs.LineStore.Session
import CheckHarness.Proofs.Execution.Redaction
import CheckHarness.Proofs.Api.ErrorBody
import CheckHarness.Proofs.Api.Discretion
import CheckHarness.Proofs.Client
import CheckHarness.Proofs.Cancellation
import CheckHarness.Proofs.Workload.Moves
import CheckHarness.Proofs.Workload.Tree
import CheckHarness.Proofs.Workload.Containment
import CheckHarness.Proofs.Workload.Executions
import CheckHarness.Proofs.Config.Layer
import CheckHarness.Proofs.Toml.Keys
import CheckHarness.Proofs.Config.Document
import CheckHarness.Proofs.Config.Environment
import CheckHarness.Proofs.Config.Source
import CheckHarness.Proofs.Connection.Scanning
import CheckHarness.Proofs.Config.Override
import CheckHarness.Proofs.Task.Draft
import CheckHarness.Proofs.Connection.Abandonment
import CheckHarness.Proofs.LineStore.Commands
import CheckHarness.Proofs.Execution.Lateness
import CheckHarness.Proofs.Client.Limit
import CheckHarness.Proofs.Task.Spans
import CheckHarness.Proofs.Registry
import CheckHarness.Proofs.Text.Replace
import CheckHarness.Proofs.Html.Escape
import CheckHarness.Proofs.Api.Page
import CheckHarness.Proofs.Time.Duration
import CheckHarness.Proofs.Toml.Strings
import CheckHarness.Proofs.Toml.Printer
import CheckHarness.Proofs.Config.Render
import CheckHarness.Proofs.Task.Neighbours
import CheckHarness.Proofs.Connection.Queue
