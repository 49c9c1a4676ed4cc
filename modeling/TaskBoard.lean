import TaskBoard.Cache.Address
import TaskBoard.Cache.Aside
import TaskBoard.Cache.Call
import TaskBoard.Cache.Error
import TaskBoard.Cache.Key
import TaskBoard.Cache.Memory
import TaskBoard.Cache.Remote
import TaskBoard.Client
import TaskBoard.Config
import TaskBoard.Decimal.Shortest
import TaskBoard.Gauge
import TaskBoard.Http.Body
import TaskBoard.Http.Fault
import TaskBoard.Http.ListParams
import TaskBoard.Http.MediaType
import TaskBoard.Http.Message
import TaskBoard.Http.Route
import TaskBoard.Http.Server
import TaskBoard.Http.Target
import TaskBoard.Instant.Basic
import TaskBoard.Instant.Calendar
import TaskBoard.Instant.Print
import TaskBoard.Instant.Read
import TaskBoard.Json.Error
import TaskBoard.Json.Number
import TaskBoard.Json.Reader
import TaskBoard.Json.Skip
import TaskBoard.Json.Token
import TaskBoard.Json.Value
import TaskBoard.Json.Writer
import TaskBoard.Keyed
import TaskBoard.Metrics.Exposition
import TaskBoard.Metrics.Tally
import TaskBoard.Net.Domain
import TaskBoard.Net.Host
import TaskBoard.Net.Ip
import TaskBoard.Net.Punycode
import TaskBoard.Net.SocketAddress
import TaskBoard.Net.Url.Basic
import TaskBoard.Net.Url.Path
import TaskBoard.Net.Url.Read
import TaskBoard.Net.Wire
import TaskBoard.Operation
import TaskBoard.Proofs.Cache.Key
import TaskBoard.Proofs.Instant.Calendar
import TaskBoard.Proofs.Instant.RoundTrip
import TaskBoard.Proofs.Json.Lexing
import TaskBoard.Proofs.Json.Reading
import TaskBoard.Proofs.Run.Pool
import TaskBoard.Proofs.Task.RoundTrip
import TaskBoard.Proofs.Text.Numeral
import TaskBoard.Run.Backend
import TaskBoard.Run.Pair
import TaskBoard.Run.Probe
import TaskBoard.Run.Single
import TaskBoard.Run.World
import TaskBoard.Service
import TaskBoard.Startup
import TaskBoard.Store.Address
import TaskBoard.Store.Call
import TaskBoard.Store.Database
import TaskBoard.Store.Statement
import TaskBoard.Store.Table
import TaskBoard.Task.Basic
import TaskBoard.Task.Change
import TaskBoard.Task.Error
import TaskBoard.Task.Query
import TaskBoard.Task.Request
import TaskBoard.Task.Wire
import TaskBoard.Text.Ascii
import TaskBoard.Text.Blank
import TaskBoard.Text.Decimal
import TaskBoard.Text.Duration
import TaskBoard.Text.Hidden
import TaskBoard.Text.Percent
import TaskBoard.Text.Quoted
import TaskBoard.Text.Utf8
import TaskBoard.Proofs.Cache.Stage
import TaskBoard.Proofs.Cache.Staleness
import TaskBoard.Proofs.Cache.Freshness
import TaskBoard.Proofs.Run.Account
import TaskBoard.Proofs.Http.Gauge
import TaskBoard.Proofs.Task.Fields
import TaskBoard.Proofs.Service.Updates
import TaskBoard.Proofs.Task.Sound
import TaskBoard.Proofs.Run.Careful
import TaskBoard.Proofs.Http.Integrity
import TaskBoard.Proofs.Cache.Harmless
import TaskBoard.Proofs.Store.Execution
import TaskBoard.Proofs.Text.Utf8
import TaskBoard.Proofs.Store.SameStore
import TaskBoard.Proofs.Text.Percent
import TaskBoard.Proofs.Text.Form
import TaskBoard.Proofs.Http.Target
import TaskBoard.Proofs.Run.InTime
import TaskBoard.Proofs.Http.Transparent
import TaskBoard.Proofs.Json.Numbers
import TaskBoard.Proofs.Task.Formats
import TaskBoard.Proofs.Run.PageAndCount
import TaskBoard.Proofs.Service.Paging
import TaskBoard.Proofs.Service.Failure
import TaskBoard.Proofs.Http.Failure
import TaskBoard.Proofs.Http.ListRequest
import TaskBoard.Proofs.Run.History
import TaskBoard.Proofs.Run.Ledger
import TaskBoard.Proofs.Service.Calls
import TaskBoard.Proofs.Service.Gone
import TaskBoard.Proofs.Service.Deletion
import TaskBoard.Proofs.Metrics.Tally
import TaskBoard.Proofs.Metrics.Lines
import TaskBoard.Proofs.Http.Counted
import TaskBoard.Proofs.Run.Alike
import TaskBoard.Proofs.Http.ErrorTexts
import TaskBoard.Proofs.Cache.RemoteFlush
import TaskBoard.Proofs.Service.PartialUpdate
import TaskBoard.Proofs.Http.TaskUrl
import TaskBoard.Proofs.Task.Composition
import TaskBoard.Proofs.Cache.Expiring
import TaskBoard.Proofs.Json.Grammar
import TaskBoard.Proofs.Json.Presence
import TaskBoard.Proofs.Task.Presence
import TaskBoard.Proofs.Instant.Offset
import TaskBoard.Proofs.Run.Contract
import TaskBoard.Proofs.Service.DueDate
import TaskBoard.Proofs.Http.DueDate
import TaskBoard.Proofs.Metrics.History
import TaskBoard.Proofs.Metrics.Samples
import TaskBoard.Proofs.Metrics.Reading
import TaskBoard.Proofs.Metrics.Agreement
import TaskBoard.Proofs.Text.Spelling
import TaskBoard.Proofs.Http.ListParams
import TaskBoard.Proofs.Config
import TaskBoard.Proofs.Task.Title
