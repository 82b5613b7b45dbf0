import AssetTracker.Lib.Prog
import AssetTracker.Lib.Throws
import AssetTracker.Lib.Machine
import AssetTracker.Lib.Pool
import AssetTracker.Lib.Reads
import AssetTracker.Lib.Atomic
import AssetTracker.Lib.Linearizability
import AssetTracker.Lib.Layers
import AssetTracker.Lib.Partitioned
import AssetTracker.Lib.TwoPhase
import AssetTracker.Lib.Memory
import AssetTracker.Lib.Journal
import AssetTracker.Lib.Text
import AssetTracker.Lib.Json
import AssetTracker.Lib.JsonLines
import AssetTracker.Lib.Stringify
import AssetTracker.Lib.Binary
import AssetTracker.Lib.Decoder
import AssetTracker.Lib.Stream
import AssetTracker.Lib.Scan
import AssetTracker.Lib.Base64
import AssetTracker.Lib.Http
import AssetTracker.Lib.Paths
import AssetTracker.Lib.Query
import AssetTracker.Lib.Uuid
import AssetTracker.Lib.Time
import AssetTracker.Lib.Chronology
import AssetTracker.Metrics
import AssetTracker.Go.Device
import AssetTracker.Go.Database
import AssetTracker.Go.UseCases
import AssetTracker.Go.Publisher
import AssetTracker.Go.Partitions
import AssetTracker.Go.Service
import AssetTracker.Go.Steps
import AssetTracker.Go.Invariants
import AssetTracker.Go.Linearizable
import AssetTracker.Go.Readback
import AssetTracker.Go.Events
import AssetTracker.Go.Naming
import AssetTracker.Go.Goroutines
import AssetTracker.Go.Copies
import AssetTracker.Go.Lifetimes
import AssetTracker.Go.Order
import AssetTracker.Go.Shutdown
import AssetTracker.Go.Handlers
import AssetTracker.Go.Responses
import AssetTracker.Go.Auth
import AssetTracker.Go.Token
import AssetTracker.Go.Server
import AssetTracker.Go.Unknown
import AssetTracker.Go.Bodies
import AssetTracker.Go.Metrics
import AssetTracker.Go.Reports
import AssetTracker.Go.Polls
import AssetTracker.Go.Middleware
import AssetTracker.Go.Retries
import AssetTracker.Go.Traces
import AssetTracker.Node.Event
import AssetTracker.Node.UseCases
import AssetTracker.Node.Consumer
import AssetTracker.Node.EventLog
import AssetTracker.Node.Timeline
import AssetTracker.Node.Spellings
import AssetTracker.Node.Metrics
import AssetTracker.Node.Traces
import AssetTracker.Node.Server
import AssetTracker.Node.Lifecycle
import AssetTracker.Node.Shutdown
import AssetTracker.Node.Atomic
import AssetTracker.Node.Requests
import AssetTracker.Node.Responses
import AssetTracker.Web.Schemas
import AssetTracker.Web.Guard
import AssetTracker.Web.Session
import AssetTracker.Web.Api
import AssetTracker.Web.EventCalls
import AssetTracker.Web.Health
import AssetTracker.Web.TraceTable
import AssetTracker.Web.Devices
import AssetTracker.Web.DeviceDetail
import AssetTracker.Pipeline
import AssetTracker.Identity
import AssetTracker.System
import AssetTracker.DeviceApi
import AssetTracker.EventsApi
import AssetTracker.Browsers
import AssetTracker.Timelines
import AssetTracker.Listings
import AssetTracker.Dashboard
import AssetTracker.HealthApi
import AssetTracker.MetricsApi
import AssetTracker.Traces
import AssetTracker.Forms
import AssetTracker.Tokens
import AssetTracker.LoginApi
