import ParserServe.Lifecycle.Compatibility
import ParserServe.Lifecycle.Fencing
import ParserServe.Lifecycle.Display
import ParserServe.Lifecycle.History
import ParserServe.Lifecycle.Recovery
import ParserServe.Lifecycle.Result
import ParserServe.Lifecycle.Holders
import ParserServe.Lifecycle.Concurrency
import ParserServe.Lifecycle.Preference
import ParserServe.Lifecycle.Placed
import ParserServe.Lifecycle.Drain
import ParserServe.Fleet.Incarnations
import ParserServe.Streams.Order
import ParserServe.Callback.Exclusive
import ParserServe.Callback.Views
import ParserServe.Callback.Outbox
import ParserServe.Lifecycle.Attempts
import ParserServe.Lifecycle.Budget
import ParserServe.Lifecycle.Finality
import ParserServe.Lifecycle.Uploads
import ParserServe.Lifecycle.Creation
import ParserServe.Lifecycle.DeferredRouting
import ParserServe.Lifecycle.RoutingCopies
import ParserServe.Retention.Downloads
import ParserServe.Retention.Progress
import ParserServe.Worker.UrlDownload
import ParserServe.Registry.Defaults
import ParserServe.Registry.Publishing
import ParserServe.Security.LastActiveKey
import ParserServe.Worker.Isolation
import ParserServe.Worker.Preloading
import ParserServe.Lifecycle.ArtifactObjects
import ParserServe.Foundation.CaseVariants
import ParserServe.Schema.PipelineGraph
import ParserServe.Foundation.Numeration
import ParserServe.Backends.RowWidth
import ParserServe.Backends.Archive
import ParserServe.Foundation.Base64
import ParserServe.Foundation.Json
import ParserServe.Api.Cursors
import ParserServe.Api.Pagination
import ParserServe.Dashboard.Series
import ParserServe.Dashboard.FinishedWork
import ParserServe.Dashboard.Percentiles
import ParserServe.Backends.Markdown
import ParserServe.Security.GuessedTypes
import ParserServe.Storage.Outcomes
import ParserServe.Security.KeyHistory
import ParserServe.Backends.Web
import ParserServe.Fleet.LeaseWait
import ParserServe.Backends.RemoteProtocol
import ParserServe.Worker.Service
