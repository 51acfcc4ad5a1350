import Haiker.Rust.Method
import Haiker.Rust.F64
import Haiker.Rust.ParseF64
import Haiker.Rust.Str
import Haiker.Rust.HashMap
import Haiker.Xml.Reader
import Haiker.Xml.Scan
import Haiker.Xml.Escape
import Haiker.Json.Basic
import Haiker.Sql.Table
import Haiker.Sql.Index
import Haiker.Concurrency.Interleaving
import Haiker.History.Linear
import Haiker.Concurrency.Program
import Haiker.Concurrency.Locks
import Haiker.Simulation.Lockstep
import Haiker.Ids
import Haiker.Rust.UuidText
import Haiker.RouteEditing.ValueObjects
import Haiker.RouteEditing.Operations
import Haiker.RouteEditing.Draft
import Haiker.RouteEditing.Serde
import Haiker.RouteEditing.Repository
import Haiker.RouteEditing.Lemmas.Operations
import Haiker.RouteEditing.Lemmas.Geometry
import Haiker.RouteEditing.Lemmas.Draft
import Haiker.RouteEditing.Lemmas.Repository
import Haiker.RouteEditing.Lemmas.WriteOperations
import Haiker.RouteEditing.Lemmas.Commit
import Haiker.RouteEditing.WellFormed
import Haiker.RouteEditing.Lemmas.Validation
import Haiker.RouteEditing.UndoRedo
import Haiker.RouteEditing.Persistence
import Haiker.ActivityCatalog.Activities
import Haiker.RecordedActivity.ValueObjects
import Haiker.RecordedActivity.LegPersistence
import Haiker.RecordedActivity.Lemmas.Legs
import Haiker.RecordedActivity.LegNumbering
import Haiker.RecordedActivity.LegOrder
import Haiker.RouteVersioning.PublicationCommit
import Haiker.RouteVersioning.RouteVersion
import Haiker.RouteVersioning.PublishCommand
import Haiker.RouteVersioning.Lemmas.PublicationCommit
import Haiker.Exports.ExportWorker
import Haiker.Exports.ExportJob
import Haiker.Exports.GpxGenerator
import Haiker.Exports.Lemmas.GpxGenerator
import Haiker.RouteVersioning.Specification
import Haiker.RouteVersioning.Lemmas.Specification
import Haiker.Api.Error
import Haiker.Api.RouteEditingDto
import Haiker.Api.RouteEditing
import Haiker.Api.Lemmas.RouteEditing
import Haiker.Api.Lemmas.Requests
import Haiker.Api.Router
import Haiker.Api.Clients
import Haiker.Api.System
import Haiker.Api.Discard
import Haiker.Api.Replay
import Haiker.Api.Frame
import Haiker.Api.OptimisticLock
import Haiker.Api.PublishedDraft
import Haiker.Api.SingleActive
import Haiker.Api.Ownership
import Haiker.Jobs.JobQueue
import Haiker.Jobs.Workers
import Haiker.Jobs.Lifecycle
import Haiker.Jobs.Attempts
import Haiker.Jobs.Enqueue
import Haiker.Outbox.Outbox
import Haiker.Outbox.Dispatcher
import Haiker.Outbox.Lemmas.Outbox
import Haiker.Outbox.DoubleDispatch
import Haiker.Outbox.Ordering
import Haiker.Imports.Import
import Haiker.Imports.Persistence
import Haiker.Imports.Commit
import Haiker.Imports.Lemmas.Commit
import Haiker.Imports.Orchestrator
import Haiker.Imports.GpxParser
import Haiker.Imports.Workers
import Haiker.Imports.Lemmas.Orchestrator
import Haiker.Imports.Copies
import Haiker.Imports.Stranded
import Haiker.Imports.Duplicates
import Haiker.Imports.Redelivery
import Haiker.Imports.Lifecycle
import Haiker.Imports.Lemmas.Copies
import Haiker.Imports.OneActivity
import Haiker.Exports.Commands
import Haiker.Exports.GenerateExport
import Haiker.Exports.Clients
import Haiker.Exports.Lemmas.Clients
import Haiker.Exports.Lemmas.Steps
import Haiker.Exports.RoundTrip
import Haiker.Exports.Lifecycle
import Haiker.Exports.RightFile
import Haiker.Exports.Presence
import Haiker.Transactions.Session
import Haiker.Transactions.Lemmas.Session
import Haiker.Transactions.Sound
import Haiker.Transactions.VersionChain
import Haiker.Transactions.ExactlyOnce
import Haiker.RouteVersioning.GeometryFormat
import Haiker.RouteVersioning.Equivalence
import Haiker.Imports.Lemmas.GpxParser
import Haiker.RateLimiting.UploadQuota
import Haiker.RateLimiting.RollingWindow
import Haiker.RateLimiting.RateLimit
import Haiker.Simulation.Eviction
import Haiker.RateLimiting.TokenConservation
import Haiker.Jobs.StaleSweep
import Haiker.Api.Imports
import Haiker.Api.ImportJobs
import Haiker.Imports.StartImport
import Haiker.Imports.Idempotency
import Haiker.Exports.RequestExport
import Haiker.Exports.Idempotency
import Haiker.RouteVersioning.Atomicity
import Haiker.ActivityCatalog.Activity
import Haiker.ActivityCatalog.Commands
import Haiker.ActivityCatalog.LostUpdates
import Haiker.Rust.FloatOps
import Haiker.RecordedActivity.Normalization
import Haiker.Imports.Lemmas.Downloads
import Haiker.RecordedActivity.Lemmas.Normalization
import Haiker.Imports.InitialVersion
import Haiker.Api.Uploads
import Haiker.Api.OriginalUpload
import Haiker.RouteEditing.Lemmas.Panics
import Haiker.Api.IndexSafety
import Haiker.RouteEditing.Failures
import Haiker.Lists.Replaced
import Haiker.RouteEditing.ListEdits
import Haiker.RecordedActivity.Conservation
import Haiker.RecordedActivity.Additivity
import Haiker.Xml.Forest
import Haiker.Imports.PointCount
import Haiker.Imports.Limits
import Haiker.IndexedDb.ObjectStore
import Haiker.RouteEditor.Autosave
import Haiker.RouteEditor.ReplayOrder
import Haiker.Simulation.Runs
import Haiker.RouteEditor.Session
import Haiker.RouteEditor.AtMostOnce
import Haiker.RecordedActivity.RecordedRoute
import Haiker.RecordedActivity.Lemmas.RecordedRoute
import Haiker.Api.RecordedRoute
import Haiker.RouteEditor.RecordedRoute
import Haiker.RouteEditor.RecordedGeometry
import Haiker.RecordedActivity.DeadBand
import Haiker.RecordedActivity.PreviewSampling
import Haiker.RouteEditing.PublicationErrors
import Haiker.Pagination.Keyset
import Haiker.RouteVersioning.Queries
import Haiker.RouteVersioning.VersionListing
import Haiker.RecordedActivity.LegStats
import Haiker.RecordedActivity.LegTotals
import Haiker.RateLimiting.RetryAfter
import Haiker.ActivityCatalog.Base64
import Haiker.ActivityCatalog.Queries
import Haiker.ActivityCatalog.ActivityListing
import Haiker.RouteEditor.EditorState
import Haiker.RouteEditor.Inputs
import Haiker.RouteEditor.ShownGeometry
import Haiker.RouteEditor.DrawnSection
import Haiker.Sql.Statements
import Haiker.RecordedActivity.LegUpdates
import Haiker.RecordedActivity.LegAttempts
import Haiker.Api.Legs
import Haiker.Api.LegPatch
import Haiker.ActivityCatalog.TitleLaws
import Haiker.Imports.MetadataLaws
import Haiker.Imports.StoredTitles
import Haiker.ActivityCatalog.CursorCodec
import Haiker.Api.Filename
import Haiker.Identity.Oidc
import Haiker.Identity.TokenAcceptance
import Haiker.Xml.Content
import Haiker.Imports.GpxDocument
import Haiker.Imports.Lemmas.GpxDocument
import Haiker.Imports.TreeReading
import Haiker.Concurrency.Journal
import Haiker.Identity.Sessions
import Haiker.Identity.AuthHandlers
import Haiker.Identity.LoginFlow
import Haiker.Identity.SessionHistory
import Haiker.Identity.LoginChain
import Haiker.Identity.UserAccounts
import Haiker.Identity.Cookies
import Haiker.Rust.RoundedTo
import Haiker.Exports.Reimport
import Haiker.Jobs.RuntimeWorkers
import Haiker.Api.Activities
import Haiker.Api.Isolation
import Haiker.Api.LegBounds
