import PhotoAnalysis.Foundation.Program
import PhotoAnalysis.Foundation.Pool
import PhotoAnalysis.Foundation.Execution
import PhotoAnalysis.Foundation.Interference
import PhotoAnalysis.Foundation.Triple
import PhotoAnalysis.Foundation.Table
import PhotoAnalysis.Foundation.TxStore
import PhotoAnalysis.Foundation.Text
import PhotoAnalysis.Foundation.Uuid
import PhotoAnalysis.Foundation.Json
import PhotoAnalysis.Foundation.JsonCodec
import PhotoAnalysis.Foundation.Paging
import PhotoAnalysis.Core.Errors
import PhotoAnalysis.Core.Logging
import PhotoAnalysis.Db.Models
import PhotoAnalysis.World
import PhotoAnalysis.Core.Clock
import PhotoAnalysis.Integrations.Storage
import PhotoAnalysis.Integrations.AnalyzerClient
import PhotoAnalysis.Integrations.KafkaProducer
import PhotoAnalysis.Repositories
import PhotoAnalysis.Services.PhotoService
import PhotoAnalysis.Services.AnalysisProcessor
import PhotoAnalysis.Services.Outbox
import PhotoAnalysis.Services.BatchService
import PhotoAnalysis.Worker.Consumer
import PhotoAnalysis.System
import PhotoAnalysis.Ledger.Life
import PhotoAnalysis.Ledger.Tables
import PhotoAnalysis.Ledger.Acts
import PhotoAnalysis.Ledger.Changes
import PhotoAnalysis.Ledger.Growth
import PhotoAnalysis.Ledger.Invariant
import PhotoAnalysis.Ledger.Preservation
import PhotoAnalysis.Refinement.Frame
import PhotoAnalysis.Refinement.Rules
import PhotoAnalysis.Refinement.Facts
import PhotoAnalysis.Refinement.Uploads
import PhotoAnalysis.Refinement.Reads
import PhotoAnalysis.Refinement.Publisher
import PhotoAnalysis.Refinement.Processor
import PhotoAnalysis.Refinement.Consumer
import PhotoAnalysis.Refinement.Safety
import PhotoAnalysis.Guarantees.Photos
import PhotoAnalysis.Guarantees.Delivery
import PhotoAnalysis.Guarantees.Content
import PhotoAnalysis.Guarantees.Batches
import PhotoAnalysis.Guarantees.Records
import PhotoAnalysis.Guarantees.Terminal
import PhotoAnalysis.Guarantees.Compensation
import PhotoAnalysis.Guarantees.Snapshots
import PhotoAnalysis.Api.Middleware
import PhotoAnalysis.Guarantees.Correlation
import PhotoAnalysis.Guarantees.Columns
import PhotoAnalysis.Guarantees.Outages
import PhotoAnalysis.Guarantees.Pages
import PhotoAnalysis.Refinement.Footprints
import PhotoAnalysis.Guarantees.Retries
import PhotoAnalysis.Refinement.Sending
import PhotoAnalysis.Refinement.Turns
import PhotoAnalysis.Guarantees.Messages
import PhotoAnalysis.Guarantees.Offsets
import PhotoAnalysis.Refinement.Lifecycle
import PhotoAnalysis.Refinement.Fleet
import PhotoAnalysis.Refinement.Custody
import PhotoAnalysis.Guarantees.Starts
import PhotoAnalysis.Guarantees.Producers
import PhotoAnalysis.Guarantees.BestPhoto
import PhotoAnalysis.Foundation.Percent
import PhotoAnalysis.Foundation.FieldValue
import PhotoAnalysis.Api.Photos
import PhotoAnalysis.Guarantees.Disposition
import PhotoAnalysis.Guarantees.Agreement
import PhotoAnalysis.Ledger.Chronicle
import PhotoAnalysis.Refinement.Tally
import PhotoAnalysis.Guarantees.Metrics
import PhotoAnalysis.Guarantees.Outbox
import PhotoAnalysis.Foundation.Schema
import PhotoAnalysis.Foundation.Alteration
import PhotoAnalysis.Foundation.Migrations
import PhotoAnalysis.Db.Migrations
import PhotoAnalysis.Guarantees.Migrations
import PhotoAnalysis.Guarantees.Provenance
import PhotoAnalysis.Guarantees.Rows
import PhotoAnalysis.Foundation.Monitor
import PhotoAnalysis.Refinement.Locks
import PhotoAnalysis.Refinement.Holding
import PhotoAnalysis.Guarantees.Deadlocks
