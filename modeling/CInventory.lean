import CInventory.Assoc
import CInventory.Batch
import CInventory.Catalog
import CInventory.Command.Args
import CInventory.Command.Run
import CInventory.Decimal
import CInventory.Declaration
import CInventory.Diagnostic.Code
import CInventory.Diagnostic.Collector
import CInventory.Diagnostic.Event
import CInventory.Diagnostic.Level
import CInventory.Diagnostic.Log
import CInventory.Diagnostic.Service
import CInventory.Diagnostic.Session
import CInventory.Environment
import CInventory.FileTree
import CInventory.Host
import CInventory.Inventory
import CInventory.Json
import CInventory.Limits
import CInventory.LimitsBuild
import CInventory.Main
import CInventory.Output.Destination
import CInventory.Output.Manifest
import CInventory.Path
import CInventory.Position
import CInventory.Preferences
import CInventory.Proofs.Accounting
import CInventory.Proofs.BatchDiagnostics
import CInventory.Proofs.BatchOrder
import CInventory.Proofs.BatchOutput
import CInventory.Proofs.Boundaries
import CInventory.Proofs.BraceGrammar
import CInventory.Proofs.BraceMatching
import CInventory.Proofs.CatalogJobs
import CInventory.Proofs.Catalogers
import CInventory.Proofs.Clearings
import CInventory.Proofs.Composition
import CInventory.Proofs.Counts
import CInventory.Proofs.CursorMoves
import CInventory.Proofs.CursorRun
import CInventory.Proofs.Delivery
import CInventory.Proofs.Directories
import CInventory.Proofs.Discovery
import CInventory.Proofs.Enclosure
import CInventory.Proofs.EntryPoints
import CInventory.Proofs.Extents
import CInventory.Proofs.FailedWrites
import CInventory.Proofs.InventoryRuns
import CInventory.Proofs.LastConstruct
import CInventory.Proofs.Lexemes
import CInventory.Proofs.LineEnds
import CInventory.Proofs.MessageBounds
import CInventory.Proofs.Nesting
import CInventory.Proofs.OpaqueComments
import CInventory.Proofs.Overflow
import CInventory.Proofs.PathSteps
import CInventory.Proofs.Placement
import CInventory.Proofs.Positions
import CInventory.Proofs.Rescan
import CInventory.Proofs.Runs
import CInventory.Proofs.SafeRuns
import CInventory.Proofs.Said
import CInventory.Proofs.Segmentation
import CInventory.Proofs.SourceNames
import CInventory.Proofs.SourceOrder
import CInventory.Proofs.SourceSelection
import CInventory.Proofs.StandIns
import CInventory.Proofs.Traversal
import CInventory.Proofs.Verdicts
import CInventory.Proofs.Writing
import CInventory.Scan.Brace
import CInventory.Scan.Cataloger
import CInventory.Scan.Comment
import CInventory.Scan.Cursor
import CInventory.Scan.Metrics
import CInventory.Scan.Outcome
import CInventory.Scan.Run
import CInventory.Scan.Segment
import CInventory.Scan.Word
import CInventory.SourceFile
import CInventory.Span
import CInventory.Text.Blank
import CInventory.Text.CodeRange
import CInventory.Text.Lines
import CInventory.Text.Lossy
import CInventory.Text.Lower
import CInventory.Text.Printable
import CInventory.Text.Quoted
import CInventory.Text.Utf8
import CInventory.Toml.Decode
import CInventory.Toml.Document
import CInventory.Toml.Scalar
import CInventory.Toml.Value
