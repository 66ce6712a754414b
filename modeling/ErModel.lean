import ErModel.Command
import ErModel.Conversion
import ErModel.Edit.Basic
import ErModel.Edit.Columns
import ErModel.Edit.Error
import ErModel.Edit.Intent
import ErModel.Edit.Joins
import ErModel.Edit.Tables
import ErModel.Editor.Basic
import ErModel.Editor.Config
import ErModel.Editor.Session
import ErModel.Editor.Worker
import ErModel.Error
import ErModel.Exchange.Document
import ErModel.Exchange.JoinConfig
import ErModel.Exchange.Read
import ErModel.Exchange.Write
import ErModel.Graph.Basic
import ErModel.Graph.Canvas
import ErModel.Graph.Gesture
import ErModel.Json.Basic
import ErModel.Json.Numeral
import ErModel.Json.Reader
import ErModel.Json.Record
import ErModel.Json.Writer
import ErModel.Main
import ErModel.Number.Binary64
import ErModel.Number.Layout
import ErModel.Number.Numeral
import ErModel.Number.Shortest
import ErModel.Reconcile
import ErModel.Schema.Basic
import ErModel.Schema.DataType
import ErModel.Schema.Id
import ErModel.Schema.Join
import ErModel.Schema.Name
import ErModel.Schema.Table
import ErModel.Schema.Validity
import ErModel.Schema.Violation
import ErModel.Source.Compile
import ErModel.Source.Describe
import ErModel.Source.Document
import ErModel.Source.Lexer
import ErModel.Source.Parser
import ErModel.Source.Printer
import ErModel.Source.Quoted
import ErModel.Source.Token
import ErModel.Text.Case
import ErModel.Text.Escaped
import ErModel.Text.Letter
import ErModel.Text.Spans
import ErModel.Text.Width
import ErModel.Text.WidthClass
import ErModel.Proofs.Common
import ErModel.Proofs.Validity
import ErModel.Proofs.KeyAsEdit
import ErModel.Proofs.Workspace
import ErModel.Proofs.Requests
import ErModel.Proofs.Records
import ErModel.Proofs.Edits
import ErModel.Proofs.Fresh
import ErModel.Proofs.Placement
import ErModel.Proofs.JoinViews
import ErModel.Proofs.Seats
import ErModel.Proofs.EdgeSet
import ErModel.Proofs.Rebuilding
import ErModel.Proofs.Parsing
import ErModel.Proofs.Compiling
import ErModel.Proofs.Relabel
import ErModel.Proofs.Content
import ErModel.Proofs.Blocks
import ErModel.Proofs.Carrying
import ErModel.Proofs.JoinIds
import ErModel.Proofs.Reconciling
import ErModel.Proofs.MirrorRuns
import ErModel.Proofs.Complete
import ErModel.Proofs.Renumbering
import ErModel.Proofs.Resubmitting
import ErModel.Proofs.ColumnNames
import ErModel.Proofs.EditorSteps
import ErModel.Proofs.EditorNames
import ErModel.Proofs.EditorLinks
import ErModel.Proofs.LatestSchema
import ErModel.Proofs.Nearest
import ErModel.Proofs.Numerals
import ErModel.Proofs.Lexing
import ErModel.Proofs.Bare
import ErModel.Proofs.Printing
import ErModel.Proofs.Reparsing
import ErModel.Proofs.Printable
import ErModel.Proofs.Describing
import ErModel.Proofs.Recompiling
import ErModel.Proofs.Relinking
import ErModel.Proofs.TextDefaults
import ErModel.Proofs.RoundTrip
import ErModel.Proofs.Handover
import ErModel.Proofs.Orphans
import ErModel.Proofs.Configured
import ErModel.Proofs.Breaking
import ErModel.Proofs.ForeignKeys
import ErModel.Proofs.Junctions
import ErModel.Proofs.StableText
import ErModel.Proofs.LooseMirrors
import ErModel.Proofs.Debounce
import ErModel.Proofs.JsonLexing
import ErModel.Proofs.JsonReading
import ErModel.Proofs.RecordReading
import ErModel.Proofs.Documents
import ErModel.Proofs.LinkingApart
import ErModel.Proofs.JunctionsAtOnce
import ErModel.Proofs.EntityOrder
import ErModel.Proofs.Deletions
import ErModel.Proofs.GivenColumns
import ErModel.Proofs.ColumnDrafts
import ErModel.Proofs.Reconfiguring
import ErModel.Proofs.JoinDrafts
import ErModel.Proofs.Constructing
import ErModel.Proofs.Connecting
import ErModel.Proofs.PendingKept
import ErModel.Proofs.Refusals
import ErModel.Proofs.FreeNames
import ErModel.Proofs.Lawful
import ErModel.Proofs.Failures
import ErModel.Proofs.Brackets
import ErModel.Proofs.Cutting
import ErModel.Proofs.Walk
import ErModel.Proofs.Ending
