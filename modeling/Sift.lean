import Sift.Columns
import Sift.Command.Arguments
import Sift.Command.Disk
import Sift.Command.Path
import Sift.Command.Run
import Sift.Document
import Sift.Double.Approximate
import Sift.Double.Basic
import Sift.Double.Decimal
import Sift.Double.Spelling
import Sift.Error
import Sift.Filter.Basic
import Sift.Filter.Checking
import Sift.Filter.Comparator
import Sift.Filter.Matching
import Sift.Filter.Operand
import Sift.Filter.Selection
import Sift.Filter.Stored
import Sift.Instant.Basic
import Sift.Instant.Date
import Sift.Instant.Printer
import Sift.Instant.Reader
import Sift.Json.Basic
import Sift.Json.Reader
import Sift.Json.Shape
import Sift.Json.Writer
import Sift.Main
import Sift.Proofs.Command.Sources
import Sift.Proofs.Command.Stages
import Sift.Proofs.Double.Approximate
import Sift.Proofs.Double.Decimal
import Sift.Proofs.Double.Spelled
import Sift.Proofs.Double.Spelling
import Sift.Proofs.Filter.Faults
import Sift.Proofs.Filter.Nodes
import Sift.Proofs.Instant.Calendar
import Sift.Proofs.Instant.Forms
import Sift.Proofs.Instant.Labels
import Sift.Proofs.Instant.Shape
import Sift.Proofs.Instant.Stamp
import Sift.Proofs.Instant.Stored
import Sift.Proofs.Instant.Written
import Sift.Proofs.Json.Proper
import Sift.Proofs.Json.RoundTrip
import Sift.Proofs.Json.Shape
import Sift.Proofs.Query.Conditions
import Sift.Proofs.Query.Cursor
import Sift.Proofs.Query.Divergence
import Sift.Proofs.Query.Grammar
import Sift.Proofs.Query.Lookahead
import Sift.Proofs.Query.Numbers
import Sift.Proofs.Query.ReadBack
import Sift.Proofs.Query.Reading
import Sift.Proofs.Query.RoundTrip
import Sift.Proofs.Query.Routines
import Sift.Proofs.Query.Shape
import Sift.Proofs.Query.Spelling
import Sift.Proofs.Query.Tokens
import Sift.Proofs.Results
import Sift.Proofs.Selection.Checked
import Sift.Proofs.Selection.Dates
import Sift.Proofs.Selection.Firsts
import Sift.Proofs.Selection.Meaning
import Sift.Proofs.Selection.NameLists
import Sift.Proofs.Selection.Named
import Sift.Proofs.Selection.Order
import Sift.Proofs.Selection.Pointwise
import Sift.Proofs.Selection.Repeated
import Sift.Proofs.Selection.Spliced
import Sift.Proofs.Selection.Splits
import Sift.Proofs.Selection.Typed
import Sift.Proofs.Sorted
import Sift.Proofs.Storage.Conformance
import Sift.Proofs.Storage.Declarations
import Sift.Proofs.Storage.Filters
import Sift.Proofs.Storage.Identities
import Sift.Proofs.Storage.Loaded
import Sift.Proofs.Storage.Pages
import Sift.Proofs.Storage.Records
import Sift.Proofs.Storage.Responses
import Sift.Proofs.Storage.Schemas
import Sift.Proofs.Storage.Shapes
import Sift.Proofs.Storage.Values
import Sift.Proofs.Tally.Counted
import Sift.Proofs.Tally.Entries
import Sift.Proofs.Tally.Found
import Sift.Proofs.Tally.Labels
import Sift.Proofs.Tally.Order
import Sift.Proofs.Tally.Permuted
import Sift.Proofs.Tally.Together
import Sift.Proofs.Text.Digits
import Sift.Proofs.Text.Reader
import Sift.Query.Cursor
import Sift.Query.Printer
import Sift.Query.Reader
import Sift.Record.Basic
import Sift.Record.PropertyType
import Sift.Record.Schema
import Sift.Record.Tag
import Sift.Record.Value
import Sift.Response
import Sift.Tally
import Sift.Text.Alphanumeric
import Sift.Text.Blank
import Sift.Text.Digits
import Sift.Text.Printable
import Sift.Text.Quoted
import Sift.Text.Reader
import Sift.Yaml.Cursor
import Sift.Yaml.Document
import Sift.Yaml.Event
import Sift.Yaml.Scalar
import Sift.Yaml.Token
