import Haystack.Binary64
import Haystack.Calendar.Date
import Haystack.Calendar.DateTime
import Haystack.Calendar.Reading
import Haystack.Calendar.TimeOfDay
import Haystack.Calendar.Zone
import Haystack.Calendar.ZoneNames
import Haystack.Calendar.ZoneOffsets
import Haystack.Csv.Cell
import Haystack.Csv.Document
import Haystack.Csv.Record
import Haystack.DateRange
import Haystack.Decimal.Fixed
import Haystack.Decimal.Reader
import Haystack.Decimal.Shortest
import Haystack.Error
import Haystack.Filter.Basic
import Haystack.Filter.Cache
import Haystack.Filter.Condition
import Haystack.Filter.Reader
import Haystack.Format
import Haystack.Grid.Basic
import Haystack.Grid.Difference
import Haystack.Grid.Indexed
import Haystack.Grid.Selection
import Haystack.Json.Numeral
import Haystack.Json.Reader
import Haystack.Json.Text
import Haystack.Json.Tree
import Haystack.Json.Writer
import Haystack.OrderedMap
import Haystack.Phrase
import Haystack.Proofs.Calendar.Clocks
import Haystack.Proofs.Calendar.Days
import Haystack.Proofs.Calendar.Readings
import Haystack.Proofs.Calendar.Texts
import Haystack.Proofs.Calendar.Zone
import Haystack.Proofs.Csv.Cells
import Haystack.Proofs.Csv.Record
import Haystack.Proofs.Csv.RoundTrip
import Haystack.Proofs.DateRange
import Haystack.Proofs.Decimal
import Haystack.Proofs.Decimal.Nearest
import Haystack.Proofs.Decimal.RoundTrip
import Haystack.Proofs.Decimal.Shortest
import Haystack.Proofs.Filter.Cache
import Haystack.Proofs.Filter.Chains
import Haystack.Proofs.Filter.Comparisons
import Haystack.Proofs.Filter.Enclosed
import Haystack.Proofs.Filter.Reading
import Haystack.Proofs.Filter.RoundTrip
import Haystack.Proofs.Filter.RowOrder
import Haystack.Proofs.Grid.Admission
import Haystack.Proofs.Grid.Changes
import Haystack.Proofs.Grid.Declared
import Haystack.Proofs.Grid.Difference
import Haystack.Proofs.Grid.Edits
import Haystack.Proofs.Grid.Evolution
import Haystack.Proofs.Grid.Gate
import Haystack.Proofs.Grid.Index
import Haystack.Proofs.Grid.Nameless
import Haystack.Proofs.Grid.Operations
import Haystack.Proofs.Grid.Pairs
import Haystack.Proofs.Grid.Patching
import Haystack.Proofs.Grid.Reachable
import Haystack.Proofs.Grid.Reading
import Haystack.Proofs.Grid.Rearranged
import Haystack.Proofs.Grid.Refusals
import Haystack.Proofs.Grid.Replay
import Haystack.Proofs.Grid.Rows
import Haystack.Proofs.Grid.Sorting
import Haystack.Proofs.Grid.Writing
import Haystack.Proofs.Json.Conversion
import Haystack.Proofs.Json.Grids
import Haystack.Proofs.Json.Members
import Haystack.Proofs.Json.RoundTrip
import Haystack.Proofs.Json.Text
import Haystack.Proofs.Json.Values
import Haystack.Proofs.OrderedMap
import Haystack.Proofs.OrderedMap.Placement
import Haystack.Proofs.OrderedMap.Steps
import Haystack.Proofs.Outcome
import Haystack.Proofs.Pairing
import Haystack.Proofs.Pairing.Leftover
import Haystack.Proofs.Pairing.Reordering
import Haystack.Proofs.Phrase
import Haystack.Proofs.Phrase.Continuation
import Haystack.Proofs.Phrase.Extension
import Haystack.Proofs.Phrase.Spelling
import Haystack.Proofs.Provider
import Haystack.Proofs.Recency.Entries
import Haystack.Proofs.Recency.Links
import Haystack.Proofs.Recency.Model
import Haystack.Proofs.Sql.Aliases
import Haystack.Proofs.Sql.Alike
import Haystack.Proofs.Sql.Clauses
import Haystack.Proofs.Sql.Comparisons
import Haystack.Proofs.Sql.Conditions
import Haystack.Proofs.Sql.Entities
import Haystack.Proofs.Sql.Expressions
import Haystack.Proofs.Sql.Following
import Haystack.Proofs.Sql.Layers
import Haystack.Proofs.Sql.Meaning
import Haystack.Proofs.Sql.Numbering
import Haystack.Proofs.Sql.Outcomes
import Haystack.Proofs.Sql.Queries
import Haystack.Proofs.Sql.Quoting
import Haystack.Proofs.Sql.Selection
import Haystack.Proofs.Sql.Skeleton
import Haystack.Proofs.Sql.Tags
import Haystack.Proofs.Sql.Tokens
import Haystack.Proofs.Sql.Truth
import Haystack.Proofs.Text.Bytes
import Haystack.Proofs.Text.Pieces
import Haystack.Proofs.Value.Bijection
import Haystack.Proofs.Value.Equality
import Haystack.Proofs.Value.Equivalence
import Haystack.Proofs.Value.Order
import Haystack.Proofs.Value.Parts
import Haystack.Proofs.Value.Related
import Haystack.Proofs.Value.RowsById
import Haystack.Proofs.Value.Symmetry
import Haystack.Proofs.Version
import Haystack.Proofs.Version.Nearest
import Haystack.Proofs.Version.Order
import Haystack.Proofs.Version.Texts
import Haystack.Proofs.Zinc.Blame
import Haystack.Proofs.Zinc.Blocks
import Haystack.Proofs.Zinc.Boundary
import Haystack.Proofs.Zinc.Choice
import Haystack.Proofs.Zinc.Clock
import Haystack.Proofs.Zinc.Collections
import Haystack.Proofs.Zinc.Continuation
import Haystack.Proofs.Zinc.Denoted
import Haystack.Proofs.Zinc.Documents
import Haystack.Proofs.Zinc.Drafts
import Haystack.Proofs.Zinc.Enclosing
import Haystack.Proofs.Zinc.Endings
import Haystack.Proofs.Zinc.Escapes
import Haystack.Proofs.Zinc.Extension
import Haystack.Proofs.Zinc.Grids
import Haystack.Proofs.Zinc.LastRows
import Haystack.Proofs.Zinc.Lines
import Haystack.Proofs.Zinc.Literals
import Haystack.Proofs.Zinc.Nested
import Haystack.Proofs.Zinc.NestedGrids
import Haystack.Proofs.Zinc.Number
import Haystack.Proofs.Zinc.Pieces
import Haystack.Proofs.Zinc.Quantities
import Haystack.Proofs.Zinc.Quoted
import Haystack.Proofs.Zinc.Rewriting
import Haystack.Proofs.Zinc.RoundTrip
import Haystack.Proofs.Zinc.Scalar
import Haystack.Proofs.Zinc.Several
import Haystack.Proofs.Zinc.Solid
import Haystack.Proofs.Zinc.Tables
import Haystack.Proofs.Zinc.Undisturbed
import Haystack.Proofs.Zinc.Values
import Haystack.Provider
import Haystack.Recency
import Haystack.Rounding
import Haystack.Settings
import Haystack.Sql.Piece
import Haystack.Sql.Plan
import Haystack.Sql.Query
import Haystack.Sql.Statement
import Haystack.Text.Base64
import Haystack.Text.Blank
import Haystack.Text.DecimalDigit
import Haystack.Text.Hex
import Haystack.Text.Pieces
import Haystack.Text.Place
import Haystack.Text.Shown
import Haystack.Text.Unprintable
import Haystack.Text.Utf8
import Haystack.Value.Basic
import Haystack.Value.Near
import Haystack.Value.Order
import Haystack.Version
import Haystack.Zinc.Document
import Haystack.Zinc.Literal
import Haystack.Zinc.Quoted
import Haystack.Zinc.Writer
