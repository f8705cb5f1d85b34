import Worksheet.Text
import Worksheet.Binary64
import Worksheet.Decimal.Basic
import Worksheet.Decimal.Numeral
import Worksheet.Decimal.Shortest
import Worksheet.Address
import Worksheet.Grid
import Worksheet.Value
import Worksheet.Formula.Basic
import Worksheet.Formula.Dependencies
import Worksheet.Formula.Evaluation
import Worksheet.Formula.Parser
import Worksheet.Cell
import Worksheet.Log
import Worksheet.Graph.Basic
import Worksheet.Graph.Search
import Worksheet.Graph.Order
import Worksheet.Graph.Reach
import Worksheet.Graph.Plan
import Worksheet.Sheet.Basic
import Worksheet.Sheet.Edit
import Worksheet.Settings.Basic
import Worksheet.Settings.Document
import Worksheet.CommandLine.Arguments
import Worksheet.CommandLine.Run
import Worksheet.Main
import Worksheet.Proofs.Names
import Worksheet.Proofs.Spelling
import Worksheet.Proofs.Binary64.Bits
import Worksheet.Proofs.Binary64.Rounding
import Worksheet.Proofs.Decimal.Values
import Worksheet.Proofs.Numbering
import Worksheet.Proofs.Rectangles
import Worksheet.Proofs.ReadingOrder
import Worksheet.Proofs.Graph.Rings
import Worksheet.Proofs.Graph.Edges
import Worksheet.Proofs.Graph.Relation
import Worksheet.Proofs.Graph.Cycles
import Worksheet.Proofs.Graph.Search
import Worksheet.Proofs.Graph.Order
import Worksheet.Proofs.Graph.Detection
import Worksheet.Proofs.Graph.Reach
import Worksheet.Proofs.Graph.Lockstep
import Worksheet.Proofs.Graph.Plan
import Worksheet.Proofs.Graph.Traversal
import Worksheet.Proofs.Graph.Rounds
import Worksheet.Proofs.Formula.References
import Worksheet.Proofs.Formula.Reads
import Worksheet.Proofs.Formula.Aggregates
import Worksheet.Proofs.Formula.Grammar
import Worksheet.Proofs.Formula.Scanning
import Worksheet.Proofs.Formula.Readers
import Worksheet.Proofs.Formula.Parsing
import Worksheet.Proofs.Formula.Printing
import Worksheet.Proofs.Formula.Stops
import Worksheet.Proofs.Formula.Cursor
import Worksheet.Proofs.Formula.Bytewise
import Worksheet.Proofs.Formula.Safety
import Worksheet.Proofs.Formula.WellFormed
import Worksheet.Proofs.Decimal.Digits
import Worksheet.Proofs.Display
import Worksheet.Proofs.Sheet.CarryOut
import Worksheet.Proofs.Sheet.Edits
import Worksheet.Proofs.Sheet.Mirror
import Worksheet.Proofs.Sheet.Settled
import Worksheet.Proofs.Sheet.Texts
import Worksheet.Proofs.Sheet.Locality
import Worksheet.Proofs.Sheet.Warnings
import Worksheet.Proofs.Sheet.Kinds
import Worksheet.Proofs.Sheet.Faults
import Worksheet.Proofs.Sheet.Circular
import Worksheet.Proofs.Sheet.History
import Worksheet.Proofs.CommandLine.Arguments
import Worksheet.Proofs.CommandLine.Assignments
import Worksheet.Proofs.CommandLine.Alone
