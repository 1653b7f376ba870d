import ScalarScript.Code
import ScalarScript.Code.Builder
import ScalarScript.Code.Document
import ScalarScript.Code.Listing
import ScalarScript.Code.WellFormed
import ScalarScript.Console.Arguments
import ScalarScript.Console.Command
import ScalarScript.Console.Folder
import ScalarScript.Console.Log
import ScalarScript.Console.Program
import ScalarScript.Console.Repl
import ScalarScript.Console.ReportText
import ScalarScript.Console.Style
import ScalarScript.Console.Table
import ScalarScript.Decimal.Layout
import ScalarScript.Decimal.Shortest
import ScalarScript.Diagnostic
import ScalarScript.Document
import ScalarScript.Journal
import ScalarScript.Lowering
import ScalarScript.Lowering.Body
import ScalarScript.Lowering.LoweringError
import ScalarScript.Machine.Fault
import ScalarScript.Machine.Host
import ScalarScript.Machine.Run
import ScalarScript.Main
import ScalarScript.Proofs.Grammatical
import ScalarScript.Proofs.Readers
import ScalarScript.Proofs.Table
import ScalarScript.Proofs.WellFormed
import ScalarScript.Report
import ScalarScript.Script
import ScalarScript.Session
import ScalarScript.Span
import ScalarScript.Text.Blank
import ScalarScript.Text.Columns
import ScalarScript.Text.Emoji
import ScalarScript.Text.Ligature
import ScalarScript.Text.Lines
import ScalarScript.Text.Printable
import ScalarScript.Text.Quoted
import ScalarScript.Text.Turns
import ScalarScript.Text.Width
import ScalarScript.Token
import ScalarScript.Token.Document
import ScalarScript.Token.Piece
import ScalarScript.Token.Scan
import ScalarScript.Tree
import ScalarScript.Tree.Chain
import ScalarScript.Tree.Document
import ScalarScript.Tree.Parse
import ScalarScript.Tree.ParseError
import ScalarScript.Proofs.Printing
import ScalarScript.Proofs.Statement
import ScalarScript.Proofs.SessionInvariant
import ScalarScript.Proofs.Agreement
import ScalarScript.Proofs.Growth
import ScalarScript.Proofs.Simulation
import ScalarScript.Proofs.Meaning
import ScalarScript.Proofs.Order
import ScalarScript.Proofs.Faults
import ScalarScript.Proofs.CallSafety
import ScalarScript.Proofs.Lifecycle
import ScalarScript.Proofs.KeepGoing
import ScalarScript.Proofs.Pieces
import ScalarScript.Proofs.Partition
import ScalarScript.Proofs.Layers
import ScalarScript.Proofs.Grammar
import ScalarScript.Proofs.Derivation
import ScalarScript.Proofs.Acceptance
import ScalarScript.Proofs.Ending
import ScalarScript.Proofs.Acyclic
import ScalarScript.Proofs.Termination
import ScalarScript.Proofs.BuildAndRun
import ScalarScript.Proofs.JoinedText
import ScalarScript.Proofs.Relocation
import ScalarScript.Proofs.Chunks
import ScalarScript.Proofs.Paths
import ScalarScript.Proofs.Stability
import ScalarScript.Proofs.Verified
import ScalarScript.Proofs.Places
import ScalarScript.Proofs.Citations
import ScalarScript.Proofs.Blame
import ScalarScript.Proofs.Diagnostics
import ScalarScript.Proofs.LocalNames
import ScalarScript.Proofs.OpenBlocks
import ScalarScript.Proofs.Checked
import ScalarScript.Proofs.Scoping
import ScalarScript.Proofs.Verdict
import ScalarScript.Proofs.Splitting
import ScalarScript.Proofs.Lookahead
import ScalarScript.Proofs.ReaderSteps
import ScalarScript.Proofs.Prediction
import ScalarScript.Proofs.EarliestError
import ScalarScript.Proofs.LineBreak
import ScalarScript.Proofs.Respelling
import ScalarScript.Proofs.Unnamed
import ScalarScript.Proofs.Renaming
import ScalarScript.Proofs.OrderedMap
import ScalarScript.Proofs.Appending
import ScalarScript.Proofs.Climbing
import ScalarScript.Proofs.ByteScan
