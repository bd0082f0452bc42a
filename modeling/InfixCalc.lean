import InfixCalc.Number
import InfixCalc.Number.Arithmetic
import InfixCalc.Number.Decimal
import InfixCalc.Number.Reading
import InfixCalc.Number.Shortest
import InfixCalc.Number.Text
import InfixCalc.Operator
import InfixCalc.Span
import InfixCalc.Text.Blank
import InfixCalc.Text.Lines
import InfixCalc.Text.Quoted
import InfixCalc.Text.Width
import InfixCalc.Token
import InfixCalc.Token.Scan
import InfixCalc.Expr
import InfixCalc.Expr.Evaluation
import InfixCalc.Expr.Rendering
import InfixCalc.Parsing
import InfixCalc.Expr.Json
import InfixCalc.Batch
import InfixCalc.Diagnostic
import InfixCalc.Diagnostic.Drawing
import InfixCalc.CommandLine.Arguments
import InfixCalc.CommandLine.Execution
import InfixCalc.Workbench
import InfixCalc.Main
import InfixCalc.Proofs.Rounding
import InfixCalc.Proofs.Acceptance
import InfixCalc.Proofs.InfixText
import InfixCalc.Proofs.PostfixText
import InfixCalc.Proofs.Contents
import InfixCalc.Proofs.Locations
import InfixCalc.Proofs.Sessions
import InfixCalc.Proofs.Groups
import InfixCalc.Proofs.Subtrees
import InfixCalc.Proofs.StackMachine
import InfixCalc.Proofs.EntryPoints
import InfixCalc.Proofs.Renderings
import InfixCalc.Proofs.Relocation
import InfixCalc.Proofs.Spelling
import InfixCalc.Proofs.Batches
import InfixCalc.Proofs.RunLogs
import InfixCalc.Proofs.Composition
import InfixCalc.Proofs.Outlines
import InfixCalc.Proofs.Drawings
import InfixCalc.Proofs.Dumps
import InfixCalc.Proofs.Documents
import InfixCalc.Proofs.Numerals
import InfixCalc.Proofs.TreeDocuments
import InfixCalc.Proofs.Layers
import InfixCalc.Proofs.Nearest
import InfixCalc.Proofs.Shortest
import InfixCalc.Proofs.CanonicalText
