import Scad.Ast.Expression
import Scad.Ast.Fault
import Scad.Ast.Operator
import Scad.Ast.Printer
import Scad.Ast.Statement
import Scad.Ast.View
import Scad.Convert.Argument
import Scad.Convert.Comprehension
import Scad.Convert.Conversion
import Scad.Convert.Expression
import Scad.Convert.Literal
import Scad.Convert.Predefined
import Scad.Convert.Problem
import Scad.Convert.Program
import Scad.Convert.Statement
import Scad.Decimal.Binary
import Scad.Decimal.Literal
import Scad.Decimal.Scaled
import Scad.Decimal.Shortest
import Scad.Diagnostic
import Scad.Editor.Completion
import Scad.Editor.Cursor
import Scad.Editor.Hover
import Scad.Editor.Outline
import Scad.Editor.Place
import Scad.Editor.Symbol
import Scad.Editor.Trace
import Scad.Event
import Scad.Json.Diagnostic
import Scad.Json.Editor
import Scad.Json.Expression
import Scad.Json.Reader
import Scad.Json.Record
import Scad.Json.Scanner
import Scad.Json.Statement
import Scad.Json.Tree
import Scad.Json.Value
import Scad.Json.Writer
import Scad.Proofs.Agreement.Correspondence
import Scad.Proofs.Agreement.Expression
import Scad.Proofs.Agreement.Outcome
import Scad.Proofs.Agreement.Predefined
import Scad.Proofs.Agreement.Retelling
import Scad.Proofs.Agreement.Statement
import Scad.Proofs.ArgumentLookup
import Scad.Proofs.BindingLists
import Scad.Proofs.Bodies.Header
import Scad.Proofs.Bodies.Place
import Scad.Proofs.CallSpelling
import Scad.Proofs.CalleePlace
import Scad.Proofs.Comments
import Scad.Proofs.Comprehensions
import Scad.Proofs.Cursor
import Scad.Proofs.Labels
import Scad.Proofs.Lines
import Scad.Proofs.Modifiers
import Scad.Proofs.Moved
import Scad.Proofs.Nesting
import Scad.Proofs.Outcome
import Scad.Proofs.Outlining.Forest
import Scad.Proofs.Outlining.Outline
import Scad.Proofs.Outlining.Owners
import Scad.Proofs.Outlining.Ranges
import Scad.Proofs.OwnLabel
import Scad.Proofs.Places
import Scad.Proofs.PlainValue
import Scad.Proofs.Printing.Grammar
import Scad.Proofs.Printing.Levels
import Scad.Proofs.Printing.Plain
import Scad.Proofs.Printing.RoundTrip
import Scad.Proofs.Printing.Strings
import Scad.Proofs.Printing.Token
import Scad.Proofs.Provenance.Expression
import Scad.Proofs.Provenance.Fault
import Scad.Proofs.Provenance.Origin
import Scad.Proofs.Provenance.Predefined
import Scad.Proofs.Provenance.Statement
import Scad.Proofs.Reporting
import Scad.Proofs.Scoping.Completion
import Scad.Proofs.Scoping.Hover
import Scad.Proofs.Scoping.Innermost
import Scad.Proofs.Scoping.Symbols
import Scad.Proofs.Scoping.Visibility
import Scad.Proofs.Separation.Completeness
import Scad.Proofs.Separation.Expression
import Scad.Proofs.Separation.Parts
import Scad.Proofs.Silence
import Scad.Proofs.SourceOrder.Expression
import Scad.Proofs.SourceOrder.Parameters
import Scad.Proofs.SourceOrder.Parts
import Scad.Proofs.SourceOrder.Predefined
import Scad.Proofs.SourceOrder.Statement
import Scad.Proofs.SpecialArguments
import Scad.Proofs.StatementWrapper
import Scad.Proofs.Statements
import Scad.Proofs.Subtree
import Scad.Proofs.Success
import Scad.Proofs.Transport.Abridged
import Scad.Proofs.Transport.Token
import Scad.Proofs.Transport.Tree
import Scad.Proofs.Wording
import Scad.Proofs.Wrapper
import Scad.Settings
import Scad.Span
import Scad.Text.Blank
import Scad.Text.Source
import Scad.Tree.Kind
import Scad.Tree.Layout
import Scad.Tree.Node
import Scad.Vocabulary
