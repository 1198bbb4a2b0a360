import LintRepair.Main
import LintRepair.Proofs.CommandLine.Overwrite
import LintRepair.Proofs.Dispatcher.Preference
import LintRepair.Proofs.Edit.Sequence
import LintRepair.Proofs.Session
import LintRepair.Proofs.Relevance
import LintRepair.Proofs.Repair.Subject
import LintRepair.Proofs.Dispatcher.Listing
import LintRepair.Proofs.Text.Blank
import LintRepair.Proofs.Directive.Grammar
import LintRepair.Proofs.Document.Layout
import LintRepair.Proofs.Suppression.Header
import LintRepair.Proofs.Suppression.FileAction
import LintRepair.Proofs.Report
import LintRepair.Proofs.Document.Address
import LintRepair.Proofs.Document.LineEdits
import LintRepair.Proofs.Directive.Spelling
import LintRepair.Proofs.Directive.Rewriting
import LintRepair.Proofs.Suppression.LineAction
import LintRepair.Proofs.Hunk
import LintRepair.Proofs.Json.RoundTrip
import LintRepair.Proofs.Wire.Fields
import LintRepair.Proofs.Wire.RoundTrip
import LintRepair.Proofs.CommandLine.AllOrNothing
import LintRepair.Proofs.CommandLine.Sparing
import LintRepair.Proofs.Report.Grouping
import LintRepair.Proofs.Json.Settled
import LintRepair.Proofs.Report.Isolation
import LintRepair.Proofs.Import.Scan
import LintRepair.Proofs.Import.Repetition
import LintRepair.Proofs.Import.Placement
import LintRepair.Proofs.Relevance.Nesting
import LintRepair.Proofs.Directive.Nearest
import LintRepair.Proofs.Repair.Annotation
import LintRepair.Proofs.Repair.IgnoreComment
import LintRepair.Proofs.Repair.Equality
import LintRepair.Proofs.Text.Word
import LintRepair.Proofs.Declaration.Layout
import LintRepair.Proofs.Repair.Binding
import LintRepair.Proofs.Text.Replace
import LintRepair.Proofs.Repair.Rename
import LintRepair.Proofs.Repair.InheritedCall
import LintRepair.Proofs.CaseClause.Break
import LintRepair.Proofs.CaseClause.Braces
import LintRepair.Proofs.Repair.Generator
import LintRepair.Proofs.Repair.BooleanCast
import LintRepair.Proofs.Repair.Fragment
import LintRepair.Proofs.Text.TopLevel
import LintRepair.Proofs.Repair.SparseArray
import LintRepair.Proofs.Text.Comment
import LintRepair.Proofs.Repair.ArrayComment
import LintRepair.Proofs.Repair.BracedLiteral
import LintRepair.Proofs.Document.Floor
import LintRepair.Proofs.Report.Clamping
import LintRepair.Proofs.Repair.NamedFragment
import LintRepair.Proofs.Hint
import LintRepair.Proofs.CommandLine.Selection
import LintRepair.Proofs.Text.Balance
import LintRepair.Proofs.Document.Index
