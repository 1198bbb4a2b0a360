import LintRepair.Diagnostic
import LintRepair.Hint
import LintRepair.Settings.Basic

/-!
# Lint reports

What a lint run found, in the coordinates of the lint tool: one-based lines, zero-based byte
columns, both signed.  Converting an entry moves its ends onto addressable positions of the
document.
-/

namespace LintRepair

namespace Report

/-- A place in the tool's coordinates. -/
structure Place where
  /-- One-based line. -/
  line : Int64
  /-- Zero-based column. -/
  col : Int64
  deriving DecidableEq, Repr

/-- A range in the tool's coordinates, in either order. -/
structure Span where
  /-- Where the range starts. -/
  start : Place
  /-- Where the range ends. -/
  stop : Place
  deriving DecidableEq, Repr

/-- A reported diagnostic. -/
structure Entry where
  /-- Where it is. -/
  span : Span
  /-- File it is in. -/
  filename : Text
  /-- What is wrong. -/
  message : Text
  /-- Code of the rule. -/
  code : Text
  /-- Suggested remedy. -/
  hint : Option Text
  /-- Documentation of the rule. -/
  docs : Option Text
  /-- Further notes, of which one may carry the hint. -/
  related : List Text
  deriving DecidableEq, Repr

/-- A file that could not be analysed. -/
structure Failure where
  /-- The file. -/
  path : Text
  /-- What went wrong. -/
  message : Text
  deriving DecidableEq, Repr

end Report

/-- What a lint run found. -/
structure Report where
  /-- Diagnostics in reported order. -/
  entries : List Report.Entry
  /-- Files that could not be analysed. -/
  failures : List Report.Failure
  deriving DecidableEq, Repr

namespace Report

/-- The report of a run that found nothing. -/
def empty : Report := ⟨[], []⟩

namespace Place

/-- The position in a document that a place is converted to. -/
def toPosition (p : Place) (d : Document) : Position :=
  d.clamp ⟨(p.line.toInt - 1).toNat, p.col.toInt.toNat⟩

end Place

namespace Entry

/-- The hint of an entry: its own, else the one carried by a note. -/
def effectiveHint (e : Entry) : Option Text := e.hint <|> Hint.ofNotes? e.related

/-- The diagnostic of an entry in a document. -/
def toDiagnostic (e : Entry) (d : Document) (severity : Severity) (docsBase : Text) :
    Diagnostic where
  code := e.code
  message := e.message
  range := .between (e.span.start.toPosition d) (e.span.stop.toPosition d)
  severity := severity
  hint := e.effectiveHint
  docsUrl := some (e.docs.getD (Diagnostic.ruleDocsUrl docsBase e.code))
  source := Diagnostic.lintSource

/-- The diagnostic of an entry in a document under settings. -/
def convert (e : Entry) (d : Document) (settings : Settings) : Diagnostic :=
  e.toDiagnostic d settings.severity settings.docsBase

end Entry

/-- A name put into a list of names in increasing order, unless it is there. -/
def insertName (name : Text) : List Text → List Text
  | [] => [name]
  | n :: ns =>
      if name = n then n :: ns
      else if Text.precedes name n then name :: n :: ns
      else n :: insertName name ns

/-- The files of the entries, each once, in increasing order. -/
def filenames (report : Report) : List Text :=
  (report.entries.map (·.filename)).foldr insertName []

/-- The entries of each file in reported order, files in increasing order. -/
def byFile (report : Report) : List (Text × List Entry) :=
  report.filenames.map fun name => (name, report.entries.filter (·.filename = name))

end Report

end LintRepair
