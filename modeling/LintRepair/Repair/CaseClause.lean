import LintRepair.Provider
import LintRepair.Text.Search

/-!
# Repairs of case clauses

A case clause is found by indentation: it runs from its label to the next label, or the next line
that starts with a closing brace, that is indented no deeper than the label.
-/

namespace LintRepair

/-- A clause of a `switch` statement. -/
structure CaseClause where
  /-- Line of its label. -/
  label : Nat
  /-- Indentation of its label. -/
  indent : Text
  /-- Indentation of its first body line, if it has one. -/
  bodyIndent : Option Text
  /-- Its last body line that is not blank. -/
  lastLine : Option Nat
  deriving DecidableEq, Repr

namespace CaseClause

/-- Whether a line without blanks at its ends starts with a case label. -/
def isLabel (line : Text) : Bool :=
  (Text.afterWordEnd? "case" line).any (·.contains ':')
    || (Text.after? "default" line).any fun rest => Text.startsWith (Text.trimStart rest) ":"

/-- Whether a line ends a clause whose label is indented by `width` bytes. -/
def isEnd (width : Nat) (line : Text) : Bool :=
  let content := Text.trim line
  (isLabel content || Text.startsWith content ['}'])
    && Text.byteSize (Text.indentation line) ≤ width

/-- Indentation of the first body line and index of the last one, among lines that follow a label
indented by `width` bytes; `index` is the index of the first of them. -/
def body (width index : Nat) : List Text → Option Text × Option Nat
  | [] => (none, none)
  | line :: rest =>
      if Text.isAllBlank line then body width (index + 1) rest
      else if isEnd width line then (none, none)
      else (some (Text.indentation line), some ((body width (index + 1) rest).2.getD index))

/-- Lines above a diagnostic that are searched for a label. -/
def maxLabelDistance : Nat := 200

/-- The clause that a line lies in: that of the nearest label at or above it. -/
def enclosing? (d : Document) (line : Nat) : Option CaseClause := do
  let first := line - maxLabelDistance
  let label ← (List.range' first (line + 1 - first)).reverse.find? fun index =>
    (d.line? index).any fun text => isLabel (Text.trim text)
  let indent := Text.indentation (← d.line? label)
  let following := (d.lines.drop (label + 1)).map (·.text)
  let (bodyIndent, lastLine) := body (Text.byteSize indent) (label + 1) following
  return ⟨label, indent, bodyIndent, lastLine⟩

/-- Indentation of a statement in the clause: that of its body if deeper than the label, else one
level deeper than the label. -/
def statementIndent (clause : CaseClause) : Text :=
  let deeper := clause.indent ++ (if clause.indent.contains '\t' then "\t" else "  ")
  match clause.bodyIndent with
  | some indent => if Text.byteSize clause.indent < Text.byteSize indent then indent else deeper
  | none => deeper

/-- Whether a line without blanks at its ends leaves the clause. -/
def isTerminator (line : Text) : Bool :=
  ["break", "return", "throw"].any fun word => (Text.afterWordEnd? word line).isSome

end CaseClause

namespace Repair

/-- For `no-fallthrough`: a `break` behind the last statement, unless that leaves the clause. -/
def fallthrough (site : Site) : Option Fix := do
  let clause ← CaseClause.enclosing? site.document site.line
  let last ← clause.lastLine
  guard (!CaseClause.isTerminator (Text.trim (← site.document.line? last)))
  return site.fix "Add `break`"
    (site.document.insertAfterLine last (clause.statementIndent ++ "break;\n"))

/-- For `no-case-declarations`: braces around the body of a clause whose label stands alone. -/
def caseDeclarations (site : Site) : Option Fix := do
  let clause ← CaseClause.enclosing? site.document site.line
  guard (Text.endsWith (Text.trimEnd (← site.document.line? clause.label)) ":")
  let last ← clause.lastLine
  return .ofEdits "Add braces to case clause" site.diagnostic
    [.insert (site.document.lineEnd clause.label) [' ', '{'],
      site.document.insertAfterLine last (clause.indent ++ ['}', '\n'])]

end Repair

end LintRepair
