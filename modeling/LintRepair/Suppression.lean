import LintRepair.Directive
import LintRepair.Provider

/-!
# Silencing a rule

Every diagnostic gets two actions that silence its rule, for its line or for the whole file.  Both
add the code to a directive that is there already, and write a new directive only where there is
none.
-/

namespace LintRepair

namespace Suppression

/-- Whether a line without blanks at its ends starts or goes on with a comment. -/
def isComment (line : Text) : Bool :=
  Text.startsWith line "//" || Text.startsWith line "/*" || Text.startsWith line "*"

/-- Lines above a diagnostic that are searched for a line directive. -/
def lookback : Nat := 3

/-- Lines at the top of a file that may hold a file directive. -/
def headerLines : Nat := 10

/-- The first line directive among lines given from the nearest upward, with the number of lines
before it.  Blank lines and comments are passed, anything else ends the search. -/
def nearestAbove? : List Text → Option (Nat × Directive)
  | [] => none
  | line :: rest =>
      match (Directive.parse? line).filter (·.scope = .line) with
      | some directive => some (0, directive)
      | none =>
          if Text.isAllBlank line || isComment (Text.trim line) then
            (nearestAbove? rest).map fun (passed, directive) => (passed + 1, directive)
          else none

/-- The line directive that applies to a line, with the line it is on. -/
def lineDirective? (d : Document) (line : Nat) : Option (Nat × Directive) :=
  let first := line - lookback
  let above := ((List.range' first (line - first)).reverse.map d.line?).takeWhile (·.isSome)
  (nearestAbove? above.reduceOption).map fun (passed, directive) => (line - 1 - passed, directive)

/-- What the top of a file holds. -/
inductive Header where
  /-- A file directive on a line. -/
  | directive (line : Nat) (directive : Directive)
  /-- No file directive; perhaps a last line of shebang or comment. -/
  | comments (last : Option Nat)
  deriving DecidableEq

/-- Reads header lines, given the index of the first, whether a block comment is open there, and
the last line of shebang or comment before. -/
def scanHeader (index : Nat) (inComment : Bool) (last : Option Nat) : List Text → Header
  | [] => .comments last
  | line :: rest =>
      let trimmed := Text.trim line
      if inComment then
        scanHeader (index + 1) (!Text.containsPiece trimmed "*/") (some index) rest
      else
        match Directive.parse? line with
        | some directive =>
            match directive.scope with
            | .file => .directive index directive
            | .line => .comments last
        | none =>
            if (index = 0 ∧ Text.startsWith trimmed "#!") ∨ Text.startsWith trimmed "//" then
              scanHeader (index + 1) false (some index) rest
            else if Text.startsWith trimmed "/*" then
              scanHeader (index + 1) (!Text.containsPiece trimmed "*/") (some index) rest
            else if trimmed = [] then
              scanHeader (index + 1) false last rest
            else
              .comments last

/-- The header of a document. -/
def header (d : Document) : Header :=
  scanHeader 0 false none ((d.lines.take headerLines).map (·.text))

/-- The edit that adds a code to a directive on a line, unless it is listed there. -/
def extend? (d : Document) (line : Nat) (directive : Directive) (code : Text) : Option Edit :=
  (directive.withCode? code).map (.replace (d.lineRange line))

/-- The edit that silences a rule for the line of a site. -/
def lineEdit? (site : Site) : Option Edit :=
  match lineDirective? site.document site.line with
  | some (line, directive) => extend? site.document line directive site.code
  | none =>
      some (.insert ⟨site.line, 0⟩
        (Text.indentation site.lineText ++ "// deno-lint-ignore " ++ site.code ++ "\n"))

/-- The edit that silences a rule for the whole file. -/
def fileEdit? (site : Site) : Option Edit :=
  let added := "// deno-lint-ignore-file " ++ site.code ++ "\n"
  match header site.document with
  | .directive line directive => extend? site.document line directive site.code
  | .comments (some line) => some (site.document.insertAfterLine line added)
  | .comments none => some (.insert ⟨0, 0⟩ added)

/-- The two actions that silence a rule, those that would change something. -/
def actions (site : Site) : List Fix :=
  if site.code = [] then []
  else
    let offer (scope : Text) (edit : Option Edit) :=
      edit.map fun edit => (site.fix ("Disable '" ++ site.code ++ "' for " ++ scope) edit).onRequest
    (offer "this line" (lineEdit? site)).toList ++
      (offer "the entire file" (fileEdit? site)).toList

/-- The provider of the actions that silence a rule. -/
def provider : Provider := .total [Provider.wildcard] actions

end Suppression

end LintRepair
