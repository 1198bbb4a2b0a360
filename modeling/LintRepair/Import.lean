import LintRepair.Fix
import LintRepair.Text.Search

/-!
# Import statements

A new import goes behind the shebang, comments and blank lines at the top of a module, and behind
the imports that directly follow them.  An import may span several lines, up to a limit.
-/

namespace LintRepair

namespace Import

/-- Whether a quote may enclose a module name. -/
def isSpecifierQuote (c : Char) : Bool := c = '\'' || c = '"'

/-- Whether a text starts an import declaration. -/
def startsImport (s : Text) : Bool :=
  match Text.after? "import" s with
  | none => false
  | some [] => true
  | some (c :: _) => Text.isBlank c || c = '{' || c = '*' || isSpecifierQuote c

/-- Whether a text starts a declaration that exports from another module. -/
def startsReexport (s : Text) : Bool :=
  match Text.after? "export" s with
  | none => false
  | some rest =>
      let rest := Text.trimStart rest
      Text.startsWith rest ['{'] || Text.startsWith rest ['*']
        || (Text.after? "type" rest).any fun rest => Text.startsWith (Text.trimStart rest) ['{']

/-- Whether a text starts an import or a re-export. -/
def startsDeclaration (s : Text) : Bool := startsImport s || startsReexport s

/-- Whether nothing but blanks and a semicolon is left. -/
def isClosed (s : Text) : Bool := Text.trimStart s = [] || Text.trimStart s = [';']

/-- The last part of a declaration: `from`, a module name and perhaps attributes in braces. -/
def fromClause : Text.Recogniser Unit := fun before s => do
  let s ← Text.afterWordStart? "from" before s
  let (_, s) ← Text.enclosed? isSpecifierQuote (Text.trimStart s)
  let s := Text.trimStart s
  let attributes := do
    let s ← Text.after? "with" s <|> Text.after? "assert" s
    Text.afterBraces? (Text.trimStart s)
  guard (isClosed (attributes.getD s))
  return ((), [])

/-- Whether a text starts an import that names nothing but a module. -/
def isSideEffectImport (s : Text) : Bool :=
  ((Text.after? "import" s).bind fun s =>
    Text.enclosed? isSpecifierQuote (Text.trimStart s)).isSome

/-- Whether a declaration ends on a line. -/
def endsOn (line : Text) : Bool :=
  let line := Text.trimEnd line
  Text.endsWith line ";" || Text.occurs fromClause line

/-- Lines that a declaration may go on for after its first line. -/
def maxFurtherLines : Nat := 50

/-- Number of lines that a declaration takes after its first line; none when its end is not
found. -/
def furtherLines (first : Text) (rest : List Text) : Nat :=
  if endsOn first || isSideEffectImport (Text.trim first) then 0
  else (((rest.take maxFurtherLines).findIdx? endsOn).map (· + 1)).getD 0

/-- Number of lines taken by the declarations at the start of a list of lines. -/
def leadingLines : List Text → Nat
  | [] => 0
  | line :: rest =>
      if startsDeclaration (Text.trimStart line) then
        let further := furtherLines line rest
        1 + further + leadingLines (rest.drop further)
      else 0
termination_by lines => lines.length
decreasing_by simp only [List.length_drop, List.length_cons]; omega

/-- The first line that is no shebang, comment or blank, given whether a block comment is open. -/
def firstCode? (inComment : Bool) (index : Nat) : List Text → Option Nat
  | [] => none
  | line :: rest =>
      let line := Text.trim line
      if inComment then
        firstCode? (!Text.containsPiece line "*/") (index + 1) rest
      else if (index = 0 ∧ Text.startsWith line "#!") ∨ line = [] ∨ Text.startsWith line "//" then
        firstCode? false (index + 1) rest
      else
        match Text.after? "/*" line with
        | none => some index
        | some opened =>
            match Text.splitFirst? "*/" opened with
            | none => firstCode? true (index + 1) rest
            | some (_, behind) =>
                if Text.isAllBlank behind then firstCode? false (index + 1) rest else some index

/-- Whether a new import needs a blank line before the line that follows it. -/
def needsSeparator (next : Text) : Bool :=
  let next := Text.trim next
  !(next = [] || Text.startsWith next "//" || Text.startsWith next "/*" || startsDeclaration next
    || (Text.startsWith next "export" && Text.containsPiece next " from "))

/-- A statement without blanks around it and with a semicolon at its end. -/
def normalize (statement : Text) : Text :=
  let statement := Text.trim statement
  if Text.endsWith statement ";" then statement else statement ++ ";"

end Import

namespace Document

/-- The line before which a new import goes, one past the last when there is no room. -/
def importLine (d : Document) : Nat :=
  let lines := d.lines.map (·.text)
  match Import.firstCode? false 0 lines with
  | some first => first + Import.leadingLines (lines.drop first)
  | none => if d.line? d.lastLine = some [] then d.lastLine else d.lastLine + 1

/-- The edit that adds an import statement. -/
def importEdit (d : Document) (statement : Text) : Edit :=
  let statement := Import.normalize statement
  let line := d.importLine
  if d.lastLine < line then .insert (d.lineEnd d.lastLine) ("\n" ++ statement)
  else if (d.line? line).any Import.needsSeparator then
    .insert ⟨line, 0⟩ (statement ++ "\n\n")
  else .insert ⟨line, 0⟩ (statement ++ "\n")

end Document

/-- The fix that adds an import statement, under a given title or its own. -/
def Fix.addImport (d : Diagnostic) (document : Document) (statement : Text)
    (title : Option Text) : Fix :=
  .ofEdit (title.getD ("Add " ++ Import.normalize statement)) d (document.importEdit statement)

end LintRepair
