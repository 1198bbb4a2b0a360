import LintRepair.CommandLine.Command

/-!
# Printing the diagnostics

The command `check` prints every diagnostic of a report, file by file, and says which of them would
be fixed.
-/

namespace LintRepair

namespace Command

/-- A diagnostic of a file on one line, with the title of the fix that it would get. -/
def diagnosticLine (path : Text) (diagnostic : Diagnostic) (fix : Option Fix) : Text :=
  path ++ ":" ++ Text.decimal (diagnostic.range.start.line + 1) ++ ":"
    ++ Text.decimal (diagnostic.range.start.column + 1) ++ ": [" ++ diagnostic.code ++ "] "
    ++ diagnostic.message ++ (fix.map fun fix => '(' :: fix.title ++ [')']).elim [] (' ' :: ·)

/-- Prints the diagnostics of one file; gives their number and the number of those with a fix. -/
def checkFile (env : Environment) (dispatcher : Dispatcher)
    (file : Text × List Report.Entry) : Job (Nat × Nat) := do
  let path := Path.ofFilename file.1
  let document ← required (.read path) (document? env path)
  let diagnostics := convert dispatcher document file.2
  let fixes := diagnostics.map fun diagnostic =>
    (diagnostic, dispatcher.preferredFix? diagnostic document)
  for (diagnostic, fix) in fixes do
    say (diagnosticLine path diagnostic fix)
  return (fixes.length, (fixes.filter (·.2.isSome)).length)

/-- Prints the diagnostics of all files; the exit code is one if there are any. -/
def printDiagnostics (env : Environment) (report : Text) (settings : Option Text) : Job Nat := do
  let (dispatcher, report) ← prepare env report settings
  let counts ← report.byFile.mapM (checkFile env dispatcher)
  let total := counts.foldr (·.1 + ·) 0
  let fixable := counts.foldr (·.2 + ·) 0
  if total = 0 then
    say "No diagnostics found"
    return 0
  else
    say ("\nFound " ++ Text.decimal total ++ " diagnostics (" ++ Text.decimal fixable
      ++ " fixable)")
    return 1

end Command

end LintRepair
