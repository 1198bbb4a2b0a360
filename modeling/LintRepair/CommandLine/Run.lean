import LintRepair.CommandLine.Checking
import LintRepair.CommandLine.Fixing
import LintRepair.CommandLine.Listing

/-!
# Running a command

A command runs to its outcome: exit code, printed text, and what it has written.
-/

namespace LintRepair

namespace Command

/-- What a command does; it gives the exit code. -/
def job (env : Environment) : Command → Job Nat
  | .check report settings => printDiagnostics env report settings
  | .list report settings file selection json => do
      printFixes env report settings file selection json
      return 0
  | .repair report settings preview => do
      fixAll env report settings preview
      return 0

/-- Runs a command.  A failure is printed behind what was printed before. -/
def run (env : Environment) (command : Command) : Outcome :=
  match (command.job env).run.run ⟨⟨[], []⟩, []⟩ with
  | (.ok exit, done) => ⟨exit, done.console, done.writes⟩
  | (.error e, done) =>
      ⟨1, { done.console with err := done.console.err ++ e.report }, done.writes⟩

end Command

end LintRepair
