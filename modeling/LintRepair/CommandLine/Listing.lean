import LintRepair.CommandLine.Command
import LintRepair.Json.Writer
import LintRepair.Text.Quoted

/-!
# Listing what is offered

The command `fixes` lists what is offered for a selection in a file, numbered with edits and
actions, or as JSON.
-/

namespace LintRepair

namespace Command

/-- The shown form of an action. -/
def actionText : HostAction → Text
  | .openUrl target => "OpenUrl(" ++ Text.quoted target ++ ")"

/-- The lines that list a fix under its number. -/
def fixLines (number : Nat) (fix : Fix) : List Text :=
  let digits := Text.decimal number
  let column := List.replicate (2 - digits.length) ' ' ++ digits
  (column ++ "." ++ (if fix.preferred then "*" else " ") ++ " " ++ fix.title ++ " ["
      ++ fix.diagnostic.code ++ "]")
    :: fix.edits.map (fun edit => "      " ++ edit.range.display ++ " " ++ Text.quoted edit.text)
    ++ (fix.action.map fun action => "      " ++ actionText action).toList

/-- What is offered for a selection in a file. -/
def offered (env : Environment) (dispatcher : Dispatcher) (report : Report) (file : Text)
    (document : Document) (selection : Range) : List Fix :=
  let entries := report.entries.filter fun entry =>
    env.files.areSame (Path.ofFilename entry.filename) file
  dispatcher.listFixes (convert dispatcher document entries) selection document

/-- Lists what is offered for a selection in a file. -/
def printFixes (env : Environment) (report : Text) (settings : Option Text) (file : Text)
    (selection : Range) (json : Bool) : Job Unit := do
  let (dispatcher, report) ← prepare env report settings
  let document ← required (.read file) (document? env file)
  let fixes := offered env dispatcher report file document selection
  if json then
    say (Json.array (fixes.map Fix.toJson)).pretty
  else if fixes.isEmpty then
    say "No fixes available"
  else
    for (fix, index) in fixes.zipIdx do
      for line in fixLines (index + 1) fix do
        say line

end Command

end LintRepair
