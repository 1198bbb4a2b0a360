import LintRepair.CommandLine.Command
import LintRepair.Hunk

/-!
# Applying fixes

The command `fix` accepts for each file of a report the preferred fixes of its diagnostics, one
after another, unless an edit overlaps one accepted before.  The accepted edits are applied at once.
-/

namespace LintRepair

namespace Command

/-- The fixes accepted for a file so far. -/
structure Accepted where
  /-- Their edits. -/
  edits : List Edit
  /-- Number of accepted fixes. -/
  applied : Nat
  /-- Number of diagnostics without one. -/
  unfixable : Nat
  deriving DecidableEq

namespace Accepted

/-- Nothing is accepted. -/
def none : Accepted := ⟨[], 0, 0⟩

/-- Accepts the fix of one more diagnostic, unless an edit of it overlaps an accepted one. -/
def offer (accepted : Accepted) : Option Fix → Accepted
  | Option.none => { accepted with unfixable := accepted.unfixable + 1 }
  | some fix =>
      if fix.edits.any fun edit => accepted.edits.any fun earlier => earlier.overlaps edit then
        { accepted with unfixable := accepted.unfixable + 1 }
      else
        { accepted with
          edits := accepted.edits ++ fix.edits
          applied := accepted.applied + 1 }

/-- The fixes accepted for diagnostics one after another. -/
def collect (dispatcher : Dispatcher) (document : Document) (diagnostics : List Diagnostic) :
    Accepted :=
  diagnostics.foldl
    (fun accepted diagnostic => accepted.offer (dispatcher.preferredFix? diagnostic document)) none

end Accepted

/-- What fixing does to one file. -/
structure FixedFile where
  /-- Its path. -/
  path : Text
  /-- Its content before. -/
  old : Text
  /-- Its content after, if a fix was accepted. -/
  new : Option Text
  /-- Number of accepted fixes. -/
  applied : Nat
  /-- Number of diagnostics without one. -/
  unfixable : Nat
  deriving DecidableEq, Repr

/-- The result of fixing a document, failing when the accepted fixes do not go together. -/
def fixDocument (dispatcher : Dispatcher) (path : Text) (document : Document)
    (entries : List Report.Entry) : Except CommandError FixedFile :=
  let accepted := Accepted.collect dispatcher document (convert dispatcher document entries)
  let result new : FixedFile := ⟨path, document.text, new, accepted.applied, accepted.unfixable⟩
  if accepted.edits.isEmpty then .ok (result none)
  else
    match document.applyEdits? accepted.edits with
    | some text => .ok (result (some text))
    | none => .error (.combine path)

/-- The result of fixing one file of a report. -/
def fixFile (env : Environment) (dispatcher : Dispatcher) (file : Text × List Report.Entry) :
    Except CommandError FixedFile :=
  let path := Path.ofFilename file.1
  match document? env path with
  | some document => fixDocument dispatcher path document file.2
  | none => .error (.read path)

/-- The contents to be written after fixing files. -/
def writesOf (files : List FixedFile) : List (Text × Text) :=
  files.filterMap fun file => file.new.map (file.path, ·)

/-- Writes a changed file, or prints in a preview what would become of it. -/
def settleFile (preview : Bool) (file : FixedFile) : Job Unit :=
  match file.new with
  | none => pure ()
  | some new =>
      if preview then print (Hunk.preview file.path file.old new)
      else do
        write file.path new
        warn (file.path ++ ": " ++ Text.decimal file.applied ++ " fix(es) applied")

/-- Reads and fixes all files of a report. -/
def collectFiles (env : Environment) (report : Text) (settings : Option Text) :
    Job (List FixedFile) := do
  let (dispatcher, report) ← prepare env report settings
  silent (report.byFile.mapM (fixFile env dispatcher))

/-- Applies one fix for each diagnostic.  All files are read and fixed before any is changed. -/
def fixAll (env : Environment) (report : Text) (settings : Option Text) (preview : Bool) :
    Job Unit := do
  let files ← collectFiles env report settings
  for file in files do
    settleFile preview file
  let applied := files.foldr (·.applied + ·) 0
  let unfixable := files.foldr (·.unfixable + ·) 0
  let summary (done : Text) : Text :=
    "\n" ++ Text.decimal applied ++ " fix(es) " ++ done ++ " in "
      ++ Text.decimal (writesOf files).length ++ " file(s)"
  if preview then say (summary "available")
  else if applied > 0 then say (summary "applied")
  else say "No fixes to apply"
  if unfixable > 0 then
    warn (Text.decimal unfixable ++ " diagnostic(s) could not be fixed automatically")

end Command

end LintRepair
