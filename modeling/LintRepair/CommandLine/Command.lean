import LintRepair.CommandLine.Files
import LintRepair.Dispatcher
import LintRepair.Report.Reader
import LintRepair.Settings.Reader

/-!
# Commands

There are three commands over a lint report: to print its diagnostics, to list what is offered for a
selection, and to apply or preview one fix for each diagnostic.  A command reads files as they are
before it, prints, and writes.  What it prints and what it writes is kept in order, and a failure
takes nothing of it back.  This file holds what the commands share: loading the settings, reading
the report, and failing.
-/

namespace LintRepair

/-- Why a command fails. -/
inductive CommandError where
  /-- A file cannot be read. -/
  | read (path : Text)
  /-- A report is refused. -/
  | parse (path : Text)
  /-- Settings cannot be read or are refused. -/
  | load (path : Text)
  /-- The accepted fixes of a file do not go together. -/
  | combine (path : Text)
  /-- A file cannot be written. -/
  | write (path : Text)
  deriving DecidableEq, Repr

namespace CommandError

/-- What is said about a failed command. -/
def message : CommandError → Text
  | read path => "Failed to read " ++ path
  | parse path => "Failed to parse " ++ path
  | load path => "Failed to load " ++ path
  | combine path => "Fixes for " ++ path ++ " could not be combined"
  | write path => "Failed to write " ++ path

/-- The line that reports a failure. -/
def report (e : CommandError) : Text := "Error: " ++ e.message ++ "\n"

end CommandError

/-- What a command has to work with. -/
structure Environment where
  /-- The files. -/
  files : Files
  /-- The text on standard input. -/
  input : Text
  /-- The path of the working directory. -/
  directory : Text

/-- What a command is asked to do, with paths of the report and of settings. -/
inductive Command where
  /-- Print the diagnostics. -/
  | check (report : Text) (settings : Option Text)
  /-- List what is offered for a selection in a file. -/
  | list (report : Text) (settings : Option Text) (file : Text) (selection : Range) (json : Bool)
  /-- Apply one fix for each diagnostic, or only preview that. -/
  | repair (report : Text) (settings : Option Text) (preview : Bool)

/-- What a command has printed. -/
structure Console where
  /-- On standard output. -/
  out : Text
  /-- On standard error. -/
  err : Text
  deriving DecidableEq, Repr

/-- What a command has done so far. -/
structure Progress where
  /-- What it has printed. -/
  console : Console
  /-- Paths and contents that it has written, one after another. -/
  writes : List (Text × Text)
  deriving DecidableEq, Repr

/-- What a command leaves behind. -/
structure Outcome where
  /-- Its exit code. -/
  exit : Nat
  /-- What it has printed. -/
  console : Console
  /-- Paths and contents that it has written, one after another. -/
  writes : List (Text × Text)
  deriving DecidableEq, Repr

namespace Command

/-- A piece of work that prints, writes and may fail; what is done before a failure stays. -/
abbrev Job := ExceptT CommandError (StateM Progress)

/-- Prints a text on standard output. -/
def print (text : Text) : Job Unit :=
  modify fun done => { done with console := { done.console with out := done.console.out ++ text } }

/-- Prints a line on standard output. -/
def say (line : Text) : Job Unit := print (line ++ "\n")

/-- Prints a line on standard error. -/
def warn (line : Text) : Job Unit :=
  modify fun done =>
    { done with console := { done.console with err := done.console.err ++ line ++ "\n" } }

/-- Writes a content to a path. -/
def write (path content : Text) : Job Unit :=
  modify fun done => { done with writes := done.writes ++ [(path, content)] }

/-- A result that is only computed. -/
def silent (result : Except CommandError α) : Job α := ExceptT.mk (pure result)

/-- A value that has to be there. -/
def required (e : CommandError) : Option α → Job α
  | some a => pure a
  | none => throw e

/-- The names of a file with settings in the working directory, in order of preference. -/
def settingsNames : List Text := ["quickfix.toml", ".quickfix.toml"]

/-- The paths of the files that a report is about. -/
def reportedPaths (report : Report) : List Text :=
  report.entries.map fun entry => Path.ofFilename entry.filename

/-- The settings file to be loaded: the path to read, and the path to show. -/
def settingsFile? (env : Environment) : Option Text → Option (Text × Text)
  | some path => some (path, path)
  | none => (settingsNames.find? env.files.isFile).map fun name =>
      (name, env.directory ++ "/" ++ name)

/-- The settings of a file. -/
def settingsOf? (env : Environment) (path : Text) : Option Settings := do
  (Settings.parse (← env.files.read? path)).toOption

/-- Loads the settings, the standard ones when there is no file. -/
def loadSettings (env : Environment) (settings : Option Text) : Job Settings := do
  match settingsFile? env settings with
  | none => return .standard
  | some (path, shown) =>
      let settings ← required (.load shown) (settingsOf? env path)
      warn ("Loaded config from: " ++ shown)
      return settings

/-- Whether the report at a path is read from standard input. -/
def isInput (path : Text) : Bool := Path.components path = [['-']]

/-- The text of a report. -/
def reportText? (env : Environment) (path : Text) : Option Text :=
  if isInput path then some env.input else env.files.read? path

/-- Reads the report and tells which files could not be analysed. -/
def readReport (env : Environment) (path : Text) : Job Report := do
  let text ← required (.read path) (reportText? env path)
  let report ← required (.parse path) (Report.parse? text)
  for failure in report.failures do
    warn ("Warning: " ++ failure.path ++ ": " ++ failure.message)
  return report

/-- Loads the settings, then reads the report. -/
def prepare (env : Environment) (report : Text) (settings : Option Text) :
    Job (Dispatcher × Report) := do
  let settings ← loadSettings env settings
  return (⟨.builtin, settings⟩, ← readReport env report)

/-- The document of a file. -/
def document? (env : Environment) (path : Text) : Option Document :=
  (env.files.read? path).map .ofText

/-- The diagnostics of report entries in a document. -/
def convert (dispatcher : Dispatcher) (document : Document) (entries : List Report.Entry) :
    List Diagnostic :=
  entries.map (·.convert document dispatcher.settings)

end Command

end LintRepair
