import LintRepair.Dispatcher
import LintRepair.Report.Basic

/-!
# Sessions

An editing session holds a document, what a lint run last said about it, and the fixes last listed
for it.  A fix is applied to the text as it is, whatever it was when the fix was listed.  A session
is taken from step to step; a step that fails changes nothing.
-/

namespace LintRepair

/-- The state of an editing session. -/
structure Session where
  /-- The document as it is. -/
  document : Document
  /-- What offers fixes. -/
  dispatcher : Dispatcher
  /-- The diagnostics of the last lint run. -/
  diagnostics : List Diagnostic
  /-- The fixes last listed. -/
  listing : List Fix

namespace Session

/-- A session that has neither diagnostics nor a listing. -/
def start (document : Document) (dispatcher : Dispatcher) : Session :=
  ⟨document, dispatcher, [], []⟩

/-- The session after a lint run. -/
def lint (s : Session) (report : Report) : Session :=
  { s with diagnostics := report.entries.map (·.convert s.document s.dispatcher.settings) }

/-- The session with other diagnostics. -/
def diagnose (s : Session) (diagnostics : List Diagnostic) : Session := { s with diagnostics }

/-- The session under other settings. -/
def configure (s : Session) (settings : Settings) : Session :=
  { s with dispatcher := { s.dispatcher with settings } }

/-- The session with the fixes for a requested range listed. -/
def list (s : Session) (requested : Range) : Session :=
  { s with listing := s.dispatcher.listFixes s.diagnostics requested s.document }

/-- The session with another text. -/
def retext (s : Session) (text : Text) : Session := { s with document := .ofText text }

/-- The session after a fix, unless the fix does not apply to the text as it is. -/
def choose? (s : Session) (fix : Fix) : Option Session := (fix.applied? s.document).map s.retext

/-- The session after edits, unless they do not apply to the text as it is. -/
def edit? (s : Session) (edits : List Edit) : Option Session :=
  (s.document.applyEdits? edits).map s.retext

/-- What a session can be asked to do. -/
inductive Step where
  /-- Take the diagnostics of a lint run. -/
  | lint (report : Report)
  /-- Take diagnostics as they are. -/
  | diagnose (diagnostics : List Diagnostic)
  /-- Change the settings. -/
  | configure (settings : Settings)
  /-- List the fixes for a requested range. -/
  | list (requested : Range)
  /-- Apply the fix with a number in the last listing. -/
  | choose (number : Nat)
  /-- Apply edits. -/
  | edit (edits : List Edit)

/-- The session after a step, unless the step fails. -/
def step? (s : Session) : Step → Option Session
  | .lint report => s.lint report
  | .diagnose diagnostics => s.diagnose diagnostics
  | .configure settings => s.configure settings
  | .list requested => s.list requested
  | .choose number => s.listing[number]? >>= s.choose?
  | .edit edits => s.edit? edits

/-- The session after a step; a step that fails leaves it as it is. -/
def step (s : Session) (step : Step) : Session := (s.step? step).getD s

/-- The session after steps, one after another. -/
def run (s : Session) (steps : List Step) : Session := steps.foldl step s

end Session

end LintRepair
