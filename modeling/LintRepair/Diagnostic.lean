import LintRepair.Document.Basic

/-!
# Diagnostics

A diagnostic is one violation of a lint rule at a range of a document.
-/

namespace LintRepair

/-- How serious a diagnostic is. -/
inductive Severity where
  | error
  | warning
  | info
  deriving DecidableEq, Repr

namespace Severity

/-- The name under which a severity is written. -/
def name : Severity → Text
  | error => "error"
  | warning => "warning"
  | info => "info"

/-- The severity of a name in any case, two longer or shorter names included. -/
def ofName? (s : Text) : Option Severity :=
  let s := Text.lower s
  if s = "error" then some error
  else if s = "warning" ∨ s = "warn" then some warning
  else if s = "info" ∨ s = "information" then some info
  else none

/-- What is said about a name that is no severity. -/
def complaint (s : Text) : Text :=
  "Invalid severity: " ++ s ++ ". Expected error, warning, or info"

end Severity

/-- One reported violation of a rule. -/
structure Diagnostic where
  /-- Code of the rule. -/
  code : Text
  /-- What is wrong. -/
  message : Text
  /-- Where it is wrong. -/
  range : Range
  /-- How serious it is. -/
  severity : Severity
  /-- Suggested remedy. -/
  hint : Option Text
  /-- Documentation of the rule. -/
  docsUrl : Option Text
  /-- Tool that reported it. -/
  source : Text
  deriving DecidableEq

namespace Diagnostic

/-- The source of diagnostics converted from a lint report. -/
def lintSource : Text := "deno-lint"

/-- Whether a diagnostic comes from a lint report. -/
def isFromLint (d : Diagnostic) : Bool := d.source = lintSource

/-- The documentation of a rule below a base address, with one slash between the two. -/
def ruleDocsUrl (base code : Text) : Text :=
  (base.reverse.dropWhile (· = '/')).reverse ++ "/" ++ code

end Diagnostic

end LintRepair
