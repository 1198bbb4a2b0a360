import LintRepair.Json.Reader
import LintRepair.Text.Blank
import LintRepair.Wire.Basic

/-!
# Reading lint reports

A report is a JSON record with two lists.  The record itself has to be in order; an item of a list
that is not an entry, or not a failure, is passed over without touching the others.
-/

namespace LintRepair

namespace Report

/-- How deep the items of a report may nest. -/
def maxItemDepth : Nat := 125

/-- The settled items of a list that may be missing. -/
def settledItems? : Option Json → Option (List Json)
  | none => some []
  | some value => do (← value.items?).mapM (Json.settled? maxItemDepth)

/-- The report of a JSON value. -/
def ofJson? (value : Json) : Option Report := do
  match ← value.fields? [["diagnostics"], ["errors"]] 0 with
  | [diagnostics, errors] =>
      return {
        entries := (← settledItems? diagnostics).filterMap Entry.ofJson?
        failures := (← settledItems? errors).filterMap Failure.ofJson? }
  | _ => none

/-- The report of the output of a lint run; no output at all is an empty report. -/
def parse? (output : Text) : Option Report :=
  if Text.isAllBlank output then some empty else Json.parse? output >>= ofJson?

end Report

end LintRepair
