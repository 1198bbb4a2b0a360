import LintRepair.Document.Position
import LintRepair.Text.Blank

/-!
# Selections on the command line

A place is written `LINE:COL` and a selection `LINE:COL-LINE:COL`, with lines counted from one and
columns from zero.
-/

namespace LintRepair

namespace Selection

/-- Why a part of a selection is refused. -/
inductive Error where
  /-- It is no pair of numbers. -/
  | malformed (part : Text)
  /-- Its line is zero. -/
  | lineZero (part : Text)
  deriving DecidableEq, Repr

namespace Error

/-- What is said about a refused part. -/
def message : Error → Text
  | malformed part => "invalid position `" ++ part ++ "`, expected LINE:COL"
  | lineZero part => "invalid position `" ++ part ++ "`, lines start at 1"

/-- What is said about a refused argument. -/
def complaint (argument : Text) (e : Error) : Text :=
  "error: invalid value '" ++ argument ++ "' for '--at <AT>': " ++ e.message

end Error

/-- A number of 64 bits. -/
def number? (s : Text) : Option Nat := (Text.natural? s).filter (· < UInt64.size)

/-- The position that a part of a selection names. -/
def position (part : Text) : Except Error Position :=
  let numbers := do
    let (line, column) ← Text.splitFirst? ":" (Text.trim part)
    return (← number? line, ← number? column)
  match numbers with
  | none => .error (.malformed part)
  | some (0, _) => .error (.lineZero part)
  | some (line + 1, column) => .ok ⟨line, column⟩

/-- The range that a selection names; a single place is an empty range. -/
def parse (argument : Text) : Except Error Range := do
  let (first, last) := (Text.splitFirst? "-" argument).getD (argument, argument)
  return .between (← position first) (← position last)

end Selection

end LintRepair
