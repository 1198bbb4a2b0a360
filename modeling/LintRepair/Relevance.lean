import LintRepair.Diagnostic
import LintRepair.Least

/-!
# Relevance

A selection is about every diagnostic it touches.  A cursor is about the one diagnostic it sits on:
of those that contain it the one that starts closest, then the smallest, then the earliest.

Both scores are machine words and wrap around.  They are exact as long as a range covers less than
2^63 columns, a line counted as one hundred, and starts less than 2^64 columns from the cursor, a
line counted as a thousand.
-/

namespace LintRepair

namespace Relevance

/-- Weight of a line of distance in columns. -/
def lineDistance : UInt64 := 1000

/-- Weight of a covered line in columns. -/
def lineSize : Int64 := 100

/-- How far a range starts from a cursor, in a word of 64 bits that wraps around. -/
def distance (cursor : Position) (r : Range) : UInt64 :=
  let gap (a b : Nat) := UInt64.ofNat ((a - b) + (b - a))
  if r.start.line = cursor.line then gap r.start.column cursor.column
  else gap r.start.line cursor.line * lineDistance

/-- How much a range covers, in a signed word of 64 bits that wraps around. -/
def size (r : Range) : Int64 :=
  let columns := Int64.ofNat r.stop.column - Int64.ofNat r.start.column
  if r.isSingleLine then columns
  else Int64.ofNat (r.stop.line - r.start.line) * lineSize + columns

/-- Whether one range suits a cursor better than another. -/
def isBetter (cursor : Position) (a b : Range) : Bool :=
  distance cursor a < distance cursor b ||
    (distance cursor a = distance cursor b && size a < size b)

/-- The items, each with a range of its own, that a requested range is about, in their order. -/
def selectBy (rangeOf : α → Range) (items : List α) (requested : Range) : List α :=
  let touched := items.filter fun item => (rangeOf item).intersects requested
  if touched.length ≤ 1 || !requested.isEmpty then touched
  else
    let cursor := requested.start
    let containing := touched.filter fun item => (rangeOf item).contains cursor
    let candidates := if containing.isEmpty then touched else containing
    (firstLeast? (fun a b => isBetter cursor (rangeOf a) (rangeOf b)) candidates).toList

/-- The diagnostics that a requested range is about, in their order. -/
def select (diagnostics : List Diagnostic) (requested : Range) : List Diagnostic :=
  selectBy Diagnostic.range diagnostics requested

end Relevance

end LintRepair
