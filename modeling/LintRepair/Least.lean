/-!
# The first least element

Choosing from a list the earliest element that no other element undercuts.
-/

namespace LintRepair

/-- The earliest element of a list that no element is less than. -/
def firstLeast? (less : α → α → Bool) : List α → Option α
  | [] => none
  | a :: as =>
      match firstLeast? less as with
      | none => some a
      | some b => if less b a then some b else some a

end LintRepair
