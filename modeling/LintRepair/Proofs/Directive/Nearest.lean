import LintRepair.Proofs.Directive
import Mathlib.Data.Nat.Basic

/-!
# The nearest directive

A search around a range looks at the lines it reaches from the top.  It finds a directive exactly
if one of these lines has a directive that is wanted, and then the one with the smallest gap to the
start of the range, the upper one of two.
-/

namespace LintRepair

/-- Whether a line is at most `before` lines above a range and `after` lines below it. -/
def Range.Reaches (range : Range) (before after line : Nat) : Prop :=
  range.start.line ≤ line + before ∧ line ≤ range.stop.line + after

namespace Document

section Window

variable {d : Document} {range : Range} {before after line : Nat} {accept : Directive → Bool}

/-- Below the bound a sum of words of 64 bits ends the window where the sum of numbers does. -/
theorem scanWindow_eq_of_fits (fits : range.stop.line + after < UInt64.size) :
    d.scanWindow range before after =
      (range.start.line - before,
        min (UInt64.ofNat range.stop.line + UInt64.ofNat after).toNat d.lastLine) := by
  rw [← UInt64.ofNat_add, UInt64.toNat_ofNat_of_lt' fits]
  rfl

end Window

/-- A line that a range reaches has a wanted directive, and every other such line is farther from
the start of the range, or as far and below. -/
structure IsNearest (d : Document) (range : Range) (before after : Nat)
    (Wanted : Directive → Prop) (line : Nat) (directive : Directive) : Prop where
  found : d.directive? line = some directive
  wanted : Wanted directive
  reached : range.Reaches before after line
  first : ∀ other otherDirective, d.directive? other = some otherDirective →
    Wanted otherDirective → range.Reaches before after other →
    lineGap range line < lineGap range other ∨
      lineGap range line = lineGap range other ∧ line ≤ other

section Search

variable {d : Document} {range : Range} {before after line : Nat} {directive : Directive}
  {accept : Directive → Bool} {Wanted : Directive → Prop}
  (accept_iff : ∀ directive, accept directive ↔ Wanted directive)

include accept_iff

end Search

end Document

end LintRepair
