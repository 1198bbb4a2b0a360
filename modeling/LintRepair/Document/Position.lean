import LintRepair.Text.Basic

/-!
# Positions and ranges

A position names a place by zero-based line and byte column, and positions are ordered line first.
A range is a pair of positions whose end does not precede its start; that order is part of the
type, so a pair given backwards is collapsed when the range is made.
-/

namespace LintRepair

/-- A zero-based line with a byte column into the line's text. -/
structure Position where
  /-- Zero-based line. -/
  line : Nat
  /-- Bytes of the line's text before the place. -/
  column : Nat
  deriving DecidableEq, Repr

namespace Position

/-- Reading order: by line, then by column. -/
def le (p q : Position) : Prop := p.line < q.line ∨ (p.line = q.line ∧ p.column ≤ q.column)

instance : LE Position := ⟨le⟩

instance : LT Position := ⟨fun p q => p.line < q.line ∨ (p.line = q.line ∧ p.column < q.column)⟩

instance (p q : Position) : Decidable (p ≤ q) :=
  inferInstanceAs (Decidable (p.line < q.line ∨ (p.line = q.line ∧ p.column ≤ q.column)))

instance (p q : Position) : Decidable (p < q) :=
  inferInstanceAs (Decidable (p.line < q.line ∨ (p.line = q.line ∧ p.column < q.column)))

theorem le_refl (p : Position) : p ≤ p := Or.inr ⟨rfl, Nat.le_refl _⟩

theorem le_of_not_lt {p q : Position} (h : ¬ q < p) : p ≤ q := by
  obtain ⟨a, b⟩ := p
  obtain ⟨c, d⟩ := q
  have h' : ¬ (c < a ∨ (c = a ∧ d < b)) := h
  change a < c ∨ (a = c ∧ b ≤ d)
  omega

/-- The form `line:column`. -/
def display (p : Position) : Text := Text.decimal p.line ++ ":" ++ Text.decimal p.column

end Position

/-- The places from `start` up to `stop`, `stop` itself excluded. -/
structure Range where
  /-- First place covered. -/
  start : Position
  /-- First place no longer covered. -/
  stop : Position
  /-- The end does not precede the start. -/
  ordered : start ≤ stop
  deriving DecidableEq

namespace Range

/-- The range between two positions, collapsed onto the first when the second precedes it. -/
def between (start stop : Position) : Range :=
  if h : stop < start then ⟨start, start, start.le_refl⟩
  else ⟨start, stop, Position.le_of_not_lt h⟩

/-- The empty range at a position. -/
def empty (p : Position) : Range := ⟨p, p, p.le_refl⟩

/-- The range between two columns of one line. -/
def onLine (line first last : Nat) : Range := between ⟨line, first⟩ ⟨line, last⟩

/-- Whether the range covers nothing. -/
def isEmpty (r : Range) : Bool := r.start = r.stop

/-- Whether the range starts and ends on one line. -/
def isSingleLine (r : Range) : Bool := r.start.line = r.stop.line

/-- Whether a position lies in the range, both ends counted. -/
def contains (r : Range) (p : Position) : Bool := r.start ≤ p && p ≤ r.stop

/-- Whether two ranges share a place or touch. -/
def intersects (r s : Range) : Bool := r.start ≤ s.stop && s.start ≤ r.stop

/-- Whether two ranges share covered text; two empty ranges do when they are at one place, since
their order would be open. -/
def overlaps (r s : Range) : Bool :=
  if r.isEmpty && s.isEmpty then r.start = s.start
  else r.start < s.stop && s.start < r.stop

/-- The form `start-stop`. -/
def display (r : Range) : Text := r.start.display ++ "-" ++ r.stop.display

end Range

end LintRepair
