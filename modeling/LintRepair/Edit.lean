import LintRepair.Document.Basic

/-!
# Edits

An edit replaces the text of one range.  Several edits are applied at once: every range refers to
the document before any of them.  Application fails when a range is not addressable or two edits
get in each other's way.
-/

namespace LintRepair

/-- The replacement of one range's text. -/
structure Edit where
  /-- Range to be replaced. -/
  range : Range
  /-- Text to stand there. -/
  text : Text
  deriving DecidableEq

namespace Edit

/-- The edit that puts a text in place of a range. -/
def replace (range : Range) (text : Text) : Edit := ⟨range, text⟩

/-- The edit that puts a text at a position. -/
def insert (p : Position) (text : Text) : Edit := ⟨.empty p, text⟩

/-- The edit that takes a range away. -/
def delete (range : Range) : Edit := ⟨range, []⟩

/-- Whether the edit only adds text. -/
def isInsertion (e : Edit) : Bool := e.range.isEmpty && !e.text.isEmpty

/-- Whether the edit adds no text. -/
def isDeletion (e : Edit) : Bool := e.text.isEmpty

/-- Whether two edits touch the same text. -/
def overlaps (e f : Edit) : Bool := e.range.overlaps f.range

/-- Whether two edits at different places of a list overlap. -/
def anyOverlap : List Edit → Bool
  | [] => false
  | e :: es => es.any e.overlaps || anyOverlap es

end Edit

/-- What becomes of a line. -/
inductive LineChange where
  /-- It goes, with its ending. -/
  | delete
  /-- Its text is replaced. -/
  | replace (text : Text)
  deriving DecidableEq, Repr

/-- The replacement of the bytes from `start` up to `stop`. -/
structure Splice where
  /-- Offset of the first byte replaced. -/
  start : Nat
  /-- Offset behind the last byte replaced. -/
  stop : Nat
  /-- Text to stand there. -/
  text : Text
  deriving DecidableEq, Repr

namespace Splice

/-- Order by start, then by end. -/
def le (a b : Splice) : Bool := a.start < b.start || (a.start = b.start && a.stop ≤ b.stop)

/-- The bytes an edit replaces in a document. -/
def ofEdit? (d : Document) (e : Edit) : Option Splice := do
  return ⟨← d.offset? e.range.start, ← d.offset? e.range.stop, e.text⟩

/-- The text from offset `done` on after sorted splices.  A splice may not start before `done`,
and an insertion may not stand where the splice before it started. -/
def assemble? (done : Nat) (previous : Option Nat) (rest : Text) : List Splice → Option Text
  | [] => some rest
  | s :: ss => do
      if s.start < done ∨ (s.start = s.stop ∧ previous = some s.start) then
        none
      else
        let (kept, later) ← Text.cut? rest (s.start - done)
        let (_, later) ← Text.cut? later (s.stop - s.start)
        let tail ← assemble? s.stop (some s.start) later ss
        return kept ++ s.text ++ tail

end Splice

namespace Document

/-- The text of a document after a list of edits, if they can be applied together. -/
def applyEdits? (d : Document) (edits : List Edit) : Option Text := do
  let splices ← edits.mapM (Splice.ofEdit? d)
  Splice.assemble? 0 none d.text (splices.mergeSort Splice.le)

/-- The edit that makes a change to a line. -/
def changeLine (d : Document) (line : Nat) : LineChange → Edit
  | .delete => .delete (d.deletionRange line)
  | .replace text => .replace (d.lineRange line) text

/-- The edit that adds whole lines behind a line.  The text ends with a newline, which moves to its
front behind the last line. -/
def insertAfterLine (d : Document) (line : Nat) (text : Text) : Edit :=
  if line < d.lastLine then .insert ⟨line + 1, 0⟩ text
  else .insert (d.lineEnd line) ('\n' :: (Text.before? "\n" text).getD text)

end Document

end LintRepair
