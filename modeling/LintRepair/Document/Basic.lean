import LintRepair.Document.Line
import LintRepair.Document.Position

/-!
# Documents

A document is a text with its lines.  A position is *addressable* when its line exists and its
column lies between two characters of the line's text; `offset?` turns exactly these positions into
byte offsets, and `clamp` moves any position back onto one of them, bounding its line and then its
column.
-/

namespace LintRepair

/-- A text with its lines. -/
structure Document where
  /-- The whole text. -/
  text : Text
  /-- Its lines. -/
  lines : List Line
  /-- The lines are those of the text. -/
  lines_eq : lines = Line.split text

namespace Document

/-- The document of a text. -/
def ofText (text : Text) : Document := ⟨text, Line.split text, rfl⟩

/-- Number of lines, at least one. -/
def lineCount (d : Document) : Nat := d.lines.length

/-- Index of the last line. -/
def lastLine (d : Document) : Nat := d.lineCount - 1

/-- Text of a line without its ending. -/
def line? (d : Document) (line : Nat) : Option Text := d.lines[line]?.map (·.text)

/-- Length of a line's text in bytes, zero past the end. -/
def lineLen (d : Document) (line : Nat) : Nat := ((d.line? line).map Text.byteSize).getD 0

/-- Byte offset at which a line starts. -/
def lineStart (d : Document) (line : Nat) : Nat :=
  Text.byteSize ((d.lines.take line).flatMap Line.source)

/-- The range of a line's text. -/
def lineRange (d : Document) (line : Nat) : Range := .onLine line 0 (d.lineLen line)

/-- The place behind a line's text. -/
def lineEnd (d : Document) (line : Nat) : Position := ⟨line, d.lineLen line⟩

/-- The range whose deletion takes a whole line away: with its own ending, or on the last line
with the ending before it. -/
def deletionRange (d : Document) (line : Nat) : Range :=
  if line < d.lastLine then .between ⟨line, 0⟩ ⟨line + 1, 0⟩
  else if line > 0 then .between (d.lineEnd (line - 1)) (d.lineEnd line)
  else d.lineRange line

/-- Byte offset of an addressable position. -/
def offset? (d : Document) (p : Position) : Option Nat := do
  let text ← d.line? p.line
  let _ ← Text.cut? text p.column
  return d.lineStart p.line + p.column

/-- The place of a byte offset in a list of lines, inside an ending moved back to its start. -/
def locate : List Line → Nat → Position
  | [], _ => ⟨0, 0⟩
  | [line], offset => ⟨0, min offset (Text.byteSize line.text)⟩
  | line :: next :: rest, offset =>
      let size := Text.byteSize line.source
      if offset < size then ⟨0, min offset (Text.byteSize line.text)⟩
      else
        let p := locate (next :: rest) (offset - size)
        ⟨p.line + 1, p.column⟩

/-- The place of a byte offset, one past the end counting as the end. -/
def positionAt (d : Document) (offset : Nat) : Position :=
  locate d.lines (min offset (Text.byteSize d.text))

/-- The addressable position at the same column, or at the last cut before it, of the same line or
of the last one. -/
def clamp (d : Document) (p : Position) : Position :=
  let line := min p.line d.lastLine
  ⟨line, Text.floor ((d.line? line).getD []) p.column⟩

/-- Whether both ends of a range are addressable. -/
def containsRange (d : Document) (r : Range) : Bool :=
  (d.offset? r.start).isSome && (d.offset? r.stop).isSome

/-- The text covered by a range with addressable ends. -/
def textIn? (d : Document) (r : Range) : Option Text := do
  let start ← d.offset? r.start
  let stop ← d.offset? r.stop
  let (upTo, _) ← Text.cut? d.text stop
  Text.from? upTo start

/-- The text before a range on its first line, empty when there is no such place. -/
def textBefore (d : Document) (r : Range) : Text :=
  ((d.line? r.start.line).bind (Text.upTo? · r.start.column)).getD []

/-- The text after a range on its last line, empty when there is no such place. -/
def textAfter (d : Document) (r : Range) : Text :=
  ((d.line? r.stop.line).bind (Text.from? · r.stop.column)).getD []

end Document

end LintRepair
