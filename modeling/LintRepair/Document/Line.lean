import LintRepair.Text.Basic

/-!
# Lines

A line is its text together with its ending.  A carriage return right before the newline, or at the
very end of the whole text, belongs to the ending.  `Line.split` cuts a text into lines; it yields
at least one, and writing each line with its ending gives the text back.
-/

namespace LintRepair

/-- What stands between the text of a line and the next line. -/
inductive LineEnding where
  /-- Nothing: the last line of a text. -/
  | none
  /-- A carriage return at the end of the last line. -/
  | lone
  /-- A newline. -/
  | newline
  /-- A carriage return and a newline. -/
  | returnNewline
  deriving DecidableEq, Repr

namespace LineEnding

/-- The characters of an ending. -/
def text : LineEnding → Text
  | none => []
  | lone => ['\r']
  | newline => ['\n']
  | returnNewline => ['\r', '\n']

/-- The ending with a carriage return in front, unless it has one already. -/
def withReturn? : LineEnding → Option LineEnding
  | none => some lone
  | newline => some returnNewline
  | lone => Option.none
  | returnNewline => Option.none

end LineEnding

/-- One line of a text. -/
structure Line where
  /-- Its characters without the ending. -/
  text : Text
  /-- Its ending. -/
  ending : LineEnding
  deriving DecidableEq, Repr

namespace Line

/-- The characters of a line with its ending. -/
def source (line : Line) : Text := line.text ++ line.ending.text

/-- A line with one more character in front; a carriage return in front of a bare ending joins
the ending. -/
def push (c : Char) (line : Line) : Line :=
  match decide (line.text = [] ∧ c = '\r'), line.ending.withReturn? with
  | true, some ending => ⟨[], ending⟩
  | _, _ => ⟨c :: line.text, line.ending⟩

/-- One more character in front of a list of lines: a newline opens a new first line. -/
def pushAll (c : Char) (lines : List Line) : List Line :=
  if c = '\n' then
    ⟨[], .newline⟩ :: lines
  else
    match lines with
    | [] => [push c ⟨[], .none⟩]
    | line :: rest => push c line :: rest

/-- The lines of a text. -/
def split (s : Text) : List Line := s.foldr pushAll [⟨[], .none⟩]

end Line

end LintRepair
