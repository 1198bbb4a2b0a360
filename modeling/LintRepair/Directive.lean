import LintRepair.Edit
import LintRepair.Least
import LintRepair.Text.Blank

/-!
# Ignore directives

A directive is a comment that fills a line and silences rules, on the next line or in the whole
file:

    <indent>// deno-lint-ignore <code> <code> ...
    <indent>// deno-lint-ignore-file <code> ...

Codes can be added to it and removed from it; indentation and comment mark stay as written.
-/

namespace LintRepair

/-- What a directive silences. -/
inductive DirectiveScope where
  /-- The next line. -/
  | line
  /-- The whole file. -/
  | file
  deriving DecidableEq, Repr

namespace DirectiveScope

/-- The word that marks a directive of this scope. -/
def marker : DirectiveScope → Text
  | line => "deno-lint-ignore"
  | file => "deno-lint-ignore-file"

end DirectiveScope

/-- The parts of a directive line. -/
structure Directive where
  /-- Blanks before the comment. -/
  indent : Text
  /-- Blanks between the slashes and the marker. -/
  gap : Text
  /-- What it silences. -/
  scope : DirectiveScope
  /-- Rules it silences. -/
  codes : List Text
  deriving DecidableEq, Repr

namespace Directive

/-- The codes after a marker: nothing or blanks, then words on one line. -/
def codes? (s : Text) : Option (List Text) :=
  let listed := Text.trim s
  if listed = [] then some []
  else if (Text.afterBlanks? s).isSome ∧ '\n' ∉ listed then some (Text.words listed)
  else none

/-- Reads a line that consists of a directive. -/
def parse? (line : Text) : Option Directive := do
  let comment ← Text.after? "//" (Text.trimStart line)
  let marked ← Text.after? "deno-lint-ignore" (Text.trimStart comment)
  let make := Directive.mk (Text.indentation line) (Text.indentation comment)
  match Text.after? "-file" marked with
  | some rest => return make .file (← codes? rest)
  | none => return make .line (← codes? marked)

/-- The line of a directive, codes separated by single spaces. -/
def render (d : Directive) : Text :=
  d.indent ++ "//" ++ d.gap ++ d.scope.marker ++ d.codes.flatMap (' ' :: ·)

/-- Whether a directive lists a code. -/
def lists (d : Directive) (code : Text) : Bool := d.codes.contains code

/-- Whether a directive lists no codes. -/
def isBare (d : Directive) : Bool := d.codes.isEmpty

/-- What becomes of the line when every occurrence of a listed code is taken away: a directive that
lists nothing else goes. -/
def remove? (d : Directive) (code : Text) : Option LineChange :=
  if d.lists code then
    match d.codes.filter (· ≠ code) with
    | [] => some .delete
    | rest => some (.replace { d with codes := rest }.render)
  else
    none

/-- The line with a code added behind the others, unless it is listed already. -/
def withCode? (d : Directive) (code : Text) : Option Text :=
  if d.lists code then none else some { d with codes := d.codes ++ [code] }.render

end Directive

namespace Document

/-- The directive on a line. -/
def directive? (d : Document) (line : Nat) : Option Directive := d.line? line >>= Directive.parse?

/-- First and last line from `before` lines above a range to `after` lines below it, as far as the
document goes.  The first may exceed the last.  The sum of `after` and the last line of the range is
taken to stay below `UInt64.size`; searches reach a few lines only. -/
def scanWindow (d : Document) (range : Range) (before after : Nat) : Nat × Nat :=
  (range.start.line - before, min (range.stop.line + after) d.lastLine)

/-- The lines of a scan window, from the top. -/
def windowLines (d : Document) (range : Range) (before after : Nat) : List Nat :=
  let (first, last) := d.scanWindow range before after
  List.range' first (last + 1 - first)

/-- Number of lines between the start of a range and a line, in either direction. -/
def lineGap (range : Range) (line : Nat) : Nat :=
  (range.start.line - line) + (line - range.start.line)

/-- The directive of a window that is nearest to the start of the range among those accepted, the
upper one of two. -/
def nearestDirective? (d : Document) (range : Range) (before after : Nat)
    (accept : Directive → Bool) : Option (Nat × Directive) :=
  let found := (d.windowLines range before after).filterMap fun line =>
    ((d.directive? line).filter accept).map (line, ·)
  firstLeast? (fun a b => lineGap range a.1 < lineGap range b.1) found

/-- The nearest directive of a window that lists a code. -/
def directiveListing? (d : Document) (range : Range) (before after : Nat) (code : Text) :
    Option (Nat × Directive) :=
  d.nearestDirective? range before after (·.lists code)

/-- The edit that takes a code from the directive on a line. -/
def removalEdit? (d : Document) (line : Nat) (directive : Directive) (code : Text) : Option Edit :=
  (directive.remove? code).map (d.changeLine line)

end Document

end LintRepair
