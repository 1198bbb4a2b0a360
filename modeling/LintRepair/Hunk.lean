import LintRepair.Document.Line

/-!
# Previewing a change

The difference between two texts is shown as one hunk: the lines from the first to the last one that
differ, with a few lines around them that do not.
-/

namespace LintRepair

namespace Line

/-- A line as a preview shows it: an empty line without an ending is none, and a carriage return
counts as an ending only before a newline. -/
def shown? (line : Line) : Option Text :=
  match line.ending with
  | .none => if line.text = [] then none else some line.text
  | .lone => some (line.text ++ ['\r'])
  | .newline => some line.text
  | .returnNewline => some line.text

/-- The lines of a text as a preview shows them. -/
def preview (s : Text) : List Text := (split s).filterMap shown?

end Line

/-- The region in which two lists of lines differ, with lines that they share around it. -/
structure Hunk where
  /-- Index of the first line shown. -/
  first : Nat
  /-- Shared lines before the change. -/
  lead : List Text
  /-- Lines of the old text only. -/
  removed : List Text
  /-- Lines of the new text only. -/
  added : List Text
  /-- Shared lines after the change. -/
  trail : List Text
  deriving DecidableEq, Repr

namespace Hunk

/-- Shared lines shown on either side of a change. -/
def contextLines : Nat := 3

/-- Number of lines at the start that two lists share. -/
def sharedStart (old new : List Text) : Nat := ((old.zip new).takeWhile fun p => p.1 = p.2).length

/-- The hunk between two lists of lines that differ. -/
def between? (old new : List Text) : Option Hunk :=
  let start := sharedStart old new
  if start = old.length ∧ start = new.length then none
  else
    let oldRest := old.drop start
    let newRest := new.drop start
    let stop := sharedStart oldRest.reverse newRest.reverse
    let first := start - contextLines
    some {
      first
      lead := (old.take start).drop first
      removed := oldRest.take (oldRest.length - stop)
      added := newRest.take (newRest.length - stop)
      trail := (oldRest.drop (oldRest.length - stop)).take contextLines }

/-- Number of lines of the old text that are shown. -/
def oldCount (h : Hunk) : Nat := h.lead.length + h.removed.length + h.trail.length

/-- Number of lines of the new text that are shown. -/
def newCount (h : Hunk) : Nat := h.lead.length + h.added.length + h.trail.length

/-- Lines with a mark in front of each and a newline behind each. -/
def marked (mark : Char) (lines : List Text) : Text :=
  lines.flatMap fun line => mark :: line ++ ['\n']

/-- The shown form of a hunk in a file. -/
def render (path : Text) (h : Hunk) : Text :=
  let line := Text.decimal (h.first + 1)
  "--- a/" ++ path ++ "\n+++ b/" ++ path ++ "\n"
    ++ "@@ -" ++ line ++ "," ++ Text.decimal h.oldCount ++ " +" ++ line ++ ","
    ++ Text.decimal h.newCount ++ " @@\n"
    ++ marked ' ' h.lead ++ marked '-' h.removed ++ marked '+' h.added ++ marked ' ' h.trail

/-- The shown form of the difference between two texts, empty when there is none. -/
def preview (path old new : Text) : Text :=
  ((between? (Line.preview old) (Line.preview new)).map (render path)).getD []

end Hunk

end LintRepair
