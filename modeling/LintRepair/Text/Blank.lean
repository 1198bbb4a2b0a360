import LintRepair.Text.Basic

/-!
# Blanks

The blank characters are those with the Unicode property `White_Space`.  Trimming, leading blanks
and the words between blanks are all taken with respect to it.
-/

namespace LintRepair

namespace Text

/-- Whether a character has the property `White_Space`. -/
def isBlank (c : Char) : Bool :=
  let n := c.toNat
  (0x09 ≤ n && n ≤ 0x0D) || n = 0x20 || n = 0x85 || n = 0xA0 || n = 0x1680
    || (0x2000 ≤ n && n ≤ 0x200A) || n = 0x2028 || n = 0x2029 || n = 0x202F || n = 0x205F
    || n = 0x3000

/-- The blanks at the start of a text. -/
def indentation (s : Text) : Text := s.takeWhile isBlank

/-- The text without the blanks at its start. -/
def trimStart (s : Text) : Text := s.dropWhile isBlank

/-- The text without the blanks at its end. -/
def trimEnd (s : Text) : Text := (s.reverse.dropWhile isBlank).reverse

/-- The text without the blanks at its two ends. -/
def trim (s : Text) : Text := trimEnd (trimStart s)

/-- The blanks at the end of a text. -/
def trailing (s : Text) : Text := (s.reverse.takeWhile isBlank).reverse

/-- Whether a text holds nothing but blanks. -/
def isAllBlank (s : Text) : Bool := s.all isBlank

/-- The text after one or more blanks. -/
def afterBlanks? (s : Text) : Option Text :=
  match s with
  | c :: cs => if isBlank c then some (trimStart cs) else none
  | [] => none

/-- The maximal runs of non-blank characters, in order. -/
def words : Text → List Text
  | [] => []
  | c :: cs =>
      if isBlank c then words cs
      else
        match cs with
        | [] => [[c]]
        | d :: _ =>
            if isBlank d then [c] :: words cs
            else pushFirst c (words cs)

end Text

end LintRepair
