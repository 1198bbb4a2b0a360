import LintRepair.Text.Basic

/-!
# Nesting of brackets and quotes

Reading a text from left to right keeps the number of open brackets and the quote of an unfinished
string, in which a backslash takes the next character along.  A text is balanced when it ends with
nothing open; a separator counts only where nothing is open.  A closing bracket without an opening
one ends the reading, and what follows it is one piece.

Open brackets are counted without a bound.  A text of less than 2^31 characters never has more of
them open than a signed word of 32 bits can count.
-/

namespace LintRepair

/-- What is open at a place of a text. -/
structure Nesting where
  /-- Number of open brackets, of any kind. -/
  depth : Nat
  /-- Quote that closes the string the place lies in. -/
  quote : Option Char
  /-- Whether a backslash inside that string takes the next character along. -/
  escaped : Bool
  deriving DecidableEq, Repr

namespace Nesting

/-- Nothing is open. -/
def flat : Nesting := ⟨0, none, false⟩

/-- Whether a character delimits strings. -/
def isQuote (c : Char) : Bool := c = '\'' || c = '"' || c = '\x60'

/-- Whether a character opens a bracket. -/
def isOpening (c : Char) : Bool := c = '(' || c = '[' || c = '{'

/-- Whether a character closes a bracket. -/
def isClosing (c : Char) : Bool := c = ')' || c = ']' || c = '}'

/-- What is open after one more character; a closing bracket needs an open one. -/
def step (state : Nesting) (c : Char) : Option Nesting :=
  match state.quote with
  | some quote =>
      if state.escaped then some { state with escaped := false }
      else if c = '\\' then some { state with escaped := true }
      else if c = quote then some { state with quote := none }
      else some state
  | none =>
      if isQuote c then some { state with quote := some c }
      else if isOpening c then some { state with depth := state.depth + 1 }
      else if isClosing c then
        if state.depth = 0 then none else some { state with depth := state.depth - 1 }
      else some state

/-- Whether a character read in this state stands outside all strings and brackets and is itself
neither a quote nor a bracket. -/
def isTopLevel (state : Nesting) (c : Char) : Bool :=
  state.quote.isNone && state.depth = 0 && !isQuote c && !isOpening c && !isClosing c

/-- What is open after a whole text. -/
def run (state : Nesting) (s : Text) : Option Nesting := s.foldlM step state

/-- The pieces of a text between the separators at top level, at least one. -/
def splitFrom (separator : Char) (state : Nesting) : Text → List Text
  | [] => [[]]
  | c :: cs =>
      match state.step c with
      | none => [c :: cs]
      | some next =>
          if state.isTopLevel c && c = separator then
            [] :: splitFrom separator next cs
          else
            Text.pushFirst c (splitFrom separator next cs)

end Nesting

namespace Text

/-- Whether all brackets and strings of a text are closed. -/
def isBalanced (s : Text) : Bool :=
  match Nesting.flat.run s with
  | some state => state.depth = 0 && state.quote.isNone
  | none => false

/-- The pieces of a text between the separators outside brackets and strings. -/
def splitTopLevel (separator : Char) (s : Text) : List Text := Nesting.flat.splitFrom separator s

/-- The characters between the delimiters of a string literal, which may not occur among them. -/
def literalBody? : Text → Option Text
  | [] => none
  | quote :: rest =>
      if Nesting.isQuote quote then
        (before? [quote] rest).filter fun body => !body.contains quote
      else
        none

end Text

end LintRepair
