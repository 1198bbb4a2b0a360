import LintRepair.Provider
import LintRepair.Text.Nesting

/-!
# Repairs of loose equality

A loose operator is `==` or `!=` outside string literals, not part of a longer operator.  A text is
cut at its loose operators; putting the strict operator between the pieces is the repair.
-/

namespace LintRepair

namespace Equality

/-- Whether a character in front of an operator makes it part of another one. -/
def joinsOperator (c : Char) : Bool := c = '=' || c = '!' || c = '<' || c = '>'

/-- The texts around the loose operators that start with `first`, given the character before and
the quote of the string literal the place lies in. -/
def piecesFrom (first : Char) (before quote : Option Char) : Text → List Text
  | [] => [[]]
  | [c] => [[c]]
  | c :: d :: rest =>
      match quote with
      | some q =>
          if c = '\\' then
            Text.pushFirst c (Text.pushFirst d (piecesFrom first (some d) quote rest))
          else
            Text.pushFirst c
              (piecesFrom first (some c) (if c = q then none else quote) (d :: rest))
      | none =>
          if Nesting.isQuote c then
            Text.pushFirst c (piecesFrom first (some c) (some c) (d :: rest))
          else if c = first && d = '=' && !before.any joinsOperator && rest.head? != some '=' then
            [] :: piecesFrom first (some d) none rest
          else
            Text.pushFirst c (piecesFrom first (some c) none (d :: rest))

/-- The texts around the loose operators that start with `first`. -/
def pieces (first : Char) (s : Text) : List Text := piecesFrom first none none s

/-- The text with its loose operators that start with `first` made strict, if it has any. -/
def strict? (first : Char) (s : Text) : Option Text :=
  let pieces := pieces first s
  if pieces.length ≤ 1 then none else some (Text.joined [first, '=', '='] pieces)

end Equality

namespace Repair

/-- For `eqeqeq`: one fix for each of the two loose operators that occurs. -/
def looseEquality (site : Site) : List Fix :=
  ['=', '!'].filterMap fun first => do
    let text ← Equality.strict? first (← site.text?)
    return site.replaceRange
      ("Replace " ++ [first, '='] ++ " with " ++ [first, '=', '=']) text

end Repair

end LintRepair
