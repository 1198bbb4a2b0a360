import LintRepair.Json.Basic

/-!
# Writing JSON

The compact form has no blanks; the indented form puts every item and member on a line of its own.
Strings escape quotes, backslashes and controls, and nothing else.
-/

namespace LintRepair

namespace Json

/-- The hexadecimal digit of a number below 16. -/
def hexDigit (n : Nat) : Char := (Nat.toDigits 16 n).headD '0'

/-- The form of a character inside a string. -/
def escape (c : Char) : Text :=
  if c = '"' then ['\\', '"']
  else if c = '\\' then ['\\', '\\']
  else if c = '\x08' then ['\\', 'b']
  else if c = '\x0c' then ['\\', 'f']
  else if c = '\n' then ['\\', 'n']
  else if c = '\r' then ['\\', 'r']
  else if c = '\t' then ['\\', 't']
  else if c.toNat < 0x20 then
    ['\\', 'u', '0', '0', hexDigit (c.toNat / 16), hexDigit (c.toNat % 16)]
  else [c]

/-- A text as a JSON string. -/
def quote (s : Text) : Text := '"' :: s.flatMap escape ++ ['"']

/-- The digit character of a digit. -/
def digitChar (d : Digit) : Char := (Nat.toDigits 10 d).headD '0'

/-- A number as it is written, its exponent behind `e`. -/
def numeral (n : JsonNumber) : Text :=
  (if n.negative then ['-'] else []) ++ Text.decimal n.whole
    ++ (if n.fraction.isEmpty then [] else '.' :: n.fraction.map digitChar)
    ++ (match n.exponent with
      | none => []
      | some e => 'e' :: Text.signedDecimal e)

/-- A value without parts. -/
def scalar : Json → Text
  | null => "null"
  | bool true => "true"
  | bool false => "false"
  | number n => numeral n
  | string s => quote s
  | unpaired => "\"\\ud800\""
  | array _ => []
  | object _ => []

mutual

/-- The form without blanks. -/
def compact : Json → Text
  | array items => '[' :: compactItems items ++ [']']
  | object members => '{' :: compactMembers members ++ ['}']
  | value => scalar value

/-- Items separated by commas. -/
def compactItems : List Json → Text
  | [] => []
  | [value] => compact value
  | value :: next :: rest => compact value ++ ',' :: compactItems (next :: rest)

/-- Members separated by commas. -/
def compactMembers : List (Text × Json) → Text
  | [] => []
  | [(key, value)] => quote key ++ ':' :: compact value
  | (key, value) :: next :: rest =>
      quote key ++ ':' :: compact value ++ ',' :: compactMembers (next :: rest)

end

/-- A new line with an indentation of two blanks a level. -/
def newLine (level : Nat) : Text := '\n' :: List.replicate (2 * level) ' '

mutual

/-- The indented form inside `level` enclosing values; an empty value stays on its line. -/
def indented (level : Nat) : Json → Text
  | array (item :: items) =>
      '[' :: indentedItems (level + 1) (item :: items) ++ newLine level ++ [']']
  | object (member :: members) =>
      '{' :: indentedMembers (level + 1) (member :: members) ++ newLine level ++ ['}']
  | array [] => ['[', ']']
  | object [] => ['{', '}']
  | value => scalar value

/-- Items on lines of their own. -/
def indentedItems (level : Nat) : List Json → Text
  | [] => []
  | [value] => newLine level ++ indented level value
  | value :: next :: rest =>
      newLine level ++ indented level value ++ ',' :: indentedItems level (next :: rest)

/-- Members on lines of their own. -/
def indentedMembers (level : Nat) : List (Text × Json) → Text
  | [] => []
  | [(key, value)] => newLine level ++ quote key ++ ':' :: ' ' :: indented level value
  | (key, value) :: next :: rest =>
      newLine level ++ quote key ++ ':' :: ' ' :: indented level value
        ++ ',' :: indentedMembers level (next :: rest)

end

/-- The indented form of a whole value. -/
def pretty (value : Json) : Text := indented 0 value

end Json

end LintRepair
