import LintRepair.Json.Reader
import LintRepair.Toml.Basic
import LintRepair.Toml.Scalar

/-!
# Reading TOML

A document is read line by line: each line is a header, a key with its value, or blank.  Arrays and
inline tables may go on over several lines and may end with a comma.
-/

namespace LintRepair

namespace Toml

/-- Whether a character may stand between the parts of a line. -/
def isSpace (c : Char) : Bool := c = ' ' || c = '\t'

/-- The text without spaces at its start. -/
def skipSpace (s : Text) : Text := s.dropWhile isSpace

/-- Whether a character may stand in a comment, or in a string without an escape. -/
def isPlain (c : Char) : Bool := c = '\t' || (0x20 ≤ c.toNat && c.toNat ≠ 0x7F)

/-- The text after a newline. -/
def afterNewline? : Text → Option Text
  | '\n' :: rest => some rest
  | '\r' :: '\n' :: rest => some rest
  | _ => none

/-- The text after a comment, if there is one. -/
def skipComment : Text → Text
  | '#' :: rest => rest.dropWhile isPlain
  | s => s

/-- The text after the end of a line: spaces, perhaps a comment, and a newline unless the text
ends. -/
def afterLine? (s : Text) : Option Text :=
  match skipComment (skipSpace s) with
  | [] => some []
  | rest => afterNewline? rest

/-- The text without the spaces, newlines and comments at its start. -/
def skipLines : (fuel : Nat) → Text → Text
  | 0, s => s
  | fuel + 1, s =>
      let rest := skipComment (skipSpace s)
      match afterNewline? rest with
      | some rest => skipLines fuel rest
      | none => rest

/-- The character with a number given by hexadecimal digits, and the rest. -/
def numbered? (count : Nat) (s : Text) : Option (Char × Text) := do
  let values ← (s.take count).mapM Json.hexValue?
  guard (values.length = count)
  let n := values.foldl (fun n d => 16 * n + d) 0
  guard (n < 0xD800 ∨ (0xDFFF < n ∧ n < 0x110000))
  return (Char.ofNat n, s.drop count)

/-- The character of an escape, given what follows the backslash, and the rest. -/
def escaped? : Text → Option (Char × Text)
  | 'u' :: rest => numbered? 4 rest
  | 'U' :: rest => numbered? 8 rest
  | 'x' :: rest => numbered? 2 rest
  | 'e' :: rest => some ('\x1b', rest)
  | '/' :: _ => none
  | c :: rest => (Json.shortEscape? c).map (·, rest)
  | [] => none

/-- The text of a string in double quotes on one line, and the rest. -/
def basic? : (fuel : Nat) → Text → Option (Text × Text)
  | 0, _ => none
  | _, [] => none
  | fuel + 1, c :: rest =>
      if c = '"' then some ([], rest)
      else do
        let (c, rest) ←
          if c = '\\' then escaped? rest else if isPlain c then some (c, rest) else none
        let (text, rest) ← basic? fuel rest
        return (c :: text, rest)

/-- The text of a string in single quotes on one line, and the rest. -/
def literal? (s : Text) : Option (Text × Text) :=
  match s.dropWhile (fun c => c ≠ '\'' && isPlain c) with
  | '\'' :: rest => some (s.takeWhile (fun c => c ≠ '\'' && isPlain c), rest)
  | _ => none

/-- Up to two quotes before three closing ones, and the rest. -/
def closing? (quote : Char) (s : Text) : Option (Text × Text) :=
  let three : Text := [quote, quote, quote]
  ((Text.after? (three ++ [quote, quote]) s).map ([quote, quote], ·))
    <|> ((Text.after? (three ++ [quote]) s).map ([quote], ·))
    <|> ((Text.after? three s).map ([], ·))

/-- The text without the spaces and newlines at its start, if a newline is among them. -/
def afterBreak? (s : Text) : Option Text :=
  (afterNewline? (skipSpace s)).map fun rest =>
    rest.dropWhile fun c => isSpace c || c = '\n' || c = '\r'

/-- The text of a string over several lines, and the rest.  Escapes count in double quotes only, and
a backslash at the end of a line takes the break along. -/
def multiline? (quote : Char) : (fuel : Nat) → Text → Option (Text × Text)
  | 0, _ => none
  | _, [] => none
  | fuel + 1, c :: rest =>
      match closing? quote (c :: rest) with
      | some (quotes, rest) => some (quotes, rest)
      | none =>
          if c = '\\' ∧ quote = '"' then
            match afterBreak? rest with
            | some rest => multiline? quote fuel rest
            | none => do
                let (c, rest) ← escaped? rest
                let (text, rest) ← multiline? quote fuel rest
                return (c :: text, rest)
          else do
            guard (isPlain c || c = '\n' || (c = '\r' && rest.head? = some '\n'))
            let (text, rest) ← multiline? quote fuel rest
            return (c :: text, rest)

/-- The text without a newline at its start. -/
def dropNewline (s : Text) : Text := (afterNewline? s).getD s

/-- A quoted string on one line, and the rest. -/
def quoted? : Text → Option (Text × Text)
  | '"' :: rest => basic? rest.length.succ rest
  | '\'' :: rest => literal? rest
  | _ => none

/-- A quoted string of any kind, and the rest. -/
def string? : Text → Option (Text × Text)
  | '"' :: '"' :: '"' :: rest => multiline? '"' rest.length.succ (dropNewline rest)
  | '\'' :: '\'' :: '\'' :: rest => multiline? '\'' rest.length.succ (dropNewline rest)
  | s => quoted? s

/-- Whether a character may stand in a key without quotes. -/
def isBare (c : Char) : Bool := c.isAlphanum || c = '-' || c = '_'

/-- One part of a key, and the rest. -/
def keyPart? (s : Text) : Option (Text × Text) :=
  match s.takeWhile isBare with
  | [] => quoted? s
  | part => some (part, s.dropWhile isBare)

/-- A key of parts with dots between them, and the rest. -/
def key? : (fuel : Nat) → Text → Option (List Text × Text)
  | 0, _ => none
  | fuel + 1, s => do
      let (part, rest) ← keyPart? (skipSpace s)
      match skipSpace rest with
      | '.' :: rest => (key? fuel rest).map fun (parts, rest) => (part :: parts, rest)
      | rest => return ([part], rest)

/-- Whether a character may stand in an unquoted value. -/
def isScalarPart (c : Char) : Bool := isBare c || c = '+' || c = '.' || c = ':'

/-- An unquoted value, of which a space may separate date and time, and the rest. -/
def scalar? (s : Text) : Option (Toml × Text) := do
  let word := s.takeWhile isScalarPart
  let rest := s.dropWhile isScalarPart
  match isDate word, rest with
  | true, ' ' :: time =>
      let whole := word ++ ' ' :: time.takeWhile isScalarPart
      if isDateTime whole then return (scalar, time.dropWhile isScalarPart)
      else return (scalar, rest)
  | _, _ =>
      guard (isScalar word)
      return (scalar, rest)

mutual

/-- A value and the rest. -/
def value? : (fuel : Nat) → Text → Option (Toml × Text)
  | 0, _ => none
  | fuel + 1, s =>
      match s with
      | '[' :: rest => (items? fuel rest).map fun (items, rest) => (array items, rest)
      | '{' :: rest =>
          (members? fuel [] rest).map fun (members, rest) => (table .inline members, rest)
      | '"' :: _ => (string? s).map fun (text, rest) => (string text, rest)
      | '\'' :: _ => (string? s).map fun (text, rest) => (string text, rest)
      | _ => scalar? s

/-- The items of an array up to its closing bracket, and the rest. -/
def items? : (fuel : Nat) → Text → Option (List Toml × Text)
  | 0, _ => none
  | fuel + 1, s =>
      match skipLines s.length s with
      | ']' :: rest => some ([], rest)
      | s => do
          let (item, rest) ← value? fuel s
          match skipLines rest.length rest with
          | ',' :: rest => (items? fuel rest).map fun (items, rest) => (item :: items, rest)
          | ']' :: rest => return ([item], rest)
          | _ => none

/-- The members of an inline table up to its closing brace, added to those before them, and the
rest. -/
def members? : (fuel : Nat) → Members → Text → Option (Members × Text)
  | 0, _, _ => none
  | fuel + 1, before, s =>
      match skipLines s.length s with
      | '}' :: rest => some (before, rest)
      | s => do
          let (key, rest) ← key? s.length s
          let rest ← Text.after? "=" rest
          let (value, rest) ← value? fuel (skipSpace rest)
          let members ← assign? value true key before
          match skipLines rest.length rest with
          | ',' :: rest => members? fuel members rest
          | '}' :: rest => return (members, rest)
          | _ => none

end

/-- The members after a key with its value, in the table at a path, and the rest. -/
def assignment? (path : List Text) (members : Members) (s : Text) : Option (Members × Text) := do
  let (key, rest) ← key? s.length s
  let rest ← Text.after? "=" rest
  let (value, rest) ← value? (rest.length + 1) (skipSpace rest)
  return (← alterAt? (assign? value true key) path members, rest)

/-- The path of a header without its opening brackets, and the rest. -/
def header? (closing s : Text) : Option (List Text × Text) := do
  let (path, rest) ← key? s.length s
  return (path, ← Text.after? closing rest)

/-- The members of a document, given the path of the open table and the members before. -/
def document? : (fuel : Nat) → (path : List Text) → Members → Text → Option Members
  | 0, _, _, _ => none
  | fuel + 1, path, members, s =>
      match skipSpace s with
      | [] => some members
      | '[' :: '[' :: rest => do
          let (path, rest) ← header? "]]" rest
          document? fuel path (← openTable? true path members) (← afterLine? rest)
      | '[' :: rest => do
          let (path, rest) ← header? "]" rest
          document? fuel path (← openTable? false path members) (← afterLine? rest)
      | c :: rest =>
          match afterLine? (c :: rest) with
          | some rest => document? fuel path members rest
          | none => do
              let (members, rest) ← assignment? path members (c :: rest)
              document? fuel path members (← afterLine? rest)

/-- The members of a document; a byte order mark at its start is passed over. -/
def parse? (s : Text) : Option Members :=
  let s := (Text.after? ['\uFEFF'] s).getD s
  document? (s.length + 1) [] [] s

end Toml

end LintRepair
