import LintRepair.Json.Basic

/-!
# Reading JSON

The grammar is the usual one: blanks are space, tab, newline and carriage return; numbers have no
leading zeros; strings hold no bare controls; nothing may follow the value.  A string whose escapes
leave a surrogate unpaired is accepted as `Json.unpaired`.
-/

namespace LintRepair

namespace Json

/-- Whether a character may stand between tokens. -/
def isGap (c : Char) : Bool := c = ' ' || c = '\t' || c = '\n' || c = '\r'

/-- The text without the gap at its start. -/
def skipGap (s : Text) : Text := s.dropWhile isGap

/-- The digit of a digit character. -/
def digit? (c : Char) : Option Digit :=
  if h : c.isDigit = true ∧ c.toNat - '0'.toNat < 10 then some ⟨c.toNat - '0'.toNat, h.2⟩ else none

/-- The digits at the start of a text, at least one, and the rest. -/
def digits? (s : Text) : Option (List Digit × Text) :=
  match (s.takeWhile Char.isDigit).filterMap digit? with
  | [] => none
  | digits => some (digits, s.dropWhile Char.isDigit)

/-- The number that digits write. -/
def ofDigits (digits : List Digit) : Nat :=
  digits.foldl (fun (n : Nat) (d : Digit) => 10 * n + d.val) 0

/-- The integer part of a number: a zero alone, or digits that start with another one. -/
def whole? (s : Text) : Option (Nat × Text) := do
  let (digits, rest) ← digits? s
  guard (digits.length = 1 || digits.head? != some 0)
  return (ofDigits digits, rest)

/-- The digits behind the point, none when there is no point. -/
def fraction? : Text → Option (List Digit × Text)
  | '.' :: s => digits? s
  | s => some ([], s)

/-- The exponent, if there is one. -/
def exponent? : Text → Option (Option Int × Text)
  | c :: s =>
      if c = 'e' ∨ c = 'E' then
        let (negative, s) := match s with
          | '-' :: s => (true, s)
          | '+' :: s => (false, s)
          | s => (false, s)
        (digits? s).map fun (digits, rest) =>
          (some (if negative then -(ofDigits digits : Int) else ofDigits digits), rest)
      else some (none, c :: s)
  | [] => some (none, [])

/-- A number and the rest. -/
def number? (s : Text) : Option (JsonNumber × Text) := do
  let negative := s.head? = some '-'
  let (whole, s) ← whole? (if negative then s.drop 1 else s)
  let (fraction, s) ← fraction? s
  let (exponent, s) ← exponent? s
  return (⟨negative, whole, fraction, exponent⟩, s)

/-- A part of a string: a character, or a 16-bit unit given by its number. -/
inductive StringPart where
  | char (c : Char)
  | unit (n : Nat)
  deriving DecidableEq, Repr

/-- The value of a hexadecimal digit. -/
def hexValue? (c : Char) : Option Nat :=
  if c.isDigit then some (c.toNat - '0'.toNat)
  else if 'a' ≤ c ∧ c ≤ 'f' then some (c.toNat - 'a'.toNat + 10)
  else if 'A' ≤ c ∧ c ≤ 'F' then some (c.toNat - 'A'.toNat + 10)
  else none

/-- The character of an escape of one letter. -/
def shortEscape? (c : Char) : Option Char :=
  if c = '"' ∨ c = '\\' ∨ c = '/' then some c
  else if c = 'b' then some '\x08'
  else if c = 'f' then some '\x0c'
  else if c = 'n' then some '\n'
  else if c = 'r' then some '\r'
  else if c = 't' then some '\t'
  else none

/-- The parts of a string up to its closing quote, and the rest. -/
def stringParts? : Text → Option (List StringPart × Text)
  | '"' :: rest => some ([], rest)
  | '\\' :: 'u' :: a :: b :: c :: d :: rest => do
      let unit := ((← hexValue? a) * 16 + (← hexValue? b)) * 256
        + ((← hexValue? c) * 16 + (← hexValue? d))
      let (parts, rest) ← stringParts? rest
      return (.unit unit :: parts, rest)
  | '\\' :: e :: rest => do
      let c ← shortEscape? e
      let (parts, rest) ← stringParts? rest
      return (.char c :: parts, rest)
  | c :: rest => do
      guard (c ≠ '\\' && 0x20 ≤ c.toNat)
      let (parts, rest) ← stringParts? rest
      return (.char c :: parts, rest)
  | [] => none

/-- The characters of string parts; a high surrogate needs a low one behind it. -/
def ofParts? : List StringPart → Option Text
  | [] => some []
  | .char c :: parts => (ofParts? parts).map (c :: ·)
  | .unit high :: .unit low :: parts =>
      if 0xD800 ≤ high ∧ high < 0xDC00 then
        if 0xDC00 ≤ low ∧ low < 0xE000 then
          (ofParts? parts).map
            (Char.ofNat (0x10000 + (high - 0xD800) * 0x400 + (low - 0xDC00)) :: ·)
        else none
      else if 0xDC00 ≤ high ∧ high < 0xE000 then none
      else (ofParts? (.unit low :: parts)).map (Char.ofNat high :: ·)
  | .unit n :: parts =>
      if 0xD800 ≤ n ∧ n < 0xE000 then none else (ofParts? parts).map (Char.ofNat n :: ·)

/-- The members of an object, no data when a key is none. -/
def ofMembers (members : List (Option Text × Json)) : Json :=
  match members.mapM fun (key, value) => key.map (·, value) with
  | some members => object members
  | none => unpaired

mutual

/-- A value after an optional gap, and the rest.  `fuel` bounds the nesting and the number of parts
read. -/
def readValue? : (fuel : Nat) → Text → Option (Json × Text)
  | 0, _ => none
  | fuel + 1, s =>
      match skipGap s with
      | '"' :: rest => do
          let (parts, rest) ← stringParts? rest
          match ofParts? parts with
          | some text => return (string text, rest)
          | none => return (unpaired, rest)
      | '[' :: rest =>
          match skipGap rest with
          | ']' :: rest => some (array [], rest)
          | rest => (readItems? fuel rest).map fun (items, rest) => (array items, rest)
      | '{' :: rest =>
          match skipGap rest with
          | '}' :: rest => some (object [], rest)
          | rest => (readMembers? fuel rest).map fun (members, rest) => (ofMembers members, rest)
      | s =>
          ((Text.after? "null" s).map (null, ·))
            <|> ((Text.after? "true" s).map (bool true, ·))
            <|> ((Text.after? "false" s).map (bool false, ·))
            <|> ((number? s).map fun (n, rest) => (number n, rest))

/-- The items of an array, at least one, up to its closing bracket. -/
def readItems? : (fuel : Nat) → Text → Option (List Json × Text)
  | 0, _ => none
  | fuel + 1, s => do
      let (value, rest) ← readValue? fuel s
      match skipGap rest with
      | ',' :: rest => (readItems? fuel rest).map fun (items, rest) => (value :: items, rest)
      | ']' :: rest => return ([value], rest)
      | _ => none

/-- The members of an object, at least one, up to its closing brace. -/
def readMembers? : (fuel : Nat) → Text → Option (List (Option Text × Json) × Text)
  | 0, _ => none
  | fuel + 1, s => do
      let (parts, rest) ← stringParts? (← Text.after? ['"'] (skipGap s))
      let (value, rest) ← readValue? fuel (← Text.after? [':'] (skipGap rest))
      let member := (ofParts? parts, value)
      match skipGap rest with
      | ',' :: rest => (readMembers? fuel rest).map fun (members, rest) => (member :: members, rest)
      | '}' :: rest => return ([member], rest)
      | _ => none

end

/-- The value that a text consists of. -/
def parse? (s : Text) : Option Json := do
  let (value, rest) ← readValue? (s.length + 1) s
  guard (skipGap rest).isEmpty
  return value

end Json

end LintRepair
