import LintRepair.Json.Basic

/-!
# TOML scalars

Which unquoted words are values: truth values, integers, floats, and dates and times.  Integers have
to fit 128 bits and floats the range of a double; dates and times have to exist.
-/

namespace LintRepair

namespace Toml

/-- The digits at the start of a word, single underscores between them left out. -/
def digitRun? (isDigit : Char → Bool) : Text → Option (Text × Text)
  | [] => none
  | c :: rest =>
      if isDigit c then
        match rest with
        | '_' :: more => (digitRun? isDigit more).map fun (digits, rest) => (c :: digits, rest)
        | d :: more =>
            if isDigit d then
              (digitRun? isDigit (d :: more)).map fun (digits, rest) => (c :: digits, rest)
            else some ([c], d :: more)
        | [] => some ([c], [])
      else none

/-- The value of a digit in any base up to 16. -/
def digitValue (c : Char) : Nat :=
  if c.isDigit then c.toNat - '0'.toNat
  else (c.toNat % 32) + 9

/-- The number that digits write in a base. -/
def ofDigits (base : Nat) (digits : Text) : Nat :=
  digits.foldl (fun n c => base * n + digitValue c) 0

/-- A sign at the start of a word: whether it is a minus, and the rest. -/
def sign (s : Text) : Bool × Text :=
  match s with
  | '-' :: rest => (true, rest)
  | '+' :: rest => (false, rest)
  | _ => (false, s)

/-- The digits of a decimal number, without leading zeros. -/
def decimalRun? (s : Text) : Option (Text × Text) := do
  let (digits, rest) ← digitRun? Char.isDigit s
  guard (digits.length = 1 || digits.head? != some '0')
  return (digits, rest)

/-- Whether a word is a decimal integer. -/
def isDecimal (s : Text) : Bool :=
  let (negative, s) := sign s
  match decimalRun? s with
  | some (digits, []) => ofDigits 10 digits ≤ (if negative then 1 <<< 127 else 1 <<< 128 - 1)
  | _ => false

/-- Whether a word is an integer in another base, told by its mark. -/
def isBased (mark : Text) (base : Nat) (isDigit : Char → Bool) (s : Text) : Bool :=
  match (Text.after? mark s).bind (digitRun? isDigit) with
  | some (digits, []) => ofDigits base digits < 1 <<< 128
  | _ => false

/-- Whether digits times a power of ten are in the range of a double. -/
def inDoubleRange (digits : Text) (power : Int) : Bool :=
  let n := ofDigits 10 digits
  n = 0 || power + (Text.decimal n).length < 309
    || (power + (Text.decimal n).length < 311
      && n * Nat.pow 10 power.toNat < (1 <<< 1024 - 1 <<< 970) * Nat.pow 10 (-power).toNat)

/-- The exponent at the start of a text, zero if there is none, and the rest. -/
def exponent? : Text → Option (Int × Text)
  | c :: s =>
      if c = 'e' ∨ c = 'E' then
        let (negative, s) := sign s
        (digitRun? Char.isDigit s).map fun (digits, rest) =>
          (if negative then -(ofDigits 10 digits : Int) else ofDigits 10 digits, rest)
      else some (0, c :: s)
  | [] => some (0, [])

/-- Whether a word is a float: digits with a point, an exponent or both, or a special value. -/
def isFloat (s : Text) : Bool :=
  let (_, s) := sign s
  s = "inf" || s = "nan" ||
    (do
      let (whole, rest) ← decimalRun? s
      let (fraction, rest) ← match rest with
        | '.' :: more => digitRun? Char.isDigit more
        | _ => some ([], rest)
      let (exponent, rest) ← exponent? rest
      guard (rest.isEmpty && inDoubleRange (whole ++ fraction) (exponent - fraction.length))
      return ()).isSome

/-- A number of exactly `count` digits and the rest. -/
def fixed? (count : Nat) (s : Text) : Option (Nat × Text) := do
  let digits := s.take count
  guard (digits.length = count && digits.all Char.isDigit)
  return (ofDigits 10 digits, s.drop count)

/-- Number of days of a month. -/
def daysIn (year month : Nat) : Nat :=
  if month = 2 then
    if year % 4 = 0 ∧ (year % 100 ≠ 0 ∨ year % 400 = 0) then 29 else 28
  else if month = 4 ∨ month = 6 ∨ month = 9 ∨ month = 11 then 30
  else 31

/-- The text after a date. -/
def afterDate? (s : Text) : Option Text := do
  let (year, s) ← fixed? 4 s
  let (month, s) ← fixed? 2 (← Text.after? "-" s)
  let (day, s) ← fixed? 2 (← Text.after? "-" s)
  guard (1 ≤ month && month ≤ 12 && 1 ≤ day && day ≤ daysIn year month)
  return s

/-- The text after the seconds of a time, with a fraction if there is one. -/
def afterSeconds? (s : Text) : Option Text := do
  let (second, s) ← fixed? 2 s
  guard (second ≤ 60)
  match s with
  | '.' :: rest =>
      guard (rest.head?.any Char.isDigit)
      return rest.dropWhile Char.isDigit
  | _ => return s

/-- The text after a time of day; the seconds may be missing. -/
def afterTime? (s : Text) : Option Text := do
  let (hour, s) ← fixed? 2 s
  let (minute, s) ← fixed? 2 (← Text.after? ":" s)
  guard (hour ≤ 23 && minute ≤ 59)
  match s with
  | ':' :: rest => afterSeconds? rest
  | _ => return s

/-- Whether a text is empty or an offset from universal time. -/
def isOffset (s : Text) : Bool :=
  s = [] || s = "Z" || s = "z" ||
    ((do
      let s ← Text.after? "+" s <|> Text.after? "-" s
      let (hour, s) ← fixed? 2 s
      let (minute, s) ← fixed? 2 (← Text.after? ":" s)
      guard (hour ≤ 23 && minute ≤ 59)
      return s) = some [])

/-- Whether a word is a date. -/
def isDate (s : Text) : Bool := afterDate? s = some []

/-- Whether a word is a date with a time, perhaps with an offset. -/
def isDateTime (s : Text) : Bool :=
  match afterDate? s with
  | some (c :: rest) => (c = 'T' || c = 't' || c = ' ') && (afterTime? rest).any isOffset
  | _ => false

/-- Whether a word is a value. -/
def isScalar (s : Text) : Bool :=
  s = "true" || s = "false" || isDecimal s || isFloat s
    || isBased "0x" 16 (fun c => c.isDigit || ('a' ≤ c && c ≤ 'f') || ('A' ≤ c && c ≤ 'F')) s
    || isBased "0o" 8 (fun c => '0' ≤ c && c ≤ '7') s
    || isBased "0b" 2 (fun c => c = '0' || c = '1') s
    || isDate s || isDateTime s || afterTime? s = some []

end Toml

end LintRepair
