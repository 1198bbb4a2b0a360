/-!
# Text

Text is a list of characters whose places are counted in UTF-8 bytes.  This file gives the byte
measure, cutting at a byte offset, and the searches for a fixed piece of text on which everything
else is built.
-/

namespace LintRepair

/-- A piece of text, character by character. -/
abbrev Text := List Char

instance : Coe String Text := ⟨String.toList⟩

namespace Text

/-- Length in UTF-8 bytes. -/
def byteSize : Text → Nat
  | [] => 0
  | c :: cs => c.utf8Size + byteSize cs

/-- The two parts of a text cut at a byte offset that lies between characters. -/
def cut? : Text → Nat → Option (Text × Text)
  | s, 0 => some ([], s)
  | [], _ + 1 => none
  | c :: cs, n + 1 =>
      if c.utf8Size ≤ n + 1 then
        (cut? cs (n + 1 - c.utf8Size)).map fun (left, right) => (c :: left, right)
      else
        none

/-- The part before a byte offset. -/
def upTo? (s : Text) (offset : Nat) : Option Text := (cut? s offset).map (·.1)

/-- The part from a byte offset on. -/
def from? (s : Text) (offset : Nat) : Option Text := (cut? s offset).map (·.2)

/-- The greatest offset between characters that is not past `offset`. -/
def floor : Text → Nat → Nat
  | [], _ => 0
  | c :: cs, offset =>
      if c.utf8Size ≤ offset then c.utf8Size + floor cs (offset - c.utf8Size) else 0

/-- What follows `lead` in a text that starts with it. -/
def after? : (lead s : Text) → Option Text
  | [], s => some s
  | _ :: _, [] => none
  | l :: ls, c :: cs => if l = c then after? ls cs else none

/-- What precedes `tail` in a text that ends with it. -/
def before? (tail s : Text) : Option Text :=
  (after? tail.reverse s.reverse).map List.reverse

/-- Whether the text starts with `lead`. -/
def startsWith (s lead : Text) : Bool := (after? lead s).isSome

/-- Whether the text ends with `tail`. -/
def endsWith (s tail : Text) : Bool := (before? tail s).isSome

/-- The parts around the first occurrence of `piece`. -/
def splitFirst? (piece : Text) : Text → Option (Text × Text)
  | [] => (after? piece []).map fun rest => ([], rest)
  | c :: cs =>
      match after? piece (c :: cs) with
      | some rest => some ([], rest)
      | none => (splitFirst? piece cs).map fun (left, right) => (c :: left, right)

/-- The parts around the last occurrence of a character. -/
def splitLast? (c : Char) (s : Text) : Option (Text × Text) :=
  (splitFirst? [c] s.reverse).map fun (right, left) => (left.reverse, right.reverse)

/-- The pieces with a character in front of the first one. -/
def pushFirst (c : Char) : List Text → List Text
  | [] => [[c]]
  | piece :: pieces => (c :: piece) :: pieces

/-- Whether `piece` occurs in the text. -/
def containsPiece (s piece : Text) : Bool := (splitFirst? piece s).isSome

/-- The pieces written one after another with `separator` between them. -/
def joined (separator : Text) (pieces : List Text) : Text := separator.intercalate pieces

/-- The decimal digits of a number. -/
def decimal (n : Nat) : Text := Nat.toDigits 10 n

/-- The decimal form of an integer, with `-` in front of a negative one. -/
def signedDecimal (n : Int) : Text :=
  if n < 0 then '-' :: decimal n.natAbs else decimal n.natAbs

/-- The number written by a non-empty run of decimal digits, an optional `+` in front of it. -/
def natural? (s : Text) : Option Nat :=
  let digits := match s with
    | '+' :: rest => rest
    | _ => s
  if digits ≠ [] ∧ digits.all Char.isDigit then
    some (digits.foldl (fun n c => 10 * n + (c.toNat - '0'.toNat)) 0)
  else
    none

/-- The text with the letters `A` to `Z` in lower case. -/
def lower (s : Text) : Text := s.map Char.toLower

/-- Strict lexicographic order by code point, which is also the order of the UTF-8 bytes. -/
def precedes : Text → Text → Bool
  | _, [] => false
  | [], _ :: _ => true
  | a :: as, b :: bs => a < b || (a = b && precedes as bs)

end Text

end LintRepair
