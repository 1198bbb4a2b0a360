import LintRepair.Text.Basic

/-!
# JSON values

A JSON value as it was written: numbers keep their digits, and objects keep their members in order,
repeated keys included.  A *settled* value is one that can be kept as data: it holds no unpaired
surrogates, its numbers are within the range of a double, it is not nested too deeply, and of a
repeated key only the last member counts.
-/

namespace LintRepair

/-- A decimal digit. -/
abbrev Digit := Fin 10

/-- A JSON number, part by part. -/
structure JsonNumber where
  /-- Whether it has a minus sign. -/
  negative : Bool
  /-- Its integer part. -/
  whole : Nat
  /-- Digits behind the point, none when there is no point. -/
  fraction : List Digit
  /-- Its exponent. -/
  exponent : Option Int
  deriving DecidableEq, Repr

namespace JsonNumber

/-- The number that is an integer. -/
def ofInt (n : Int) : JsonNumber := ⟨n < 0, n.natAbs, [], none⟩

/-- The integer that a number is written as: without point and exponent, and no negative zero. -/
def integer? (n : JsonNumber) : Option Int :=
  if n.fraction.isEmpty && n.exponent.isNone && !(n.negative && n.whole = 0) then
    some (if n.negative then -(n.whole : Int) else n.whole)
  else none

/-- Greatest significand that is read exactly. -/
def maxSignificand : Nat := UInt64.size - 1

/-- The leading digits of a number up to the greatest significand, with the number of digits left
out. -/
def leading (n : Nat) : Nat × Nat :=
  if n ≤ maxSignificand then (n, 0)
  else
    let (kept, dropped) := leading (n / 10)
    (kept, dropped + 1)
termination_by n
decreasing_by
  have : maxSignificand < n := by omega
  exact Nat.div_lt_self (by omega) (by omega)

/-- A significand with digits behind the point added as long as it stays below the greatest, and
the power of ten adjusted to it. -/
def withFraction (significand : Nat) (power : Int) : List Digit → Nat × Int
  | [] => (significand, power)
  | d :: ds =>
      if 10 * significand + d ≤ maxSignificand then
        withFraction (10 * significand + d) (power - 1) ds
      else (significand, power)

/-- The nearest number of at most 53 binary digits followed by zeros, ties to the even one. -/
def roundToDouble (n : Nat) : Nat :=
  let shift := n.log2 + 1 - 53
  let unit := 1 <<< shift
  let quotient := n / unit
  let twice := 2 * (n % unit)
  if twice < unit ∨ (twice = unit ∧ quotient % 2 = 0) then quotient * unit
  else (quotient + 1) * unit

/-- Whether a number is in the range of a double.  The significand and the power of ten are
rounded before they are multiplied. -/
def isFinite (n : JsonNumber) : Bool :=
  let (kept, dropped) := leading n.whole
  let (significand, power) := withFraction kept dropped n.fraction
  let power := power + n.exponent.getD 0
  significand = 0 || power ≤ 0 || (power ≤ 308
    && roundToDouble significand * roundToDouble (Nat.pow 10 power.toNat) < 1 <<< 1024 - 1 <<< 970)

end JsonNumber

/-- A JSON value as written. -/
inductive Json where
  | null
  | bool (value : Bool)
  | number (value : JsonNumber)
  | string (value : Text)
  /-- A string with an unpaired surrogate, or an object with such a key: well formed, but no
  data. -/
  | unpaired
  | array (items : List Json)
  | object (members : List (Text × Json))
  deriving Repr

namespace Json

/-- The value of an integer. -/
def ofInt (n : Int) : Json := .number (.ofInt n)

/-- A text or null. -/
def ofText? : Option Text → Json
  | none => null
  | some s => string s

/-- The members of which no later one has the same key. -/
def lastMembers : List (Text × α) → List (Text × α)
  | [] => []
  | m :: ms => if ms.any (·.1 = m.1) then lastMembers ms else m :: lastMembers ms

/-- The value as data that nests at most `depth` arrays and objects. -/
def settled? : (depth : Nat) → Json → Option Json
  | _, unpaired => none
  | _, number n => if n.isFinite then some (number n) else none
  | depth + 1, array items => (items.mapM (settled? depth)).map array
  | depth + 1, object members =>
      (members.mapM fun m => (settled? depth m.2).map (m.1, ·)).map fun settled =>
        object (lastMembers settled)
  | 0, array _ => none
  | 0, object _ => none
  | _, null => some null
  | _, bool b => some (bool b)
  | _, string s => some (string s)

end Json

end LintRepair
