import LintRepair.Json.Basic

/-!
# Fields of JSON records

A record is written as an object, and may also be given as an array of its fields in order.  Unknown
keys do not matter; a field given twice makes the record unreadable.
-/

namespace LintRepair

namespace Json

/-- The value of the field that goes by any of some names, nothing when it is missing. -/
def field? (members : List (Text × Json)) (names : List Text) : Option (Option Json) :=
  match members.filter fun m => names.contains m.1 with
  | [] => some none
  | [(_, value)] => some (some value)
  | _ => none

/-- The fields of a record, each known by some names.  An array may leave out fields behind the
first `needed` ones. -/
def fields? (names : List (List Text)) (needed : Nat) : Json → Option (List (Option Json))
  | object members => names.mapM (field? members)
  | array items =>
      if needed ≤ items.length ∧ items.length ≤ names.length then
        some (items.map some ++ List.replicate (names.length - items.length) none)
      else none
  | _ => none

/-- The text of a string. -/
def text? : Json → Option Text
  | string s => some s
  | _ => none

/-- The truth value of a boolean. -/
def bool? : Json → Option Bool
  | bool b => some b
  | _ => none

/-- The integer of a number written as one. -/
def integer? : Json → Option Int
  | number n => n.integer?
  | _ => none

/-- A natural number below 2^64. -/
def natural? (value : Json) : Option Nat := do
  let n ← value.integer?
  guard (0 ≤ n ∧ n < UInt64.size)
  return n.toNat

/-- An integer of 64 bits. -/
def int64? (value : Json) : Option Int64 := do
  let n ← value.integer?
  guard (Int64.minValue.toInt ≤ n ∧ n ≤ Int64.maxValue.toInt)
  return Int64.ofInt n

/-- The items of an array. -/
def items? : Json → Option (List Json)
  | array items => some items
  | _ => none

/-- The texts of an array of strings. -/
def texts? (value : Json) : Option (List Text) := value.items? >>= List.mapM text?

/-- A field that may be missing or null. -/
def nullable? (read : Json → Option α) : Option Json → Option (Option α)
  | none => some none
  | some null => some none
  | some value => (read value).map some

/-- The name of a choice without parts: a string, or an object with a single key of null. -/
def choice? : Json → Option Text
  | string name => some name
  | object [(name, null)] => some name
  | _ => none

end Json

end LintRepair
