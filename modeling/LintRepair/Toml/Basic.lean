import LintRepair.Text.Basic

/-!
# TOML documents

A TOML document is a table.  How a table came about decides what may still be added to it: a table
written by a header is given once, one implied by longer headers may still get its own, one made by
dotted keys grows by dotted keys only, and an inline table is closed.
-/

namespace LintRepair

/-- How a table came about. -/
inductive TableForm where
  /-- By a header of its own. -/
  | header
  /-- By the header of a table inside it. -/
  | implied
  /-- By dotted keys. -/
  | dotted
  /-- Between braces. -/
  | inline
  deriving DecidableEq, Repr

/-- A TOML value.  Of numbers, dates and truth values only the presence is kept. -/
inductive Toml where
  | string (s : Text)
  | scalar
  | array (items : List Toml)
  | table (form : TableForm) (members : List (Text × Toml))
  /-- Tables with a header of the same name each, the first first. -/
  | tables (elements : List (List (Text × Toml)))
  deriving Repr

namespace Toml

/-- The members of a table, every key once. -/
abbrev Members := List (Text × Toml)

/-- The value of a key. -/
def get? (key : Text) (members : Members) : Option Toml := members.lookup key

/-- The members with the value of a key changed, or added behind the others. -/
def alter? (change : Option Toml → Option Toml) (key : Text) : Members → Option Members
  | [] => (change none).map fun value => [(key, value)]
  | (k, value) :: rest =>
      if k = key then (change (some value)).map fun value => (k, value) :: rest
      else (alter? change key rest).map ((k, value) :: ·)

/-- A change to the last of a list of tables. -/
def alterLast? (change : Members → Option Members) : List Members → Option (List Members)
  | [] => none
  | [members] => (change members).map ([·])
  | members :: rest => (alterLast? change rest).map (members :: ·)

/-- The members after a table header, in double brackets if `repeated`. -/
def openTable? (repeated : Bool) : (path : List Text) → Members → Option Members
  | [], _ => none
  | [key], members =>
      alter? (fun
        | none => some (if repeated then tables [[]] else table .header [])
        | some (table .implied inner) => if repeated then none else some (table .header inner)
        | some (tables elements) => if repeated then some (tables (elements ++ [[]])) else none
        | some _ => none) key members
  | key :: rest, members =>
      alter? (fun
        | none => (openTable? repeated rest []).map (table .implied)
        | some (table .inline _) => none
        | some (table form inner) => (openTable? repeated rest inner).map (table form)
        | some (tables elements) => (alterLast? (openTable? repeated rest) elements).map tables
        | some _ => none) key members

/-- The members with a value assigned to a dotted key.  `open?` tells whether the table may get a
plain key. -/
def assign? (value : Toml) : (takesKey : Bool) → (key : List Text) → Members → Option Members
  | _, [], _ => none
  | takesKey, [key], members =>
      if takesKey then
        alter? (fun existing => if existing.isSome then none else some value) key members
      else none
  | _, key :: rest, members =>
      alter? (fun
        | none => (assign? value true rest []).map (table .dotted)
        | some (table .dotted inner) => (assign? value true rest inner).map (table .dotted)
        | some (table .implied inner) => (assign? value false rest inner).map (table .implied)
        | some (tables elements) => (alterLast? (assign? value false rest) elements).map tables
        | some _ => none) key members

/-- The members with a change made to the table that a header path leads to. -/
def alterAt? (change : Members → Option Members) : (path : List Text) → Members → Option Members
  | [], members => change members
  | key :: rest, members =>
      alter? (fun
        | some (table form inner) => (alterAt? change rest inner).map (table form)
        | some (tables elements) => (alterLast? (alterAt? change rest) elements).map tables
        | _ => none) key members

end Toml

end LintRepair
