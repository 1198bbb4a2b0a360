import Mathlib.Data.Option.Basic
import Mathlib.Tactic.Common
import LintRepair.Json.Reader
import LintRepair.Json.Writer

/-!
# Numerals are read back

A JSON number is kept part by part, so a numeral that is written from its parts can be read back
exactly: the digits in front of the point, those behind it, and the exponent.  The only thing to
watch is where a part ends: what follows a numeral must not continue it.
-/

namespace LintRepair

namespace Json

/-! ### Digits -/

@[simp]
theorem isDigit_digitChar (d : Digit) : (digitChar d).isDigit = true := by
  revert d
  decide

@[simp]
theorem digit?_digitChar (d : Digit) : digit? (digitChar d) = some d := by
  revert d
  decide

/-- A text that does not start with a digit. -/
def EndsDigits (s : Text) : Prop := ∀ c ∈ s.head?, c.isDigit = false

theorem takeWhile_digits {rest : Text} (digits : List Digit) (ends : EndsDigits rest) :
    (digits.map digitChar ++ rest).takeWhile Char.isDigit = digits.map digitChar := by
  rw [List.takeWhile_append_of_pos (by simp)]
  cases rest with
  | nil => simp
  | cons c rest => simp [ends c rfl]

theorem dropWhile_digits {rest : Text} (digits : List Digit) (ends : EndsDigits rest) :
    (digits.map digitChar ++ rest).dropWhile Char.isDigit = rest := by
  rw [List.dropWhile_append_of_pos (by simp)]
  cases rest with
  | nil => rfl
  | cons c rest => simp [ends c rfl]

theorem filterMap_digitChar (digits : List Digit) :
    (digits.map digitChar).filterMap digit? = digits := by
  induction digits with
  | nil => rfl
  | cons d ds ih => rw [List.map_cons, List.filterMap_cons_some (digit?_digitChar d), ih]

/-- A non-empty run of digits is read back up to what follows it. -/
theorem digits?_digits {digits : List Digit} {rest : Text} (some_digit : digits ≠ [])
    (ends : EndsDigits rest) : digits? (digits.map digitChar ++ rest) = some (digits, rest) := by
  rw [digits?, takeWhile_digits digits ends, dropWhile_digits digits ends, filterMap_digitChar]
  cases digits with
  | nil => contradiction
  | cons d ds => rfl

/-! ### Integer parts -/

/-- Digits that write a number: at least one, and no leading zero but for zero. -/
structure Writes (digits : List Digit) (n : Nat) : Prop where
  /-- The number they stand for. -/
  value : ofDigits digits = n
  /-- There is a digit. -/
  ne_nil : digits ≠ []
  /-- Only zero starts with a zero. -/
  lead : n = 0 ∧ digits = [0] ∨ digits.head? ≠ some 0

theorem ofDigits_concat (digits : List Digit) (d : Digit) :
    ofDigits (digits ++ [d]) = 10 * ofDigits digits + d.val := by
  simp [ofDigits, List.foldl_append]

theorem digitChar_eq (d : Digit) : digitChar d = Nat.digitChar d.val := by
  revert d
  decide

theorem writes_digit (d : Digit) : Writes [d] d.val := by
  refine ⟨by simp [ofDigits], by simp, ?_⟩
  by_cases zero : d = 0
  · exact .inl ⟨congrArg Fin.val zero, by rw [zero]⟩
  · exact .inr (by simpa using zero)

theorem Writes.concat {digits : List Digit} {n : Nat} (writes : Writes digits n) (pos : 0 < n)
    (d : Digit) : Writes (digits ++ [d]) (10 * n + d.val) := by
  refine ⟨by rw [ofDigits_concat, writes.value], by simp, .inr ?_⟩
  have lead : digits.head? ≠ some 0 := writes.lead.resolve_left fun zero => Nat.ne_of_gt pos zero.1
  obtain ⟨first, others, rfl⟩ := List.exists_cons_of_ne_nil writes.ne_nil
  simpa using lead

/-- The decimal form of a number consists of digits that write it. -/
theorem exists_writes_decimal (n : Nat) :
    ∃ digits : List Digit, Text.decimal n = digits.map digitChar ∧ Writes digits n := by
  induction n using Nat.strongRecOn with
  | ind n ih =>
      rcases Nat.lt_or_ge n 10 with small | large
      · refine ⟨[⟨n, small⟩], ?_, writes_digit ⟨n, small⟩⟩
        simp [Text.decimal, digitChar_eq, Nat.toDigits_of_lt_base small]
      · -- the last digit is split off; what is left is positive, so its lead is no zero
        obtain ⟨digits, written, writes⟩ := ih (n / 10) (by omega)
        have last : n % 10 < 10 := Nat.mod_lt n (by omega)
        refine ⟨digits ++ [⟨n % 10, last⟩], ?_, ?_⟩
        · rw [Text.decimal] at written ⊢
          rw [Nat.toDigits_of_base_le (by omega) large, written]
          simp [digitChar_eq]
        · have concat := writes.concat (by omega) ⟨n % 10, last⟩
          rwa [Nat.div_add_mod n 10] at concat

/-- A decimal form is read back as the digits that write its number. -/
theorem exists_digits?_decimal (n : Nat) {rest : Text} (ends : EndsDigits rest) :
    ∃ digits, digits? (Text.decimal n ++ rest) = some (digits, rest) ∧ Writes digits n := by
  obtain ⟨digits, written, writes⟩ := exists_writes_decimal n
  exact ⟨digits, by rw [written, digits?_digits writes.ne_nil ends], writes⟩

theorem whole?_decimal (n : Nat) {rest : Text} (ends : EndsDigits rest) :
    whole? (Text.decimal n ++ rest) = some (n, rest) := by
  obtain ⟨digits, read, writes⟩ := exists_digits?_decimal n ends
  have lead : digits.length = 1 ∨ digits.head? ≠ some 0 :=
    writes.lead.imp (fun zero => by simp [zero.2]) id
  simp [whole?, read, writes.value, lead]

theorem digitChar_ne_sign (d : Digit) : digitChar d ≠ '-' ∧ digitChar d ≠ '+' := by
  revert d
  decide

/-- A decimal form starts with a digit. -/
theorem exists_decimal_eq_cons (n : Nat) : ∃ d rest, Text.decimal n = digitChar d :: rest := by
  obtain ⟨digits, written, writes⟩ := exists_writes_decimal n
  obtain ⟨d, others, rfl⟩ := List.exists_cons_of_ne_nil writes.ne_nil
  exact ⟨d, others.map digitChar, written⟩

/-! ### Fractions and exponents -/

/-- A text that does not continue a numeral: it starts neither with a digit nor with a point nor
with the mark of an exponent. -/
def EndsNumeral (s : Text) : Prop :=
  ∀ c ∈ s.head?, c.isDigit = false ∧ c ≠ '.' ∧ c ≠ 'e' ∧ c ≠ 'E'

theorem EndsNumeral.endsDigits {s : Text} (ends : EndsNumeral s) : EndsDigits s :=
  fun c first => (ends c first).1

/-- How the digits behind the point are written, nothing when there are none. -/
def fractionText (digits : List Digit) : Text :=
  if digits.isEmpty then [] else '.' :: digits.map digitChar

/-- How an exponent is written, nothing when there is none. -/
def exponentText : Option Int → Text
  | none => []
  | some e => 'e' :: Text.signedDecimal e

theorem numeral_eq (n : JsonNumber) :
    numeral n = (if n.negative then ['-'] else [])
      ++ (Text.decimal n.whole ++ (fractionText n.fraction ++ exponentText n.exponent)) := by
  simp only [numeral, fractionText, List.append_assoc]
  cases n.exponent <;> rfl

theorem exponent?_exponentText (e : Option Int) {rest : Text} (ends : EndsNumeral rest) :
    exponent? (exponentText e ++ rest) = some (e, rest) := by
  cases e with
  | none =>
      cases rest with
      | nil => rfl
      | cons c rest =>
          obtain ⟨-, -, lower, upper⟩ := ends c rfl
          simp [exponentText, exponent?, lower, upper]
  | some e =>
      obtain ⟨digits, read, writes⟩ := exists_digits?_decimal e.natAbs ends.endsDigits
      by_cases negative : e < 0
      · have value : -(ofDigits digits : Int) = e := by
          rw [writes.value]
          omega
        simp [exponentText, exponent?, Text.signedDecimal, negative, read, value]
      · have value : (ofDigits digits : Int) = e := by
          rw [writes.value]
          omega
        -- the first digit is no sign, so all of the digits are read as such
        obtain ⟨d, others, first⟩ := exists_decimal_eq_cons e.natAbs
        obtain ⟨minus, plus⟩ := digitChar_ne_sign d
        rw [first, List.cons_append] at read
        simp [exponentText, exponent?, Text.signedDecimal, negative, first, minus, plus, read,
          value]

theorem endsDigits_exponentText (e : Option Int) {rest : Text} (ends : EndsNumeral rest) :
    EndsDigits (exponentText e ++ rest) := by
  cases e with
  | none => exact ends.endsDigits
  | some e =>
      rintro c ⟨⟩
      rfl

theorem fraction?_fractionText (digits : List Digit) (e : Option Int) {rest : Text}
    (ends : EndsNumeral rest) :
    fraction? (fractionText digits ++ (exponentText e ++ rest)) =
      some (digits, exponentText e ++ rest) := by
  cases digits with
  | nil =>
      cases e with
      | none =>
          cases rest with
          | nil => rfl
          | cons c rest => simp [fractionText, exponentText, fraction?, (ends c rfl).2.1]
      | some e => rfl
  | cons d ds =>
      have read := digits?_digits (List.cons_ne_nil d ds) (endsDigits_exponentText e ends)
      simpa [fractionText, fraction?] using read

theorem endsDigits_fractionText (digits : List Digit) {rest : Text} (ends : EndsDigits rest) :
    EndsDigits (fractionText digits ++ rest) := by
  cases digits with
  | nil => exact ends
  | cons d ds =>
      rintro c ⟨⟩
      rfl

/-- Every number is read back from its numeral. -/
theorem number?_numeral (n : JsonNumber) {rest : Text} (ends : EndsNumeral rest) :
    number? (numeral n ++ rest) = some (n, rest) := by
  have whole := whole?_decimal n.whole
    (endsDigits_fractionText n.fraction (endsDigits_exponentText n.exponent ends))
  have fraction := fraction?_fractionText n.fraction n.exponent ends
  have exponent := exponent?_exponentText n.exponent ends
  rw [numeral_eq]
  obtain ⟨negative, w, f, e⟩ := n
  cases negative with
  | true => simp [number?, whole, fraction, exponent]
  | false =>
      obtain ⟨d, others, first⟩ := exists_decimal_eq_cons w
      rw [first, List.cons_append] at whole
      simp [number?, first, digitChar_ne_sign d, whole, fraction, exponent]

end Json

end LintRepair
