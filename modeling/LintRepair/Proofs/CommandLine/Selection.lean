import LintRepair.CommandLine.Selection
import LintRepair.Proofs.Document.Range
import LintRepair.Proofs.Text.Word

/-!
# Selections read back

A selection is read at its first dash as two places, and without a dash as one place twice.  A place
is a line and a column with a colon between them and blanks around; the line is counted from one.
Every other text is refused for the first of its parts that is no place.
-/

namespace LintRepair

namespace Selection

open Text

/-- The number that one or more digits write. -/
def digitsValue? (digits : Text) : Option Nat :=
  if digits ≠ [] ∧ digits.all Char.isDigit then some (Nat.ofDigitChars 10 digits 0) else none

/-- Decimal digits of a number of 64 bits, an optional plus sign in front of them. -/
structure IsNumeral (s : Text) (n : Nat) : Prop where
  parts : ∃ digits, (s = digits ∨ s = '+' :: digits) ∧ digits ≠ [] ∧
    (∀ c ∈ digits, c.isDigit) ∧ Nat.ofDigitChars 10 digits 0 = n
  fits : n < UInt64.size

/-- A line and a column are written in a part of a selection, blanks around them. -/
def Writes (part : Text) (line column : Nat) : Prop :=
  ∃ lead first second trail, part = lead ++ ((first ++ ':' :: second) ++ trail) ∧
    (∀ c ∈ lead, isBlank c) ∧ (∀ c ∈ trail, isBlank c) ∧ IsNumeral first line ∧
      IsNumeral second column

/-- A part of a selection names a position, its line counted from one. -/
def Names (part : Text) (p : Position) : Prop := Writes part (p.line + 1) p.column

/-- A part of a selection is refused for what is wrong with it. -/
inductive Refuses (part : Text) : Error → Prop where
  | malformed (unwritten : ∀ line column, ¬ Writes part line column) :
      Refuses part (.malformed part)
  | lineZero {column : Nat} (written : Writes part 0 column) : Refuses part (.lineZero part)

/-- The two parts of a selection: those around its first dash, or the whole of it twice. -/
inductive Parts : (s first last : Text) → Prop where
  | whole {s : Text} (undashed : '-' ∉ s) : Parts s s s
  | cut {first : Text} (undashed : '-' ∉ first) (last : Text) :
      Parts (first ++ '-' :: last) first last

section Numeral

variable {s : Text} {n : Nat} {c : Char}

theorem digitsValue?_eq_some_iff {digits : Text} : digitsValue? digits = some n ↔
    digits ≠ [] ∧ (∀ c ∈ digits, c.isDigit) ∧ Nat.ofDigitChars 10 digits 0 = n := by
  rw [digitsValue?, Option.ite_none_right_eq_some, List.all_eq_true, and_assoc, Option.some.injEq]

theorem natural?_plus (digits : Text) : natural? ('+' :: digits) = digitsValue? digits := rfl

theorem natural?_unsigned (unsigned : ∀ digits, s ≠ '+' :: digits) :
    natural? s = digitsValue? s := by
  rw [natural?]
  · rfl
  · exact unsigned

theorem natural?_eq_some_iff : natural? s = some n ↔
    ∃ digits, (s = digits ∨ s = '+' :: digits) ∧ digits ≠ [] ∧ (∀ c ∈ digits, c.isDigit) ∧
      Nat.ofDigitChars 10 digits 0 = n := by
  simp only [← digitsValue?_eq_some_iff]
  by_cases signed : ∃ digits, s = '+' :: digits
  · obtain ⟨digits, rfl⟩ := signed
    rw [natural?_plus]
    constructor
    · intro value
      exact ⟨digits, .inr rfl, value⟩
    · rintro ⟨_, rfl | same, value⟩
      · have plus_digit := (digitsValue?_eq_some_iff.mp value).2.1 '+' List.mem_cons_self
        contradiction
      · rwa [(List.cons.inj same).2]
  · rw [natural?_unsigned (not_exists.mp signed)]
    constructor
    · intro value
      exact ⟨s, .inl rfl, value⟩
    · rintro ⟨digits, rfl | rfl, value⟩
      · exact value
      · exact absurd ⟨digits, rfl⟩ signed

theorem number?_eq_some_iff : number? s = some n ↔ IsNumeral s n := by
  rw [number?, Option.filter_eq_some_iff, natural?_eq_some_iff, decide_eq_true_eq]
  exact ⟨fun ⟨parts, fits⟩ => ⟨parts, fits⟩, fun ⟨parts, fits⟩ => ⟨parts, fits⟩⟩

theorem IsNumeral.eq_plus_or_isDigit (isNumeral : IsNumeral s n) (member : c ∈ s) :
    c = '+' ∨ c.isDigit := by
  obtain ⟨digits, rfl | rfl, -, all_digits, -⟩ := isNumeral.parts
  · exact .inr (all_digits c member)
  · exact (List.mem_cons.mp member).imp_right (all_digits c)

theorem IsNumeral.visible (isNumeral : IsNumeral s n) (member : c ∈ s) : isBlank c = false := by
  rcases isNumeral.eq_plus_or_isDigit member with rfl | digit
  · decide
  · exact visible_of_isDigit digit

theorem IsNumeral.colon_not_mem (isNumeral : IsNumeral s n) : ':' ∉ s := fun member =>
  (isNumeral.eq_plus_or_isDigit member).elim (by decide) (by decide)

theorem IsNumeral.dash_not_mem (isNumeral : IsNumeral s n) : '-' ∉ s := fun member =>
  (isNumeral.eq_plus_or_isDigit member).elim (by decide) (by decide)

theorem isNumeral_decimal (fits : n < UInt64.size) : IsNumeral (decimal n) n :=
  ⟨⟨decimal n, .inl rfl, Nat.toDigits_ne_nil,
    fun _ => Nat.isDigit_of_mem_toDigits (by decide) (by decide), Nat.ofDigitChars_ten_toDigits⟩,
    fits⟩

end Numeral

section Position

variable {part lead first second trail : Text} {line column : Nat} {p : Position} {e : Error}

/-- The two numbers that a part of a selection writes. -/
def numbers? (part : Text) : Option (Nat × Nat) := do
  let (line, column) ← splitFirst? ":" (trim part)
  return (← number? line, ← number? column)

theorem position_eq (part : Text) : position part =
    match numbers? part with
    | none => .error (.malformed part)
    | some (0, _) => .error (.lineZero part)
    | some (line + 1, column) => .ok ⟨line, column⟩ := rfl

/-- Between blanks two numbers with a colon between them are what is left by trimming. -/
theorem trim_between_blanks (lead_blank : ∀ c ∈ lead, isBlank c)
    (trail_blank : ∀ c ∈ trail, isBlank c) (isLine : IsNumeral first line)
    (isColumn : IsNumeral second column) :
    trim (lead ++ ((first ++ ':' :: second) ++ trail)) = first ++ ':' :: second := by
  have isToken : IsToken (first ++ ':' :: second) := by
    refine ⟨by simp, fun c member => ?_⟩
    rcases List.mem_append.mp member with inside | behind
    · exact isLine.visible inside
    · rcases List.mem_cons.mp behind with rfl | inside
      · decide
      · exact isColumn.visible inside
  have lead_gone : trimStart lead = [] := List.dropWhile_eq_nil_iff.mpr lead_blank
  rw [trim_append_token isToken, lead_gone, trimEnd_of_blank trail_blank, List.append_nil,
    List.nil_append]

theorem numbers?_eq_some_iff : numbers? part = some (line, column) ↔ Writes part line column := by
  simp only [numbers?, Option.bind_eq_bind, Option.bind_eq_some_iff, Prod.exists,
    number?_eq_some_iff]
  constructor
  · rintro ⟨first, second, split, _, isLine, _, isColumn, given⟩
    obtain ⟨rfl, rfl⟩ := Prod.mk.inj (Option.some.inj given)
    obtain ⟨trimmed, -⟩ := splitFirst?_char_eq_some_iff.mp split
    obtain ⟨lead, trail, parts, lead_blank, trail_blank⟩ := exists_eq_append_trim part
    rw [trimmed] at parts
    exact ⟨lead, first, second, trail, parts, lead_blank, trail_blank, isLine, isColumn⟩
  · rintro ⟨lead, first, second, trail, rfl, lead_blank, trail_blank, isLine, isColumn⟩
    rw [trim_between_blanks lead_blank trail_blank isLine isColumn]
    have split : splitFirst? ":" (first ++ ':' :: second) = some (first, second) :=
      splitFirst?_char_append isLine.colon_not_mem second
    exact ⟨first, second, split, line, isLine, column, isColumn, rfl⟩

theorem position_eq_ok_iff : position part = .ok p ↔ Names part p := by
  rw [Names, ← numbers?_eq_some_iff, position_eq]
  cases numbers? part with
  | none => simp
  | some numbers =>
      obtain ⟨line, column⟩ := numbers
      cases line with
      | zero => simp
      | succ line => simp [Position.eq_iff]

theorem position_eq_error_iff : position part = .error e ↔ Refuses part e := by
  have read (line column) : Writes part line column ↔ numbers? part = some (line, column) :=
    numbers?_eq_some_iff.symm
  rw [position_eq]
  constructor
  · intro refused
    split at refused
    · rename_i no_numbers
      cases refused
      exact .malformed fun line column => by simp [read, no_numbers]
    · rename_i numbers
      cases refused
      exact .lineZero ((read _ _).mpr numbers)
    · contradiction
  · intro refuses
    cases refuses with
    | malformed unwritten =>
        have no_numbers : numbers? part = none :=
          Option.eq_none_iff_forall_ne_some.mpr fun (line, column) numbers =>
            unwritten line column ((read _ _).mpr numbers)
        rw [no_numbers]
    | lineZero written => rw [(read _ _).mp written]

end Position

section Parse

variable {s first last : Text} {p q : Position} {r : Range} {e : Error}

theorem Names.dash_not_mem (names : Names s p) : '-' ∉ s := by
  obtain ⟨lead, first, second, trail, rfl, lead_blank, trail_blank, isLine, isColumn⟩ := names
  have not_blank {blanks : Text} (blank : ∀ c ∈ blanks, isBlank c) : '-' ∉ blanks :=
    fun member => absurd (blank _ member) (by decide)
  simp [not_blank lead_blank, not_blank trail_blank, isLine.dash_not_mem, isColumn.dash_not_mem]

/-- The range between the positions that two parts name. -/
def span (first last : Text) : Except Error Range :=
  return .between (← position first) (← position last)

theorem parse_eq_span (parts : Parts s first last) : parse s = span first last := by
  cases parts with
  | whole undashed =>
      have unsplit : splitFirst? "-" s = none := splitFirst?_char_eq_none_iff.mpr undashed
      rw [parse, unsplit]
      rfl
  | cut undashed =>
      have split : splitFirst? "-" (first ++ '-' :: last) = some (first, last) :=
        splitFirst?_char_append undashed last
      rw [parse, split]
      rfl

theorem exists_parts (s : Text) : ∃ first last, Parts s first last := by
  by_cases dashed : '-' ∈ s
  · obtain ⟨first, last, rfl, undashed⟩ := List.eq_append_cons_of_mem dashed
    exact ⟨first, last, .cut undashed last⟩
  · exact ⟨s, s, .whole dashed⟩

theorem span_eq_ok_iff : span first last = .ok r ↔
    ∃ p q, Names first p ∧ Names last q ∧ r = .between p q := by
  simp only [← position_eq_ok_iff, span]
  cases position first with
  | error e => simp [bind, Except.bind]
  | ok p =>
      cases position last with
      | error e => simp [bind, Except.bind]
      | ok q => simp [bind, Except.bind, pure, Except.pure, eq_comm]

theorem span_eq_error_iff : span first last = .error e ↔
    Refuses first e ∨ (∃ p, Names first p) ∧ Refuses last e := by
  simp only [← position_eq_ok_iff, ← position_eq_error_iff, span]
  cases position first with
  | error e => simp [bind, Except.bind]
  | ok p =>
      cases position last with
      | error e => simp [bind, Except.bind]
      | ok q => simp [bind, Except.bind, pure, Except.pure]

theorem parse_eq_ok_iff : parse s = .ok r ↔
    ∃ first last p q, Parts s first last ∧ Names first p ∧ Names last q ∧ r = .between p q := by
  constructor
  · intro parsed
    obtain ⟨first, last, parts⟩ := exists_parts s
    rw [parse_eq_span parts] at parsed
    obtain ⟨p, q, names⟩ := span_eq_ok_iff.mp parsed
    exact ⟨first, last, p, q, parts, names⟩
  · rintro ⟨first, last, p, q, parts, names⟩
    rw [parse_eq_span parts]
    exact span_eq_ok_iff.mpr ⟨p, q, names⟩

theorem parse_eq_error_iff : parse s = .error e ↔
    ∃ first last, Parts s first last ∧
      (Refuses first e ∨ (∃ p, Names first p) ∧ Refuses last e) := by
  constructor
  · intro refused
    obtain ⟨first, last, parts⟩ := exists_parts s
    rw [parse_eq_span parts] at refused
    exact ⟨first, last, parts, span_eq_error_iff.mp refused⟩
  · rintro ⟨first, last, parts, refused⟩
    rw [parse_eq_span parts]
    exact span_eq_error_iff.mpr refused

end Parse

section Printed

/-- The printed form of a position, its line counted from one. -/
def printed (p : Position) : Text := Position.display ⟨p.line + 1, p.column⟩

/-- The numbers of the printed form of a position fit 64 bits. -/
structure FitsPrinted (p : Position) : Prop where
  line : p.line + 1 < UInt64.size
  column : p.column < UInt64.size

theorem names_printed {p : Position} (fits : FitsPrinted p) : Names (printed p) p :=
  ⟨[], decimal (p.line + 1), decimal p.column, [], by simp [printed, Position.display],
    List.forall_mem_nil _, List.forall_mem_nil _, isNumeral_decimal fits.line,
    isNumeral_decimal fits.column⟩

theorem parse_printed {r : Range} (start : FitsPrinted r.start) (stop : FitsPrinted r.stop) :
    parse (printed r.start ++ '-' :: printed r.stop) = .ok r :=
  parse_eq_ok_iff.mpr ⟨_, _, r.start, r.stop, .cut (names_printed start).dash_not_mem _,
    names_printed start, names_printed stop, r.between_start_stop.symm⟩

theorem parse_printed_place {p : Position} (fits : FitsPrinted p) :
    parse (printed p) = .ok (.empty p) :=
  parse_eq_ok_iff.mpr ⟨_, _, p, p, .whole (names_printed fits).dash_not_mem, names_printed fits,
    names_printed fits, (Range.empty p).between_start_stop.symm⟩

end Printed

/-- The printed form of a range is read back as the range, and that of a position as the empty range
there.  A text is read exactly if its parts name positions; a second one before the first collapses
onto it.  Every other text is refused for its first part that names none. -/
theorem parse_exact :
    (∀ r : Range, FitsPrinted r.start → FitsPrinted r.stop →
      parse (printed r.start ++ '-' :: printed r.stop) = .ok r) ∧
    (∀ p : Position, FitsPrinted p → parse (printed p) = .ok (.empty p)) ∧
    (∀ (s : Text) (r : Range), parse s = .ok r ↔ ∃ first last p q, Parts s first last ∧
      Names first p ∧ Names last q ∧ r.start = p ∧ r.stop = if q < p then p else q) ∧
    (∀ (s : Text) (r : Range), parse s = .ok r → r.start ≤ r.stop) ∧
    ∀ (s : Text) (e : Error), parse s = .error e ↔ ∃ first last, Parts s first last ∧
      (Refuses first e ∨ (∃ p, Names first p) ∧ Refuses last e) := by
  refine ⟨fun _ => parse_printed, fun _ => parse_printed_place, fun s r => ?_,
    fun _ r _ => r.ordered, fun _ _ => parse_eq_error_iff⟩
  simp only [parse_eq_ok_iff, Range.eq_between_iff]

theorem parse_exact_backwards :
    FitsPrinted ⟨2, 4⟩ ∧ FitsPrinted ⟨4, 0⟩ ∧
      parse "3:4-5:0" = .ok (.between ⟨2, 4⟩ ⟨4, 0⟩) ∧ parse "3:4" = .ok (.empty ⟨2, 4⟩) ∧
      parse "5:0- +3:04\t" = .ok (.empty ⟨4, 0⟩) ∧
      parse "5:0-0:4" = .error (.lineZero "0:4") := by
  have earlier : FitsPrinted ⟨2, 4⟩ := ⟨by decide, by decide⟩
  have later : FitsPrinted ⟨4, 0⟩ := ⟨by decide, by decide⟩
  have later_named : Names "5:0" ⟨4, 0⟩ := names_printed later
  have plus_three : IsNumeral "+3" 3 :=
    ⟨⟨"3", .inr rfl, List.cons_ne_nil _ _, List.all_eq_true.mp rfl, rfl⟩, by decide⟩
  have padded_four : IsNumeral "04" 4 :=
    ⟨⟨"04", .inl rfl, List.cons_ne_nil _ _, List.all_eq_true.mp rfl, rfl⟩, by decide⟩
  have earlier_named : Names " +3:04\t" ⟨2, 4⟩ :=
    ⟨" ", "+3", "04", "\t", rfl, List.all_eq_true.mp rfl, List.all_eq_true.mp rfl, plus_three,
      padded_four⟩
  have zero_written : Writes "0:4" 0 4 :=
    ⟨[], decimal 0, decimal 4, [], rfl, List.forall_mem_nil _, List.forall_mem_nil _,
      isNumeral_decimal (by decide), isNumeral_decimal (by decide)⟩
  have cut (last : Text) : Parts ("5:0" ++ '-' :: last) "5:0" last := .cut (by decide) last
  obtain ⟨range_read, place_read, accepted, -, refused⟩ := parse_exact
  refine ⟨earlier, later, range_read (.between ⟨2, 4⟩ ⟨4, 0⟩) earlier later,
    place_read _ earlier, ?_, ?_⟩
  · exact (accepted _ _).mpr ⟨"5:0", _, ⟨4, 0⟩, ⟨2, 4⟩, cut _, later_named, earlier_named,
      by decide, by decide⟩
  · exact (refused _ _).mpr ⟨"5:0", "0:4", cut _,
      .inr ⟨⟨⟨4, 0⟩, later_named⟩, .lineZero zero_written⟩⟩

end Selection

end LintRepair
