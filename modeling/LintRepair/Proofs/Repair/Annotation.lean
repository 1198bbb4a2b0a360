import LintRepair.Proofs.Document.Layout
import LintRepair.Proofs.Text.Blank
import LintRepair.Repair.Annotation
import Mathlib.Data.Option.Basic

/-!
# Dropped assertions

An assertion to `any` is dropped where `as` or an opening angle bracket stands before the type, and
a closing bracket behind it in the second case.  What is deleted is then the whole assertion, unless
the type that `as` asserts goes on behind `any`, or no blank stands between the two words.
-/

namespace LintRepair

namespace Repair

open Text

/-- Blanks, the word `as` and blanks stand at the end of a text. -/
def EndsInAs (before : Text) : Prop :=
  ∃ operand gap inner, before = operand ++ (gap ++ ("as" ++ inner)) ∧ gap ≠ [] ∧
    (∀ c ∈ gap, isBlank c) ∧ ∀ c ∈ inner, isBlank c

/-- An opening angle bracket and blanks stand at the end of a text, and no name before them. -/
def EndsInBracket (before : Text) : Prop :=
  ∃ operator inner, before = operator ++ ("<" ++ inner) ∧ (∀ c ∈ inner, isBlank c) ∧
    (trimEnd operator).getLast?.any isNamePart = false

/-- Blanks and a closing angle bracket stand at the start of a text. -/
def StartsWithBracket (after : Text) : Prop :=
  ∃ blanks rest, after = blanks ++ (">" ++ rest) ∧ ∀ c ∈ blanks, isBlank c

section Parts

variable {before after : Text} {start length : Nat}

theorem exists_of_asStart? (found : asStart? before = some start) :
    ∃ operand gap, before = operand ++ (gap ++ ("as" ++ trailing before)) ∧ gap ≠ [] ∧
      (∀ c ∈ gap, isBlank c) ∧ byteSize operand = start := by
  simp only [asStart?, Option.bind_eq_bind, Option.bind_eq_some_iff] at found
  obtain ⟨operand, operand_found, _, spaced, same⟩ := found
  have parts := before?_eq_some_iff.mp operand_found
  refine ⟨trimEnd operand, trailing operand, ?_, ?_, fun _ => blank_of_mem_trailing,
    Option.some.inj same⟩
  · conv =>
      lhs
      rw [← trimEnd_append_trailing before, parts, ← trimEnd_append_trailing operand]
    simp only [List.append_assoc]
  · have blank_last := (Option.guard_eq_some' _).mp spaced
    rcases List.eq_nil_or_concat operand with rfl | ⟨front, last, rfl⟩
    · simp at blank_last
    · simp only [List.concat_eq_append, List.getLast?_concat, Option.any_some] at blank_last
      simp [trailing, blank_last]

theorem asStart?_isSome_iff : (asStart? before).isSome ↔ EndsInAs before := by
  constructor
  · intro some_found
    obtain ⟨start, found⟩ := Option.isSome_iff_exists.mp some_found
    obtain ⟨operand, gap, parts, nonempty, blank, -⟩ := exists_of_asStart? found
    exact ⟨operand, gap, trailing before, parts, nonempty, blank, fun _ => blank_of_mem_trailing⟩
  · rintro ⟨operand, gap, inner, rfl, nonempty, blank, inner_blank⟩
    have trimmed : trimEnd (operand ++ (gap ++ ("as" ++ inner))) = (operand ++ gap) ++ "as" := by
      have up_to_s := trimEnd_append_cons_blank (c := 's') (by decide) inner_blank
        (operand ++ gap ++ ['a'])
      simpa using up_to_s
    obtain ⟨front, last, rfl⟩ := (List.eq_nil_or_concat gap).resolve_left nonempty
    have last_blank : isBlank last := blank last (by simp)
    rw [asStart?, trimmed, before?_eq_some_iff.mpr rfl]
    simp [guard, last_blank]

theorem exists_of_angleStart? (found : angleStart? before = some start) :
    ∃ operator, before = operator ++ ("<" ++ trailing before) ∧
      (trimEnd operator).getLast?.any isNamePart = false ∧ byteSize operator = start := by
  simp only [angleStart?, Option.bind_eq_bind, Option.bind_eq_some_iff] at found
  obtain ⟨operator, operator_found, _, unnamed, same⟩ := found
  have parts := before?_eq_some_iff.mp operator_found
  refine ⟨operator, ?_, ?_, Option.some.inj same⟩
  · conv =>
      lhs
      rw [← trimEnd_append_trailing before, parts]
    simp only [List.append_assoc]
  · simpa using (Option.guard_eq_some' _).mp unnamed

theorem angleStart?_isSome_iff : (angleStart? before).isSome ↔ EndsInBracket before := by
  constructor
  · intro some_found
    obtain ⟨start, found⟩ := Option.isSome_iff_exists.mp some_found
    obtain ⟨operator, parts, unnamed, -⟩ := exists_of_angleStart? found
    exact ⟨operator, trailing before, parts, fun _ => blank_of_mem_trailing, unnamed⟩
  · rintro ⟨operator, inner, rfl, inner_blank, unnamed⟩
    have trimmed : trimEnd (operator ++ ("<" ++ inner)) = operator ++ "<" :=
      trimEnd_append_cons_blank (by decide) inner_blank operator
    rw [angleStart?, trimmed, before?_eq_some_iff.mpr rfl]
    simp [guard, unnamed]

theorem exists_of_angleEnd? (found : angleEnd? after = some length) :
    ∃ rest, after = indentation after ++ (">" ++ rest) ∧
      byteSize (indentation after ++ ">") = length := by
  unfold angleEnd? at found
  split at found
  · rename_i bracket
    obtain rfl := Option.some.inj found
    obtain ⟨rest, behind⟩ := startsWith_iff.mp bracket
    refine ⟨rest, ?_, by simp; rfl⟩
    rw [behind, indentation_append_trimStart]
  · contradiction

theorem angleEnd?_isSome_iff : (angleEnd? after).isSome ↔ StartsWithBracket after := by
  constructor
  · intro some_found
    obtain ⟨length, found⟩ := Option.isSome_iff_exists.mp some_found
    obtain ⟨rest, parts, -⟩ := exists_of_angleEnd? found
    exact ⟨indentation after, rest, parts, fun _ => blank_of_mem_indentation⟩
  · rintro ⟨blanks, rest, rfl, blank⟩
    have trimmed : trimStart (blanks ++ (">" ++ rest)) = ">" ++ rest :=
      trimStart_append_cons blank (by decide) rest
    have bracket : startsWith (">" ++ rest) ">" := startsWith_iff.mpr (List.prefix_append _ _)
    rw [angleEnd?, trimmed, if_pos bracket, Option.isSome_some]

end Parts

/-- The text behind a type goes on with it: with brackets, or with a single bar or ampersand behind
blanks. -/
def continuesType (after : Text) : Bool :=
  let startsSingle (c : Char) (s : Text) := s.head? = some c && s[1]? ≠ some c
  after.head? = some '[' || startsSingle '|' (trimStart after) || startsSingle '&' (trimStart after)

/-- A text is `as any` with blanks around both words. -/
def IsAsAny (deleted : Text) : Prop :=
  ∃ gap inner behind, deleted = gap ++ ("as" ++ (inner ++ ("any" ++ behind))) ∧
    gap ≠ [] ∧ inner ≠ [] ∧ (∀ c ∈ gap, isBlank c) ∧ (∀ c ∈ inner, isBlank c) ∧
    ∀ c ∈ behind, isBlank c

/-- A text is `any` in angle brackets, with blanks around it. -/
def IsBracketedAny (deleted : Text) : Prop :=
  ∃ inner behind, deleted = "<" ++ (inner ++ ("any" ++ (behind ++ ">"))) ∧
    (∀ c ∈ inner, isBlank c) ∧ ∀ c ∈ behind, isBlank c

/-- A deleted text is a whole assertion, judged by the text behind the type. -/
def IsWhole (deleted after : Text) : Prop :=
  IsAsAny deleted ∧ continuesType after = false ∨ IsBracketedAny deleted ∧ StartsWithBracket after

section Whole

variable {gap inner behind : Text} (gap_blank : ∀ c ∈ gap, isBlank c) (gap_nonempty : gap ≠ [])

include gap_blank gap_nonempty

/-- The blanks between `as` and `any` are determined by the whole text. -/
theorem isAsAny_iff (inner_blank : ∀ c ∈ inner, isBlank c)
    (behind_blank : ∀ c ∈ behind, isBlank c) :
    IsAsAny (gap ++ ("as" ++ (inner ++ ("any" ++ behind)))) ↔ inner ≠ [] := by
  have a_visible : isBlank 'a' = false := by decide
  constructor
  · rintro ⟨other_gap, other_inner, other_behind, parts, -, nonempty, other_gap_blank,
      other_inner_blank, -⟩
    obtain ⟨rfl, behind_gap⟩ :=
      append_inj_of_blank gap_blank other_gap_blank a_visible a_visible parts
    have inner_parts : inner ++ ("any" ++ behind) = other_inner ++ ("any" ++ other_behind) :=
      (List.append_right_inj ("as" : Text)).mp behind_gap
    obtain ⟨rfl, -⟩ :=
      append_inj_of_blank inner_blank other_inner_blank a_visible a_visible inner_parts
    exact nonempty
  · intro nonempty
    exact ⟨gap, inner, behind, rfl, gap_nonempty, nonempty, gap_blank, inner_blank, behind_blank⟩

theorem not_isBracketedAny (rest : Text) : ¬ IsBracketedAny (gap ++ rest) := by
  rintro ⟨inner, behind, parts, -⟩
  obtain ⟨c, gap, rfl⟩ := List.exists_cons_of_ne_nil gap_nonempty
  obtain rfl : c = '<' := (List.cons.inj parts).1
  exact absurd (gap_blank _ List.mem_cons_self) (by decide)

end Whole

/-- Where a site is an assertion to `any`: the type under the range is on one line, behind `as` or
between angle brackets. -/
structure IsAssertion (site : Site) : Prop where
  any : site.text?.map trim = some ("any" : Text)
  single : site.range.isSingleLine
  form : EndsInAs site.textBefore ∨
    EndsInBracket site.textBefore ∧ StartsWithBracket (site.document.textAfter site.range)

/-- Where an assertion by `as` is more or less than `as any`: its type goes on behind the range, or
no blank stands between the words. -/
def IsPartial (site : Site) : Prop :=
  EndsInAs site.textBefore ∧
    (continuesType (site.document.textAfter site.range) = true ∨
      "as" <:+ site.textBefore ∧ ∃ covered, site.text? = some covered ∧ "any" <+: covered)

instance : DecidablePred EndsInAs := fun _ => decidable_of_iff _ asStart?_isSome_iff

instance : DecidablePred EndsInBracket := fun _ => decidable_of_iff _ angleStart?_isSome_iff

instance : DecidablePred StartsWithBracket := fun _ => decidable_of_iff _ angleEnd?_isSome_iff

section Deleted

variable {site : Site} {covered : Text} {range : Range}

theorem assertionRange?_isSome_iff :
    (assertionRange? site).isSome ↔ site.range.isSingleLine ∧
      (EndsInAs site.textBefore ∨
        EndsInBracket site.textBefore ∧
          StartsWithBracket (site.document.textAfter site.range)) := by
  rw [← asStart?_isSome_iff, ← angleStart?_isSome_iff, ← angleEnd?_isSome_iff, assertionRange?]
  cases site.range.isSingleLine with
  | false => simp
  | true =>
      cases asStart? site.textBefore with
      | some start => simp [guard]
      | none =>
          cases angleStart? site.textBefore with
          | none => simp
          | some start => cases angleEnd? (site.document.textAfter site.range) <;> simp [guard]

/-- Behind an operand the type is deleted with `as` and the blanks in front of it. -/
theorem exists_deleted_of_as (covered_eq : site.text? = some covered)
    (found : assertionRange? site = some range) (as_before : EndsInAs site.textBefore) :
    ∃ gap, gap ≠ [] ∧ (∀ c ∈ gap, isBlank c) ∧ site.document.textIn? range =
      some (gap ++ ("as" ++ (trailing site.textBefore ++ covered))) := by
  obtain ⟨_, single, found⟩ := Option.bind_eq_some_iff.mp found
  have one_line := (Option.guard_eq_some' _).mp single
  obtain ⟨start, as_found⟩ := Option.isSome_iff_exists.mp (asStart?_isSome_iff.mpr as_before)
  obtain ⟨operand, gap, parts, nonempty, blank, rfl⟩ := exists_of_asStart? as_found
  simp only [as_found] at found
  obtain rfl := Option.some.inj found
  have stop_eq : site.range.stop = ⟨site.line, site.range.stop.column + 0⟩ :=
    Position.eq_iff.mpr ⟨(of_decide_eq_true one_line).symm, rfl⟩
  have nothing_added : site.document.textAfter site.range =
      [] ++ site.document.textAfter site.range := rfl
  have deleted := Document.textIn?_widened one_line covered_eq parts nothing_added
  simp only [List.append_nil, List.append_assoc] at deleted
  exact ⟨gap, nonempty, blank, stop_eq ▸ deleted⟩

/-- Between brackets the type is deleted with both of them. -/
theorem textIn?_of_bracket (covered_eq : site.text? = some covered)
    (found : assertionRange? site = some range) (no_as : ¬ EndsInAs site.textBefore) :
    site.document.textIn? range =
      some ("<" ++ (trailing site.textBefore ++
        (covered ++ (indentation (site.document.textAfter site.range) ++ ">")))) := by
  obtain ⟨_, single, found⟩ := Option.bind_eq_some_iff.mp found
  have one_line := (Option.guard_eq_some' _).mp single
  have no_start : asStart? site.textBefore = none := by
    rwa [← asStart?_isSome_iff, Option.not_isSome_iff_eq_none] at no_as
  simp only [no_start, Option.bind_eq_bind, Option.bind_eq_some_iff] at found
  obtain ⟨start, start_found, length, end_found, same⟩ := found
  obtain rfl := Option.some.inj same
  obtain ⟨operator, parts, -, rfl⟩ := exists_of_angleStart? start_found
  obtain ⟨rest, behind, rfl⟩ := exists_of_angleEnd? end_found
  rw [← List.append_assoc] at behind
  have deleted := Document.textIn?_widened one_line covered_eq parts behind
  simp only [List.append_assoc] at deleted
  exact deleted

end Deleted

section Words

variable {before covered : Text}

theorem isSuffix_as_iff (as_before : EndsInAs before) : "as" <:+ before ↔ trailing before = [] := by
  constructor
  · rintro ⟨front, rfl⟩
    have s_visible : isBlank 's' = false := by decide
    simp [trailing, s_visible]
  · intro no_blank
    obtain ⟨start, found⟩ := Option.isSome_iff_exists.mp (asStart?_isSome_iff.mpr as_before)
    obtain ⟨operand, gap, parts, -⟩ := exists_of_asStart? found
    rw [no_blank, List.append_nil, ← List.append_assoc] at parts
    exact ⟨operand ++ gap, parts.symm⟩

theorem eq_append_any (trimmed : trim covered = "any") :
    covered = indentation covered ++ ("any" ++ trailing (trimStart covered)) :=
  trimmed ▸ eq_append_trim covered

theorem isPrefix_any_iff (trimmed : trim covered = "any") :
    "any" <+: covered ↔ indentation covered = [] := by
  constructor
  · rintro ⟨rest, rfl⟩
    have a_visible : isBlank 'a' = false := by decide
    simp [indentation, a_visible]
  · intro no_blank
    have parts := eq_append_any trimmed
    rw [no_blank, List.nil_append] at parts
    exact ⟨trailing (trimStart covered), parts.symm⟩

theorem isBracketedAny_of_trim {after : Text} (trimmed : trim covered = "any") :
    IsBracketedAny ("<" ++ (trailing before ++ (covered ++ (indentation after ++ ">")))) := by
  have parts : trailing before ++ (covered ++ (indentation after ++ ">")) =
      (trailing before ++ indentation covered) ++
        ("any" ++ ((trailing (trimStart covered) ++ indentation after) ++ ">")) := by
    conv =>
      lhs
      rw [eq_append_any trimmed]
    simp only [List.append_assoc]
  rw [parts]
  exact ⟨_, _, rfl, fun _ => blank_of_mem_gap, fun _ => blank_of_mem_gap⟩

end Words

section Dropped

variable {site : Site} {covered : Text}

theorem removal_iff {fix : Fix} :
    fix ∈ explicitAny site ∧ fix.title = "Remove type assertion" ↔
      site.text?.map trim = some ("any" : Text) ∧ ∃ range, assertionRange? site = some range ∧
        site.fix "Remove type assertion" (.delete range) = fix := by
  have titles_ne : ("Use `unknown` instead" : Text) ≠ "Remove type assertion" := by decide
  unfold explicitAny
  split
  · rename_i is_any
    rw [List.mem_append, Option.mem_toList, Option.map_eq_some_iff, List.mem_singleton]
    constructor
    · rintro ⟨dropped | rfl, titled⟩
      · exact ⟨is_any, dropped⟩
      · exact absurd titled titles_ne
    · rintro ⟨-, range, found, rfl⟩
      exact ⟨.inl ⟨range, found, rfl⟩, rfl⟩
  · rename_i not_any
    constructor
    · rintro ⟨offered, -⟩
      exact absurd offered List.not_mem_nil
    · rintro ⟨is_any, -⟩
      exact absurd is_any not_any

/-- Behind an operand the whole assertion is deleted unless the assertion is partial. -/
theorem isWhole_iff_of_as {gap : Text} (covered_eq : site.text? = some covered)
    (trimmed : trim covered = "any") (as_before : EndsInAs site.textBefore) (nonempty : gap ≠ [])
    (blank : ∀ c ∈ gap, isBlank c) :
    IsWhole (gap ++ ("as" ++ (trailing site.textBefore ++ covered)))
      (site.document.textAfter site.range) ↔ ¬ IsPartial site := by
  have parts : trailing site.textBefore ++ covered =
      (trailing site.textBefore ++ indentation covered) ++
        ("any" ++ trailing (trimStart covered)) := by
    conv =>
      lhs
      rw [eq_append_any trimmed]
    rw [List.append_assoc]
  have apart : IsAsAny (gap ++ ("as" ++ (trailing site.textBefore ++ covered))) ↔
      ¬ ("as" <:+ site.textBefore ∧ "any" <+: covered) := by
    rw [parts, isAsAny_iff blank nonempty (fun _ => blank_of_mem_gap)
      (fun _ => blank_of_mem_trailing), isSuffix_as_iff as_before, isPrefix_any_iff trimmed, Ne,
      List.append_eq_nil_iff]
  rw [IsWhole, apart, IsPartial, covered_eq]
  simp [not_isBracketedAny blank nonempty, as_before, and_comm]

end Dropped

/-- An assertion to `any` on one line is dropped, and nothing else.  What is deleted is the whole
assertion exactly if the assertion is not partial.  Elsewhere `unknown` is the only way out. -/
theorem assertion_dropped_whole_iff (site : Site) :
    ((∃ fix ∈ explicitAny site, fix.title = "Remove type assertion") ↔ IsAssertion site) ∧
    (∀ fix ∈ explicitAny site, fix.title = "Remove type assertion" →
      ∃ range deleted, fix.edits = [.delete range] ∧
        site.document.textIn? range = some deleted ∧
        (IsWhole deleted (site.document.textAfter site.range) ↔ ¬ IsPartial site)) ∧
    (site.text?.map trim = some ("any" : Text) → ¬ IsAssertion site →
      explicitAny site = [site.replaceRange "Use `unknown` instead" "unknown"]) := by
  refine ⟨?_, ?_, ?_⟩
  · constructor
    · rintro ⟨fix, offered⟩
      obtain ⟨is_any, range, found, -⟩ := removal_iff.mp offered
      obtain ⟨single, form⟩ := assertionRange?_isSome_iff.mp (Option.isSome_of_eq_some found)
      exact ⟨is_any, single, form⟩
    · rintro ⟨is_any, single, form⟩
      obtain ⟨range, found⟩ :=
        Option.isSome_iff_exists.mp (assertionRange?_isSome_iff.mpr ⟨single, form⟩)
      exact ⟨_, removal_iff.mpr ⟨is_any, range, found, rfl⟩⟩
  · intro fix offered titled
    obtain ⟨is_any, range, found, rfl⟩ := removal_iff.mp ⟨offered, titled⟩
    obtain ⟨covered, covered_eq, trimmed⟩ := Option.map_eq_some_iff.mp is_any
    -- A bracket is only looked for where no `as` is found.
    by_cases as_before : EndsInAs site.textBefore
    · obtain ⟨gap, nonempty, blank, deleted⟩ := exists_deleted_of_as covered_eq found as_before
      exact ⟨range, _, rfl, deleted,
        isWhole_iff_of_as covered_eq trimmed as_before nonempty blank⟩
    · have form := (assertionRange?_isSome_iff.mp (Option.isSome_of_eq_some found)).2
      have closed := (form.resolve_left as_before).2
      exact ⟨range, _, rfl, textIn?_of_bracket covered_eq found as_before,
        iff_of_true (.inr ⟨isBracketedAny_of_trim trimmed, closed⟩) fun part => as_before part.1⟩
  · intro is_any no_assertion
    have no_range : assertionRange? site = none := by
      rw [← Option.not_isSome_iff_eq_none, assertionRange?_isSome_iff]
      exact fun ⟨single, form⟩ => no_assertion ⟨is_any, single, form⟩
    rw [explicitAny, if_pos is_any, no_range]
    rfl

/-- A report of the word `any` at a column of a text of one line. -/
def anySite (text : Text) (column : Nat) : Site where
  diagnostic := ⟨"no-explicit-any", "message", .onLine 0 column (column + 3), .error, none, none,
    Diagnostic.lintSource⟩
  document := .ofText text
  settings := .standard

theorem assertion_dropped_whole_around_member :
    (∃ fix ∈ explicitAny (anySite "const v = (x as any).y;" 16),
      fix.title = "Remove type assertion" ∧ ∃ range deleted, fix.edits = [.delete range] ∧
        (anySite "const v = (x as any).y;" 16).document.textIn? range = some deleted ∧
        IsWhole deleted ").y;") ∧
    explicitAny (anySite "const v: Array<any> = x;" 15) =
      [(anySite "const v: Array<any> = x;" 15).replaceRange "Use `unknown` instead" "unknown"] := by
  constructor
  · have asserted : IsAssertion (anySite "const v = (x as any).y;" 16) :=
      ⟨by decide, by decide, by decide⟩
    have complete : ¬ IsPartial (anySite "const v = (x as any).y;" 16) := by
      rintro ⟨-, continued | ⟨touching, -⟩⟩
      · exact absurd continued (by decide)
      · exact absurd touching (by decide)
    obtain ⟨offers, drops, -⟩ :=
      assertion_dropped_whole_iff (anySite "const v = (x as any).y;" 16)
    obtain ⟨fix, offered, titled⟩ := offers.mpr asserted
    obtain ⟨range, deleted, edits_eq, deleted_eq, whole⟩ := drops fix offered titled
    exact ⟨fix, offered, titled, range, deleted, edits_eq, deleted_eq, whole.mpr complete⟩
  · obtain ⟨-, -, otherwise⟩ := assertion_dropped_whole_iff (anySite "const v: Array<any> = x;" 15)
    refine otherwise (by decide) fun asserted => absurd asserted.form ?_
    decide

/-- Without its assertion the value of an array type keeps the brackets of the type. -/
theorem half_type_left_behind :
    ∃ fix ∈ explicitAny (anySite "const v = x as any[];" 15),
      fix.title = "Remove type assertion" ∧
      fix.applied? (anySite "const v = x as any[];" 15).document = some ("const v = x[];" : Text) ∧
      ¬ ∃ range deleted, fix.edits = [.delete range] ∧
        (anySite "const v = x as any[];" 15).document.textIn? range = some deleted ∧
        IsWhole deleted
          ((anySite "const v = x as any[];" 15).document.textAfter
            (anySite "const v = x as any[];" 15).range) := by
  have text_eq : (anySite "const v = x as any[];" 15).document.text =
      "const v = x" ++ (" as any" ++ "[];") := rfl
  refine ⟨(anySite "const v = x as any[];" 15).fix "Remove type assertion"
    (.delete (.onLine 0 11 18)), by decide, rfl,
    Document.applyEdits?_singleton text_eq (by decide) (by decide), ?_⟩
  rintro ⟨range, deleted, -, -, ⟨-, complete⟩ | ⟨-, closed⟩⟩
  · exact absurd complete (by decide)
  · exact absurd closed (by decide)

end Repair

end LintRepair
