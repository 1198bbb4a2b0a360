import LintRepair.Proofs.Directive.Grammar
import LintRepair.Proofs.Text.Spacing

/-!
# Spelled directives

A directive line is spelled by its parts: blanks, the slashes, blanks, the marker, and the codes
with blanks in front of each.  The lines that are read as directives are exactly the spelled ones,
and a line is spelled in only one way.
-/

namespace LintRepair

namespace Directive

open Text

/-- The parts of which a directive line is written. -/
@[ext]
structure Spelling where
  /-- Blanks before the slashes. -/
  indent : Text
  /-- Blanks between the slashes and the marker. -/
  gap : Text
  /-- The scope that the marker names. -/
  scope : DirectiveScope
  /-- The codes with their blanks, and the blanks at the end of the line. -/
  listed : Spacing
  indent_blank : ∀ c ∈ indent, isBlank c
  gap_blank : ∀ c ∈ gap, isBlank c

namespace Spelling

/-- The line that is written. -/
def text (s : Spelling) : Text :=
  s.indent ++ ("//" ++ (s.gap ++ (s.scope.marker ++ s.listed.text)))

/-- The directive that is meant. -/
def directive (s : Spelling) : Directive := ⟨s.indent, s.gap, s.scope, s.listed.tokens⟩

theorem spells_text {s : Spelling} (newline_not_mem : '\n' ∉ s.text) :
    s.directive.Spells s.text := by
  refine ⟨s.indent_blank, s.gap_blank, s.listed.text, rfl, ?_⟩
  refine codes?_eq_some_iff.mpr ⟨s.listed.words_text, s.listed.endsWord_text, fun member => ?_⟩
  exact newline_not_mem (by simp [text, mem_of_mem_trim member])

end Spelling

theorem Spells.exists_spelling {d : Directive} {line : Text} (spells : d.Spells line) :
    ∃ s : Spelling, s.text = line ∧ s.directive = d := by
  obtain ⟨indent_blank, gap_blank, listed, rfl, listed_eq⟩ := spells
  obtain ⟨codes_eq, ends, -⟩ := codes?_eq_some_iff.mp listed_eq
  obtain ⟨spacing, rfl⟩ := Spacing.exists_text_eq ends
  rw [spacing.words_text] at codes_eq
  exact ⟨⟨d.indent, d.gap, d.scope, spacing, indent_blank, gap_blank⟩, rfl,
    by rw [Spelling.directive, codes_eq]⟩

theorem parse?_eq_some_iff_spelling {line : Text} (newline_not_mem : '\n' ∉ line) {d : Directive} :
    parse? line = some d ↔ ∃ s : Spelling, s.text = line ∧ s.directive = d := by
  rw [parse?_eq_some_iff]
  constructor
  · exact Spells.exists_spelling
  · rintro ⟨s, rfl, rfl⟩
    exact Spelling.spells_text newline_not_mem

/-- Two spellings of one line are of one directive, and then have the same parts. -/
theorem Spelling.eq_of_text_eq {s t : Spelling} (newline_not_mem : '\n' ∉ s.text)
    (same : s.text = t.text) : s = t := by
  have s_parsed := (parse?_eq_some_iff_spelling newline_not_mem).mpr ⟨s, rfl, rfl⟩
  have t_parsed := (parse?_eq_some_iff_spelling newline_not_mem).mpr ⟨t, same.symm, rfl⟩
  have same_directive : s.directive = t.directive :=
    Option.some.inj (s_parsed.symm.trans t_parsed)
  obtain ⟨indent_eq, gap_eq, scope_eq, -⟩ := Directive.mk.inj same_directive
  have listed_eq : s.listed.text = t.listed.text := by
    simp only [text, indent_eq, gap_eq, scope_eq] at same
    simpa using same
  exact Spelling.ext indent_eq gap_eq scope_eq (Spacing.eq_of_text_eq listed_eq)

/-- A line is read as a directive exactly if it is spelled as one, and then as the one that is
spelled; no line has two spellings. -/
theorem parse?_accepts_exactly_spelled {line : Text} (newline_not_mem : '\n' ∉ line) :
    ((parse? line).isSome ↔ ∃ s : Spelling, s.text = line) ∧
    (∀ s : Spelling, s.text = line → parse? line = some s.directive) ∧
    ∀ s t : Spelling, s.text = line → t.text = line → s = t := by
  have spelled (s : Spelling) (text_eq : s.text = line) : parse? line = some s.directive :=
    (parse?_eq_some_iff_spelling newline_not_mem).mpr ⟨s, text_eq, rfl⟩
  refine ⟨⟨fun parsed => ?_, fun ⟨s, text_eq⟩ => ?_⟩, spelled, ?_⟩
  · obtain ⟨d, parsed⟩ := Option.isSome_iff_exists.mp parsed
    obtain ⟨s, text_eq, -⟩ := (parse?_eq_some_iff_spelling newline_not_mem).mp parsed
    exact ⟨s, text_eq⟩
  · rw [spelled s text_eq, Option.isSome_some]
  · rintro s t rfl t_text
    exact Spelling.eq_of_text_eq newline_not_mem t_text.symm

/-- A code that looks like a part of the marker, behind a space. -/
def markerLikeCode : Spaced where
  blanks := " "
  token := "-file"
  blanks_nonempty := by decide
  blank := blank_of_isAllBlank (by decide)
  isToken := ⟨by decide, visible_of_all (by decide)⟩

/-- A code behind a wide space. -/
def widelySpacedCode : Spaced where
  blanks := "\u3000 "
  token := "no-var"
  blanks_nonempty := by decide
  blank := blank_of_isAllBlank (by decide)
  isToken := ⟨by decide, visible_of_all (by decide)⟩

/-- A directive with these two codes and a blank at the end of its line. -/
def wideSpelling : Spelling where
  indent := "\t"
  gap := "  "
  scope := .file
  listed := ⟨[markerLikeCode, widelySpacedCode], " ", blank_of_isAllBlank (by decide)⟩
  indent_blank := blank_of_isAllBlank (by decide)
  gap_blank := blank_of_isAllBlank (by decide)

theorem parse?_accepts_exactly_spelled_wide :
    wideSpelling.text = "\t//  deno-lint-ignore-file -file\u3000 no-var ".toList ∧
    '\n' ∉ wideSpelling.text ∧ ((parse? wideSpelling.text).isSome ↔
      ∃ s : Spelling, s.text = wideSpelling.text) ∧
    parse? wideSpelling.text = some ⟨"\t", "  ", .file, ["-file", "no-var"]⟩ ∧
    ∀ s : Spelling, s.text = wideSpelling.text → s = wideSpelling := by
  have newline_not_mem : '\n' ∉ wideSpelling.text := by decide
  obtain ⟨accepted, read, unique⟩ := parse?_accepts_exactly_spelled newline_not_mem
  exact ⟨by decide, newline_not_mem, accepted, read wideSpelling rfl,
    fun s text_eq => unique s wideSpelling text_eq rfl⟩

example : parse? "// deno-lint-ignore-files no-var" = none := by decide

end Directive

end LintRepair
