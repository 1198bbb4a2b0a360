import LintRepair.Directive
import LintRepair.Proofs.Document.Layout
import LintRepair.Proofs.Text.Blank

/-!
# The grammar of directive lines

A line is read as a directive exactly if it is written as one: blanks, the slashes, blanks, the
marker and then the words that are the codes.  Writing a directive and reading it gives it back,
and blanks at the end of a line make no difference.
-/

namespace LintRepair

namespace DirectiveScope

theorem marker_line_append (s : Text) :
    line.marker ++ s = "deno-lint-ignore" ++ s := rfl

theorem marker_file_append (s : Text) :
    file.marker ++ s = "deno-lint-ignore" ++ ("-file" ++ s) := by
  have marker_eq : file.marker = "deno-lint-ignore" ++ "-file" := by decide
  rw [marker_eq, List.append_assoc]

/-- A marker does not end in a blank. -/
theorem exists_marker_eq_append (scope : DirectiveScope) :
    ∃ front, scope.marker = front ++ ['e'] := by
  cases scope with
  | line => exact ⟨"deno-lint-ignor", rfl⟩
  | file => exact ⟨"deno-lint-ignore-fil", rfl⟩

end DirectiveScope

namespace Directive

open Text

/-- Behind a marker stand blanks and words, and no line ends between the words. -/
theorem codes?_eq_some_iff {s : Text} {codes : List Text} :
    codes? s = some codes ↔ words s = codes ∧ EndsWord s ∧ '\n' ∉ trim s := by
  rw [codes?]
  by_cases trimmed : trim s = []
  · have blank := trim_eq_nil_iff.mp trimmed
    have ends : EndsWord s := fun c head => blank c (List.mem_of_mem_head? head)
    have wordless : words s = [] := by rw [← words_trim, trimmed]; rfl
    simp [trimmed, ends, wordless]
  · have ends_iff : (afterBlanks? s).isSome ↔ EndsWord s := by
      cases s with
      | nil => exact (trimmed rfl).elim
      | cons c s => simp [afterBlanks?]
    simp only [trimmed, if_false, ends_iff, words_trim]
    split <;> simp_all

theorem codes?_append_blank {c : Char} (blank : isBlank c) (s : Text) :
    codes? (s ++ [c]) = codes? s := by
  apply Option.ext
  intro codes
  rw [codes?_eq_some_iff, codes?_eq_some_iff, words_append_blank blank, trim_append_blank blank,
    endsWord_append_blank blank]

/-- A line that is written as a directive. -/
structure Spells (d : Directive) (line : Text) : Prop where
  indent_blank : ∀ c ∈ d.indent, isBlank c
  gap_blank : ∀ c ∈ d.gap, isBlank c
  /-- The parts stand one after another. -/
  parts : ∃ listed, line = d.indent ++ ("//" ++ (d.gap ++ (d.scope.marker ++ listed))) ∧
    codes? listed = some d.codes

theorem spells_of_parse? {line : Text} {d : Directive} (parsed : parse? line = some d) :
    d.Spells line := by
  simp only [parse?, Option.bind_eq_bind, Option.bind_eq_some_iff] at parsed
  obtain ⟨comment, comment_found, marked, marked_found, read⟩ := parsed
  rw [after?_eq_some_iff] at comment_found marked_found
  have line_eq : line = indentation line ++
      ("//" ++ (indentation comment ++ ("deno-lint-ignore" ++ marked))) := by
    rw [← marked_found, indentation_append_trimStart, ← comment_found,
      indentation_append_trimStart]
  cases found : after? "-file" marked with
  | some listed =>
      rw [found] at read
      obtain ⟨codes, listed_eq, same⟩ := Option.bind_eq_some_iff.mp read
      obtain rfl := Option.some.inj same
      refine ⟨fun _ => blank_of_mem_indentation, fun _ => blank_of_mem_indentation, listed, ?_,
        listed_eq⟩
      rw [DirectiveScope.marker_file_append, ← after?_eq_some_iff.mp found]
      exact line_eq
  | none =>
      rw [found] at read
      obtain ⟨codes, listed_eq, same⟩ := Option.bind_eq_some_iff.mp read
      obtain rfl := Option.some.inj same
      exact ⟨fun _ => blank_of_mem_indentation, fun _ => blank_of_mem_indentation, marked, line_eq,
        listed_eq⟩

/-- A text that ends a word does not go on with the rest of a marker. -/
theorem after?_file_eq_none {s : Text} (ends : EndsWord s) : after? "-file" s = none := by
  cases s with
  | nil => rfl
  | cons c s =>
      have c_blank := endsWord_cons.mp ends
      have c_ne : '-' ≠ c := by
        rintro rfl
        exact absurd c_blank (by decide)
      exact if_neg c_ne

section Marked

variable {line comment marked : Text} {codes : List Text}
  (commented : after? "//" (trimStart line) = some comment)
  (marker : after? "deno-lint-ignore" (trimStart comment) = some marked)

include commented marker

theorem parse?_eq_file {listed : Text} (file : after? "-file" marked = some listed)
    (listed_eq : codes? listed = some codes) :
    parse? line = some ⟨indentation line, indentation comment, .file, codes⟩ := by
  simp only [parse?, commented, marker, file, listed_eq, Option.bind_eq_bind, Option.bind_some,
    Option.pure_def]

theorem parse?_eq_line (ends : EndsWord marked) (listed_eq : codes? marked = some codes) :
    parse? line = some ⟨indentation line, indentation comment, .line, codes⟩ := by
  simp only [parse?, commented, marker, after?_file_eq_none ends, listed_eq,
    Option.bind_eq_bind, Option.bind_some, Option.pure_def]

end Marked

theorem Spells.parse?_eq {line : Text} {d : Directive} (spells : d.Spells line) :
    parse? line = some d := by
  obtain ⟨indent, gap, scope, codes⟩ := d
  obtain ⟨indent_blank, gap_blank, listed, rfl, listed_eq⟩ := spells
  have slash_visible : isBlank '/' = false := by decide
  have d_visible : isBlank 'd' = false := by decide
  have line_indent (s : Text) : indentation (indent ++ ("//" ++ s)) = indent :=
    indentation_append_cons indent_blank slash_visible _
  have comment_indent (s : Text) : indentation (gap ++ ("deno-lint-ignore" ++ s)) = gap :=
    indentation_append_cons gap_blank d_visible _
  have commented (s : Text) : after? "//" (trimStart (indent ++ ("//" ++ s))) = some s :=
    (congrArg _ (trimStart_append_cons indent_blank slash_visible _)).trans
      (after?_eq_some_iff.mpr rfl)
  have marker (s : Text) :
      after? "deno-lint-ignore" (trimStart (gap ++ ("deno-lint-ignore" ++ s))) = some s :=
    (congrArg _ (trimStart_append_cons gap_blank d_visible _)).trans (after?_eq_some_iff.mpr rfl)
  cases scope with
  | file =>
      have file : after? "-file" ("-file" ++ listed) = some listed := after?_eq_some_iff.mpr rfl
      rw [DirectiveScope.marker_file_append,
        parse?_eq_file (commented _) (marker _) file listed_eq, line_indent, comment_indent]
  | line =>
      have ends := (codes?_eq_some_iff.mp listed_eq).2.1
      rw [DirectiveScope.marker_line_append,
        parse?_eq_line (commented _) (marker _) ends listed_eq, line_indent, comment_indent]

/-- Exactly the lines that are written as a directive are read as it. -/
theorem parse?_eq_some_iff {line : Text} {d : Directive} : parse? line = some d ↔ d.Spells line :=
  ⟨spells_of_parse?, Spells.parse?_eq⟩

theorem Spells.append_blank {d : Directive} {line : Text} {c : Char} (blank : isBlank c)
    (spells : d.Spells line) : d.Spells (line ++ [c]) := by
  obtain ⟨indent_blank, gap_blank, listed, rfl, listed_eq⟩ := spells
  refine ⟨indent_blank, gap_blank, listed ++ [c], by simp, ?_⟩
  rw [codes?_append_blank blank, listed_eq]

/-- A blank at the end of a directive line is behind its marker, which does not end in one. -/
theorem Spells.of_append_blank {d : Directive} {line : Text} {c : Char} (blank : isBlank c)
    (spells : d.Spells (line ++ [c])) : d.Spells line := by
  obtain ⟨indent_blank, gap_blank, listed, parts, listed_eq⟩ := spells
  -- With nothing behind the marker, the blank would be the last character of the marker.
  rcases List.eq_nil_or_concat listed with rfl | ⟨front, last, rfl⟩
  · obtain ⟨marker_front, marker_eq⟩ := d.scope.exists_marker_eq_append
    rw [marker_eq, List.append_nil] at parts
    simp only [← List.append_assoc] at parts
    obtain rfl := List.singleton_inj.mp (List.append_inj_right' parts rfl)
    exact absurd blank (by decide)
  · rw [List.concat_eq_append] at parts listed_eq
    simp only [← List.append_assoc] at parts
    obtain rfl := List.singleton_inj.mp (List.append_inj_right' parts rfl)
    rw [codes?_append_blank blank] at listed_eq
    refine ⟨indent_blank, gap_blank, front, ?_, listed_eq⟩
    simpa using List.append_cancel_right parts

/-- A blank at the end of a line does not change what it is read as. -/
theorem parse?_append_blank {c : Char} (blank : isBlank c) (line : Text) :
    parse? (line ++ [c]) = parse? line := by
  apply Option.ext
  intro d
  rw [parse?_eq_some_iff, parse?_eq_some_iff]
  exact ⟨.of_append_blank blank, .append_blank blank⟩

/-- A directive with blanks for its blanks and tokens for its codes. -/
structure IsWellFormed (d : Directive) : Prop where
  indent_blank : ∀ c ∈ d.indent, isBlank c
  gap_blank : ∀ c ∈ d.gap, isBlank c
  isToken : ∀ code ∈ d.codes, IsToken code

theorem isWellFormed_of_parse? {line : Text} {d : Directive} (parsed : parse? line = some d) :
    d.IsWellFormed := by
  obtain ⟨indent_blank, gap_blank, listed, -, listed_eq⟩ := parse?_eq_some_iff.mp parsed
  refine ⟨indent_blank, gap_blank, fun code member => ?_⟩
  rw [← (codes?_eq_some_iff.mp listed_eq).1] at member
  exact isToken_of_mem_words member

theorem IsWellFormed.add {d : Directive} (wellFormed : d.IsWellFormed) {code : Text}
    (isToken : IsToken code) : { d with codes := d.codes ++ [code] }.IsWellFormed := by
  refine ⟨wellFormed.indent_blank, wellFormed.gap_blank, ?_⟩
  exact List.forall_mem_append.mpr ⟨wellFormed.isToken, by simpa using isToken⟩

/-- What a well-formed directive is written as is read as that directive. -/
theorem IsWellFormed.parse?_render {d : Directive} (wellFormed : d.IsWellFormed) :
    parse? d.render = some d := by
  refine parse?_eq_some_iff.mpr ⟨wellFormed.indent_blank, wellFormed.gap_blank,
    d.codes.flatMap (' ' :: ·), by simp [render], ?_⟩
  have newline_not_mem := newline_not_mem_flatMap_cons wellFormed.isToken
  exact codes?_eq_some_iff.mpr ⟨words_flatMap_cons wellFormed.isToken, endsWord_flatMap_cons _,
    fun member => newline_not_mem (mem_of_mem_trim member)⟩

theorem newline_not_mem_of_parse? {line : Text} {d : Directive} (parsed : parse? line = some d)
    (newline_not_mem : '\n' ∉ line) : '\n' ∉ d.indent ∧ '\n' ∉ d.gap := by
  obtain ⟨-, -, listed, rfl, -⟩ := parse?_eq_some_iff.mp parsed
  simp only [List.mem_append, not_or] at newline_not_mem
  exact ⟨newline_not_mem.1, newline_not_mem.2.2.1⟩

theorem IsWellFormed.newline_not_mem_render {d : Directive} (wellFormed : d.IsWellFormed)
    (indent : '\n' ∉ d.indent) (gap : '\n' ∉ d.gap) : '\n' ∉ d.render := by
  have codes := newline_not_mem_flatMap_cons wellFormed.isToken
  have marker : '\n' ∉ d.scope.marker := by cases d.scope <;> decide
  simp [render, indent, gap, marker, codes]

/-- A well-formed directive is written without blanks at its end. -/
theorem IsWellFormed.exists_render_eq_append {d : Directive} (wellFormed : d.IsWellFormed) :
    ∃ front last, d.render = front ++ [last] ∧ isBlank last = false := by
  rcases List.eq_nil_or_concat d.codes with codes_eq | ⟨earlier, code, codes_eq⟩
  · obtain ⟨front, marker_eq⟩ := d.scope.exists_marker_eq_append
    refine ⟨d.indent ++ "//" ++ d.gap ++ front, 'e', ?_, by decide⟩
    rw [render, codes_eq, marker_eq]
    simp
  · rw [List.concat_eq_append] at codes_eq
    have isToken : IsToken code := wellFormed.isToken code (by simp [codes_eq])
    obtain ⟨front, last, rfl⟩ :=
      (List.eq_nil_or_concat code).resolve_left isToken.nonempty
    refine ⟨d.indent ++ "//" ++ d.gap ++ d.scope.marker ++ earlier.flatMap (' ' :: ·) ++
      ' ' :: front, last, ?_, isToken.blank_free last (by simp)⟩
    rw [render, codes_eq]
    simp

/-- What a well-formed directive is written as fills a line. -/
theorem IsWellFormed.fills_render {d : Directive} (wellFormed : d.IsWellFormed)
    (indent : '\n' ∉ d.indent) (gap : '\n' ∉ d.gap) : Line.Fills d.render := by
  refine Line.fills_of_unreturned (wellFormed.newline_not_mem_render indent gap) ?_
  obtain ⟨front, last, render_eq, visible⟩ := wellFormed.exists_render_eq_append
  rw [render_eq, List.getLast?_concat]
  rintro ⟨⟩
  exact absurd visible (by decide)

theorem withCode?_eq_some_iff {d : Directive} {code text : Text} :
    d.withCode? code = some text ↔
      d.lists code = false ∧ { d with codes := d.codes ++ [code] }.render = text := by
  rw [withCode?]
  cases d.lists code <;> simp

end Directive

end LintRepair
