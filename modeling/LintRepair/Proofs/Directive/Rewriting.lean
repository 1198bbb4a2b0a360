import LintRepair.Proofs.Directive
import LintRepair.Proofs.Directive.Grammar
import LintRepair.Proofs.Document.LineEdits

/-!
# Rewritten directives

Taking a code from a directive and adding one to it keep the line's indentation and comment prefix
as they are.  What is written is read as the same directive with the other codes, and taking away
the code that was added leaves the codes there were.
-/

namespace LintRepair

namespace Directive

open Text

/-- Indentation and comment prefix of a directive. -/
def lead (d : Directive) : Text := d.indent ++ ("//" ++ (d.gap ++ d.scope.marker))

theorem lead_isPrefix {line : Text} {d : Directive} (parsed : parse? line = some d) :
    d.lead <+: line := by
  obtain ⟨-, -, listed, rfl, -⟩ := parse?_eq_some_iff.mp parsed
  exact ⟨listed, by simp [lead]⟩

/-- A text in place of a directive line that keeps the lead and lists other codes. -/
structure Rewrites (d : Directive) (codes : List Text) (text : Text) : Prop where
  /-- Single spaces separate the codes. -/
  written : text = d.lead ++ (" " ++ joined " " codes)
  /-- Nothing but the codes is read differently. -/
  parsed : parse? text = some { d with codes := codes }
  /-- No line is broken. -/
  newline_not_mem : '\n' ∉ d.lead → '\n' ∉ text

theorem IsWellFormed.rewrites {d : Directive} {codes : List Text}
    (wellFormed : { d with codes := codes }.IsWellFormed) (nonempty : codes ≠ []) :
    d.Rewrites codes { d with codes := codes }.render where
  written := by
    have spaced : codes.flatMap ([' '] ++ ·) = " " ++ joined " " codes :=
      flatMap_append_eq_joined nonempty
    rw [render]
    change _ ++ codes.flatMap ([' '] ++ ·) = _
    rw [spaced, lead]
    simp
  parsed := wellFormed.parse?_render
  newline_not_mem lead_free := by
    simp only [lead, List.mem_append, not_or] at lead_free
    exact wellFormed.newline_not_mem_render lead_free.1 lead_free.2.2.1

theorem IsWellFormed.filter {d : Directive} (wellFormed : d.IsWellFormed) (keep : Text → Bool) :
    { d with codes := d.codes.filter keep }.IsWellFormed :=
  ⟨wellFormed.indent_blank, wellFormed.gap_blank,
    fun code member => wellFormed.isToken code (List.mem_filter.mp member).1⟩

section Removal

variable {d : Directive} {code : Text}

theorem lists_iff : d.lists code ↔ code ∈ d.codes := List.contains_iff_mem

theorem remove?_eq_none_iff : d.remove? code = none ↔ code ∉ d.codes := by
  rw [← lists_iff, remove?]
  split
  · rename_i listed
    split <;> simp [listed]
  · rename_i unlisted
    simp [unlisted]

theorem filter_eq_nil_iff :
    d.codes.filter (· ≠ code) = [] ↔ ∀ listed ∈ d.codes, listed = code := by
  simp [List.filter_eq_nil_iff]

theorem remove?_eq_delete (listed : code ∈ d.codes) (alone : d.codes.filter (· ≠ code) = []) :
    d.remove? code = some .delete := by
  rw [remove?, if_pos (lists_iff.mpr listed), alone]

theorem remove?_eq_replace (listed : code ∈ d.codes) (others : d.codes.filter (· ≠ code) ≠ []) :
    d.remove? code =
      some (.replace { d with codes := d.codes.filter (· ≠ code) }.render) := by
  rw [remove?, if_pos (lists_iff.mpr listed)]
  split
  · contradiction
  · rfl

theorem remove?_eq_delete_iff :
    d.remove? code = some .delete ↔ code ∈ d.codes ∧ ∀ listed ∈ d.codes, listed = code := by
  rw [← filter_eq_nil_iff]
  constructor
  · intro removed
    have listed : code ∈ d.codes := by
      by_contra unlisted
      rw [remove?_eq_none_iff.mpr unlisted] at removed
      contradiction
    refine ⟨listed, ?_⟩
    by_contra others
    rw [remove?_eq_replace listed others] at removed
    exact nomatch removed
  · rintro ⟨listed, alone⟩
    exact remove?_eq_delete listed alone

theorem exists_replacement (wellFormed : d.IsWellFormed) (listed : code ∈ d.codes)
    (others : d.codes.filter (· ≠ code) ≠ []) :
    ∃ text, d.remove? code = some (.replace text) ∧
      d.Rewrites (d.codes.filter (· ≠ code)) text :=
  ⟨_, remove?_eq_replace listed others, (wellFormed.filter _).rewrites others⟩

theorem withCode?_eq_none_iff : d.withCode? code = none ↔ code ∈ d.codes := by
  rw [← lists_iff, withCode?]
  cases d.lists code <;> simp

theorem withCode?_eq_some (unlisted : code ∉ d.codes) :
    d.withCode? code = some { d with codes := d.codes ++ [code] }.render := by
  refine withCode?_eq_some_iff.mpr ⟨?_, rfl⟩
  rw [← Bool.not_eq_true, lists_iff]
  exact unlisted

/-- Without the code added last, the codes are those there were. -/
theorem filter_append_singleton (unlisted : code ∉ d.codes) :
    (d.codes ++ [code]).filter (· ≠ code) = d.codes := by
  have kept : ∀ listed ∈ d.codes, decide (listed ≠ code) := by
    intro listed member
    exact decide_eq_true fun same => unlisted (same ▸ member)
  rw [List.filter_append, List.filter_eq_self.mpr kept]
  simp

end Removal

/-- The codes listed on a directive line after a change: none when the line goes. -/
def codesAfter? : LineChange → Option (List Text)
  | .delete => some []
  | .replace text => (parse? text).map (·.codes)

/-- A code is taken from a directive, and added to it, without touching anything else; taking it
away again leaves the codes there were.  The line of a directive that lists nothing else goes. -/
theorem rewriting_round_trips {line : Text} {d : Directive} (parsed : parse? line = some d)
    {code : Text} (isToken : IsToken code) :
    d.lead <+: line ∧
    (d.remove? code = none ↔ code ∉ d.codes) ∧
    (d.remove? code = some .delete ↔ code ∈ d.codes ∧ ∀ listed ∈ d.codes, listed = code) ∧
    (code ∈ d.codes → (¬ ∀ listed ∈ d.codes, listed = code) →
      ∃ text, d.remove? code = some (.replace text) ∧
        d.Rewrites (d.codes.filter (· ≠ code)) text) ∧
    (d.withCode? code = none ↔ code ∈ d.codes) ∧
    (code ∉ d.codes →
      ∃ text added, d.withCode? code = some text ∧ d.Rewrites (d.codes ++ [code]) text ∧
        parse? text = some added ∧ (added.remove? code).bind codesAfter? = some d.codes ∧
        (d.codes ≠ [] → ∃ restored, added.remove? code = some (.replace restored) ∧
          d.Rewrites d.codes restored)) := by
  have wellFormed := isWellFormed_of_parse? parsed
  refine ⟨lead_isPrefix parsed, remove?_eq_none_iff, remove?_eq_delete_iff, ?_,
    withCode?_eq_none_iff, ?_⟩
  · intro listed others
    exact exists_replacement wellFormed listed (mt filter_eq_nil_iff.mp others)
  · intro unlisted
    let added : Directive := { d with codes := d.codes ++ [code] }
    have added_wellFormed : added.IsWellFormed := wellFormed.add isToken
    have rewrites := added_wellFormed.rewrites (by simp)
    have listed : code ∈ added.codes := by simp [added]
    have remaining : added.codes.filter (· ≠ code) = d.codes := filter_append_singleton unlisted
    refine ⟨added.render, added, withCode?_eq_some unlisted, rewrites, rewrites.parsed, ?_⟩
    by_cases bare : d.codes = []
    · have removed := remove?_eq_delete listed (remaining.trans bare)
      rw [removed]
      exact ⟨congrArg some bare.symm, fun nonempty => absurd bare nonempty⟩
    · obtain ⟨restored, removed, restores⟩ :=
        exists_replacement added_wellFormed listed (remaining ▸ bare)
      rw [remaining] at restores
      rw [removed]
      refine ⟨?_, fun _ => ⟨restored, rfl, restores.written, restores.parsed,
        restores.newline_not_mem⟩⟩
      simp [codesAfter?, restores.parsed]

/-- A directive that lists one of its codes twice. -/
def repeatedDirective : Directive := ⟨"\t", "  ", .line, ["b", "a", "b"]⟩

theorem rewriting_round_trips_of_repeated :
    parse? "\t//  deno-lint-ignore b  a b" = some repeatedDirective ∧
    IsToken "b" ∧ IsToken "c" ∧
    repeatedDirective.lead <+: "\t//  deno-lint-ignore b  a b".toList ∧
    (∃ text, repeatedDirective.remove? "b" = some (.replace text) ∧
      repeatedDirective.Rewrites ["a"] text) ∧
    ∃ text added, repeatedDirective.withCode? "c" = some text ∧
      repeatedDirective.Rewrites ["b", "a", "b", "c"] text ∧ parse? text = some added ∧
      (added.remove? "c").bind codesAfter? = some repeatedDirective.codes ∧
      ∃ restored, added.remove? "c" = some (.replace restored) ∧
        repeatedDirective.Rewrites ["b", "a", "b"] restored := by
  have parsed : parse? "\t//  deno-lint-ignore b  a b" = some repeatedDirective := by decide
  have listed_token : IsToken "b" := ⟨by decide, visible_of_all (by decide)⟩
  have new_token : IsToken "c" := ⟨by decide, visible_of_all (by decide)⟩
  obtain ⟨lead, -, -, removed, -, -⟩ := rewriting_round_trips parsed listed_token
  obtain ⟨-, -, -, -, -, extended⟩ := rewriting_round_trips parsed new_token
  obtain ⟨text, added, extended_eq, rewrites, added_eq, codes_eq, restores⟩ :=
    extended (by decide)
  exact ⟨parsed, listed_token, new_token, lead, removed (by decide) (by decide), text, added,
    extended_eq, rewrites, added_eq, codes_eq, restores (by decide)⟩

/-- A code that is all a directive lists takes the line with it. -/
example : (Directive.mk [] " " .line ["a", "a"]).remove? "a" = some .delete := by decide

end Directive

/-- A directive on a line is read with other codes when its line is written with them. -/
theorem Document.exists_recoded {d : Document} {line : Nat} {directive : Directive}
    {codes : List Text} (on_line : d.directive? line = some directive)
    (isToken : ∀ code ∈ codes, Text.IsToken code) :
    ∃ result,
      d.applyEdits? [.replace (d.lineRange line) { directive with codes := codes }.render] =
        some result ∧
      (ofText result).texts = d.texts.set line { directive with codes := codes }.render ∧
      (ofText result).directive? line = some { directive with codes := codes } := by
  obtain ⟨_, line_found, parsed⟩ := Option.bind_eq_some_iff.mp on_line
  obtain ⟨old, found, rfl⟩ := Option.map_eq_some_iff.mp line_found
  obtain ⟨indent_blank, gap_blank, -⟩ := Directive.isWellFormed_of_parse? parsed
  have wellFormed : { directive with codes := codes }.IsWellFormed :=
    ⟨indent_blank, gap_blank, isToken⟩
  have old_proper := d.isProper_of_mem_lines old (List.mem_of_getElem? found)
  obtain ⟨indent, gap⟩ := Directive.newline_not_mem_of_parse? parsed old_proper.newline_not_mem
  have inside := lt_lineCount_of_directive? on_line
  obtain ⟨result, applied, texts_eq⟩ := exists_replaced inside (wellFormed.fills_render indent gap)
  refine ⟨result, applied, texts_eq, ?_⟩
  rw [directive?, ← getElem?_texts, texts_eq, List.getElem?_set_self (d.length_texts ▸ inside)]
  exact wellFormed.parse?_render

end LintRepair
