import Mathlib.Data.List.ReduceOption
import LintRepair.Proofs.Directive.Rewriting
import LintRepair.Proofs.Suppression.FileAction

/-!
# Silencing a rule for one line

The search above a line finds the nearest line directive with nothing but blank lines and comments
between.  The action that silences a rule for a line leaves a directive there that the same search
finds, so it is not offered again.  Where it adds a line of its own, taking the code away from that
line gives the text back.
-/

namespace LintRepair

namespace Suppression

/-- What the action that silences a rule for a line is called. -/
def lineTitle (code : Text) : Text := "Disable '" ++ code ++ "' for " ++ "this line"

/-- The line directive that a line consists of. -/
def nextLineDirective? (text : Text) : Option Directive :=
  (Directive.parse? text).filter (·.scope = .line)

/-- Whether the search upward goes on past a line. -/
def IsPassed (text : Text) : Prop :=
  nextLineDirective? text = none ∧ (Text.isAllBlank text || isComment (Text.trim text))

theorem nextLineDirective?_eq_some_iff {text : Text} {directive : Directive} :
    nextLineDirective? text = some directive ↔
      Directive.parse? text = some directive ∧ directive.scope = .line := by
  rw [nextLineDirective?, Option.filter_eq_some_iff, decide_eq_true_eq]

/-- The search finds the first line directive, and goes past every line before it. -/
theorem nearestAbove?_eq_some_iff {lines : List Text} {passed : Nat} {directive : Directive} :
    nearestAbove? lines = some (passed, directive) ↔
      (∃ text, lines[passed]? = some text ∧ nextLineDirective? text = some directive) ∧
        ∀ k < passed, ∀ text, lines[k]? = some text → IsPassed text := by
  induction lines generalizing passed with
  | nil => simp [nearestAbove?]
  | cons line rest ih =>
      rw [nearestAbove?, ← nextLineDirective?]
      cases found : nextLineDirective? line with
      | some nearest =>
          cases passed with
          | zero => simp [found]
          | succ passed =>
              rw [Nat.forall_lt_succ_left]
              simp [IsPassed, found]
      | none =>
          by_cases remark : (Text.isAllBlank line || isComment (Text.trim line)) = true
          · have line_passed : IsPassed line := ⟨found, remark⟩
            cases passed with
            | zero => simp [found, remark]
            | succ passed =>
                rw [Nat.forall_lt_succ_left]
                simp [line_passed, remark, ih]
          · have line_stops : ¬ IsPassed line := fun line_passed => remark line_passed.2
            cases passed with
            | zero => simp [found, remark]
            | succ passed =>
                rw [Nat.forall_lt_succ_left]
                simp [line_stops, remark]

variable {d : Document} {site : Site} {code : Text} {line found : Nat} {directive : Directive}

theorem map_line?_range' {first count : Nat} (fits : first + count ≤ d.lineCount) :
    (List.range' first count).map d.line? = ((d.texts.drop first).take count).map some := by
  induction count generalizing first with
  | zero => rfl
  | succ count ih =>
      have inside : first < d.texts.length := by
        rw [d.length_texts]
        omega
      rw [List.range'_succ, List.map_cons, ih (by omega), ← d.getElem?_texts,
        List.drop_eq_getElem_cons inside, List.getElem?_eq_getElem inside, List.take_succ_cons,
        List.map_cons]

theorem reduceOption_takeWhile_map_some (lines : List Text) :
    ((lines.map some).takeWhile (·.isSome)).reduceOption = lines := by
  induction lines with
  | nil => rfl
  | cons text lines ih =>
      rw [List.map_cons, List.takeWhile_cons_of_pos rfl, List.reduceOption_cons_of_some, ih]

/-- The lines that are searched, from the nearest upward, are those above a line of the document
that are near enough. -/
theorem lineDirective?_eq (fits : line ≤ d.lineCount) :
    lineDirective? d line =
      (nearestAbove? ((d.texts.take line).reverse.take lookback)).map
        fun (passed, directive) => (line - 1 - passed, directive) := by
  have above : ((List.range' (line - lookback) (line - (line - lookback))).reverse.map d.line?) =
      ((d.texts.take line).reverse.take lookback).map some := by
    have length_eq : (d.texts.take line).length = line := by
      rw [List.length_take, d.length_texts, Nat.min_eq_left fits]
    rw [List.map_reverse, map_line?_range' (by omega), List.take_reverse, List.map_reverse,
      length_eq, List.drop_take]
  rw [lineDirective?, above, reduceOption_takeWhile_map_some]

/-- The nearest line directive above a line, with nothing between that ends the search. -/
structure IsNearest (d : Document) (line found : Nat) (directive : Directive) : Prop where
  on_line : d.directive? found = some directive
  scope_eq : directive.scope = .line
  above : found < line
  near : line ≤ found + lookback
  passed : ∀ between, found < between → between < line →
    ∀ text, d.line? between = some text → IsPassed text

theorem getElem?_above {k : Nat} (fits : line ≤ d.lineCount) :
    ((d.texts.take line).reverse.take lookback)[k]? =
      if k < lookback ∧ k < line then d.line? (line - 1 - k) else none := by
  have length_eq : (d.texts.take line).length = line := by
    rw [List.length_take, d.length_texts, Nat.min_eq_left fits]
  by_cases near : k < lookback
  · by_cases above : k < line
    · rw [List.getElem?_take_of_lt near, List.getElem?_reverse (by omega), length_eq,
        List.getElem?_take_of_lt (by omega), d.getElem?_texts, if_pos ⟨near, above⟩]
    · rw [if_neg fun both => above both.2, List.getElem?_eq_none]
      simp only [List.length_take, List.length_reverse]
      omega
  · rw [if_neg fun both => near both.1, List.getElem?_eq_none]
    simp only [List.length_take, List.length_reverse]
    omega

/-- The search above a line finds the nearest line directive, exactly if nothing hides it. -/
theorem lineDirective?_eq_some_iff (fits : line ≤ d.lineCount) :
    lineDirective? d line = some (found, directive) ↔ IsNearest d line found directive := by
  have directive_iff {at_line : Nat} {nearest : Directive} :
      d.directive? at_line = some nearest ∧ nearest.scope = .line ↔
        ∃ text, d.line? at_line = some text ∧ nextLineDirective? text = some nearest := by
    simp only [Document.directive?, Option.bind_eq_bind, Option.bind_eq_some_iff,
      nextLineDirective?_eq_some_iff]
    constructor
    · rintro ⟨⟨text, text_found, parsed⟩, scope_eq⟩
      exact ⟨text, text_found, parsed, scope_eq⟩
    · rintro ⟨text, text_found, parsed, scope_eq⟩
      exact ⟨⟨text, text_found, parsed⟩, scope_eq⟩
  rw [lineDirective?_eq fits, Option.map_eq_some_iff]
  constructor
  · rintro ⟨⟨passed, nearest⟩, nearest_eq, same⟩
    obtain ⟨rfl, rfl⟩ := Prod.mk.inj same
    obtain ⟨⟨text, text_found, text_directive⟩, all_passed⟩ :=
      nearestAbove?_eq_some_iff.mp nearest_eq
    rw [getElem?_above fits] at text_found
    split at text_found
    · rename_i inside
      obtain ⟨on_line, scope_eq⟩ := directive_iff.mpr ⟨text, text_found, text_directive⟩
      refine ⟨on_line, scope_eq, by omega, by omega, fun between below above text' found' => ?_⟩
      refine all_passed (line - 1 - between) (by omega) text' ?_
      have back : line - 1 - (line - 1 - between) = between := by omega
      rw [getElem?_above fits, if_pos (by omega), back, found']
    · contradiction
  · rintro ⟨on_line, scope_eq, above, near, passed⟩
    obtain ⟨text, text_found, text_directive⟩ := directive_iff.mp ⟨on_line, scope_eq⟩
    have back : line - 1 - (line - 1 - found) = found := by omega
    refine ⟨(line - 1 - found, directive),
      nearestAbove?_eq_some_iff.mpr ⟨⟨text, ?_, text_directive⟩, ?_⟩, ?_⟩
    · rw [getElem?_above fits, if_pos (by omega), back, text_found]
    · intro k k_lt text' found'
      rw [getElem?_above fits, if_pos (by omega)] at found'
      exact passed (line - 1 - k) (by omega) (by omega) text' found'
    · exact Prod.ext back rfl

/-- The search above a line of a document finds a line directive, and it lists a code. -/
structure SilencesLine (d : Document) (code : Text) (line found : Nat) (directive : Directive) :
    Prop where
  search_eq : lineDirective? d line = some (found, directive)
  on_line : d.directive? found = some directive
  scope_eq : directive.scope = .line
  lists : directive.lists code

theorem SilencesLine.of_nearest (fits : line ≤ d.lineCount)
    (nearest : IsNearest d line found directive) (lists : directive.lists code) :
    SilencesLine d code line found directive :=
  ⟨(lineDirective?_eq_some_iff fits).mpr nearest, nearest.on_line, nearest.scope_eq, lists⟩

/-- The action has no edit exactly where the line is silenced already. -/
theorem lineEdit?_eq_none_iff (fits : site.line ≤ site.document.lineCount) :
    lineEdit? site = none ↔
      ∃ found directive, SilencesLine site.document site.code site.line found directive := by
  constructor
  · intro none_offered
    rw [lineEdit?] at none_offered
    cases search_eq : lineDirective? site.document site.line with
    | some nearest =>
        obtain ⟨found, directive⟩ := nearest
        simp only [search_eq, extend?, Directive.withCode?, Option.map_eq_none_iff,
          ite_eq_left_iff, reduceCtorEq, imp_false, not_not] at none_offered
        exact ⟨found, directive,
          .of_nearest fits ((lineDirective?_eq_some_iff fits).mp search_eq) none_offered⟩
    | none => simp [search_eq] at none_offered
  · rintro ⟨found, directive, silences⟩
    simp [lineEdit?, silences.search_eq, extend?, Directive.withCode?, silences.lists]

/-- The line directive that silences a code, written at an indentation. -/
def writtenAt (indent code : Text) : Directive := ⟨indent, " ", .line, [code]⟩

theorem writtenAt_isWellFormed {indent : Text} (blank : ∀ c ∈ indent, Text.isBlank c)
    (isToken : Text.IsToken code) : (writtenAt indent code).IsWellFormed := by
  have gap_blank : ∀ c ∈ (" " : Text), Text.isBlank c :=
    List.forall_mem_singleton.mpr (by decide)
  exact ⟨blank, gap_blank, List.forall_mem_singleton.mpr isToken⟩

theorem writtenAt_render (indent code : Text) :
    (writtenAt indent code).render = indent ++ "// deno-lint-ignore " ++ code := by
  have middle : ("//" : Text) ++ (" " ++ (DirectiveScope.line.marker ++ [' '])) =
      "// deno-lint-ignore " := by decide
  rw [← middle, Directive.render, writtenAt]
  simp

theorem lists_writtenAt (indent code : Text) : (writtenAt indent code).lists code := by
  simp [writtenAt, Directive.lists]

/-- The directive that a code is added to stays the nearest one, on a line of its own as before. -/
theorem exists_extendedAbove (inside : line < d.lineCount)
    (nearest : IsNearest d line found directive) (isToken : Text.IsToken code) {e : Edit}
    (extended : extend? d found directive code = some e) :
    ∃ text, d.applyEdits? [e] = some text ∧
      (Document.ofText text).lineCount = d.lineCount ∧
      (Document.ofText text).line? line = d.line? line ∧
      SilencesLine (.ofText text) code line found
        { directive with codes := directive.codes ++ [code] } := by
  obtain ⟨text, written, applied, texts_eq, parsed⟩ :=
    exists_applied_extend? nearest.on_line isToken extended
  have found_inside : found < d.texts.length := by
    rw [d.length_texts]
    exact Document.lt_lineCount_of_directive? nearest.on_line
  have count_eq : (Document.ofText text).lineCount = d.lineCount := by
    rw [← Document.length_texts, texts_eq, List.length_set, d.length_texts]
  have kept {other : Nat} (below : found < other) :
      (Document.ofText text).line? other = d.line? other := by
    rw [← Document.getElem?_texts, texts_eq, List.getElem?_set_ne (Nat.ne_of_lt below),
      d.getElem?_texts]
  have written_line : (Document.ofText text).line? found = some written := by
    rw [← Document.getElem?_texts, texts_eq, List.getElem?_set_self found_inside]
  have still_nearest : IsNearest (.ofText text) line found
      { directive with codes := directive.codes ++ [code] } := by
    refine ⟨?_, nearest.scope_eq, nearest.above, nearest.near, ?_⟩
    · rw [Document.directive?, written_line]
      exact parsed
    · intro between below above text' found'
      rw [kept below] at found'
      exact nearest.passed between below above text' found'
  have lists : { directive with codes := directive.codes ++ [code] }.lists code := by
    simp [Directive.lists]
  refine ⟨text, applied, count_eq, kept nearest.above, .of_nearest ?_ still_nearest lists⟩
  rw [count_eq]
  exact Nat.le_of_lt inside

/-- A directive written above a line is the nearest one, and the text is as before without it. -/
theorem exists_insertedAbove (inside : line < d.lineCount) (isToken : Text.IsToken code)
    {lineText : Text} (line_eq : d.line? line = some lineText) :
    ∃ text,
      d.applyEdits? [.insert ⟨line, 0⟩
        (Text.indentation lineText ++ "// deno-lint-ignore " ++ code ++ "\n")] = some text ∧
      (Document.ofText text).lineCount = d.lineCount + 1 ∧
      (Document.ofText text).line? (line + 1) = d.line? line ∧
      SilencesLine (.ofText text) code (line + 1) line
        (writtenAt (Text.indentation lineText) code) ∧
      ∃ e, (Document.ofText text).removalEdit? line (writtenAt (Text.indentation lineText) code)
          code = some e ∧
        (Document.ofText text).applyEdits? [e] = some d.text := by
  obtain ⟨old, found, rfl⟩ := Option.map_eq_some_iff.mp line_eq
  let directive := writtenAt (Text.indentation old.text) code
  have wellFormed : directive.IsWellFormed :=
    writtenAt_isWellFormed (fun _ => Text.blank_of_mem_indentation) isToken
  have indent_free : '\n' ∉ Text.indentation old.text := fun member =>
    (d.isProper_of_mem_lines old (List.mem_of_getElem? found)).newline_not_mem
      ((List.takeWhile_prefix _).subset member)
  have gap_free : '\n' ∉ (" " : Text) := by decide
  have whole : ∀ added ∈ [(⟨directive.render, .newline⟩ : Line)], added.IsWhole :=
    List.forall_mem_singleton.mpr ⟨wellFormed.fills_render indent_free gap_free .newline, rfl⟩
  obtain ⟨text, applied, lines_eq⟩ := Document.exists_insertLines found whole
  obtain ⟨count_eq, written_line, moved⟩ := Document.line?_of_inserted inside lines_eq
  have nearest : IsNearest (.ofText text) (line + 1) line directive := by
    refine ⟨?_, rfl, Nat.lt_succ_self line, by unfold lookback; omega,
      fun between below above => ?_⟩
    · rw [Document.directive?, written_line]
      exact wellFormed.parse?_render
    · omega
  have removed : directive.remove? code = some .delete :=
    Directive.remove?_eq_delete (List.mem_singleton_self code) (by simp [directive, writtenAt])
  refine ⟨text, ?_, count_eq, moved, .of_nearest ?_ nearest (lists_writtenAt _ code), _,
    by rw [Document.removalEdit?, removed, Option.map_some], ?_⟩
  · rw [← writtenAt_render]
    simpa [Line.source, LineEnding.text] using applied
  · rw [count_eq]
    omega
  · exact Document.applyEdits?_deleteLine_of_inserted inside lines_eq

/-- The two actions are told apart by what they are called. -/
theorem lineEdit?_of_mem_actions {fix : Fix} (offered : fix ∈ actions site)
    (title : fix.title = lineTitle site.code) :
    site.code ≠ [] ∧ ∃ e, lineEdit? site = some e ∧ fix.edits = [e] := by
  rw [actions] at offered
  split at offered
  · exact absurd offered List.not_mem_nil
  · rename_i nonempty
    refine ⟨nonempty, ?_⟩
    simp only [List.mem_append, Option.mem_toList, Option.map_eq_some_iff] at offered
    rcases offered with ⟨e, edit_eq, rfl⟩ | ⟨e, -, rfl⟩
    · exact ⟨e, edit_eq, rfl⟩
    · exact absurd title.symm (lineTitle_ne_fileTitle site.code)

/-- What becomes of a text when a code is silenced for one of its lines: a directive above the line,
`added` lines further down than before, lists the code, and a directive on an added line can be
taken away again. -/
structure LineSilenced (d : Document) (line : Nat) (code : Text) (added : Nat) (after : Document) :
    Prop where
  count_eq : after.lineCount = d.lineCount + added
  /-- The line is still there. -/
  moved : after.line? (line + added) = d.line? line
  silences : ∃ found directive, SilencesLine after code (line + added) found directive
  /-- A line is added only for a directive of its own, without which the text is as before. -/
  undone : added = 0 ∨ added = 1 ∧ ∃ directive e,
    after.directive? line = some directive ∧ directive.scope = .line ∧
    directive.indent = Text.indentation ((d.line? line).getD []) ∧ directive.codes = [code] ∧
    after.removalEdit? line directive code = some e ∧ after.applyEdits? [e] = some d.text

theorem exists_applied_lineEdit? (inside : site.line < site.document.lineCount)
    (isToken : Text.IsToken site.code) {e : Edit} (edit_eq : lineEdit? site = some e) :
    ∃ text added, site.document.applyEdits? [e] = some text ∧
      LineSilenced site.document site.line site.code added (.ofText text) := by
  rw [lineEdit?] at edit_eq
  cases search_eq : lineDirective? site.document site.line with
  | some nearest =>
      obtain ⟨found, directive⟩ := nearest
      rw [search_eq] at edit_eq
      have nearest := (lineDirective?_eq_some_iff (Nat.le_of_lt inside)).mp search_eq
      obtain ⟨text, applied, count_eq, kept, silences⟩ :=
        exists_extendedAbove inside nearest isToken edit_eq
      exact ⟨text, 0, applied, count_eq, kept, ⟨found, _, silences⟩, .inl rfl⟩
  | none =>
      rw [search_eq] at edit_eq
      obtain rfl := Option.some.inj edit_eq
      obtain ⟨line, found⟩ := Document.exists_line inside
      have line_eq := Document.line?_eq_some found
      obtain ⟨text, applied, count_eq, moved, silences, e, removal, restored⟩ :=
        exists_insertedAbove inside isToken line_eq
      have lineText_eq : site.lineText = line.text := by
        rw [Site.lineText, line_eq, Option.getD_some]
      refine ⟨text, 1, ?_, count_eq, moved, ⟨site.line, _, silences⟩, .inr ⟨rfl, _, e,
        silences.on_line, silences.scope_eq, ?_, rfl, removal, restored⟩⟩
      · rw [lineText_eq]
        exact applied
      · rw [line_eq, Option.getD_some]
        rfl

/-- The action that silences a rule for a line can be applied, and the line is silenced then, with
the text as before once the code is taken away from an added line.  The action is not offered for
the code there again. -/
theorem line_action_silences_and_is_undone {site : Site} {fix : Fix}
    (inside : site.line < site.document.lineCount)
    (blank_free : ∀ c ∈ site.code, Text.isBlank c = false) (offered : fix ∈ actions site)
    (title : fix.title = lineTitle site.code) :
    ∃ text added, fix.applied? site.document = some text ∧
      LineSilenced site.document site.line site.code added (.ofText text) ∧
      ∀ later : Site, later.document = .ofText text → later.code = site.code →
        later.line = site.line + added → ∀ other ∈ actions later,
          other.title ≠ lineTitle site.code := by
  obtain ⟨nonempty, e, edit_eq, edits_eq⟩ := lineEdit?_of_mem_actions offered title
  obtain ⟨text, added, applied, silenced⟩ :=
    exists_applied_lineEdit? inside ⟨nonempty, blank_free⟩ edit_eq
  refine ⟨text, added, by rw [Fix.applied?, edits_eq, applied], silenced, ?_⟩
  intro later document_eq code_eq line_eq other other_offered same_title
  rw [← code_eq] at same_title
  obtain ⟨-, e', edit_eq', -⟩ := lineEdit?_of_mem_actions other_offered same_title
  have fits : later.line ≤ later.document.lineCount := by
    rw [document_eq, line_eq, silenced.count_eq]
    omega
  have silences := silenced.silences
  rw [← document_eq, ← code_eq, ← line_eq] at silences
  rw [(lineEdit?_eq_none_iff fits).mpr silences] at edit_eq'
  contradiction

/-- A use of `var` inside a function, below a comment that is no directive. -/
def nestedSite : Site where
  diagnostic := ⟨"no-var", "`var` is not allowed", .onLine 2 1 11, .error, none, none, "deno-lint"⟩
  document := .ofText "function f() \x7b\r\n\t// the count\r\n\tvar x = 1;\r\n\x7d"
  settings := .standard

/-- The action that silences `no-var` on the line of the function. -/
def nestedFix : Fix :=
  (nestedSite.fix (lineTitle "no-var") (.insert ⟨2, 0⟩ "\t// deno-lint-ignore no-var\n")).onRequest

theorem line_action_silences_nested_line :
    nestedSite.line < nestedSite.document.lineCount ∧
    (∀ c ∈ nestedSite.code, Text.isBlank c = false) ∧ nestedFix ∈ actions nestedSite ∧
    nestedFix.title = lineTitle nestedSite.code ∧
    ∃ text added, nestedFix.applied? nestedSite.document = some text ∧
      LineSilenced nestedSite.document nestedSite.line nestedSite.code added (.ofText text) ∧
      ∀ later : Site, later.document = .ofText text → later.code = nestedSite.code →
        later.line = nestedSite.line + added → ∀ other ∈ actions later,
          other.title ≠ lineTitle nestedSite.code := by
  have inside : nestedSite.line < nestedSite.document.lineCount := by decide
  have blank_free : ∀ c ∈ nestedSite.code, Text.isBlank c = false :=
    Text.visible_of_all (by decide)
  have offered : nestedFix ∈ actions nestedSite := by decide +kernel
  exact ⟨inside, blank_free, offered, rfl,
    line_action_silences_and_is_undone inside blank_free offered rfl⟩

end Suppression

end LintRepair
