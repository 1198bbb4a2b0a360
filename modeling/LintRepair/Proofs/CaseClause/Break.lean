import LintRepair.Proofs.CaseClause.Extent

/-!
# A break at the end of a clause

The repair adds one line to the document: a break behind the last line of the clause's body,
indented deeper than the label.  With that line the clause is left at its end, so the same report
gives no repair any more.
-/

namespace LintRepair

namespace CaseClause

open Text

/-- A statement is indented like the body, if that is deeper than the label, or by one level. -/
theorem statementIndent_cases (clause : CaseClause) :
    clause.bodyIndent = some clause.statementIndent ∧
        byteSize clause.indent < byteSize clause.statementIndent ∨
      clause.statementIndent = clause.indent ++ ['\t'] ∨
      clause.statementIndent = clause.indent ++ [' ', ' '] := by
  obtain ⟨label, indent, bodyIndent, lastLine⟩ := clause
  by_cases tab : '\t' ∈ indent <;> cases bodyIndent with
  | none => simp [statementIndent, tab]
  | some bodyIndent =>
      by_cases longer : byteSize indent < byteSize bodyIndent <;>
        simp [statementIndent, tab, longer]

theorem byteSize_lt_statementIndent (clause : CaseClause) :
    byteSize clause.indent < byteSize clause.statementIndent := by
  have one_byte : '\t'.utf8Size = 1 ∧ ' '.utf8Size = 1 := ⟨rfl, rfl⟩
  rcases clause.statementIndent_cases with ⟨-, longer⟩ | same | same
  · exact longer
  · rw [same, byteSize_append, byteSize_cons]
    omega
  · rw [same, byteSize_append, byteSize_cons]
    omega

/-- The characters of the indentation are those of the label or of the body, or a tab or spaces. -/
theorem forall_mem_statementIndent {clause : CaseClause} {holds : Char → Prop}
    (tab : holds '\t') (space : holds ' ') (indent_holds : ∀ c ∈ clause.indent, holds c)
    (body_holds : ∀ indent ∈ clause.bodyIndent, ∀ c ∈ indent, holds c) :
    ∀ c ∈ clause.statementIndent, holds c := by
  intro c member
  rcases clause.statementIndent_cases with ⟨found, -⟩ | same | same
  · exact body_holds _ found c member
  · rw [same] at member
    rcases List.mem_append.mp member with kept | added
    · exact indent_holds c kept
    · obtain rfl := List.mem_singleton.mp added
      exact tab
  · rw [same] at member
    rcases List.mem_append.mp member with kept | added
    · exact indent_holds c kept
    · obtain rfl : c = ' ' := by simpa using added
      exact space

namespace Extent

variable {texts : List Text} {line : Nat}

/-- The extent with one more statement at the end of the body. -/
def withStatement (extent : Extent texts line) (added : Text)
    (no_label : ¬ isLabel (trim added)) (inside : ¬ Closes extent.head added)
    (visible : ¬ isAllBlank added) :
    Extent (extent.above ++ extent.head ::
      (extent.inner ++ extent.last :: added :: (extent.blanks ++ extent.below))) line where
  above := extent.above
  head := extent.head
  inner := extent.inner ++ [extent.last]
  last := added
  blanks := extent.blanks
  below := extent.below
  texts_eq := by simp
  labelled := extent.labelled
  label_le := extent.label_le
  reached := extent.reached
  nearest := by
    intro text member
    rcases mem_take_of_inserted member with rfl | kept
    · exact no_label
    · exact extent.nearest text (by simpa using kept)
  inside := List.forall_mem_append.mpr ⟨extent.inside, List.forall_mem_singleton.mpr inside⟩
  visible := visible
  blank := extent.blank
  closed := extent.closed

end Extent

end CaseClause

namespace Repair

open Text CaseClause

variable {site : Site}

theorem exists_extent_of_fallthrough {fix : Fix} (offered : fallthrough site = some fix) :
    Nonempty (Extent site.document.texts site.line) := by
  simp only [fallthrough, Option.bind_eq_bind, Option.bind_eq_some_iff] at offered
  obtain ⟨clause, found, last, last_found, -⟩ := offered
  obtain ⟨extent, -⟩ := exists_extent found last_found
  exact ⟨extent⟩

/-- Where there is a body, a break is offered unless its last line leaves the clause. -/
theorem fallthrough_eq {texts : List Text} {line : Nat} (extent : Extent texts line)
    (texts_eq : site.document.texts = texts) (line_eq : site.line = line) :
    ∃ indent, (∀ c ∈ indent, isBlank c) ∧ '\n' ∉ indent ∧
      byteSize (indentation extent.head) < byteSize indent ∧
      fallthrough site =
        if isTerminator (trim extent.last) then none
        else some (site.fix "Add `break`" (site.document.insertAfterLine
          (extent.above.length + 1 + extent.inner.length) (indent ++ "break;\n"))) := by
  subst texts_eq line_eq
  obtain ⟨bodyIndent, found, from_line⟩ := extent.enclosing?_eq
  have last_found := extent.getElem?_last
  rw [Document.getElem?_texts] at last_found
  have head_mem : extent.head ∈ site.document.texts := List.mem_of_getElem? extent.getElem?_label
  have of_indentation {text : Text} (member : text ∈ site.document.texts) :
      ∀ c ∈ indentation text, isBlank c ∧ c ≠ '\n' := by
    intro c inside
    refine ⟨blank_of_mem_indentation inside, ?_⟩
    rintro rfl
    exact Document.newline_not_mem_of_mem_texts member (List.takeWhile_subset _ inside)
  let clause : CaseClause := ⟨extent.above.length, indentation extent.head, bodyIndent,
    some (extent.above.length + 1 + extent.inner.length)⟩
  have indented : ∀ c ∈ clause.statementIndent, isBlank c ∧ c ≠ '\n' := by
    refine forall_mem_statementIndent (by decide) (by decide) (of_indentation head_mem) ?_
    intro indent indent_found
    obtain ⟨text, member, rfl⟩ := from_line indent indent_found
    exact of_indentation member
  refine ⟨clause.statementIndent, fun c member => (indented c member).1,
    fun member => (indented _ member).2 rfl, clause.byteSize_lt_statementIndent, ?_⟩
  simp only [fallthrough, found, last_found, Option.bind_eq_bind, Option.bind_some]
  cases isTerminator (trim extent.last) <;> rfl

section Added

variable {indent : Text} (blank : ∀ c ∈ indent, isBlank c)

include blank

theorem trim_break : trim (indent ++ "break;") = "break;" := by
  rw [trim_blanks_append blank]
  decide

theorem not_closes_break (head : Text) : ¬ Closes head (indent ++ "break;") := by
  rintro ⟨label | brace, -⟩
  · rw [trim_break blank] at label
    contradiction
  · rw [trim_break blank] at brace
    contradiction

theorem visible_break : ¬ isAllBlank (indent ++ "break;") := by
  intro all_blank
  have trimmed := trim_eq_nil_iff.mpr (blank_of_isAllBlank all_blank)
  rw [trim_break blank] at trimmed
  contradiction

/-- Behind an added break none is offered any more. -/
theorem fallthrough_of_break {texts : List Text} {line : Nat} (extent : Extent texts line)
    (texts_eq : site.document.texts = extent.above ++ extent.head ::
      (extent.inner ++ extent.last :: (indent ++ "break;") :: (extent.blanks ++ extent.below)))
    (line_eq : site.line = line) : fallthrough site = none := by
  have no_label : ¬ isLabel (trim (indent ++ "break;")) := by
    rw [trim_break blank]
    decide
  let extended := extent.withStatement (indent ++ "break;") no_label
    (not_closes_break blank extent.head) (visible_break blank)
  obtain ⟨_, -, -, -, fix_eq⟩ := fallthrough_eq extended texts_eq line_eq
  have leaves : isTerminator (trim extended.last) := by
    change isTerminator (trim (indent ++ "break;"))
    rw [trim_break blank]
    decide
  rw [fix_eq, if_pos leaves]

end Added

theorem fallthrough_isSome_iff :
    (fallthrough site).isSome ↔
      ∃ extent : Extent site.document.texts site.line, ¬ isTerminator (trim extent.last) := by
  constructor
  · intro offered
    obtain ⟨fix, fix_eq⟩ := Option.isSome_iff_exists.mp offered
    obtain ⟨extent⟩ := exists_extent_of_fallthrough fix_eq
    refine ⟨extent, fun leaves => ?_⟩
    obtain ⟨_, -, -, -, given⟩ := fallthrough_eq extent rfl rfl
    rw [given, if_pos leaves] at fix_eq
    exact absurd fix_eq.symm (Option.some_ne_none fix)
  · rintro ⟨extent, stays⟩
    obtain ⟨_, -, -, -, given⟩ := fallthrough_eq extent rfl rfl
    rw [given, if_neg stays]
    rfl

/-- A break is offered exactly if the last line of the clause's body does not leave the clause.  In
a document in which no line text ends in a carriage return it is put on a line of its own behind
that line, indented deeper than the label, and nothing else changes.  The same report then gives no
repair. -/
theorem break_added_inside_once (site : Site) :
    ((fallthrough site).isSome ↔
      ∃ extent : Extent site.document.texts site.line, ¬ isTerminator (trim extent.last)) ∧
    ∀ fix, fallthrough site = some fix →
      (∀ text ∈ site.document.texts, text.getLast? ≠ some '\r') →
      ∃ (extent : Extent site.document.texts site.line) (indent result : Text),
        (∀ c ∈ indent, isBlank c) ∧
        byteSize (indentation extent.head) < byteSize indent ∧
        fix.applied? site.document = some result ∧
        (Document.ofText result).texts = extent.above ++ extent.head :: (extent.inner ++
          extent.last :: (indent ++ "break;") :: (extent.blanks ++ extent.below)) ∧
        ∀ again : Site, again.document = .ofText result → again.line = site.line →
          fallthrough again = none := by
  refine ⟨fallthrough_isSome_iff, fun fix offered unreturned => ?_⟩
  obtain ⟨extent, stays⟩ := fallthrough_isSome_iff.mp (Option.isSome_of_eq_some offered)
  obtain ⟨indent, blank, newline_free, longer, given⟩ := fallthrough_eq extent rfl rfl
  rw [offered, if_neg stays] at given
  obtain rfl := Option.some.inj given
  have fills : Line.Fills (indent ++ "break;") := by
    refine Line.fills_of_unreturned ?_ (by simp)
    simpa using newline_free
  obtain ⟨result, applied, texts_eq⟩ := Document.exists_inserted unreturned extent.last_lt
    (List.cons_ne_nil _ []) (List.forall_mem_singleton.mpr fills)
  rw [extent.take_last, extent.drop_last] at texts_eq
  have texts_laid : (Document.ofText result).texts = extent.above ++ extent.head :: (extent.inner ++
      extent.last :: (indent ++ "break;") :: (extent.blanks ++ extent.below)) := by
    rw [texts_eq]
    simp
  refine ⟨extent, indent, result, blank, longer, ?_, texts_laid, ?_⟩
  · rw [← applied]
    simp [Fix.applied?, Site.fix, Fix.ofEdit, Fix.ofEdits]
  · intro again same_text same_line
    exact fallthrough_of_break blank extent (same_text ▸ texts_laid) same_line

/-- A clause of a `switch` statement that lies in another one, with its statements. -/
def nestedSwitch (statements : List Text) : Text :=
  let above : List Text := ["switch (x) \x7b", "  case 1:", "    switch (y) \x7b", "      case 2:"]
  let below : List Text := ["    \x7d", "    b();", "\x7d"]
  (above ++ statements ++ below).flatMap (· ++ "\n")

/-- The inner clause falls through to the end of its statement. -/
def switchWithoutBreak : Text := nestedSwitch ["        a();"]

/-- The inner clause is left. -/
def switchWithBreak : Text := nestedSwitch ["        a();", "        break;"]

/-- A report about the line behind the inner clause. -/
def missingBreak (text : Text) : Site := .reporting "no-fallthrough" text (.onLine 6 0 1)

theorem break_added_above_reported_line :
    (∀ text ∈ (Document.ofText switchWithoutBreak).texts, text.getLast? ≠ some '\r') ∧
    ∃ fix, fallthrough (missingBreak switchWithoutBreak) = some fix ∧
      fix.applied? (.ofText switchWithoutBreak) = some switchWithBreak ∧
      fallthrough (missingBreak switchWithBreak) = none := by
  let document := Document.ofText switchWithoutBreak
  let edit := document.insertAfterLine 4 "        break;\n"
  let fix := (missingBreak switchWithoutBreak).fix "Add `break`" edit
  have unreturned : ∀ text ∈ document.texts, text.getLast? ≠ some '\r' := by decide +kernel
  have edit_inside : ∀ e ∈ [edit], document.containsRange e.range := by decide +kernel
  have offered : fallthrough (missingBreak switchWithoutBreak) = some fix := by decide +kernel
  have applied : fix.applied? (.ofText switchWithoutBreak) = some switchWithBreak := by
    rw [Fix.applied?]
    refine (Document.applyEdits?_eq_assemble? edit_inside).trans ?_
    rw [List.map_singleton, List.mergeSort_singleton]
    decide +kernel
  obtain ⟨_, _, result, -, -, same, -, settled⟩ :=
    (break_added_inside_once (missingBreak switchWithoutBreak)).2 fix offered unreturned
  obtain rfl := Option.some.inj (same.symm.trans applied)
  have same_line : (missingBreak switchWithBreak).line = (missingBreak switchWithoutBreak).line :=
    (Site.line_reporting _ _ _).trans (Site.line_reporting _ _ _).symm
  exact ⟨unreturned, fix, offered, applied, settled (missingBreak switchWithBreak) rfl same_line⟩

end Repair

end LintRepair
