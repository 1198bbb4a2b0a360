import LintRepair.Proofs.CaseClause.Extent
import LintRepair.Proofs.Edit.Below

/-!
# Braces around the body of a clause

The repair opens a brace behind the label and closes it on a line of its own behind the last line of
the body.  The clause then ends at that line, and the label does not stand alone on its line any
more, so the same report gives no repair.
-/

namespace LintRepair

namespace CaseClause

open Text

/-- A label with an opening brace behind it. -/
def opened (head : Text) : Text := head ++ [' ', '{']

/-- The line that closes the brace, indented like the label. -/
def closing (head : Text) : Text := indentation head ++ ['}']

section Head

variable {head : Text}

theorem indentation_opened (labelled : isLabel (trim head)) :
    indentation (opened head) = indentation head :=
  (indentation_append_of_visible (not_isAllBlank_of_isLabel labelled) _).1

theorem isLabel_opened (labelled : isLabel (trim head)) : isLabel (trim (opened head)) := by
  have started := (indentation_append_of_visible (not_isAllBlank_of_isLabel labelled) [' ', '{']).2
  have trimmed : trim (opened head) = trim head ++ (trailing (trimStart head) ++ [' ', '{']) := by
    calc
      trim (opened head) = trimEnd ((trimStart head ++ [' ']) ++ '{' :: []) := by
        rw [trim, opened, started, List.append_cons]
      _ = trimStart head ++ [' ', '{'] := by
        rw [trimEnd_append_cons_blank (by decide) (List.forall_mem_nil _), List.append_assoc]
        rfl
      _ = trim head ++ (trailing (trimStart head) ++ [' ', '{']) := by
        rw [trim, ← List.append_assoc, trimEnd_append_trailing]
  rw [trimmed]
  exact isLabel_append labelled _

/-- A label with an opening brace behind it does not stand alone. -/
theorem not_endsWith_opened (head : Text) : ¬ endsWith (trimEnd (opened head)) ":" := by
  have trimmed : trimEnd (opened head) = (head ++ [' ']) ++ ['{'] := by
    rw [opened, List.append_cons]
    exact trimEnd_append_cons_blank (by decide) (List.forall_mem_nil _) _
  rw [trimmed, endsWith, Option.isSome_iff_exists]
  rintro ⟨front, found⟩
  have last := congrArg List.getLast? (before?_eq_some_iff.mp found)
  rw [List.getLast?_concat] at last
  have last_front : (front ++ (":" : Text)).getLast? = some ':' := List.getLast?_concat
  rw [last_front] at last
  contradiction

theorem trim_closing (head : Text) : trim (closing head) = ['}'] := by
  rw [closing, trim_blanks_append fun _ => blank_of_mem_indentation]
  decide

theorem closes_closing (head : Text) : Closes head (closing head) := by
  refine ⟨.inr (by rw [trim_closing]; rfl), Nat.le_of_eq (congrArg byteSize ?_)⟩
  exact indentation_append_cons (fun _ => blank_of_mem_indentation) (by decide) []

theorem not_isLabel_closing (head : Text) : ¬ isLabel (trim (closing head)) := by
  rw [trim_closing]
  decide

end Head

namespace Extent

variable {texts : List Text} {line : Nat}

/-- The lines with braces around the body. -/
def bracedTexts (extent : Extent texts line) : List Text :=
  extent.above ++ opened extent.head :: (extent.inner ++
    extent.last :: closing extent.head :: (extent.blanks ++ extent.below))

/-- The extent with braces around the body: the closing one ends the clause. -/
def braced (extent : Extent texts line) : Extent extent.bracedTexts line where
  above := extent.above
  head := opened extent.head
  inner := extent.inner
  last := extent.last
  blanks := []
  below := closing extent.head :: (extent.blanks ++ extent.below)
  texts_eq := rfl
  labelled := isLabel_opened extent.labelled
  label_le := extent.label_le
  reached := extent.reached
  nearest := by
    intro text member
    rw [List.nil_append, List.append_cons] at member
    rcases mem_take_of_inserted member with rfl | kept
    · exact not_isLabel_closing extent.head
    · exact extent.nearest text (by simpa using kept)
  inside := by
    intro text member closes
    rw [Closes, indentation_opened extent.labelled] at closes
    exact extent.inside text member closes
  visible := extent.visible
  blank := List.forall_mem_nil _
  closed := by
    intro text member
    obtain rfl := Option.some.inj member
    rw [Closes, indentation_opened extent.labelled]
    exact closes_closing extent.head

end Extent

end CaseClause

namespace Repair

open Text CaseClause

variable {site : Site}

theorem exists_extent_of_caseDeclarations {fix : Fix} (offered : caseDeclarations site = some fix) :
    Nonempty (Extent site.document.texts site.line) := by
  simp only [caseDeclarations, Option.bind_eq_bind, Option.bind_eq_some_iff] at offered
  obtain ⟨clause, found, -, -, -, -, last, last_found, -⟩ := offered
  obtain ⟨extent, -⟩ := exists_extent found last_found
  exact ⟨extent⟩

/-- Where there is a body, braces are offered if the label stands alone on its line. -/
theorem caseDeclarations_eq {texts : List Text} {line : Nat} (extent : Extent texts line)
    (texts_eq : site.document.texts = texts) (line_eq : site.line = line) :
    caseDeclarations site =
      if endsWith (trimEnd extent.head) ":" then
        some (.ofEdits "Add braces to case clause" site.diagnostic
          [.insert (site.document.lineEnd extent.above.length) [' ', '{'],
            site.document.insertAfterLine (extent.above.length + 1 + extent.inner.length)
              (closing extent.head ++ "\n")])
      else none := by
  subst texts_eq line_eq
  obtain ⟨bodyIndent, found, -⟩ := extent.enclosing?_eq
  have label_found := extent.getElem?_label
  rw [Document.getElem?_texts] at label_found
  simp only [caseDeclarations, found, label_found, Option.bind_eq_bind, Option.bind_some]
  have written : closing extent.head ++ "\n" = indentation extent.head ++ ['}', '\n'] := by
    rw [closing, List.append_assoc]
    rfl
  rw [written]
  cases endsWith (trimEnd extent.head) ":" <;> rfl

theorem caseDeclarations_isSome_iff :
    (caseDeclarations site).isSome ↔
      ∃ extent : Extent site.document.texts site.line, endsWith (trimEnd extent.head) ":" := by
  constructor
  · intro offered
    obtain ⟨fix, fix_eq⟩ := Option.isSome_iff_exists.mp offered
    obtain ⟨extent⟩ := exists_extent_of_caseDeclarations fix_eq
    refine ⟨extent, by_contra fun accompanied => ?_⟩
    rw [caseDeclarations_eq extent rfl rfl, if_neg accompanied] at fix_eq
    exact absurd fix_eq.symm (Option.some_ne_none fix)
  · rintro ⟨extent, alone⟩
    rw [caseDeclarations_eq extent rfl rfl, if_pos alone]
    rfl

/-- With the label alone on its line, the braces are put around the body. -/
theorem exists_applied_caseDeclarations {fix : Fix}
    (unreturned : ∀ text ∈ site.document.texts, text.getLast? ≠ some '\r')
    (extent : Extent site.document.texts site.line) (alone : endsWith (trimEnd extent.head) ":")
    (offered : caseDeclarations site = some fix) :
    ∃ result, fix.applied? site.document = some result ∧
      (Document.ofText result).texts = extent.bracedTexts := by
  rw [caseDeclarations_eq extent rfl rfl, if_pos alone] at offered
  obtain rfl := Option.some.inj offered
  have below : extent.above.length < extent.above.length + 1 + extent.inner.length := by omega
  have label_found := extent.getElem?_label
  have newline_free := Document.newline_not_mem_of_mem_texts (List.mem_of_getElem? label_found)
  have opened_fills : Line.Fills (extent.head ++ [' ', '{']) :=
    Line.fills_of_unreturned (by simpa using newline_free) (by simp)
  have closing_fills : Line.Fills (closing extent.head) := by
    refine Line.fills_of_unreturned (fun member => ?_) (by simp [closing])
    rcases List.mem_append.mp member with indented | brace
    · exact newline_free (List.takeWhile_subset _ indented)
    · contradiction
  rw [Document.getElem?_texts] at label_found
  obtain ⟨result, applied, texts_eq⟩ := Document.exists_appended_inserted unreturned label_found
    below extent.last_lt opened_fills closing_fills
  refine ⟨result, applied, texts_eq.trans ?_⟩
  rw [extent.take_last, extent.drop_last]
  simp [Extent.bracedTexts, opened]

/-- Around a body in braces none are offered any more. -/
theorem caseDeclarations_of_braced {texts : List Text} {line : Nat} (extent : Extent texts line)
    (texts_eq : site.document.texts = extent.bracedTexts) (line_eq : site.line = line) :
    caseDeclarations site = none :=
  (caseDeclarations_eq extent.braced texts_eq line_eq).trans
    (if_neg (not_endsWith_opened extent.head))

/-- Braces are offered exactly if the label of a clause with a body stands alone on its line, and
the two edits never overlap.  In a document in which no line text ends in a carriage return one
brace is put behind the label and one, indented like it, on a line of its own behind the last line
of the body, and nothing else changes.  The same report then gives no repair. -/
theorem braces_added_around_body_once (site : Site) :
    ((caseDeclarations site).isSome ↔
      ∃ extent : Extent site.document.texts site.line, endsWith (trimEnd extent.head) ":") ∧
    ∀ fix, caseDeclarations site = some fix →
      (∃ opening closing, fix.edits = [opening, closing] ∧ ¬ opening.overlaps closing) ∧
      ((∀ text ∈ site.document.texts, text.getLast? ≠ some '\r') →
        ∃ (extent : Extent site.document.texts site.line) (result : Text),
          fix.applied? site.document = some result ∧
          (Document.ofText result).texts = extent.above ++ (extent.head ++ [' ', '{']) ::
            (extent.inner ++ extent.last :: (indentation extent.head ++ ['}']) ::
              (extent.blanks ++ extent.below)) ∧
          ∀ again : Site, again.document = .ofText result → again.line = site.line →
            caseDeclarations again = none) := by
  refine ⟨caseDeclarations_isSome_iff, fun fix offered => ?_⟩
  obtain ⟨extent, alone⟩ := caseDeclarations_isSome_iff.mp (Option.isSome_of_eq_some offered)
  constructor
  · have disjoint := (Fix.isUsable_iff.mp (allows_caseDeclarations fix offered)).2
    rw [caseDeclarations_eq extent rfl rfl, if_pos alone] at offered
    obtain rfl := Option.some.inj offered
    exact ⟨_, _, rfl, List.pairwise_pair.mp disjoint⟩
  · intro unreturned
    obtain ⟨result, applied, texts_eq⟩ := exists_applied_caseDeclarations unreturned extent alone
      offered
    refine ⟨extent, result, applied, texts_eq, fun again same_text same_line => ?_⟩
    exact caseDeclarations_of_braced extent (same_text ▸ texts_eq) same_line

/-- A declaration in a clause that the end of the document ends. -/
def declaringClause : Text := "switch (x) \x7b\n  case 1:\n    f();\n  default : \r\n    let y = 2;"

/-- The same clause with braces around its body. -/
def bracedClause : Text :=
  "switch (x) \x7b\n  case 1:\n    f();\n  default :  \x7b\r\n    let y = 2;\n  \x7d"

/-- A report about the declaration. -/
def bareDeclaration (text : Text) : Site := .reporting "no-case-declarations" text (.onLine 4 0 1)

theorem braces_added_at_end_of_document :
    (∀ text ∈ (Document.ofText declaringClause).texts, text.getLast? ≠ some '\r') ∧
    ∃ fix, caseDeclarations (bareDeclaration declaringClause) = some fix ∧
      fix.applied? (.ofText declaringClause) = some bracedClause ∧
      caseDeclarations (bareDeclaration bracedClause) = none := by
  let site := bareDeclaration declaringClause
  let document := Document.ofText declaringClause
  let edits := [.insert (document.lineEnd 3) [' ', '{'], document.insertAfterLine 4 "  \x7d\n"]
  let fix := Fix.ofEdits "Add braces to case clause" site.diagnostic edits
  have unreturned : ∀ text ∈ document.texts, text.getLast? ≠ some '\r' := by decide +kernel
  have edits_inside : ∀ e ∈ edits, document.containsRange e.range := by decide +kernel
  have offered : caseDeclarations (bareDeclaration declaringClause) = some fix := by decide +kernel
  have applied : fix.applied? document = some bracedClause := by
    rw [Fix.applied?]
    refine (Document.applyEdits?_eq_assemble? edits_inside).trans ?_
    rw [List.mergeSort_of_pairwise (by decide +kernel)]
    decide +kernel
  obtain ⟨-, braced⟩ := (braces_added_around_body_once _).2 fix offered
  obtain ⟨_, result, same, -, settled⟩ := braced unreturned
  obtain rfl := Option.some.inj (same.symm.trans applied)
  have same_line : (bareDeclaration bracedClause).line = (bareDeclaration declaringClause).line :=
    (Site.line_reporting _ _ _).trans (Site.line_reporting _ _ _).symm
  exact ⟨unreturned, fix, offered, applied, settled (bareDeclaration bracedClause) rfl same_line⟩

end Repair

end LintRepair
