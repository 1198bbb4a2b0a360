import LintRepair.Proofs.Provider
import LintRepair.Repair.CaseClause

/-!
# Case clauses

The clause that a line lies in has its label and its last body line in the document, the label
first.  So the lines that its repairs add stand at different places.
-/

namespace LintRepair

namespace CaseClause

theorem body_lastLine {width index last : Nat} {lines : List Text}
    (found : (body width index lines).2 = some last) :
    index ≤ last ∧ last < index + lines.length := by
  induction lines generalizing index last with
  | nil => contradiction
  | cons line lines ih =>
      rw [body] at found
      split at found
      · have later := ih found
        simp only [List.length_cons]
        omega
      · split at found
        · contradiction
        · cases tail : (body width (index + 1) lines).2 with
          | none =>
              obtain rfl : index = last := by simpa [tail] using found
              simp
          | some later =>
              obtain rfl : later = last := by simpa [tail] using found
              have later_inside := ih tail
              simp only [List.length_cons]
              omega

/-- The label of a clause is on a line of the document, and its last body line on a later one. -/
theorem enclosing?_inside {d : Document} {line : Nat} {clause : CaseClause}
    (found : enclosing? d line = some clause) :
    clause.label < d.lineCount ∧
      ∀ last, clause.lastLine = some last → clause.label < last ∧ last < d.lineCount := by
  simp only [enclosing?, Option.bind_eq_bind, Option.bind_eq_some_iff] at found
  obtain ⟨label, -, text, label_text, made⟩ := found
  have label_inside := Document.line?_isSome_iff.mp (Option.isSome_of_eq_some label_text)
  obtain rfl := Option.some.inj made
  refine ⟨label_inside, fun last last_found => ?_⟩
  have body_inside := body_lastLine last_found
  simp only [List.length_map, List.length_drop] at body_inside
  change label < last ∧ last < d.lineCount
  unfold Document.lineCount at label_inside ⊢
  omega

end CaseClause

namespace Repair

variable {site : Site}

theorem allows_fallthrough : site.Allows (fallthrough site) := by
  refine .bind fun clause clause_found => .bind fun last last_found => ?_
  refine .bind fun text _ => .bind fun _ _ => .some (Site.isUsable_fix _ _ ?_)
  have inside := (CaseClause.enclosing?_inside clause_found).2 last last_found
  exact Document.containsRange_insertAfterLine inside.2 _

/-- The opening brace is behind the label, the closing one on a line below it. -/
theorem allows_caseDeclarations : site.Allows (caseDeclarations site) := by
  refine .bind fun clause clause_found => .bind fun text _ => .bind fun _ _ => ?_
  refine .bind fun last last_found => .some ?_
  obtain ⟨label_inside, body_inside⟩ := CaseClause.enclosing?_inside clause_found
  obtain ⟨label_first, last_inside⟩ := body_inside last last_found
  have closing_inside := Document.containsRange_insertAfterLine last_inside
    (clause.indent ++ ['}', '\n'])
  have opening_inside := Document.containsRange_empty.mpr
    (Document.isAddressable_lineEnd label_inside)
  rw [Fix.isUsable_iff]
  constructor
  · simp only [Fix.ofEdits, List.forall_mem_cons]
    exact ⟨opening_inside, closing_inside, by simp⟩
  · refine List.pairwise_pair.mpr ?_
    rw [Edit.overlaps, Document.insertAfterLine_range]
    intro overlap
    have same_place := congrArg Position.line (Range.overlaps_empty_iff.mp overlap)
    split at same_place
    · change clause.label = last + 1 at same_place
      omega
    · change clause.label = last at same_place
      omega

end Repair

end LintRepair
