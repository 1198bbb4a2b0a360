import LintRepair.Dispatcher
import LintRepair.Proofs.Edit.Overlap

/-!
# What the dispatcher lets through

Every fix that the dispatcher offers for a diagnostic can be applied to the document, and a fix that
it prefers has edits.
-/

namespace LintRepair

theorem Provider.isUsable_of_mem_usableFixes {provider : Provider} {site : Site} {fix : Fix}
    (member : fix ∈ provider.usableFixes site) : fix.isUsable site.document :=
  (List.mem_filter.mp member).2

namespace Dispatcher

theorem isUsable_of_mem_ruleFixes {dispatcher : Dispatcher} {diagnostic : Diagnostic}
    {document : Document} {fix : Fix} (member : fix ∈ dispatcher.ruleFixes diagnostic document) :
    fix.isUsable document := by
  simp only [ruleFixes] at member
  generalize found : List.find? _ _ = chosen at member
  cases chosen with
  | none => simp at member
  | some fixes =>
      obtain ⟨provider, -, rfl⟩ := List.mem_map.mp (List.mem_of_find?_eq_some found)
      exact Provider.isUsable_of_mem_usableFixes member

theorem isUsable_of_mem_listFixes {dispatcher : Dispatcher} {diagnostics : List Diagnostic}
    {requested : Range} {document : Document} {fix : Fix}
    (member : fix ∈ dispatcher.listFixes diagnostics requested document) :
    fix.isUsable document := by
  rcases List.mem_append.mp member with fixes | actions
  · obtain ⟨diagnostic, -, offered⟩ := List.mem_flatMap.mp fixes
    exact isUsable_of_mem_ruleFixes offered
  · obtain ⟨diagnostic, -, offered⟩ := List.mem_flatMap.mp actions
    exact Provider.isUsable_of_mem_usableFixes offered

/-- A preferred fix has edits, all of them addressable and no two overlapping. -/
theorem preferredFix?_eq_some {dispatcher : Dispatcher} {diagnostic : Diagnostic}
    {document : Document} {fix : Fix}
    (preferred : dispatcher.preferredFix? diagnostic document = some fix) :
    fix.edits ≠ [] ∧ (∀ e ∈ fix.edits, document.containsRange e.range) ∧
      Edit.Disjoint fix.edits := by
  unfold preferredFix? at preferred
  split at preferred
  · have accepted := List.find?_some preferred
    have usable := isUsable_of_mem_ruleFixes (List.mem_of_find?_eq_some preferred)
    simp only [Bool.and_eq_true, Bool.not_eq_true', List.isEmpty_eq_false_iff] at accepted
    exact ⟨accepted.2, Fix.isUsable_iff.mp usable⟩
  · contradiction

end Dispatcher

end LintRepair
