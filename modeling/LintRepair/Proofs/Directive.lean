import LintRepair.Directive
import LintRepair.Proofs.Document.Range
import LintRepair.Proofs.Least

/-!
# Directives in a document

A directive that a search finds is on a line of the document, so the edit that takes a code from it
is addressable.
-/

namespace LintRepair

namespace Document

theorem lt_lineCount_of_directive? {d : Document} {line : Nat} {directive : Directive}
    (found : d.directive? line = some directive) : line < d.lineCount := by
  obtain ⟨text, text_found, -⟩ := Option.bind_eq_some_iff.mp found
  exact line?_isSome_iff.mp (Option.isSome_of_eq_some text_found)

/-- The nearest accepted directive is a directive of the document, and accepted. -/
theorem directive?_of_nearestDirective? {d : Document} {range : Range} {before after : Nat}
    {accept : Directive → Bool} {line : Nat} {directive : Directive}
    (found : d.nearestDirective? range before after accept = some (line, directive)) :
    d.directive? line = some directive ∧ accept directive := by
  obtain ⟨other, -, accepted⟩ := List.mem_filterMap.mp (mem_of_firstLeast? found)
  obtain ⟨_, kept, same⟩ := Option.map_eq_some_iff.mp accepted
  obtain ⟨rfl, rfl⟩ := Prod.mk.inj same
  exact Option.filter_eq_some_iff.mp kept

theorem containsRange_removalEdit? {d : Document} {line : Nat} {directive : Directive}
    {code : Text} {e : Edit} (inside : line < d.lineCount)
    (removal : d.removalEdit? line directive code = some e) : d.containsRange e.range := by
  obtain ⟨change, -, rfl⟩ := Option.map_eq_some_iff.mp removal
  exact containsRange_changeLine inside change

end Document

end LintRepair
