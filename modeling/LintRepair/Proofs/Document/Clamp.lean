import LintRepair.Proofs.Document.Range

/-!
# Clamped positions

Clamping moves a position onto an addressable one: to the last line when there is no such line, and
there back to a cut of the line's text.  A position that is addressable stays where it is.
-/

namespace LintRepair

namespace Document

/-- Clamping keeps to the lines of a document, and to the cuts of the line it arrives at. -/
theorem exists_clamp_eq (d : Document) (p : Position) :
    ∃ line, d.lines[min p.line d.lastLine]? = some line ∧
      d.clamp p = ⟨min p.line d.lastLine, Text.floor line.text p.column⟩ := by
  have inside : min p.line d.lastLine < d.lineCount :=
    Nat.lt_of_le_of_lt (Nat.min_le_right _ _) d.lastLine_lt
  obtain ⟨line, found⟩ := exists_line inside
  refine ⟨line, found, ?_⟩
  rw [clamp, line?_eq_some found, Option.getD_some]

theorem isAddressable_clamp (d : Document) (p : Position) : d.IsAddressable (d.clamp p) := by
  obtain ⟨line, found, clamp_eq⟩ := d.exists_clamp_eq p
  rw [clamp_eq]
  exact ⟨line, found, Text.isCut_floor _ _⟩

theorem clamp_eq_self {d : Document} {p : Position} (addressable : d.IsAddressable p) :
    d.clamp p = p := by
  have line_kept : min p.line d.lastLine = p.line :=
    Nat.min_eq_left (Nat.le_sub_one_of_lt addressable.line_lt)
  obtain ⟨line, found, cut⟩ := addressable
  obtain ⟨clamped, clamped_found, clamp_eq⟩ := d.exists_clamp_eq p
  rw [line_kept] at clamped_found clamp_eq
  obtain rfl : line = clamped := Option.some.inj (found.symm.trans clamped_found)
  rw [clamp_eq, Text.floor_eq_of_isCut cut]

end Document

end LintRepair
