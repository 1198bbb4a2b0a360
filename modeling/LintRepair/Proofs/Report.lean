import LintRepair.Proofs.Document.Clamp
import LintRepair.Report.Basic

/-!
# Converted coordinates

The tool gives its places as it likes: lines and columns of either sign, ends before starts, columns
inside a character.  Every range converted from them is addressable in the document it is converted
for, and a range that is addressable to begin with is converted exactly.
-/

namespace LintRepair

namespace Report

namespace Place

/-- Whether a place stands for a position: its line is counted from one, its column from zero. -/
def Denotes (place : Place) (p : Position) : Prop :=
  place.line.toInt - 1 = p.line ∧ place.col.toInt = p.column

theorem isAddressable_toPosition (place : Place) (d : Document) :
    d.IsAddressable (place.toPosition d) :=
  d.isAddressable_clamp _

theorem Denotes.toPosition_eq {place : Place} {d : Document} {p : Position}
    (denotes : place.Denotes p) (addressable : d.IsAddressable p) : place.toPosition d = p := by
  obtain ⟨line_eq, column_eq⟩ := denotes
  rw [toPosition, line_eq, column_eq, Int.toNat_natCast, Int.toNat_natCast]
  exact d.clamp_eq_self addressable

end Place

namespace Entry

/-- The range of a converted entry lies in the document, whatever the tool reported; ends that are
addressable and in order are kept. -/
theorem converted_range_safe_and_exact (e : Entry) (d : Document) (severity : Severity)
    (docsBase : Text) :
    let range := (e.toDiagnostic d severity docsBase).range
    range.start ≤ range.stop ∧ d.containsRange range ∧
      ∀ start stop, e.span.start.Denotes start → e.span.stop.Denotes stop →
        (d.offset? start).isSome → (d.offset? stop).isSome → start ≤ stop →
        range.start = start ∧ range.stop = stop := by
  intro range
  refine ⟨range.ordered, ?_, ?_⟩
  · exact Document.containsRange_between (e.span.start.isAddressable_toPosition d)
      (e.span.stop.isAddressable_toPosition d)
  · intro start stop start_denoted stop_denoted start_found stop_found ordered
    have range_eq : range = .between start stop := by
      simp only [range, toDiagnostic]
      rw [start_denoted.toPosition_eq (Document.offset?_isSome_iff.mp start_found),
        stop_denoted.toPosition_eq (Document.offset?_isSome_iff.mp stop_found)]
    have not_reversed : ¬ stop < start := by
      rw [Position.le_iff] at ordered
      rw [Position.lt_iff]
      omega
    rw [range_eq]
    exact ⟨Range.start_between start stop, Range.stop_between not_reversed⟩

/-- An entry from behind a character of two bytes to the line after a carriage return. -/
def accentedEntry : Entry where
  span := ⟨⟨1, 2⟩, ⟨2, 1⟩⟩
  filename := "a.ts"
  message := "unused"
  code := "no-unused-vars"
  hint := none
  docs := none
  related := []

/-- The text that entry is about. -/
def accentedDocument : Document := .ofText "é = 1;\r\nb"

theorem converted_range_safe_and_exact_over_lines :
    let range := (accentedEntry.toDiagnostic accentedDocument .error "").range
    accentedEntry.span.start.Denotes ⟨0, 2⟩ ∧ accentedEntry.span.stop.Denotes ⟨1, 1⟩ ∧
      (accentedDocument.offset? ⟨0, 2⟩).isSome ∧ (accentedDocument.offset? ⟨1, 1⟩).isSome ∧
      (⟨0, 2⟩ : Position) ≤ ⟨1, 1⟩ ∧ range.start = ⟨0, 2⟩ ∧ range.stop = ⟨1, 1⟩ := by
  intro range
  have start_denoted : accentedEntry.span.start.Denotes ⟨0, 2⟩ := ⟨by decide, by decide⟩
  have stop_denoted : accentedEntry.span.stop.Denotes ⟨1, 1⟩ := ⟨by decide, by decide⟩
  have start_found : (accentedDocument.offset? ⟨0, 2⟩).isSome := by decide
  have stop_found : (accentedDocument.offset? ⟨1, 1⟩).isSome := by decide
  have ordered : (⟨0, 2⟩ : Position) ≤ ⟨1, 1⟩ := by decide
  exact ⟨start_denoted, stop_denoted, start_found, stop_found, ordered,
    (converted_range_safe_and_exact accentedEntry accentedDocument .error "").2.2 _ _
      start_denoted stop_denoted start_found stop_found ordered⟩

/-- The least line and a column inside the first character are moved to the start of the text. -/
example : Place.toPosition ⟨Int64.minValue, 1⟩ accentedDocument = ⟨0, 0⟩ := by decide

end Entry

end Report

end LintRepair
