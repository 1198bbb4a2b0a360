import LintRepair.Proofs.Document.Floor
import LintRepair.Proofs.Report

/-!
# Places moved onto a document

A place of the tool stands for a position, which is clamped onto the document.  It is moved to the
last addressable position that is not past it, except behind the last line, where a column inside of
that line is kept.  That is also where a range given in order may collapse.
-/

namespace LintRepair

namespace Report

namespace Place

/-- The position a place stands for; one before the first line or column is taken for the first. -/
def position (place : Place) : Position := ⟨(place.line.toInt - 1).toNat, place.col.toInt.toNat⟩

/-- The first place does not follow the second one, as the tool counts. -/
def Precedes (first second : Place) : Prop :=
  first.line < second.line ∨ first.line = second.line ∧ first.col ≤ second.col

theorem toPosition_eq (place : Place) (d : Document) :
    place.toPosition d = d.clamp place.position := rfl

variable {first second : Place}

theorem Precedes.line_le (ordered : first.Precedes second) :
    first.position.line ≤ second.position.line := by
  have lines : first.line.toInt ≤ second.line.toInt := by
    rcases ordered with earlier | ⟨same, -⟩
    · exact Int.le_of_lt (Int64.lt_iff_toInt_lt.mp earlier)
    · exact Int.le_of_eq (congrArg Int64.toInt same)
  exact Int.toNat_le_toNat (Int.sub_le_sub_right lines 1)

/-- From the first line on, places in order stand for positions in order. -/
theorem Precedes.position_le (ordered : first.Precedes second) (inside : 1 ≤ first.line.toInt) :
    first.position ≤ second.position := by
  rw [Position.le_iff]
  rcases ordered with earlier | ⟨same, columns⟩
  · have lines := Int64.lt_iff_toInt_lt.mp earlier
    simp only [position]
    omega
  · have same_line : first.position.line = second.position.line := by simp only [position, same]
    exact .inr ⟨same_line, Int.toNat_le_toNat (Int64.le_iff_toInt_le.mp columns)⟩

end Place

/-- A range given in order is moved end by end, and it collapses exactly if its ends cross. -/
theorem Entry.range_toDiagnostic (e : Entry) (d : Document) (severity : Severity) (docsBase : Text)
    (ordered : e.span.start.Precedes e.span.stop) :
    let range := (e.toDiagnostic d severity docsBase).range
    range.start = d.clamp e.span.start.position ∧
      (range.stop = d.clamp e.span.stop.position ↔
        ¬ d.Crosses e.span.start.position e.span.stop.position) := by
  intro range
  refine ⟨Range.start_between _ _, ?_⟩
  rw [← Document.clamp_le_clamp_iff ordered.line_le]
  exact Range.stop_between_iff

/-- Clamping finds the last addressable position that is not past a position exactly unless the
position falls short.  It keeps addressable positions, a second time nothing changes, and positions
in order stay in order exactly unless they cross.  A range of the tool that is in order is moved end
by end exactly unless its ends cross, which takes an end that falls short if the range starts on the
first line or behind it. -/
theorem clamped_to_last_place_iff (d : Document) :
    (∀ p, IsGreatest (d.addressableUpTo p) (d.clamp p) ↔ ¬ d.FallsShort p) ∧
    (∀ p, d.IsAddressable p → d.clamp p = p) ∧
    (∀ p, d.clamp (d.clamp p) = d.clamp p) ∧
    (∀ p q, p ≤ q → (d.clamp p ≤ d.clamp q ↔ ¬ d.Crosses p q) ∧
      (d.Crosses p q → d.lastLine ≤ p.line ∧ d.FallsShort q)) ∧
    ∀ (e : Entry) (severity : Severity) (docsBase : Text),
      e.span.start.Precedes e.span.stop →
      let range := (e.toDiagnostic d severity docsBase).range
      range.start = d.clamp e.span.start.position ∧
        (range.stop = d.clamp e.span.stop.position ↔
          ¬ d.Crosses e.span.start.position e.span.stop.position) ∧
        (1 ≤ e.span.start.line.toInt →
          d.Crosses e.span.start.position e.span.stop.position →
          d.FallsShort e.span.stop.position) := by
  refine ⟨fun p => Document.isGreatest_clamp_iff, fun p => Document.clamp_eq_self,
    d.clamp_clamp, fun p q ordered => ⟨?_, fun crosses => crosses.of_le ordered⟩,
    fun e severity docsBase ordered => ?_⟩
  · refine Document.clamp_le_clamp_iff ?_
    rw [Position.le_iff] at ordered
    omega
  · obtain ⟨start_eq, stop_iff⟩ := e.range_toDiagnostic d severity docsBase ordered
    exact ⟨start_eq, stop_iff, fun inside crosses =>
      (crosses.of_le (ordered.position_le inside)).2⟩

/-- An entry of the tool between two places. -/
def entryBetween (start stop : Place) : Entry where
  span := ⟨start, stop⟩
  filename := "a.ts"
  message := "unused"
  code := "no-unused-vars"
  hint := none
  docs := none
  related := []

/-- A text whose last line has two characters. -/
def shortDocument : Document := .ofText "abc\nde"

theorem clamped_to_last_place_of_short :
    let inLine : Position := ⟨0, 2⟩
    let behind : Position := ⟨7, 2⟩
    let e := entryBetween ⟨1, 2⟩ ⟨8, 2⟩
    let range := (e.toDiagnostic shortDocument .error "").range
    shortDocument.IsAddressable inLine ∧ inLine ≤ behind ∧ e.span.start.Precedes e.span.stop ∧
      ¬ shortDocument.FallsShort behind ∧ ¬ shortDocument.Crosses inLine behind ∧
      IsGreatest (shortDocument.addressableUpTo behind) (shortDocument.clamp behind) ∧
      shortDocument.clamp inLine = inLine ∧
      shortDocument.clamp inLine ≤ shortDocument.clamp behind ∧
      range.start = shortDocument.clamp inLine ∧ range.stop = shortDocument.clamp behind := by
  intro inLine behind e range
  have addressable : shortDocument.IsAddressable inLine :=
    Document.offset?_isSome_iff.mp (by decide)
  have in_order : inLine ≤ behind := by decide
  have ordered : e.span.start.Precedes e.span.stop := .inl (by decide)
  have reaches : ¬ shortDocument.FallsShort behind := by decide
  have apart : ¬ shortDocument.Crosses inLine behind := fun crosses => absurd crosses.1 (by decide)
  obtain ⟨greatest, kept, -, in_order_kept, moved⟩ := clamped_to_last_place_iff shortDocument
  obtain ⟨start_eq, stop_iff, -⟩ := moved e .error "" ordered
  exact ⟨addressable, in_order, ordered, reaches, apart, (greatest behind).mpr reaches,
    kept inLine addressable, (in_order_kept inLine behind in_order).1.mpr apart, start_eq,
    stop_iff.mpr apart⟩

/-- Behind the last line a column inside of that line is kept: the position is not moved to the end
of the document, a place before that end overtakes it, and a range from there collapses. -/
theorem end_of_document_missed :
    let behind : Position := ⟨9, 0⟩
    let lastEnd : Position := ⟨1, 2⟩
    let e := entryBetween ⟨2, 2⟩ ⟨10, 0⟩
    let range := (e.toDiagnostic shortDocument .error "").range
    lastEnd ∈ shortDocument.addressableUpTo behind ∧ shortDocument.clamp behind < lastEnd ∧
      shortDocument.clamp lastEnd = lastEnd ∧ e.span.start.Precedes e.span.stop ∧
      e.span.stop.position = behind ∧ range.start = lastEnd ∧
      range.stop ≠ shortDocument.clamp behind := by
  have addressable : shortDocument.IsAddressable ⟨1, 2⟩ :=
    Document.offset?_isSome_iff.mp (by decide)
  exact ⟨⟨addressable, by decide⟩, by decide, by decide, .inl (by decide), by decide, by decide,
    by decide⟩

end Report

end LintRepair
