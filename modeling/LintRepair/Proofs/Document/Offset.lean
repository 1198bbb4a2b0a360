import LintRepair.Document.Basic
import LintRepair.Proofs.Document.Line

/-!
# Addressable positions

A position is addressable when its line exists and its column is a cut of the line's text.  These
are the positions that have a byte offset; the offset is a cut of the whole text, and offsets are
ordered as their positions are.
-/

namespace LintRepair

namespace Position

theorem le_iff {p q : Position} :
    p ≤ q ↔ p.line < q.line ∨ (p.line = q.line ∧ p.column ≤ q.column) := Iff.rfl

theorem lt_iff {p q : Position} :
    p < q ↔ p.line < q.line ∨ (p.line = q.line ∧ p.column < q.column) := Iff.rfl

theorem eq_iff {p q : Position} : p = q ↔ p.line = q.line ∧ p.column = q.column := by
  cases p
  cases q
  simp

end Position

namespace Document

theorem lines_isLayout (d : Document) : Line.IsLayout d.lines :=
  d.lines_eq ▸ Line.split_isLayout d.text

theorem lines_source (d : Document) : d.lines.flatMap Line.source = d.text := by
  rw [d.lines_eq, Line.split_source]

theorem lineCount_pos (d : Document) : 0 < d.lineCount :=
  List.length_pos_iff.mpr d.lines_isLayout.nonempty

theorem lastLine_lt (d : Document) : d.lastLine < d.lineCount := by
  have positive := d.lineCount_pos
  unfold lastLine
  omega

theorem exists_line {d : Document} {i : Nat} (inside : i < d.lineCount) :
    ∃ line, d.lines[i]? = some line :=
  ⟨_, List.getElem?_eq_getElem inside⟩

/-- A line that another one follows ends in a newline. -/
theorem isBreak_of_lt {d : Document} {i : Nat} {line : Line} (found : d.lines[i]? = some line)
    (followed : i + 1 < d.lineCount) : line.ending.isBreak := by
  apply d.lines_isLayout.breaks
  have inside : i < d.lines.dropLast.length := by
    rw [List.length_dropLast]
    exact Nat.lt_sub_of_add_lt followed
  have kept : d.lines.dropLast[i]? = some line := by
    rw [List.getElem?_dropLast, if_pos (by simpa using inside), found]
  exact List.mem_of_getElem? kept

theorem lineStart_succ {d : Document} {i : Nat} {line : Line} (found : d.lines[i]? = some line) :
    d.lineStart (i + 1) = d.lineStart i + Text.byteSize line.source := by
  simp [lineStart, List.take_add_one, found]

theorem lineStart_le_succ (d : Document) (i : Nat) : d.lineStart i ≤ d.lineStart (i + 1) := by
  cases found : d.lines[i]? with
  | none => simp [lineStart, List.take_add_one, found]
  | some line =>
      rw [lineStart_succ found]
      exact Nat.le_add_right _ _

theorem lineStart_mono (d : Document) {i j : Nat} (ordered : i ≤ j) :
    d.lineStart i ≤ d.lineStart j := by
  induction ordered with
  | refl => exact Nat.le_refl _
  | step _ ih => exact Nat.le_trans ih (d.lineStart_le_succ _)

/-- Whether a position names a line and a cut of its text. -/
def IsAddressable (d : Document) (p : Position) : Prop :=
  ∃ line, d.lines[p.line]? = some line ∧ Text.IsCut line.text p.column

theorem IsAddressable.line_lt {d : Document} {p : Position} (addressable : d.IsAddressable p) :
    p.line < d.lineCount := by
  obtain ⟨line, found, -⟩ := addressable
  exact (List.getElem?_eq_some_iff.mp found).1

theorem offset?_eq_some_iff {d : Document} {p : Position} {offset : Nat} :
    d.offset? p = some offset ↔
      d.IsAddressable p ∧ d.lineStart p.line + p.column = offset := by
  simp only [offset?, line?, IsAddressable, Option.bind_eq_bind, Option.pure_def]
  cases found : d.lines[p.line]? with
  | none => simp
  | some line =>
      cases cut : Text.cut? line.text p.column with
      | none =>
          have uncut : ¬ Text.IsCut line.text p.column := by
            rw [← Text.cut?_isSome_iff, cut]
            simp
          simp [uncut, cut]
      | some parts =>
          have isCut : Text.IsCut line.text p.column := by
            rw [← Text.cut?_isSome_iff, cut]
            rfl
          simp [isCut, cut]

theorem offset?_isSome_iff {d : Document} {p : Position} :
    (d.offset? p).isSome ↔ d.IsAddressable p := by
  simp [Option.isSome_iff_exists, offset?_eq_some_iff]

theorem containsRange_iff {d : Document} {r : Range} :
    d.containsRange r ↔ d.IsAddressable r.start ∧ d.IsAddressable r.stop := by
  simp [containsRange, offset?_isSome_iff]

/-- A text is what stands before one of its lines, the line with its ending, and what follows. -/
theorem text_eq_around {d : Document} {i : Nat} {line : Line} (found : d.lines[i]? = some line) :
    d.text = (d.lines.take i).flatMap Line.source ++ line.source ++
      (d.lines.drop (i + 1)).flatMap Line.source := by
  obtain ⟨inside, line_eq⟩ := List.getElem?_eq_some_iff.mp found
  have rest_eq : d.lines.drop i = line :: d.lines.drop (i + 1) := by
    rw [List.drop_eq_getElem_cons inside, line_eq]
  calc
    d.text = (d.lines.take i ++ d.lines.drop i).flatMap Line.source := by
      rw [List.take_append_drop, lines_source]
    _ = _ := by rw [rest_eq, List.flatMap_append, List.flatMap_cons, List.append_assoc]

/-- The offset of a position is a cut of the whole text. -/
theorem isCut_of_offset? {d : Document} {p : Position} {offset : Nat}
    (found : d.offset? p = some offset) : Text.IsCut d.text offset := by
  obtain ⟨⟨line, line_found, cut⟩, rfl⟩ := offset?_eq_some_iff.mp found
  rw [text_eq_around line_found, Line.source, lineStart]
  exact ((cut.append_right _).append_left _).append_right _

/-- Offsets grow from one line to the next, since the ending between them takes up space. -/
private theorem offset_lt_of_line_lt {d : Document} {p q : Position}
    (p_addressable : d.IsAddressable p) (q_addressable : d.IsAddressable q)
    (earlier : p.line < q.line) :
    d.lineStart p.line + p.column < d.lineStart q.line + q.column := by
  have q_inside := q_addressable.line_lt
  obtain ⟨line, found, cut⟩ := p_addressable
  have column_le := cut.le_byteSize
  have ending_pos := LineEnding.byteSize_text_pos (isBreak_of_lt found (by omega))
  have next_start := lineStart_succ found
  have start_le : d.lineStart (p.line + 1) ≤ d.lineStart q.line := d.lineStart_mono earlier
  rw [Line.source, Text.byteSize_append] at next_start
  omega

/-- Offsets are ordered as their positions are. -/
theorem offset?_lt_iff {d : Document} {p q : Position} {a b : Nat}
    (p_found : d.offset? p = some a) (q_found : d.offset? q = some b) : a < b ↔ p < q := by
  obtain ⟨p_addressable, rfl⟩ := offset?_eq_some_iff.mp p_found
  obtain ⟨q_addressable, rfl⟩ := offset?_eq_some_iff.mp q_found
  rw [Position.lt_iff]
  rcases Nat.lt_trichotomy p.line q.line with earlier | same | later
  · have grows := offset_lt_of_line_lt p_addressable q_addressable earlier
    omega
  · rw [same]
    omega
  · have shrinks := offset_lt_of_line_lt q_addressable p_addressable later
    omega

theorem offset?_inj {d : Document} {p q : Position} {a b : Nat}
    (p_found : d.offset? p = some a) (q_found : d.offset? q = some b) : a = b ↔ p = q := by
  have below := offset?_lt_iff p_found q_found
  have above := offset?_lt_iff q_found p_found
  rw [Position.lt_iff] at below above
  rw [Position.eq_iff]
  omega

theorem offset?_le_iff {d : Document} {p q : Position} {a b : Nat}
    (p_found : d.offset? p = some a) (q_found : d.offset? q = some b) : a ≤ b ↔ p ≤ q := by
  have above := offset?_lt_iff q_found p_found
  rw [Position.lt_iff] at above
  rw [Position.le_iff]
  omega

end Document

end LintRepair
