import LintRepair.Proofs.Document.Layout
import Mathlib.Data.Nat.Find

/-!
# Positions and offsets

Asking for the offset of an addressable position and looking an offset up undo each other.  An
offset belongs to the last line that starts at or before it.  Only right behind a carriage return
that is part of an ending there is no position; such an offset is moved back to the end of the
line's text.
-/

namespace LintRepair

/-- Whether an offset is right behind a carriage return that stands before a newline or at the end
of the text. -/
def Text.IsBehindReturn (s : Text) (offset : Nat) : Prop :=
  ∃ front rest, s = front ++ '\r' :: rest ∧ Text.byteSize front + 1 = offset ∧
    (rest = [] ∨ ∃ later, rest = '\n' :: later)

namespace Document

/-- Behind the lines before it, a line takes the offsets up to its end, and the last line all that
are left. -/
theorem locate_append {front rest : List Line} {line : Line} {k : Nat}
    (inside : k < Text.byteSize line.source ∨ rest = []) :
    locate (front ++ line :: rest) (Text.byteSize (front.flatMap Line.source) + k) =
      ⟨front.length, min k (Text.byteSize line.text)⟩ := by
  induction front with
  | nil =>
      cases rest with
      | nil => simp [locate]
      | cons next rest =>
          have short : k < Text.byteSize line.source := by simpa using inside
          simp [locate, short]
  | cons first front ih =>
      have offset_eq : Text.byteSize ((first :: front).flatMap Line.source) + k =
          Text.byteSize first.source + (Text.byteSize (front.flatMap Line.source) + k) := by
        rw [List.flatMap_cons, Text.byteSize_append, Nat.add_assoc]
      obtain ⟨next, later, later_eq⟩ : ∃ next later, front ++ line :: rest = next :: later :=
        List.exists_cons_of_ne_nil (by simp)
      rw [offset_eq, List.cons_append, later_eq, locate, if_neg (by omega), Nat.add_sub_cancel_left,
        ← later_eq, ih]
      rfl

section Line

variable {d : Document} {i k : Nat} {line : Line}

/-- The text of a line stands between the lines before it and its ending. -/
theorem text_eq_around_text (found : d.lines[i]? = some line) :
    d.text = (d.lines.take i).flatMap Line.source ++
      (line.text ++ (line.ending.text ++ (d.lines.drop (i + 1)).flatMap Line.source)) := by
  conv_lhs => rw [text_eq_around found, Line.source]
  simp only [List.append_assoc]

theorem byteSize_text (found : d.lines[i]? = some line) :
    Text.byteSize d.text = d.lineStart i + Text.byteSize line.source +
      Text.byteSize ((d.lines.drop (i + 1)).flatMap Line.source) := by
  conv_lhs => rw [text_eq_around found]
  rw [Text.byteSize_append, Text.byteSize_append, lineStart]

/-- The offsets of a line are those up to its end; behind the last line they are taken for its
end. -/
theorem positionAt_eq (found : d.lines[i]? = some line)
    (inside : k < Text.byteSize line.source ∨ ¬ i + 1 < d.lineCount) :
    d.positionAt (d.lineStart i + k) = ⟨i, min k (Text.byteSize line.text)⟩ := by
  obtain ⟨i_lt, line_eq⟩ := List.getElem?_eq_some_iff.mp found
  have text_size := byteSize_text found
  have source_size : Text.byteSize line.source =
      Text.byteSize line.text + Text.byteSize line.ending.text := Text.byteSize_append _ _
  have lines_eq : d.lines = d.lines.take i ++ line :: d.lines.drop (i + 1) := by
    rw [← line_eq, ← List.drop_eq_getElem_cons, List.take_append_drop]
  let bounded := min k (Text.byteSize d.text - d.lineStart i)
  have offset_eq : min (d.lineStart i + k) (Text.byteSize d.text) = d.lineStart i + bounded := by
    omega
  have bounded_inside : bounded < Text.byteSize line.source ∨ d.lines.drop (i + 1) = [] := by
    rcases inside with short | last
    · exact .inl (by omega)
    · exact .inr (List.drop_eq_nil_of_le (Nat.not_lt.mp last))
  calc
    d.positionAt (d.lineStart i + k) = locate (d.lines.take i ++ line :: d.lines.drop (i + 1))
        (Text.byteSize ((d.lines.take i).flatMap Line.source) + bounded) := by
      rw [positionAt, offset_eq, ← lines_eq, lineStart]
    _ = ⟨(d.lines.take i).length, min bounded (Text.byteSize line.text)⟩ :=
      locate_append bounded_inside
    _ = ⟨i, min k (Text.byteSize line.text)⟩ := by
      rw [List.length_take_of_le (Nat.le_of_lt i_lt)]
      congr 1
      omega

theorem drop_eq_nil_of_isBreak_eq_false (found : d.lines[i]? = some line)
    (open_end : line.ending.isBreak = false) : d.lines.drop (i + 1) = [] := by
  refine List.drop_eq_nil_of_le (Nat.not_lt.mp fun followed => ?_)
  rw [isBreak_of_lt found followed] at open_end
  contradiction

end Line

/-- Every offset belongs to the last line that starts at or before it. -/
theorem exists_line_of_offset (d : Document) (offset : Nat) :
    ∃ i line k, d.lines[i]? = some line ∧ offset = d.lineStart i + k ∧
      (k < Text.byteSize line.source ∨ ¬ i + 1 < d.lineCount) := by
  let starts (j : Nat) : Prop := d.lineStart j ≤ offset
  let i := Nat.findGreatest starts d.lastLine
  have i_le : i ≤ d.lastLine := Nat.findGreatest_le _
  have first_starts : starts 0 := Nat.zero_le _
  have started : d.lineStart i ≤ offset :=
    Nat.findGreatest_spec (P := starts) (Nat.zero_le _) first_starts
  obtain ⟨line, found⟩ := exists_line (Nat.lt_of_le_of_lt i_le d.lastLine_lt)
  refine ⟨i, line, offset - d.lineStart i, found, by omega, ?_⟩
  by_cases followed : i + 1 < d.lineCount
  · have next_later : ¬ d.lineStart (i + 1) ≤ offset :=
      Nat.findGreatest_is_greatest (P := starts) (Nat.lt_succ_self i)
        (Nat.le_sub_one_of_lt followed)
    rw [lineStart_succ found] at next_later
    exact .inl (by omega)
  · exact .inr followed

theorem getLast?_linesBefore_ne_return {d : Document} {i : Nat} (inside : i < d.lineCount) :
    ((d.lines.take i).flatMap Line.source).getLast? ≠ some '\r' := by
  cases i with
  | zero => simp
  | succ i =>
      rw [getLast?_linesBefore inside]
      decide

/-- A carriage return just before a place in a line comes from the line itself, since the lines
before it end in a newline. -/
theorem getLast?_eq_return_of_linesBefore {d : Document} {i : Nat} {s : Text}
    (inside : i < d.lineCount)
    (last : ((d.lines.take i).flatMap Line.source ++ s).getLast? = some '\r') :
    s.getLast? = some '\r' := by
  cases s_last : s.getLast? with
  | none =>
      rw [List.getLast?_append, s_last, Option.none_or] at last
      exact absurd last (getLast?_linesBefore_ne_return inside)
  | some c => simpa [List.getLast?_append, s_last] using last

section Returns

variable {d : Document} {i k : Nat} {line : Line}

/-- A carriage return at the end of a part of a line's text does not stand before a newline. -/
theorem not_isBehindReturn (found : d.lines[i]? = some line) (cut : Text.IsCut line.text k) :
    ¬ Text.IsBehindReturn d.text (d.lineStart i + k) := by
  obtain ⟨a, b, text_eq, rfl⟩ := cut
  rintro ⟨front, rest, parts, size, closes⟩
  have proper := d.isProper_of_mem_lines line (List.mem_of_getElem? found)
  have source_eq : d.text = ((d.lines.take i).flatMap Line.source ++ a) ++ (b ++
      (line.ending.text ++ (d.lines.drop (i + 1)).flatMap Line.source)) := by
    rw [text_eq_around_text found, text_eq, List.append_assoc, List.append_assoc]
  obtain ⟨front_eq, rest_eq⟩ : front ++ ['\r'] = (d.lines.take i).flatMap Line.source ++ a ∧
      rest = b ++ (line.ending.text ++ (d.lines.drop (i + 1)).flatMap Line.source) := by
    apply Text.append_inj_of_byteSize_eq
    · rw [← source_eq, parts, List.append_assoc, List.singleton_append]
    · rw [Text.byteSize_append, Text.byteSize_append]
      exact size
  have a_last : a.getLast? = some '\r' := by
    refine getLast?_eq_return_of_linesBefore (List.getElem?_eq_some_iff.mp found).1 ?_
    rw [← front_eq, List.getLast?_concat]
  cases b with
  | cons c b =>
      rcases closes with rfl | ⟨later, rfl⟩
      · exact List.cons_ne_nil _ _ rest_eq.symm
      · obtain ⟨rfl, -⟩ := List.cons.inj rest_eq
        exact proper.newline_not_mem (by simp [text_eq])
  | nil =>
      have text_last : line.text.getLast? = some '\r' := by rw [text_eq, List.append_nil, a_last]
      obtain ⟨after, ending_eq⟩ :=
        LineEnding.exists_text_eq_of_withReturn? (proper.return_taken text_last)
      rw [ending_eq] at rest_eq
      rcases closes with rfl | ⟨later, rfl⟩
      · exact List.cons_ne_nil _ _ rest_eq.symm
      · exact absurd (List.cons.inj rest_eq).1 (by decide)

/-- What stands before and behind the ending of a line. -/
theorem exists_around_ending (found : d.lines[i]? = some line) :
    ∃ front rest, d.text = front ++ (line.ending.text ++ rest) ∧
      Text.byteSize front = d.lineStart i + Text.byteSize line.text ∧
      (line.ending.isBreak = false → rest = []) := by
  refine ⟨(d.lines.take i).flatMap Line.source ++ line.text,
    (d.lines.drop (i + 1)).flatMap Line.source, ?_, Text.byteSize_append _ _, ?_⟩
  · rw [List.append_assoc]
    exact text_eq_around_text found
  · intro open_end
    rw [drop_eq_nil_of_isBreak_eq_false found open_end]
    rfl

/-- A cut inside of an ending is right behind its carriage return. -/
theorem isBehindReturn_of_lt (found : d.lines[i]? = some line)
    (reached : d.lineStart i + k ≤ Text.byteSize d.text)
    (inside : k < Text.byteSize line.source ∨ ¬ i + 1 < d.lineCount)
    (beyond : Text.byteSize line.text < k) :
    Text.IsBehindReturn d.text (d.lineStart i + k) := by
  obtain ⟨front, rest, text_eq, front_size, exhausted⟩ := exists_around_ending found
  have text_size : Text.byteSize d.text =
      Text.byteSize front + (Text.byteSize line.ending.text + Text.byteSize rest) := by
    rw [text_eq, Text.byteSize_append, Text.byteSize_append]
  rw [Line.source, Text.byteSize_append] at inside
  have strict (breaks : line.ending.isBreak) :
      k < Text.byteSize line.text + Text.byteSize line.ending.text :=
    inside.resolve_right (not_not_intro ((isBreak_iff found).mp breaks))
  cases ending : line.ending with
  | none =>
      rw [ending] at text_size exhausted
      have rest_size : Text.byteSize rest = 0 := by rw [exhausted rfl, Text.byteSize_nil]
      have width : Text.byteSize LineEnding.none.text = 0 := rfl
      omega
  | lone =>
      rw [ending] at text_eq text_size exhausted
      have rest_size : Text.byteSize rest = 0 := by rw [exhausted rfl, Text.byteSize_nil]
      have width : Text.byteSize LineEnding.lone.text = 1 := rfl
      exact ⟨front, [], by rw [text_eq, exhausted rfl]; rfl, by omega, .inl rfl⟩
  | newline =>
      rw [ending] at strict
      have short := strict rfl
      have width : Text.byteSize LineEnding.newline.text = 1 := rfl
      omega
  | returnNewline =>
      rw [ending] at text_eq strict
      have short := strict rfl
      have width : Text.byteSize LineEnding.returnNewline.text = 2 := rfl
      exact ⟨front, '\n' :: rest, text_eq, by omega, .inr ⟨rest, rfl⟩⟩

end Returns

theorem positionAt_of_offset? {d : Document} {p : Position} {offset : Nat}
    (found : d.offset? p = some offset) : d.positionAt offset = p := by
  obtain ⟨⟨line, line_found, cut⟩, rfl⟩ := offset?_eq_some_iff.mp found
  have column_le := cut.le_byteSize
  have inside : p.column < Text.byteSize line.source ∨ ¬ p.line + 1 < d.lineCount := by
    by_cases followed : p.line + 1 < d.lineCount
    · have ending_pos := LineEnding.byteSize_text_pos (isBreak_of_lt line_found followed)
      rw [Line.source, Text.byteSize_append]
      exact .inl (by omega)
    · exact .inr followed
  rw [positionAt_eq line_found inside, Nat.min_eq_left column_le]

section Offset

variable {d : Document} {offset : Nat}

/-- Every cut of the text, and every offset past it, has an addressable position. -/
theorem isAddressable_positionAt
    (cut_or_past : Text.IsCut d.text offset ∨ Text.byteSize d.text < offset) :
    d.IsAddressable (d.positionAt offset) := by
  obtain ⟨i, line, k, found, rfl, inside⟩ := d.exists_line_of_offset offset
  rw [positionAt_eq found inside]
  refine ⟨line, found, ?_⟩
  rcases Nat.le_total (Text.byteSize line.text) k with beyond | short
  · rw [Nat.min_eq_right beyond]
    exact .byteSize line.text
  · rw [Nat.min_eq_left short]
    rcases cut_or_past with cut | past
    · rw [text_eq_around_text found] at cut
      exact cut.of_append_left.of_append_right short
    · have text_size := byteSize_text found
      rw [Line.source, Text.byteSize_append] at text_size
      omega

/-- A cut is the offset of its position unless it is behind a carriage return of an ending. -/
theorem offset?_positionAt_iff (cut : Text.IsCut d.text offset) :
    d.offset? (d.positionAt offset) = some offset ↔ ¬ Text.IsBehindReturn d.text offset := by
  have addressable := isAddressable_positionAt (.inl cut)
  rw [offset?_eq_some_iff]
  obtain ⟨i, line, k, found, rfl, inside⟩ := d.exists_line_of_offset offset
  rw [positionAt_eq found inside] at addressable ⊢
  obtain ⟨line', found', line_cut⟩ := addressable
  obtain rfl : line = line' := Option.some.inj (found.symm.trans found')
  rcases Nat.lt_or_ge (Text.byteSize line.text) k with beyond | short
  · have behind := isBehindReturn_of_lt found cut.le_byteSize inside beyond
    simp only [behind, not_true_eq_false, iff_false]
    rintro ⟨-, offset_eq⟩
    omega
  · rw [Nat.min_eq_left short] at line_cut ⊢
    exact ⟨fun _ => not_isBehindReturn found line_cut, fun _ => ⟨⟨line, found, line_cut⟩, rfl⟩⟩

end Offset

/-- Positions and offsets correspond one to one, in order.  Offsets are defined at the places
between the characters of a line's text, and lead back to them; all the cuts of the text are
reached but those behind a carriage return of an ending, which have a position all the same. -/
theorem addressing_is_bijective (d : Document) :
    (∀ p, (d.offset? p).isSome ↔
      ∃ text, d.line? p.line = some text ∧ Text.IsCut text p.column) ∧
    (∀ p q a b, d.offset? p = some a → d.offset? q = some b → (a < b ↔ p < q)) ∧
    (∀ p offset, d.offset? p = some offset → d.positionAt offset = p) ∧
    (∀ offset, Text.IsCut d.text offset →
      (d.offset? (d.positionAt offset) = some offset ↔ ¬ Text.IsBehindReturn d.text offset)) ∧
    ∀ offset, Text.IsCut d.text offset ∨ Text.byteSize d.text < offset →
      (d.offset? (d.positionAt offset)).isSome := by
  refine ⟨fun p => ?_, fun p q a b => offset?_lt_iff, fun p offset => positionAt_of_offset?,
    fun offset => offset?_positionAt_iff, fun offset cut_or_past => ?_⟩
  · rw [offset?_isSome_iff, isAddressable_iff]
  · exact offset?_isSome_iff.mpr (isAddressable_positionAt cut_or_past)

/-- A text with a carriage return before its newline and another one at its end. -/
def returnsDocument : Document := .ofText "é\r\nb\r"

theorem addressing_is_bijective_around_returns :
    returnsDocument.offset? ⟨0, 2⟩ = some 2 ∧ returnsDocument.offset? ⟨1, 1⟩ = some 5 ∧
    (2 < 5 ↔ (⟨0, 2⟩ : Position) < ⟨1, 1⟩) ∧ returnsDocument.positionAt 5 = ⟨1, 1⟩ ∧
    Text.IsCut returnsDocument.text 5 ∧ ¬ Text.IsBehindReturn returnsDocument.text 5 ∧
    Text.IsCut returnsDocument.text 3 ∧ Text.IsBehindReturn returnsDocument.text 3 ∧
    returnsDocument.offset? (returnsDocument.positionAt 3) ≠ some 3 ∧
    (returnsDocument.offset? (returnsDocument.positionAt 3)).isSome ∧
    (returnsDocument.offset? (returnsDocument.positionAt 9)).isSome := by
  obtain ⟨-, increasing, looked_up, kept, addressable⟩ := addressing_is_bijective returnsDocument
  have first : returnsDocument.offset? ⟨0, 2⟩ = some 2 := by decide
  have second : returnsDocument.offset? ⟨1, 1⟩ = some 5 := by decide
  have second_again : returnsDocument.offset? (returnsDocument.positionAt 5) = some 5 := by decide
  have second_cut : Text.IsCut returnsDocument.text 5 := ⟨"é\r\nb", "\r", rfl, rfl⟩
  have inner_cut : Text.IsCut returnsDocument.text 3 := ⟨"é\r", "\nb\r", rfl, rfl⟩
  have behind : Text.IsBehindReturn returnsDocument.text 3 :=
    ⟨"é", "\nb\r", rfl, rfl, .inr ⟨"b\r", rfl⟩⟩
  have past : Text.byteSize returnsDocument.text < 9 := by decide
  exact ⟨first, second, increasing _ _ _ _ first second, looked_up _ _ second, second_cut,
    (kept 5 second_cut).mp second_again, inner_cut, behind,
    fun moved => (kept 3 inner_cut).mp moved behind, addressable 3 (.inl inner_cut),
    addressable 9 (.inr past)⟩

end Document

end LintRepair
