import LintRepair.Proofs.Document.Layout

/-!
# Edits of whole lines

Taking a line away, putting a text in its place and adding lines behind it do to the list of line
texts what their names say.  Only the last line needs care: it goes together with the ending before
it, and what is added behind it takes over its ending.
-/

namespace LintRepair

namespace Document

variable {d : Document} {i : Nat} {line : Line}

theorem lines_ofText (text : Text) : (ofText text).lines = Line.split text := rfl

theorem offset?_lineStart (inside : i < d.lineCount) : d.offset? ⟨i, 0⟩ = some (d.lineStart i) :=
  offset?_eq_some_iff.mpr ⟨isAddressable_lineStart inside, rfl⟩

theorem offset?_lineEnd (found : d.lines[i]? = some line) :
    d.offset? (d.lineEnd i) = some (d.lineStart i + Text.byteSize line.text) := by
  have inside : i < d.lineCount := (List.getElem?_eq_some_iff.mp found).1
  refine offset?_eq_some_iff.mpr ⟨isAddressable_lineEnd inside, ?_⟩
  rw [lineEnd, lineLen_eq found]

theorem lines_source_drop (found : d.lines[i]? = some line) :
    (d.lines.drop i).flatMap Line.source =
      line.source ++ (d.lines.drop (i + 1)).flatMap Line.source := by
  obtain ⟨inside, line_eq⟩ := List.getElem?_eq_some_iff.mp found
  rw [List.drop_eq_getElem_cons inside, line_eq, List.flatMap_cons]

/-- A line that another one follows goes with its own ending. -/
theorem applyEdits?_deleteLine (followed : i < d.lastLine) :
    d.applyEdits? [.delete (d.deletionRange i)] =
      some ((d.lines.take i).flatMap Line.source ++
        (d.lines.drop (i + 1)).flatMap Line.source) := by
  have next_inside : i + 1 < d.lineCount := by
    unfold lastLine at followed
    omega
  have inside : i < d.lineCount := by omega
  obtain ⟨line, found⟩ := exists_line inside
  have range_eq : d.deletionRange i = .between ⟨i, 0⟩ ⟨i + 1, 0⟩ := if_pos followed
  have ordered : ¬ (⟨i + 1, 0⟩ : Position) < ⟨i, 0⟩ := by simp [Position.lt_iff]
  have start_eq : d.offset? (Edit.delete (d.deletionRange i)).range.start =
      some (Text.byteSize ((d.lines.take i).flatMap Line.source)) := by
    rw [range_eq, Edit.delete, Range.start_between]
    exact offset?_lineStart inside
  have stop_eq : d.offset? (Edit.delete (d.deletionRange i)).range.stop =
      some (Text.byteSize ((d.lines.take i).flatMap Line.source) + Text.byteSize line.source) := by
    rw [range_eq, Edit.delete, Range.stop_between ordered, offset?_lineStart next_inside,
      lineStart_succ found]
    rfl
  have text_eq := text_eq_around found
  rw [List.append_assoc] at text_eq
  rw [applyEdits?_singleton text_eq start_eq stop_eq, Edit.delete, List.append_nil]

theorem exists_deleteLine (followed : i < d.lastLine) :
    ∃ result, d.applyEdits? [.delete (d.deletionRange i)] = some result ∧
      (ofText result).lines = d.lines.take i ++ d.lines.drop (i + 1) := by
  have next_inside : i + 1 < d.lineCount := by
    unfold lastLine at followed
    omega
  refine ⟨_, applyEdits?_deleteLine followed, ?_⟩
  have whole := isWhole_of_mem_take (d := d) (Nat.lt_of_succ_lt next_inside)
  rw [lines_ofText, Line.split_flatMap_append whole, split_drop next_inside]

/-- The last line goes with the ending before it, and the line before takes over its own. -/
theorem exists_deleteLast {before : Line} (previous : d.lines[i]? = some before)
    (found : d.lines[i + 1]? = some line) (last : ¬ i + 1 < d.lastLine)
    (fills : Line.Fills before.text) :
    ∃ result, d.applyEdits? [.delete (d.deletionRange (i + 1))] = some result ∧
      (ofText result).lines = d.lines.take i ++ [⟨before.text, line.ending⟩] := by
  have inside : i + 1 < d.lineCount := (List.getElem?_eq_some_iff.mp found).1
  have exhausted : d.lines.drop (i + 1 + 1) = [] := by
    refine List.drop_eq_nil_of_le ?_
    unfold lastLine at last
    unfold lineCount at last inside
    omega
  have range_eq : d.deletionRange (i + 1) = .between (d.lineEnd i) (d.lineEnd (i + 1)) := by
    rw [deletionRange, if_neg last, if_pos (Nat.succ_pos i), Nat.add_sub_cancel]
  have ordered : ¬ d.lineEnd (i + 1) < d.lineEnd i := by simp [Position.lt_iff, lineEnd]
  let front := (d.lines.take i).flatMap Line.source ++ before.text
  let covered := before.ending.text ++ line.text
  have start_eq : d.offset? (Edit.delete (d.deletionRange (i + 1))).range.start =
      some (Text.byteSize front) := by
    rw [range_eq, Edit.delete, Range.start_between, offset?_lineEnd previous,
      Text.byteSize_append]
    rfl
  have stop_eq : d.offset? (Edit.delete (d.deletionRange (i + 1))).range.stop =
      some (Text.byteSize front + Text.byteSize covered) := by
    rw [range_eq, Edit.delete, Range.stop_between ordered, offset?_lineEnd found,
      lineStart_succ previous, Line.source]
    simp only [front, covered, Text.byteSize_append, lineStart]
    congr 1
    omega
  have text_eq : d.text = front ++ (covered ++ line.ending.text) := by
    rw [text_eq_around previous, lines_source_drop found, exhausted]
    simp [front, covered, Line.source]
  have open_end : line.ending.isBreak = false := by
    rw [← Bool.not_eq_true, isBreak_iff found]
    unfold lastLine at last
    omega
  refine ⟨_, applyEdits?_singleton text_eq start_eq stop_eq, ?_⟩
  have shortened : front ++ (Edit.delete (d.deletionRange (i + 1))).text ++ line.ending.text =
      (d.lines.take i).flatMap Line.source ++ (⟨before.text, line.ending⟩ : Line).source := by
    simp [front, Edit.delete, Line.source]
  rw [lines_ofText, shortened,
    Line.split_flatMap_append (isWhole_of_mem_take (Nat.lt_of_succ_lt inside)),
    Line.split_source_of_open (fills line.ending) open_end]

section Inserted

variable {after : Document} {added : Line}

/-- A line put in front of a line stands there, and that line is the next one. -/
theorem line?_of_inserted (inside : i < d.lineCount)
    (lines_eq : after.lines = d.lines.take i ++ (added :: d.lines.drop i)) :
    after.lineCount = d.lineCount + 1 ∧ after.line? i = some added.text ∧
      after.line? (i + 1) = d.line? i := by
  have length_eq : (d.lines.take i).length = i := List.length_take_of_le (Nat.le_of_lt inside)
  refine ⟨?_, ?_, ?_⟩
  · simp only [lineCount, lines_eq, List.length_append, length_eq, List.length_cons,
      List.length_drop]
    unfold lineCount at inside
    omega
  · rw [line?, lines_eq, List.getElem?_append_right (Nat.le_of_eq length_eq), length_eq]
    simp
  · rw [line?, lines_eq, List.getElem?_append_right (by omega), length_eq,
      Nat.add_sub_cancel_left, List.getElem?_cons_succ, List.getElem?_drop]
    rfl

/-- Deleting a line that was put in front of a line gives the text as it was. -/
theorem applyEdits?_deleteLine_of_inserted (inside : i < d.lineCount)
    (lines_eq : after.lines = d.lines.take i ++ (added :: d.lines.drop i)) :
    after.applyEdits? [.delete (after.deletionRange i)] = some d.text := by
  have length_eq : (d.lines.take i).length = i := List.length_take_of_le (Nat.le_of_lt inside)
  have followed : i < after.lastLine := by
    rw [lastLine, (line?_of_inserted inside lines_eq).1]
    omega
  rw [applyEdits?_deleteLine followed, lines_eq, List.take_left' length_eq, List.append_cons,
    List.drop_left' (by rw [List.length_append, length_eq, List.length_singleton]),
    ← List.flatMap_append, List.take_append_drop, d.lines_source]

end Inserted

theorem texts_ofText {text : Text} {lines : List Line} (lines_eq : (ofText text).lines = lines) :
    (ofText text).texts = lines.map (·.text) := congrArg (List.map Line.text) lines_eq

/-- A line is taken away, and nothing else; of a single line an empty one is left. -/
theorem exists_deleted (unreturned : ∀ text ∈ d.texts, text.getLast? ≠ some '\r')
    (inside : i < d.lineCount) :
    ∃ result, d.applyEdits? [.delete (d.deletionRange i)] = some result ∧
      (ofText result).texts = if d.lineCount = 1 then [[]] else d.texts.eraseIdx i := by
  have last_lt := d.lastLine_lt
  by_cases followed : i < d.lastLine
  · have several : d.lineCount ≠ 1 := by
      unfold lastLine at followed
      omega
    obtain ⟨result, applied, lines_eq⟩ := exists_deleteLine followed
    refine ⟨result, applied, ?_⟩
    rw [if_neg several, texts_ofText lines_eq, List.eraseIdx_eq_take_drop_succ]
    simp [texts, List.map_take, List.map_drop]
  · obtain ⟨line, found⟩ := exists_line inside
    cases i with
    | zero =>
        have single : d.lineCount = 1 := by
          unfold lastLine at followed
          omega
        have range_eq : d.deletionRange 0 = d.lineRange 0 := by
          rw [deletionRange, if_neg followed, if_neg (Nat.lt_irrefl 0)]
        obtain ⟨result, applied, lines_eq⟩ :=
          exists_replaceLine found (Line.isProper_nil line.ending)
        refine ⟨result, by rw [range_eq]; exact applied, ?_⟩
        have exhausted : d.lines.drop (0 + 1) = [] := List.drop_eq_nil_of_le (Nat.le_of_eq single)
        rw [if_pos single, texts_ofText lines_eq, exhausted]
        rfl
    | succ i =>
        have several : d.lineCount ≠ 1 := by omega
        obtain ⟨before, previous⟩ := exists_line (d := d) (Nat.lt_of_succ_lt inside)
        have before_mem : before ∈ d.lines := List.mem_of_getElem? previous
        have fills : Line.Fills before.text :=
          Line.fills_of_unreturned (d.isProper_of_mem_lines before before_mem).newline_not_mem
            (unreturned before.text (List.mem_map_of_mem before_mem))
        obtain ⟨result, applied, lines_eq⟩ := exists_deleteLast previous found followed fills
        refine ⟨result, applied, ?_⟩
        have exhausted : d.texts.length ≤ i + 1 + 1 := by
          rw [length_texts]
          unfold lastLine at followed
          omega
        have kept : d.texts.take (i + 1) = d.texts.take i ++ [before.text] := by
          rw [List.take_add_one, getElem?_texts, line?_eq_some previous, Option.toList_some]
        rw [if_neg several, texts_ofText lines_eq, List.eraseIdx_eq_take_drop_succ, kept,
          List.drop_eq_nil_of_le exhausted]
        simp [texts, List.map_take]

/-- The text of a line is exchanged. -/
theorem exists_replaced (inside : i < d.lineCount) {text : Text} (fills : Line.Fills text) :
    ∃ result, d.applyEdits? [.replace (d.lineRange i) text] = some result ∧
      (ofText result).texts = d.texts.set i text := by
  obtain ⟨line, found⟩ := exists_line inside
  obtain ⟨result, applied, lines_eq⟩ := exists_replaceLine found (fills line.ending)
  refine ⟨result, applied, ?_⟩
  rw [texts_ofText lines_eq, List.set_eq_take_append_cons_drop, length_texts, if_pos inside]
  simp [texts, List.map_take, List.map_drop]

/-- Lines are added behind a line. -/
theorem exists_inserted (unreturned : ∀ text ∈ d.texts, text.getLast? ≠ some '\r')
    (inside : i < d.lineCount) {added : List Text} (nonempty : added ≠ [])
    (fills : ∀ text ∈ added, Line.Fills text) :
    ∃ result, d.applyEdits? [d.insertAfterLine i (added.flatMap (· ++ "\n"))] = some result ∧
      (ofText result).texts = d.texts.take (i + 1) ++ (added ++ d.texts.drop (i + 1)) := by
  obtain ⟨line, found⟩ := exists_line inside
  obtain ⟨front, last, rfl⟩ := (List.eq_nil_or_concat added).resolve_left nonempty
  rw [List.concat_eq_append] at fills ⊢
  obtain ⟨front_fills, last_fills⟩ := List.forall_mem_append.mp fills
  let block : List Line := front.map fun text => ⟨text, .newline⟩
  have whole : ∀ line ∈ block, line.IsWhole := by
    intro line member
    obtain ⟨text, text_mem, rfl⟩ := List.mem_map.mp member
    exact ⟨front_fills text text_mem .newline, rfl⟩
  have written : ((front ++ [last]).flatMap (· ++ "\n") : Text) =
      (block.flatMap Line.source ++ (last ++ "\n") : Text) := by
    rw [List.flatMap_append, List.flatMap_map, List.flatMap_singleton]
    rfl
  obtain ⟨result, closed, ending, applied, closed_text, lines_eq⟩ :=
    exists_insertAfterLine found whole (List.forall_mem_singleton.mp last_fills)
  refine ⟨result, by rw [written]; exact applied, ?_⟩
  have line_mem : line.text ∈ d.texts := List.mem_map_of_mem (List.mem_of_getElem? found)
  -- A return before the new newline would have been the end of the line's text.
  have same : closed.text = line.text := by
    refine closed_text.resolve_right fun shortened => unreturned line.text line_mem ?_
    rw [← shortened, List.getLast?_concat]
  rw [texts_ofText lines_eq, List.take_add_one, getElem?_texts, line?_eq_some found]
  simp [texts, block, same, List.map_take, List.map_drop, Function.comp_def]

/-- The texts of the lines after a change of one of them; of a single line an empty one is left. -/
def changedTexts (d : Document) (i : Nat) : LineChange → List Text
  | .delete => if d.lineCount = 1 then [[]] else d.texts.eraseIdx i
  | .replace text => d.texts.set i text

theorem exists_changed (unreturned : ∀ text ∈ d.texts, text.getLast? ≠ some '\r')
    (inside : i < d.lineCount) {change : LineChange}
    (fills : ∀ text, change = .replace text → Line.Fills text) :
    ∃ result, d.applyEdits? [d.changeLine i change] = some result ∧
      (ofText result).texts = d.changedTexts i change := by
  cases change with
  | delete => exact exists_deleted unreturned inside
  | replace text => exact exists_replaced inside (fills text rfl)

/-- In a document in which no line text ends in a carriage return, an edit of whole lines can be
applied and does to the list of line texts what it is meant to: it removes an element, sets one, or
inserts elements behind one. -/
theorem line_edits_act_on_texts
    (unreturned : ∀ text ∈ d.texts, text.getLast? ≠ some '\r') (inside : i < d.lineCount) :
    (∃ result, d.applyEdits? [.delete (d.deletionRange i)] = some result ∧
      (ofText result).texts = if d.lineCount = 1 then [[]] else d.texts.eraseIdx i) ∧
    (∀ text, '\n' ∉ text → text.getLast? ≠ some '\r' →
      ∃ result, d.applyEdits? [.replace (d.lineRange i) text] = some result ∧
        (ofText result).texts = d.texts.set i text) ∧
    ∀ added ≠ [], (∀ text ∈ added, '\n' ∉ text ∧ text.getLast? ≠ some '\r') →
      ∃ result, d.applyEdits? [d.insertAfterLine i (added.flatMap (· ++ "\n"))] = some result ∧
        (ofText result).texts = d.texts.take (i + 1) ++ (added ++ d.texts.drop (i + 1)) := by
  refine ⟨exists_deleted unreturned inside, ?_, ?_⟩
  · intro text newline_not_mem text_unreturned
    exact exists_replaced inside (Line.fills_of_unreturned newline_not_mem text_unreturned)
  · intro added nonempty plain
    refine exists_inserted unreturned inside nonempty fun text member => ?_
    exact Line.fills_of_unreturned (plain text member).1 (plain text member).2

/-- A document whose lines end in different ways, the last one in a lone carriage return. -/
def mixedDocument : Document := .ofText "a\r\nb\nc\r"

theorem line_edits_act_on_mixed_texts :
    (∀ text ∈ mixedDocument.texts, text.getLast? ≠ some '\r') ∧ 2 < mixedDocument.lineCount ∧
    (∃ result, mixedDocument.applyEdits? [.delete (mixedDocument.deletionRange 2)] = some result ∧
      (ofText result).texts = (["a", "b"] : List Text)) ∧
    (∃ result,
      mixedDocument.applyEdits? [.replace (mixedDocument.lineRange 2) "x"] = some result ∧
      (ofText result).texts = (["a", "b", "x"] : List Text)) ∧
    ∃ result, mixedDocument.applyEdits? [mixedDocument.insertAfterLine 2 "x\ny\n"] = some result ∧
      (ofText result).texts = (["a", "b", "c", "x", "y"] : List Text) := by
  have unreturned : ∀ text ∈ mixedDocument.texts, text.getLast? ≠ some '\r' := by decide
  have inside : 2 < mixedDocument.lineCount := by decide
  obtain ⟨deleted, replaced, inserted⟩ := line_edits_act_on_texts unreturned inside
  exact ⟨unreturned, inside, deleted, replaced "x" (by decide) (by decide),
    inserted ["x", "y"] (by decide) (by decide)⟩

end Document

end LintRepair
