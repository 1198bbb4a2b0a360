import LintRepair.Edit
import LintRepair.Proofs.Document.Range
import LintRepair.Proofs.Edit.Splice

/-!
# Texts written line by line

Lines that stand in a text as they are can be written with their endings and are then the lines of
what is written.  An edit inside one line replaces that line by whatever lines its new source holds
and keeps all the others.
-/

namespace LintRepair

namespace Line

/-- A line as it stands in a text: it holds no newline, and a carriage return at its end is part of
its ending unless that has one already. -/
structure IsProper (line : Line) : Prop where
  newline_not_mem : '\n' ∉ line.text
  return_taken : line.text.getLast? = some '\r' → line.ending.withReturn? = none

theorem isProper_nil (ending : LineEnding) : IsProper ⟨[], ending⟩ :=
  ⟨List.not_mem_nil, fun last => by contradiction⟩

/-- A proper line that ends in a newline. -/
structure IsWhole (line : Line) : Prop where
  proper : line.IsProper
  breaks : line.ending.isBreak

/-- Whether a text can be the text of a line with any ending. -/
def Fills (text : Text) : Prop := ∀ ending, IsProper ⟨text, ending⟩

theorem fills_of_unreturned {text : Text} (newline_not_mem : '\n' ∉ text)
    (unreturned : text.getLast? ≠ some '\r') : Fills text :=
  fun _ => ⟨newline_not_mem, fun last => absurd last unreturned⟩

theorem IsProper.of_cons {c : Char} {text : Text} {ending : LineEnding}
    (proper : IsProper ⟨c :: text, ending⟩) :
    c ≠ '\n' ∧ IsProper ⟨text, ending⟩ ∧ push c ⟨text, ending⟩ = ⟨c :: text, ending⟩ := by
  obtain ⟨newline_not_mem, return_taken⟩ := proper
  obtain ⟨c_ne, absent⟩ := not_or.mp (mt List.mem_cons.mpr newline_not_mem)
  refine ⟨Ne.symm c_ne, ⟨absent, fun last => return_taken ?_⟩, ?_⟩
  · cases text with
    | nil => contradiction
    | cons d text => rw [List.getLast?_cons_cons, last]
  · unfold push
    split
    · rename_i ending' head_eq ending_eq
      obtain ⟨rfl, rfl⟩ := of_decide_eq_true head_eq
      rw [return_taken rfl] at ending_eq
      contradiction
    · rfl

theorem isProper_push {c : Char} {line : Line} (c_ne : c ≠ '\n') (proper : line.IsProper) :
    (line.push c).IsProper := by
  refine ⟨newline_not_mem_push c_ne proper.newline_not_mem, ?_⟩
  unfold push
  split
  · intro last
    contradiction
  · rename_i kept
    intro last
    cases text_eq : line.text with
    | nil =>
        have c_eq : c = '\r' := by simpa [text_eq] using last
        have not_extended (ending : LineEnding) : line.ending.withReturn? ≠ some ending :=
          kept ending (decide_eq_true ⟨text_eq, c_eq⟩)
        exact Option.eq_none_iff_forall_ne_some.mpr not_extended
    | cons d text =>
        apply proper.return_taken
        rw [text_eq, List.getLast?_cons_cons] at last
        rw [text_eq, last]

/-- A whole line in front of a text is its first line. -/
theorem split_source_append {line : Line} (whole : line.IsWhole) (rest : Text) :
    split (line.source ++ rest) = line :: split rest := by
  obtain ⟨text, ending⟩ := line
  obtain ⟨proper, breaks⟩ := whole
  induction text with
  | nil =>
      cases ending with
      | none => contradiction
      | lone => contradiction
      | newline => rfl
      | returnNewline => rfl
  | cons c text ih =>
      obtain ⟨c_ne, later_proper, pushed⟩ := proper.of_cons
      have later := ih later_proper breaks
      rw [source, List.append_assoc] at later ⊢
      rw [List.cons_append, split_cons, later, pushAll, if_neg c_ne, pushed]

/-- A proper line with nothing behind it is the only line. -/
theorem split_source_of_open {line : Line} (proper : line.IsProper)
    (open_end : line.ending.isBreak = false) : split line.source = [line] := by
  obtain ⟨text, ending⟩ := line
  induction text with
  | nil =>
      cases ending with
      | none => rfl
      | lone => rfl
      | newline => contradiction
      | returnNewline => contradiction
  | cons c text ih =>
      obtain ⟨c_ne, later_proper, pushed⟩ := proper.of_cons
      have later := ih later_proper open_end
      rw [source] at later ⊢
      rw [List.cons_append, split_cons, later, pushAll, if_neg c_ne, pushed]

/-- Whole lines in front of a text are its first lines. -/
theorem split_flatMap_append {front : List Line} (whole : ∀ line ∈ front, line.IsWhole)
    (rest : Text) : split (front.flatMap source ++ rest) = front ++ split rest := by
  induction front with
  | nil => rfl
  | cons line front ih =>
      obtain ⟨first_whole, later_whole⟩ := List.forall_mem_cons.mp whole
      rw [List.flatMap_cons, List.append_assoc, split_source_append first_whole, ih later_whole,
        List.cons_append]

theorem isProper_of_mem_pushAll {c : Char} {lines : List Line}
    (proper : ∀ line ∈ lines, line.IsProper) : ∀ line ∈ pushAll c lines, line.IsProper := by
  unfold pushAll
  split
  · exact List.forall_mem_cons.mpr ⟨isProper_nil _, proper⟩
  · rename_i c_ne
    cases lines with
    | nil => simpa using isProper_push c_ne (isProper_nil _)
    | cons line rest =>
        obtain ⟨first_proper, later_proper⟩ := List.forall_mem_cons.mp proper
        exact List.forall_mem_cons.mpr ⟨isProper_push c_ne first_proper, later_proper⟩

/-- The lines of every text are proper. -/
theorem isProper_of_mem_split (s : Text) : ∀ line ∈ split s, line.IsProper := by
  induction s with
  | nil => simpa using isProper_nil .none
  | cons c s ih => exact isProper_of_mem_pushAll ih

/-- The line that starts with a text and ends at a newline right behind it. -/
def closing (text : Text) : Line :=
  match Text.before? "\r" text with
  | some front => ⟨front, .returnNewline⟩
  | none => ⟨text, .newline⟩

theorem closing_source (text : Text) : (closing text).source = text ++ "\n" := by
  unfold closing
  split
  · rename_i front found
    rw [Text.before?_eq_some_iff.mp found, List.append_assoc]
    rfl
  · rfl

theorem closing_isWhole {text : Text} (newline_not_mem : '\n' ∉ text) :
    (closing text).IsWhole := by
  unfold closing
  split
  · rename_i front found
    rw [Text.before?_eq_some_iff.mp found] at newline_not_mem
    exact ⟨⟨fun member => newline_not_mem (List.mem_append_left _ member), fun _ => rfl⟩, rfl⟩
  · rename_i unreturned
    refine ⟨⟨newline_not_mem, fun last => ?_⟩, rfl⟩
    obtain ⟨front, rfl⟩ := List.getLast?_eq_some_iff.mp last
    have found : Text.before? "\r" (front ++ ['\r']) = some front :=
      Text.before?_eq_some_iff.mpr rfl
    rw [found] at unreturned
    contradiction

/-- A newline behind a text takes a carriage return at its end away from it. -/
theorem closing_text (text : Text) :
    (closing text).text = text ∨ (closing text).text ++ ['\r'] = text := by
  unfold closing
  split
  · rename_i front found
    exact .inr (Text.before?_eq_some_iff.mp found).symm
  · exact .inl rfl

end Line

namespace Document

/-- The texts of the lines of a document. -/
def texts (d : Document) : List Text := d.lines.map (·.text)

variable {d : Document} {i : Nat} {line : Line}

theorem length_texts (d : Document) : d.texts.length = d.lineCount := List.length_map _

theorem getElem?_texts (d : Document) (i : Nat) : d.texts[i]? = d.line? i := List.getElem?_map

theorem isProper_of_mem_lines (d : Document) : ∀ line ∈ d.lines, line.IsProper := by
  rw [d.lines_eq]
  exact Line.isProper_of_mem_split d.text

theorem newline_not_mem_of_mem_texts {text : Text} (member : text ∈ d.texts) : '\n' ∉ text := by
  obtain ⟨line, line_mem, rfl⟩ := List.mem_map.mp member
  exact (d.isProper_of_mem_lines line line_mem).newline_not_mem

theorem isBreak_iff (found : d.lines[i]? = some line) :
    line.ending.isBreak ↔ i + 1 < d.lineCount := by
  refine ⟨fun breaks => ?_, isBreak_of_lt found⟩
  refine Nat.lt_of_not_le fun unfollowed => ?_
  have inside : i < d.lineCount := (List.getElem?_eq_some_iff.mp found).1
  have i_eq : i = d.lines.length - 1 := by
    unfold lineCount at inside unfollowed
    omega
  rw [i_eq, ← List.getLast?_eq_getElem?] at found
  rw [d.lines_isLayout.last_open line found] at breaks
  contradiction

theorem isWhole_of_mem_take (inside : i < d.lineCount) :
    ∀ line ∈ d.lines.take i, line.IsWhole := by
  intro line member
  refine ⟨d.isProper_of_mem_lines line (List.mem_of_mem_take member), ?_⟩
  obtain ⟨j, j_lt, rfl⟩ := List.mem_take_iff_getElem.mp member
  exact isBreak_of_lt (List.getElem?_eq_getElem _) (by omega)

/-- From a line on, the lines of a text are the lines of the rest of the text. -/
theorem split_drop (inside : i < d.lineCount) :
    Line.split ((d.lines.drop i).flatMap Line.source) = d.lines.drop i := by
  have all := Line.split_flatMap_append (isWhole_of_mem_take inside)
    ((d.lines.drop i).flatMap Line.source)
  rw [← List.flatMap_append, List.take_append_drop, d.lines_source, ← d.lines_eq] at all
  exact List.append_cancel_left (all.symm.trans (List.take_append_drop i d.lines).symm)

/-- A line that ends like one of the document, in front of what follows that one. -/
theorem split_source_append_drop (found : d.lines[i]? = some line) {last : Line}
    (proper : last.IsProper) (same : last.ending.isBreak = line.ending.isBreak) :
    Line.split (last.source ++ (d.lines.drop (i + 1)).flatMap Line.source) =
      last :: d.lines.drop (i + 1) := by
  -- The new line is whole exactly if another one follows, since the old one was.
  by_cases followed : i + 1 < d.lineCount
  · have whole : last.IsWhole := ⟨proper, same.trans (isBreak_of_lt found followed)⟩
    rw [Line.split_source_append whole, split_drop followed]
  · have last_open : last.ending.isBreak = false := by
      rw [same, ← Bool.not_eq_true]
      exact mt (isBreak_iff found).mp followed
    have exhausted : d.lines.drop (i + 1) = [] := List.drop_eq_nil_of_le (Nat.not_lt.mp followed)
    rw [exhausted, List.flatMap_nil, List.append_nil, Line.split_source_of_open proper last_open]

/-- Lines written in place of one line, the last of them ending like it, are the lines that stand
there then. -/
theorem lines_exchange (found : d.lines[i]? = some line) {block : List Line} {last : Line}
    (whole : ∀ line ∈ block, line.IsWhole) (proper : last.IsProper)
    (same : last.ending.isBreak = line.ending.isBreak) :
    (ofText ((d.lines.take i).flatMap Line.source ++ (block ++ [last]).flatMap Line.source ++
      (d.lines.drop (i + 1)).flatMap Line.source)).lines =
      d.lines.take i ++ (block ++ last :: d.lines.drop (i + 1)) := by
  have inside : i < d.lineCount := (List.getElem?_eq_some_iff.mp found).1
  have before_whole : ∀ line ∈ d.lines.take i ++ block, line.IsWhole :=
    List.forall_mem_append.mpr ⟨isWhole_of_mem_take inside, whole⟩
  have all := Line.split_flatMap_append before_whole
    (last.source ++ (d.lines.drop (i + 1)).flatMap Line.source)
  rw [split_source_append_drop found proper same] at all
  simpa [ofText] using all

/-- One edit puts its text in place of the part of the text that its range covers. -/
theorem applyEdits?_singleton {e : Edit} {front covered behind : Text}
    (text_eq : d.text = front ++ (covered ++ behind))
    (start_eq : d.offset? e.range.start = some (Text.byteSize front))
    (stop_eq : d.offset? e.range.stop = some (Text.byteSize front + Text.byteSize covered)) :
    d.applyEdits? [e] = some (front ++ e.text ++ behind) := by
  have splice : Splice.ofEdit? d e =
      some ⟨Text.byteSize front, Text.byteSize front + Text.byteSize covered, e.text⟩ := by
    simp [Splice.ofEdit?, start_eq, stop_eq]
  simp [applyEdits?, splice, Splice.assemble?, text_eq, Text.cut?_append]

/-- One edit inside a line puts its text there and keeps all the rest. -/
theorem applyEdits?_onLine (found : d.lines[i]? = some line) {e : Edit}
    {front covered behind : Text} (text_eq : line.text = front ++ (covered ++ behind))
    (start_eq : e.range.start = ⟨i, Text.byteSize front⟩)
    (stop_eq : e.range.stop = ⟨i, Text.byteSize front + Text.byteSize covered⟩) :
    d.applyEdits? [e] = some ((d.lines.take i).flatMap Line.source ++
      (front ++ e.text ++ (behind ++ line.ending.text)) ++
      (d.lines.drop (i + 1)).flatMap Line.source) := by
  have start_cut : Text.IsCut line.text (Text.byteSize front) := ⟨front, _, text_eq, rfl⟩
  have stop_cut : Text.IsCut line.text (Text.byteSize front + Text.byteSize covered) :=
    ⟨front ++ covered, behind, by rw [text_eq, List.append_assoc], Text.byteSize_append _ _⟩
  have start_found : d.offset? e.range.start = some (Text.byteSize
      ((d.lines.take i).flatMap Line.source ++ front)) := by
    rw [start_eq, Text.byteSize_append]
    exact offset?_eq_some_iff.mpr ⟨⟨line, found, start_cut⟩, rfl⟩
  have stop_found : d.offset? e.range.stop = some (Text.byteSize
      ((d.lines.take i).flatMap Line.source ++ front) + Text.byteSize covered) := by
    rw [stop_eq, Text.byteSize_append, Nat.add_assoc]
    exact offset?_eq_some_iff.mpr ⟨⟨line, found, stop_cut⟩, rfl⟩
  have parts : d.text = (d.lines.take i).flatMap Line.source ++ front ++ (covered ++
      (behind ++ line.ending.text ++ (d.lines.drop (i + 1)).flatMap Line.source)) := by
    rw [text_eq_around found, Line.source, text_eq]
    simp only [List.append_assoc]
  rw [applyEdits?_singleton parts start_found stop_found]
  simp only [List.append_assoc]

/-- One edit inside a line, after which the source of other lines stands in its place. -/
theorem exists_edit_onLine (found : d.lines[i]? = some line) {e : Edit}
    {front covered behind : Text} (text_eq : line.text = front ++ (covered ++ behind))
    (start_eq : e.range.start = ⟨i, Text.byteSize front⟩)
    (stop_eq : e.range.stop = ⟨i, Text.byteSize front + Text.byteSize covered⟩)
    {block : List Line} {last : Line} (whole : ∀ line ∈ block, line.IsWhole)
    (proper : last.IsProper) (same : last.ending.isBreak = line.ending.isBreak)
    (source_eq : front ++ e.text ++ (behind ++ line.ending.text) =
      (block ++ [last]).flatMap Line.source) :
    ∃ result, d.applyEdits? [e] = some result ∧
      (ofText result).lines = d.lines.take i ++ (block ++ last :: d.lines.drop (i + 1)) := by
  refine ⟨_, applyEdits?_onLine found text_eq start_eq stop_eq, ?_⟩
  rw [source_eq, lines_exchange found whole proper same]

/-- Replacing the text of a line replaces the line and keeps its ending. -/
theorem exists_replaceLine (found : d.lines[i]? = some line) {text : Text}
    (proper : Line.IsProper ⟨text, line.ending⟩) :
    ∃ result, d.applyEdits? [.replace (d.lineRange i) text] = some result ∧
      (ofText result).lines = d.lines.take i ++ ⟨text, line.ending⟩ :: d.lines.drop (i + 1) := by
  have text_eq : line.text = [] ++ (line.text ++ []) := by simp
  have stop_eq : (d.lineRange i).stop = ⟨i, Text.byteSize [] + Text.byteSize line.text⟩ := by
    rw [lineRange_stop found, Text.byteSize_nil, Nat.zero_add]
  exact exists_edit_onLine found text_eq (d.lineRange_start i) stop_eq (List.forall_mem_nil _)
    proper rfl (by simp [Line.source, Edit.replace])

/-- Whole lines added in front of a line stand there. -/
theorem exists_insertLines (found : d.lines[i]? = some line) {block : List Line}
    (whole : ∀ line ∈ block, line.IsWhole) :
    ∃ result, d.applyEdits? [.insert ⟨i, 0⟩ (block.flatMap Line.source)] = some result ∧
      (ofText result).lines = d.lines.take i ++ (block ++ d.lines.drop i) := by
  have text_eq : line.text = [] ++ ([] ++ line.text) := by simp
  have proper := d.isProper_of_mem_lines line (List.mem_of_getElem? found)
  obtain ⟨inside, line_eq⟩ := List.getElem?_eq_some_iff.mp found
  rw [List.drop_eq_getElem_cons inside, line_eq]
  exact exists_edit_onLine found text_eq rfl rfl whole proper rfl
    (by simp [Line.source, Edit.insert])

/-- Whole lines added behind the last line take over its ending, and the newline in front of them
takes a carriage return from its text. -/
theorem exists_insertAfterLast (found : d.lines[i]? = some line) (last : ¬ i < d.lastLine)
    {block : List Line} {text : Text} (whole : ∀ line ∈ block, line.IsWhole)
    (fills : Line.Fills text) :
    ∃ result,
      d.applyEdits? [d.insertAfterLine i (block.flatMap Line.source ++ (text ++ "\n"))] =
        some result ∧
      (ofText result).lines = d.lines.take i ++
        (Line.closing line.text :: (block ++ ⟨text, line.ending⟩ :: d.lines.drop (i + 1))) := by
  have shortened : Text.before? "\n" (block.flatMap Line.source ++ (text ++ "\n")) =
      some (block.flatMap Line.source ++ text) :=
    Text.before?_eq_some_iff.mpr (List.append_assoc _ _ _).symm
  have text_eq : line.text = line.text ++ ([] ++ []) := by simp
  have start_eq : d.lineEnd i = ⟨i, Text.byteSize line.text⟩ := by rw [lineEnd, lineLen_eq found]
  have line_proper := d.isProper_of_mem_lines line (List.mem_of_getElem? found)
  have new_whole : ∀ line' ∈ Line.closing line.text :: block, line'.IsWhole :=
    List.forall_mem_cons.mpr ⟨Line.closing_isWhole line_proper.newline_not_mem, whole⟩
  rw [insertAfterLine, if_neg last, shortened, Option.getD_some]
  refine exists_edit_onLine found text_eq start_eq start_eq new_whole (fills line.ending) rfl ?_
  rw [List.cons_append, List.flatMap_cons, Line.closing_source]
  simp [Line.source, Edit.insert]

/-- Whole lines added behind a line stand there. -/
theorem exists_insertAfterLine (found : d.lines[i]? = some line) {block : List Line} {text : Text}
    (whole : ∀ line ∈ block, line.IsWhole) (fills : Line.Fills text) :
    ∃ result closed ending,
      d.applyEdits? [d.insertAfterLine i (block.flatMap Line.source ++ (text ++ "\n"))] =
        some result ∧
      (closed.text = line.text ∨ closed.text ++ ['\r'] = line.text) ∧
      (ofText result).lines = d.lines.take i ++
        (closed :: (block ++ ⟨text, ending⟩ :: d.lines.drop (i + 1))) := by
  by_cases followed : i < d.lastLine
  · have next_inside : i + 1 < d.lineCount := by
      unfold lastLine at followed
      omega
    obtain ⟨next, next_found⟩ := exists_line next_inside
    have new_whole : ∀ line' ∈ block ++ [(⟨text, .newline⟩ : Line)], line'.IsWhole :=
      List.forall_mem_append.mpr
        ⟨whole, List.forall_mem_singleton.mpr ⟨fills .newline, rfl⟩⟩
    obtain ⟨result, applied, lines_eq⟩ := exists_insertLines next_found new_whole
    refine ⟨result, line, .newline, ?_, .inl rfl, ?_⟩
    · rw [insertAfterLine, if_pos followed]
      simpa [Line.source, LineEnding.text] using applied
    · rw [lines_eq, List.take_add_one, found]
      simp
  · obtain ⟨result, applied, lines_eq⟩ := exists_insertAfterLast found followed whole fills
    exact ⟨result, _, _, applied, Line.closing_text line.text, lines_eq⟩

end Document

end LintRepair
