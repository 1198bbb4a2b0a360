import LintRepair.Edit
import LintRepair.Proofs.Document.Offset
import LintRepair.Proofs.Text.Piece

/-!
# Addressable ranges

The ranges that are made from the lines of a document are addressable in it, and so are the ends of
parts of the text before and behind an addressable range.
-/

namespace LintRepair

@[simp]
theorem Range.start_between (start stop : Position) : (Range.between start stop).start = start := by
  unfold Range.between
  split <;> rfl

theorem Range.stop_between {start stop : Position} (ordered : ¬ stop < start) :
    (Range.between start stop).stop = stop := by
  rw [Range.between, dif_neg ordered]

theorem Range.stop_between_eq (p q : Position) :
    (between p q).stop = if q < p then p else q := by
  unfold between
  split <;> rfl

/-- A pair of positions is kept as it is exactly if it is in order. -/
theorem Range.stop_between_iff {p q : Position} : (between p q).stop = q ↔ p ≤ q := by
  rw [stop_between_eq, Position.le_iff]
  split
  · rename_i reversed
    rw [Position.lt_iff] at reversed
    rw [Position.eq_iff]
    omega
  · rename_i kept
    rw [Position.lt_iff] at kept
    simp only [true_iff]
    omega

theorem Range.between_start_stop (r : Range) : between r.start r.stop = r := by
  obtain ⟨start, stop, ordered⟩ := r
  have not_reversed : ¬ stop < start := by
    rintro (line | ⟨line, column⟩) <;> rcases ordered with before | ⟨same, columns⟩ <;> omega
  exact dif_neg not_reversed

theorem Range.eq_between_iff {r : Range} {p q : Position} :
    r = between p q ↔ r.start = p ∧ r.stop = if q < p then p else q := by
  constructor
  · rintro rfl
    exact ⟨start_between p q, stop_between_eq p q⟩
  · rintro ⟨start_eq, stop_eq⟩
    calc
      r = between r.start r.stop := r.between_start_stop.symm
      _ = between (between p q).start (between p q).stop := by
        rw [start_eq, stop_eq, start_between, stop_between_eq]
      _ = between p q := (between p q).between_start_stop

namespace Document

theorem line?_eq_some {d : Document} {i : Nat} {line : Line} (found : d.lines[i]? = some line) :
    d.line? i = some line.text := by
  rw [line?, found, Option.map_some]

theorem lineLen_eq {d : Document} {i : Nat} {line : Line} (found : d.lines[i]? = some line) :
    d.lineLen i = Text.byteSize line.text := by
  rw [lineLen, line?_eq_some found, Option.map_some, Option.getD_some]

theorem lineRange_start (d : Document) (i : Nat) : (d.lineRange i).start = ⟨i, 0⟩ :=
  Range.start_between _ _

theorem lineRange_stop {d : Document} {i : Nat} {line : Line} (found : d.lines[i]? = some line) :
    (d.lineRange i).stop = ⟨i, Text.byteSize line.text⟩ := by
  rw [lineRange, lineLen_eq found, Range.onLine, Range.stop_between]
  simp [Position.lt_iff]

theorem line?_isSome_iff {d : Document} {i : Nat} : (d.line? i).isSome ↔ i < d.lineCount := by
  simp [line?, lineCount]

theorem isAddressable_iff {d : Document} {p : Position} :
    d.IsAddressable p ↔ ∃ text, d.line? p.line = some text ∧ Text.IsCut text p.column := by
  simp only [IsAddressable, line?, Option.map_eq_some_iff]
  constructor
  · rintro ⟨line, found, cut⟩
    exact ⟨line.text, ⟨line, found, rfl⟩, cut⟩
  · rintro ⟨_, ⟨line, found, rfl⟩, cut⟩
    exact ⟨line, found, cut⟩

theorem IsAddressable.of_line {d : Document} {i column : Nat} {text : Text}
    (found : d.line? i = some text) (cut : Text.IsCut text column) :
    d.IsAddressable ⟨i, column⟩ :=
  isAddressable_iff.mpr ⟨text, found, cut⟩

theorem isAddressable_lineStart {d : Document} {i : Nat} (inside : i < d.lineCount) :
    d.IsAddressable ⟨i, 0⟩ := by
  obtain ⟨text, found⟩ := Option.isSome_iff_exists.mp (line?_isSome_iff.mpr inside)
  exact .of_line found (.zero text)

theorem isAddressable_lineEnd {d : Document} {i : Nat} (inside : i < d.lineCount) :
    d.IsAddressable (d.lineEnd i) := by
  obtain ⟨text, found⟩ := Option.isSome_iff_exists.mp (line?_isSome_iff.mpr inside)
  refine .of_line found ?_
  rw [lineLen, found]
  exact .byteSize text

theorem containsRange_empty {d : Document} {p : Position} :
    d.containsRange (.empty p) ↔ d.IsAddressable p := by
  simp [containsRange_iff, Range.empty]

theorem containsRange_between {d : Document} {p q : Position} (p_addressable : d.IsAddressable p)
    (q_addressable : d.IsAddressable q) : d.containsRange (.between p q) := by
  rw [containsRange_iff, Range.between]
  split
  · exact ⟨p_addressable, p_addressable⟩
  · exact ⟨p_addressable, q_addressable⟩

theorem containsRange_lineRange {d : Document} {i : Nat} (inside : i < d.lineCount) :
    d.containsRange (d.lineRange i) :=
  containsRange_between (isAddressable_lineStart inside) (isAddressable_lineEnd inside)

theorem containsRange_deletionRange {d : Document} {i : Nat} (inside : i < d.lineCount) :
    d.containsRange (d.deletionRange i) := by
  have last := d.lastLine_lt
  unfold deletionRange
  split
  · exact containsRange_between (isAddressable_lineStart inside)
      (isAddressable_lineStart (by omega))
  · split
    · exact containsRange_between (isAddressable_lineEnd (by omega))
        (isAddressable_lineEnd inside)
    · exact containsRange_lineRange inside

theorem containsRange_changeLine {d : Document} {i : Nat} (inside : i < d.lineCount)
    (change : LineChange) : d.containsRange (d.changeLine i change).range := by
  cases change with
  | delete => exact containsRange_deletionRange inside
  | replace text => exact containsRange_lineRange inside

/-- A text is added behind a line at the start of the next one, or at the end of the last. -/
theorem insertAfterLine_range (d : Document) (i : Nat) (text : Text) :
    (d.insertAfterLine i text).range =
      .empty (if i < d.lastLine then ⟨i + 1, 0⟩ else d.lineEnd i) := by
  unfold insertAfterLine
  split <;> rfl

theorem containsRange_insertAfterLine {d : Document} {i : Nat} (inside : i < d.lineCount)
    (text : Text) : d.containsRange (d.insertAfterLine i text).range := by
  have last := d.lastLine_lt
  rw [insertAfterLine_range, containsRange_empty]
  split
  · exact isAddressable_lineStart (by omega)
  · exact isAddressable_lineEnd inside

/-- The text before a range whose start is addressable ends there. -/
theorem exists_textBefore_of_isAddressable {d : Document} {r : Range}
    (addressable : d.IsAddressable r.start) :
    ∃ rest, d.line? r.start.line = some (d.textBefore r ++ rest) ∧
      Text.byteSize (d.textBefore r) = r.start.column := by
  obtain ⟨text, found, before, rest, rfl, size⟩ := isAddressable_iff.mp addressable
  have cut : d.textBefore r = before := by
    rw [textBefore, found, ← size]
    simp [Text.upTo?, Text.cut?_append]
  exact ⟨rest, by rw [found, cut], by rw [cut, size]⟩

/-- The text behind a range whose end is addressable starts there. -/
theorem exists_textAfter_of_isAddressable {d : Document} {r : Range}
    (addressable : d.IsAddressable r.stop) :
    ∃ front, d.line? r.stop.line = some (front ++ d.textAfter r) ∧
      Text.byteSize front = r.stop.column := by
  obtain ⟨text, found, front, after, rfl, size⟩ := isAddressable_iff.mp addressable
  have cut : d.textAfter r = after := by
    rw [textAfter, found, ← size]
    simp [Text.from?, Text.cut?_append]
  exact ⟨front, by rw [found, cut], size⟩

/-- The text before an addressable range ends where the range starts. -/
theorem exists_textBefore {d : Document} {r : Range} (inside : d.containsRange r) :
    ∃ rest, d.line? r.start.line = some (d.textBefore r ++ rest) ∧
      Text.byteSize (d.textBefore r) = r.start.column :=
  exists_textBefore_of_isAddressable (containsRange_iff.mp inside).1

/-- The text behind an addressable range starts where the range ends. -/
theorem exists_textAfter {d : Document} {r : Range} (inside : d.containsRange r) :
    ∃ front, d.line? r.stop.line = some (front ++ d.textAfter r) ∧
      Text.byteSize front = r.stop.column :=
  exists_textAfter_of_isAddressable (containsRange_iff.mp inside).2

theorem isAddressable_of_isPrefix_textBefore {d : Document} {r : Range} (inside : d.containsRange r)
    {front : Text} (front_leads : front <+: d.textBefore r) :
    d.IsAddressable ⟨r.start.line, Text.byteSize front⟩ := by
  obtain ⟨rest, found, -⟩ := exists_textBefore inside
  exact .of_line found ((Text.IsCut.of_isPrefix front_leads).append_right rest)

theorem isAddressable_of_isPrefix_textAfter {d : Document} {r : Range} (inside : d.containsRange r)
    {front : Text} (front_leads : front <+: d.textAfter r) :
    d.IsAddressable ⟨r.stop.line, r.stop.column + Text.byteSize front⟩ := by
  obtain ⟨before, found, size⟩ := exists_textAfter inside
  rw [← size]
  exact .of_line found ((Text.IsCut.of_isPrefix front_leads).append_left before)

/-- The text before an addressable position: whole lines, and the front of the line it is on. -/
theorem exists_upTo {d : Document} {p : Position} {offset : Nat}
    (found : d.offset? p = some offset) :
    ∃ front rest, d.line? p.line = some (front ++ rest) ∧ Text.byteSize front = p.column ∧
      Text.upTo? d.text offset = some ((d.lines.take p.line).flatMap Line.source ++ front) := by
  obtain ⟨⟨line, line_found, front, rest, parts, size⟩, rfl⟩ := offset?_eq_some_iff.mp found
  refine ⟨front, rest, by rw [line?, line_found, Option.map_some, parts], size, ?_⟩
  rw [text_eq_around line_found, Line.source, parts, lineStart, ← size,
    ← Text.byteSize_append, Text.upTo?]
  have cut := Text.cut?_append ((d.lines.take p.line).flatMap Line.source ++ front)
    (rest ++ line.ending.text ++ (d.lines.drop (p.line + 1)).flatMap Line.source)
  simp only [List.append_assoc] at cut ⊢
  rw [cut]
  rfl

theorem getLast?_linesBefore {d : Document} {i : Nat} (followed : i + 1 < d.lineCount) :
    ((d.lines.take (i + 1)).flatMap Line.source).getLast? = some '\n' := by
  obtain ⟨line, found⟩ := exists_line (Nat.lt_of_succ_lt followed)
  have newline := LineEnding.getLast?_text (isBreak_of_lt found followed)
  simp [List.take_add_one, found, Line.source, newline]

theorem textIn?_eq (d : Document) (r : Range) : d.textIn? r =
    (d.offset? r.start).bind fun start => (d.offset? r.stop).bind (Text.slice? d.text start) := by
  simp only [textIn?, Option.bind_eq_bind]
  congr 1
  funext start
  congr 1
  funext stop
  rw [Text.slice?, Text.upTo?, Option.bind_map]
  rfl

/-- The text under a range is the part of the document between the offsets of its ends. -/
theorem textIn?_eq_some_iff {d : Document} {r : Range} {part : Text} : d.textIn? r = some part ↔
    ∃ front behind, d.text = front ++ (part ++ behind) ∧
      d.offset? r.start = some (Text.byteSize front) ∧
      d.offset? r.stop = some (Text.byteSize (front ++ part)) := by
  simp only [textIn?_eq, Option.bind_eq_some_iff, Text.slice?_eq_some_iff]
  constructor
  · rintro ⟨_, start_found, _, stop_found, front, behind, text_eq, rfl, rfl⟩
    exact ⟨front, behind, text_eq, start_found, stop_found⟩
  · rintro ⟨front, behind, text_eq, start_found, stop_found⟩
    exact ⟨_, start_found, _, stop_found, front, behind, text_eq, rfl, rfl⟩

/-- The offsets of an addressable range are cuts of the text in order. -/
theorem textIn?_isSome_iff {d : Document} {r : Range} :
    (d.textIn? r).isSome ↔ d.containsRange r := by
  rw [textIn?_eq, containsRange]
  cases start_found : d.offset? r.start with
  | none => simp
  | some start =>
      cases stop_found : d.offset? r.stop with
      | none => simp
      | some stop =>
          have ordered : start ≤ stop := (offset?_le_iff start_found stop_found).mpr r.ordered
          have sliced : (Text.slice? d.text start stop).isSome :=
            Text.slice?_isSome_iff.mpr
              ⟨isCut_of_offset? start_found, isCut_of_offset? stop_found, ordered⟩
          simpa using sliced

/-- The text under a range ends where the front of a line ends. -/
theorem eq_append_of_textIn? {d : Document} {r : Range} {text : Text}
    (covered : d.textIn? r = some text) :
    ∃ front rest before, d.line? r.stop.line = some (front ++ rest) ∧
      Text.byteSize front = r.stop.column ∧
      (d.lines.take r.stop.line).flatMap Line.source ++ front = before ++ text := by
  obtain ⟨before, behind, text_eq, -, stop_found⟩ := textIn?_eq_some_iff.mp covered
  obtain ⟨front, rest, line_found, size, upTo_eq⟩ := exists_upTo stop_found
  rw [text_eq, ← List.append_assoc, Text.upTo?, Text.cut?_append] at upTo_eq
  exact ⟨front, rest, before, line_found, size, (Option.some.inj upTo_eq).symm⟩

/-- Where the text under a range ends in a character other than a newline, that character stands
before the end of the range on the same line. -/
theorem isAddressable_before_stop {d : Document} {r : Range} {text : Text} {c : Char}
    (covered : d.textIn? r = some text) (last : text.getLast? = some c) (no_newline : c ≠ '\n') :
    c.utf8Size ≤ r.stop.column ∧ d.IsAddressable ⟨r.stop.line, r.stop.column - c.utf8Size⟩ := by
  obtain ⟨front, rest, before, found, size, parts⟩ := eq_append_of_textIn? covered
  have upTo_last : ((d.lines.take r.stop.line).flatMap Line.source ++ front).getLast? = some c := by
    rw [parts, List.getLast?_append, last, Option.some_or]
  rcases List.eq_nil_or_concat front with rfl | ⟨shorter, front_last, front_eq⟩
  · cases line_eq : r.stop.line with
    | zero => simp [line_eq] at upTo_last
    | succ above =>
        have inside : above + 1 < d.lineCount := by
          rw [← line_eq, ← line?_isSome_iff, found, Option.isSome_some]
        rw [line_eq, List.append_nil, getLast?_linesBefore inside] at upTo_last
        exact absurd (Option.some.inj upTo_last).symm no_newline
  · obtain rfl := front_eq.trans List.concat_eq_append
    obtain rfl : front_last = c := by simpa using upTo_last
    rw [Text.byteSize_append, Text.byteSize_cons, Text.byteSize_nil, Nat.add_zero] at size
    rw [← size, Nat.add_sub_cancel]
    rw [List.append_assoc] at found
    exact ⟨Nat.le_add_left _ _, .of_line found (.of_append shorter _)⟩

/-- The text under a range on one line is the part of the line between its columns. -/
theorem textIn?_eq_middle {d : Document} {r : Range} {i : Nat} {left middle right : Text}
    (found : d.line? i = some (left ++ (middle ++ right)))
    (start_eq : r.start = ⟨i, Text.byteSize left⟩)
    (stop_eq : r.stop = ⟨i, Text.byteSize (left ++ middle)⟩) : d.textIn? r = some middle := by
  obtain ⟨line, line_found, line_eq⟩ := Option.map_eq_some_iff.mp found
  let front := (d.lines.take i).flatMap Line.source
  let behind := line.ending.text ++ (d.lines.drop (i + 1)).flatMap Line.source
  have start_at : d.offset? r.start = some (Text.byteSize (front ++ left)) := by
    rw [start_eq, Text.byteSize_append]
    exact offset?_eq_some_iff.mpr ⟨.of_line found (.of_append left _), rfl⟩
  have stop_at : d.offset? r.stop = some (Text.byteSize (front ++ (left ++ middle))) := by
    rw [stop_eq, Text.byteSize_append front]
    refine offset?_eq_some_iff.mpr ⟨.of_line found ?_, rfl⟩
    rw [← List.append_assoc]
    exact .of_append (left ++ middle) right
  have text_eq : d.text = front ++ (left ++ middle) ++ (right ++ behind) := by
    rw [text_eq_around line_found, Line.source, line_eq]
    simp [front, behind]
  refine textIn?_eq_some_iff.mpr ⟨front ++ left, right ++ behind, ?_, start_at, ?_⟩
  · simpa only [List.append_assoc] using text_eq
  · rw [stop_at, List.append_assoc]

theorem textIn?_onLine {d : Document} {i : Nat} {left middle right : Text}
    (found : d.line? i = some (left ++ (middle ++ right))) :
    d.textIn? (.onLine i (Text.byteSize left) (Text.byteSize (left ++ middle))) = some middle := by
  refine textIn?_eq_middle found (Range.start_between _ _) (Range.stop_between ?_)
  simp [Position.lt_iff]

/-- The line that a range lies on is the text before it, the text under it and the text behind. -/
theorem line?_of_textIn? {d : Document} {r : Range} {text : Text} (single : r.isSingleLine)
    (covered : d.textIn? r = some text) :
    d.line? r.start.line = some (d.textBefore r ++ (text ++ d.textAfter r)) ∧
      r.start.column = Text.byteSize (d.textBefore r) ∧
      r.stop.column = Text.byteSize (d.textBefore r ++ text) := by
  have one_line : r.start.line = r.stop.line := of_decide_eq_true single
  have inside : d.containsRange r := textIn?_isSome_iff.mp (by rw [covered, Option.isSome_some])
  obtain ⟨rest, found, before_size⟩ := exists_textBefore inside
  obtain ⟨front, same_found, front_size⟩ := exists_textAfter inside
  have parts : d.textBefore r ++ rest = front ++ d.textAfter r := by
    rw [← one_line, found] at same_found
    exact Option.some.inj same_found
  have ordered : Text.byteSize (d.textBefore r) ≤ Text.byteSize front := by
    rw [before_size, front_size]
    exact (r.ordered.resolve_left (Nat.not_lt_of_le (Nat.le_of_eq one_line.symm))).2
  have cut : Text.IsCut (d.textBefore r ++ rest) (Text.byteSize front) :=
    parts ▸ .of_append front (d.textAfter r)
  obtain ⟨middle, later, rfl, size⟩ := cut.past ordered
  rw [← List.append_assoc] at parts
  rw [← Text.byteSize_append] at size
  obtain ⟨rfl, rfl⟩ := Text.append_inj_of_byteSize_eq parts size
  have middle_covered : d.textIn? r = some middle :=
    textIn?_eq_middle found (Position.eq_iff.mpr ⟨rfl, before_size.symm⟩)
      (Position.eq_iff.mpr ⟨one_line.symm, front_size.symm⟩)
  obtain rfl := Option.some.inj (covered.symm.trans middle_covered)
  exact ⟨found, before_size.symm, front_size.symm⟩

/-- A range on one line covers more when it is widened on both sides. -/
theorem textIn?_widened {d : Document} {r : Range} {text left kept added right : Text}
    (single : r.isSingleLine) (covered : d.textIn? r = some text)
    (before_eq : d.textBefore r = left ++ kept) (after_eq : d.textAfter r = added ++ right) :
    d.textIn? (.onLine r.start.line (Text.byteSize left) (r.stop.column + Text.byteSize added)) =
      some (kept ++ (text ++ added)) := by
  obtain ⟨found, -, stop_eq⟩ := line?_of_textIn? single covered
  rw [before_eq, after_eq] at found
  rw [before_eq] at stop_eq
  have parted : d.line? r.start.line = some (left ++ ((kept ++ (text ++ added)) ++ right)) := by
    rw [found]
    simp only [List.append_assoc]
  have size : r.stop.column + Text.byteSize added =
      Text.byteSize (left ++ (kept ++ (text ++ added))) := by
    rw [stop_eq]
    simp only [Text.byteSize_append, Nat.add_assoc]
  rw [size]
  exact textIn?_onLine parted

end Document

end LintRepair
