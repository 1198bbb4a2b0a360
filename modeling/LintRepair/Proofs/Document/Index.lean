import LintRepair.Proofs.Document.Address
import LintRepair.Proofs.Text.ByteOrder

/-!
# The line index

The lines of a text start at its beginning and behind every newline byte of its UTF-8 form.  Such a
byte is never part of another character, so that every line start lies between two characters, and
so do the ends of all the parts that are cut out of the text by line or by range.
-/

namespace LintRepair

namespace Text

/-- The byte offsets at which the lines of a text start: zero, and right behind every newline
byte. -/
def lineStarts (s : Text) : List Nat := 0 :: (s.bytes.idxsOf 10).map (· + 1)

section Bytes

variable {c : Char}

/-- The newline byte is part of no other character. -/
theorem newlineByte_not_mem_utf8EncodeChar (c_ne : c ≠ '\n') :
    (10 : UInt8) ∉ String.utf8EncodeChar c := by
  have value_ne : c.toNat ≠ 10 := fun same => c_ne (Char.toNat_inj.mp same)
  simp only [String.utf8EncodeChar, Char.toNat_val]
  split_ifs <;> simp [← UInt8.toNat_inj] <;> omega

theorem lineStarts_newline_cons (s : Text) :
    lineStarts ('\n' :: s) = 0 :: (lineStarts s).map ('\n'.utf8Size + ·) := by
  have encoded : String.utf8EncodeChar '\n' = [10] := by decide
  have width : '\n'.utf8Size = 1 := by decide
  simp only [lineStarts, bytes_cons, encoded, width, List.singleton_append, List.idxsOf_cons,
    beq_self_eq_true, if_true, List.map_cons, Nat.zero_add]
  rw [List.idxsOf_start]
  simp [Nat.add_comm]

theorem lineStarts_cons (c_ne : c ≠ '\n') (s : Text) :
    lineStarts (c :: s) = 0 :: (lineStarts s).tail.map (c.utf8Size + ·) := by
  have absent : (String.utf8EncodeChar c).idxsOf 10 = [] := by
    rw [List.idxsOf_eq_nil_iff]
    intro byte member
    exact beq_eq_false_iff_ne.mpr fun same =>
      newlineByte_not_mem_utf8EncodeChar c_ne (same ▸ member)
  rw [lineStarts, lineStarts, bytes_cons, List.idxsOf_append, absent, List.nil_append,
    List.idxsOf_start, String.length_utf8EncodeChar, Nat.zero_add]
  simp only [List.tail_cons, List.map_map, Function.comp_def]
  congr 2
  funext index
  omega

end Bytes

end Text

namespace LineEnding

/-- The carriage return of an ending, if it has one. -/
def carriageReturn : LineEnding → Text
  | none | newline => []
  | lone | returnNewline => ['\r']

theorem text_eq (ending : LineEnding) :
    ending.text = ending.carriageReturn ++ if ending.isBreak then ['\n'] else [] := by
  cases ending <;> rfl

/-- Endings that separate lines are newlines with or without a carriage return, and the others are
nothing or a carriage return. -/
theorem text_mem (ending : LineEnding) : ending.text ∈
    if ending.isBreak then (["\n", "\r\n"] : List Text) else ["", "\r"] := by
  cases ending <;> decide

end LineEnding

namespace Line

/-- The byte offsets at which lines start that are written one after another. -/
def starts : List Line → List Nat
  | [] => []
  | line :: rest => 0 :: (starts rest).map (Text.byteSize line.source + ·)

theorem starts_eq (lines : List Line) : starts lines =
    (List.range lines.length).map fun i => Text.byteSize ((lines.take i).flatMap source) := by
  induction lines with
  | nil => rfl
  | cons line rest ih => simp [starts, ih, List.range_succ_eq_map, Function.comp_def]

/-- The lines of a text start where its newline bytes say. -/
theorem starts_split (s : Text) : starts (split s) = s.lineStarts := by
  induction s with
  | nil => rfl
  | cons c s ih =>
      obtain ⟨line, rest, lines_eq⟩ := List.exists_cons_of_ne_nil (split_isLayout s).nonempty
      rw [split_cons, lines_eq, pushAll]
      rw [lines_eq] at ih
      -- A newline is a new first line.  Any other character lengthens the first line, and only the
      -- later ones start later by its bytes.
      by_cases c_eq : c = '\n'
      · subst c_eq
        rw [if_pos rfl, starts, ih, Text.lineStarts_newline_cons]
        rfl
      · rw [if_neg c_eq, starts, push_source, Text.byteSize_cons, Text.lineStarts_cons c_eq, ← ih,
          starts, List.tail_cons, List.map_map]
        simp only [Function.comp_def, Nat.add_assoc]

theorem length_split (s : Text) : (split s).length = s.count '\n' + 1 := by
  induction s with
  | nil => rfl
  | cons c s ih =>
      obtain ⟨line, rest, lines_eq⟩ := List.exists_cons_of_ne_nil (split_isLayout s).nonempty
      rw [split_cons, lines_eq, pushAll]
      rw [lines_eq] at ih
      by_cases c_eq : c = '\n'
      · rw [if_pos c_eq, List.length_cons, ih, c_eq, List.count_cons_self]
      · rw [if_neg c_eq, List.count_cons_of_ne c_eq, ← ih]
        rfl

theorem byteSize_source (line : Line) : Text.byteSize line.source =
    Text.byteSize (line.text ++ line.ending.carriageReturn) +
      if line.ending.isBreak then 1 else 0 := by
  rw [source, line.ending.text_eq, ← List.append_assoc, Text.byteSize_append]
  split <;> rfl

/-- What stands before the newline of a line is its text once a carriage return at the end is taken
away. -/
theorem IsProper.before?_return {line : Line} (proper : line.IsProper) :
    (Text.before? "\r" (line.text ++ line.ending.carriageReturn)).getD
      (line.text ++ line.ending.carriageReturn) = line.text := by
  obtain ⟨text, ending⟩ := line
  have taken : Text.before? "\r" (text ++ "\r") = some text := Text.before?_eq_some_iff.mpr rfl
  have bare (extended : ending.withReturn? ≠ none) :
      Text.before? "\r" (text ++ []) = none := by
    rw [List.append_nil, Option.eq_none_iff_forall_ne_some]
    intro front found
    obtain rfl : text = front ++ ['\r'] := Text.before?_eq_some_iff.mp found
    exact extended (proper.return_taken List.getLast?_concat)
  cases ending with
  | none | newline =>
      rw [LineEnding.carriageReturn, bare (by decide)]
      exact List.append_nil text
  | lone | returnNewline =>
      rw [LineEnding.carriageReturn]
      exact congrArg (Option.getD · _) taken

end Line

namespace Document

/-- Byte offset of the newline behind a line, or of the end of the text behind the last line. -/
def lineStop (d : Document) (i : Nat) : Nat :=
  if i < d.lastLine then d.lineStart (i + 1) - 1 else Text.byteSize d.text

variable {d : Document} {i : Nat} {line : Line} {r : Range}

theorem map_lineStart (d : Document) :
    (List.range d.lineCount).map d.lineStart = d.text.lineStarts := by
  rw [← Line.starts_split, ← d.lines_eq, Line.starts_eq]
  rfl

theorem lineCount_eq (d : Document) : d.lineCount = d.text.count '\n' + 1 := by
  rw [lineCount, d.lines_eq, Line.length_split]

/-- The text before a line start is that of the lines before it. -/
theorem cut?_lineStart (d : Document) (i : Nat) : Text.cut? d.text (d.lineStart i) =
    some ((d.lines.take i).flatMap Line.source, (d.lines.drop i).flatMap Line.source) := by
  rw [Text.cut?_eq_some_iff, ← List.flatMap_append, List.take_append_drop, d.lines_source]
  exact ⟨rfl, rfl⟩

theorem isBreak_iff_lt_lastLine (found : d.lines[i]? = some line) :
    line.ending.isBreak ↔ i < d.lastLine := by
  rw [isBreak_iff found]
  exact Nat.lt_sub_iff_add_lt.symm

/-- The newline that closes a line stands behind its text and its carriage return. -/
theorem lineStop_eq (found : d.lines[i]? = some line) : d.lineStop i =
    d.lineStart i + Text.byteSize (line.text ++ line.ending.carriageReturn) := by
  have source_size := line.byteSize_source
  have breaks_iff := isBreak_iff_lt_lastLine found
  rw [lineStop]
  by_cases followed : i < d.lastLine
  · rw [if_pos followed, lineStart_succ found, source_size, if_pos (breaks_iff.mpr followed)]
    rfl
  · have open_end : line.ending.isBreak = false := Bool.eq_false_iff.mpr (mt breaks_iff.mp followed)
    rw [if_neg followed, byteSize_text found, source_size,
      drop_eq_nil_of_isBreak_eq_false found open_end, open_end]
    rfl

/-- The part of the text from the start of a line to its newline. -/
theorem slice?_line (found : d.lines[i]? = some line) :
    Text.slice? d.text (d.lineStart i) (d.lineStop i) =
      some (line.text ++ line.ending.carriageReturn) := by
  rw [lineStop_eq found, Text.slice?_eq_some_iff]
  refine ⟨(d.lines.take i).flatMap Line.source, (if line.ending.isBreak then ['\n'] else []) ++
    (d.lines.drop (i + 1)).flatMap Line.source, ?_, rfl, Text.byteSize_append _ _⟩
  conv_lhs => rw [text_eq_around found, Line.source, line.ending.text_eq]
  simp only [List.append_assoc]

/-- A line is cut out of the text without splitting a character, less a carriage return at its
end. -/
theorem exists_slice?_line (inside : i < d.lineCount) :
    ∃ part, Text.slice? d.text (d.lineStart i) (d.lineStop i) = some part ∧
      d.line? i = some ((Text.before? "\r" part).getD part) := by
  obtain ⟨line, found⟩ := exists_line inside
  have proper := d.isProper_of_mem_lines line (List.mem_of_getElem? found)
  exact ⟨_, slice?_line found, by rw [proper.before?_return, line?_eq_some found]⟩

theorem cut?_eq_none {p : Position} {text : Text} (outside : ¬ d.IsAddressable p)
    (found : d.line? p.line = some text) : Text.cut? text p.column = none := by
  rw [← Option.not_isSome_iff_eq_none, Text.cut?_isSome_iff]
  exact fun cut => outside (isAddressable_iff.mpr ⟨text, found, cut⟩)

theorem textBefore_eq_nil (outside : ¬ d.IsAddressable r.start) : d.textBefore r = [] := by
  rw [textBefore]
  cases found : d.line? r.start.line with
  | none => rfl
  | some text => rw [Option.bind_some, Text.upTo?, cut?_eq_none outside found]; rfl

theorem textAfter_eq_nil (outside : ¬ d.IsAddressable r.stop) : d.textAfter r = [] := by
  rw [textAfter]
  cases found : d.line? r.stop.line with
  | none => rfl
  | some text => rw [Option.bind_some, Text.from?, cut?_eq_none outside found]; rfl

/-- The lines of a document represent its text: one more than its newlines, none of which a line
holds, and with their endings they give it back.  Lines start where a scan of the bytes for newlines
says, and each start parts the characters of the earlier lines from those of the later ones.  A line
is what stands between its start and its newline, less a carriage return at the end.  The texts
before and behind a range are parts of its lines whenever the end of the range is addressable, and
empty otherwise; the text under a range is the part between the offsets of its ends, which exists
exactly when both are addressable. -/
theorem line_index_represents_text (d : Document) :
    d.lineCount = d.text.count '\n' + 1 ∧
    (∀ i text, d.line? i = some text → '\n' ∉ text) ∧
    d.lines.flatMap (fun line => line.text ++ line.ending.text) = d.text ∧
    (∀ i line, d.lines[i]? = some line → d.line? i = some line.text ∧ line.ending.text ∈
      if i < d.lastLine then (["\n", "\r\n"] : List Text) else ["", "\r"]) ∧
    (List.range d.lineCount).map d.lineStart = d.text.lineStarts ∧
    (∀ i < d.lineCount, Text.cut? d.text (d.lineStart i) =
      some ((d.lines.take i).flatMap Line.source, (d.lines.drop i).flatMap Line.source)) ∧
    (∀ i < d.lineCount, ∃ part, Text.slice? d.text (d.lineStart i) (d.lineStop i) = some part ∧
      d.line? i = some ((Text.before? "\r" part).getD part)) ∧
    (∀ r, if (d.offset? r.start).isSome then
        ∃ rest, d.line? r.start.line = some (d.textBefore r ++ rest) ∧
          Text.byteSize (d.textBefore r) = r.start.column
      else d.textBefore r = []) ∧
    (∀ r, if (d.offset? r.stop).isSome then
        ∃ front, d.line? r.stop.line = some (front ++ d.textAfter r) ∧
          Text.byteSize front = r.stop.column
      else d.textAfter r = []) ∧
    (∀ r part, d.textIn? r = some part ↔ ∃ front behind, d.text = front ++ (part ++ behind) ∧
      d.offset? r.start = some (Text.byteSize front) ∧
      d.offset? r.stop = some (Text.byteSize (front ++ part))) ∧
    ∀ r, (d.textIn? r).isSome ↔ d.containsRange r := by
  refine ⟨d.lineCount_eq, fun i text found => ?_, d.lines_source, fun i line found => ?_,
    d.map_lineStart, fun i _ => d.cut?_lineStart i, fun i => exists_slice?_line, fun r => ?_,
    fun r => ?_, fun r part => textIn?_eq_some_iff, fun r => textIn?_isSome_iff⟩
  · rw [← getElem?_texts] at found
    exact newline_not_mem_of_mem_texts (List.mem_of_getElem? found)
  · have ending := line.ending.text_mem
    simp only [isBreak_iff_lt_lastLine found] at ending
    exact ⟨line?_eq_some found, ending⟩
  · split
    · exact exists_textBefore_of_isAddressable (offset?_isSome_iff.mp ‹_›)
    · exact textBefore_eq_nil (mt offset?_isSome_iff.mpr ‹_›)
  · split
    · exact exists_textAfter_of_isAddressable (offset?_isSome_iff.mp ‹_›)
    · exact textAfter_eq_nil (mt offset?_isSome_iff.mpr ‹_›)

/-- A text with carriage returns before, behind and without newlines, an empty line and characters
of two bytes. -/
def scannedDocument : Document := .ofText "é\r\nb\r\r\n\nç\r"

theorem line_index_represents_text_of_scanned :
    scannedDocument.lineCount = 4 ∧ '\n' ∉ ("b\r" : Text) ∧
    scannedDocument.line? 1 = some ("b\r" : Text) ∧
    scannedDocument.lines[3]? = some ⟨"ç", .lone⟩ ∧
    (LineEnding.lone.text ∈ (["", "\r"] : List Text)) ∧
    (List.range 4).map scannedDocument.lineStart = [0, 4, 8, 9] ∧
    Text.cut? scannedDocument.text (scannedDocument.lineStart 1) =
      some (("é\r\n" : Text), ("b\r\r\n\nç\r" : Text)) ∧
    (∃ part, Text.slice? scannedDocument.text 4 7 = some part ∧
      scannedDocument.line? 1 = some ((Text.before? "\r" part).getD part)) ∧
    (scannedDocument.offset? ⟨3, 2⟩).isSome ∧
    (∃ rest, scannedDocument.line? 3 = some (scannedDocument.textBefore (.empty ⟨3, 2⟩) ++ rest) ∧
      Text.byteSize (scannedDocument.textBefore (.empty ⟨3, 2⟩)) = 2) ∧
    ¬ (scannedDocument.offset? ⟨3, 1⟩).isSome ∧
    scannedDocument.textAfter (.empty ⟨3, 1⟩) = [] ∧
    (scannedDocument.textIn? (.between ⟨0, 2⟩ ⟨3, 2⟩)).isSome ∧
    scannedDocument.containsRange (.between ⟨0, 2⟩ ⟨3, 2⟩) ∧
    (scannedDocument.textIn? (.between ⟨0, 1⟩ ⟨3, 2⟩)) = none := by
  obtain ⟨counted, newline_free, -, endings, starts, cuts, sliced, before, after, -, covered⟩ :=
    line_index_represents_text scannedDocument
  have line_found : scannedDocument.line? 1 = some ("b\r" : Text) := by decide
  have last_found : scannedDocument.lines[3]? = some ⟨"ç", .lone⟩ := by decide
  have found : (scannedDocument.offset? ⟨3, 2⟩).isSome := by decide
  have missed : ¬ (scannedDocument.offset? ⟨3, 1⟩).isSome := by decide
  have contained : scannedDocument.containsRange (.between ⟨0, 2⟩ ⟨3, 2⟩) := by decide
  have uncontained : ¬ scannedDocument.containsRange (.between ⟨0, 1⟩ ⟨3, 2⟩) := by decide
  have before_cut := before (.empty ⟨3, 2⟩)
  have after_cut := after (.empty ⟨3, 1⟩)
  rw [if_pos (show (scannedDocument.offset? (Range.empty ⟨3, 2⟩).start).isSome from found)]
    at before_cut
  rw [if_neg (show ¬ (scannedDocument.offset? (Range.empty ⟨3, 1⟩).stop).isSome from missed)]
    at after_cut
  exact ⟨counted, newline_free 1 _ line_found, line_found, last_found,
    (endings 3 _ last_found).2, starts, cuts 1 (by decide), sliced 1 (by decide), found, before_cut,
    missed, after_cut, (covered _).mpr contained, contained,
    Option.not_isSome_iff_eq_none.mp (mt (covered _).mp uncontained)⟩

end Document

end LintRepair
