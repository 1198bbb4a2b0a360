import LintRepair.Proofs.Document.LineEdits
import LintRepair.Proofs.Import.Scan

/-!
# Imports added one after another

A new import becomes the last of the declarations at the top of a module: the scan of the edited
module passes over the same lines as before and then over the new one.  So the next import goes
right behind it, and a blank line is added for the first of them at most.
-/

namespace LintRepair

namespace Import

/-- A statement that can be added: it is written on one line, and what is added starts a
declaration. -/
structure IsStatement (statement : Text) : Prop where
  newline_not_mem : '\n' ∉ statement
  starts : startsDeclaration (normalize statement)

section Normal

variable {statement : Text}

theorem exists_normalize_eq (statement : Text) : ∃ front, normalize statement = front ++ [';'] := by
  rw [normalize]
  split
  · rename_i terminated
    obtain ⟨front, found⟩ := Option.isSome_iff_exists.mp terminated
    exact ⟨front, Text.before?_eq_some_iff.mp found⟩
  · exact ⟨_, rfl⟩

theorem endsOn_normalize (statement : Text) : endsOn (normalize statement) := by
  obtain ⟨front, normal⟩ := exists_normalize_eq statement
  rw [normal]
  exact endsOn_append_semicolon front (List.forall_mem_nil _)

theorem IsStatement.fills (isStatement : IsStatement statement) :
    Line.Fills (normalize statement) := by
  obtain ⟨front, normal⟩ := exists_normalize_eq statement
  refine Line.fills_of_unreturned ?_ (by simp [normal])
  have absent : '\n' ∉ Text.trim statement :=
    mt Text.mem_of_mem_trim isStatement.newline_not_mem
  rw [normalize]
  split
  · exact absent
  · exact fun member => (List.mem_append.mp member).elim absent (by decide)

theorem IsStatement.starts_trimmed (isStatement : IsStatement statement) :
    startsDeclaration (Text.trimStart (normalize statement)) := by
  rw [trimStart_of_startsDeclaration isStatement.starts]
  exact isStatement.starts

theorem pass?_nil (inComment : Bool) (index : Nat) :
    pass? inComment index [] = some inComment := by
  cases inComment with
  | true => rfl
  | false => exact if_pos (.inr (.inl rfl))

theorem needsSeparator_nil : needsSeparator [] = false := by decide

end Normal

end Import

namespace Document

open Import

/-- The blank line that keeps a new import apart from the line that follows it, if it needs one. -/
def importGap (d : Document) : List Text :=
  if (d.line? d.importLine).any needsSeparator then [[]] else []

variable {d : Document} {statement : Text}

/-- The edit that adds an import puts its line, and the gap behind it, in front of a line. -/
theorem exists_importEdit (unreturned : ∀ text ∈ d.texts, text.getLast? ≠ some '\r')
    (isStatement : IsStatement statement) :
    ∃ result, d.applyEdits? [d.importEdit statement] = some result ∧
      (ofText result).texts = d.texts.take d.importLine ++
        normalize statement :: (d.importGap ++ d.texts.drop d.importLine) := by
  have fills := isStatement.fills
  have line_le := d.importLine_le
  have last_lt := d.lastLine_lt
  by_cases behind : d.lastLine < d.importLine
  · -- behind the last line, where there is nothing to keep the import apart from
    have line_eq : d.importLine = d.lastLine + 1 := by
      rw [length_texts] at line_le
      unfold lastLine at behind ⊢
      omega
    have no_line : d.line? d.importLine = none := by
      rw [← getElem?_texts]
      refine List.getElem?_eq_none ?_
      rw [length_texts, line_eq]
      unfold lastLine
      omega
    have no_gap : d.importGap = [] := by simp [importGap, no_line]
    have shortened : Text.before? "\n" ([normalize statement].flatMap (· ++ "\n")) =
        some (normalize statement) := Text.before?_eq_some_iff.mpr (by simp)
    have edit_eq : d.importEdit statement =
        d.insertAfterLine d.lastLine ([normalize statement].flatMap (· ++ "\n")) := by
      rw [importEdit, if_pos behind, insertAfterLine, if_neg (Nat.lt_irrefl _), shortened]
      rfl
    obtain ⟨result, applied, texts_eq⟩ := exists_inserted unreturned last_lt
      (List.cons_ne_nil (normalize statement) []) (List.forall_mem_singleton.mpr fills)
    refine ⟨result, by rw [edit_eq, applied], ?_⟩
    rw [texts_eq, no_gap, line_eq]
    rfl
  · have inside : d.importLine < d.lineCount := by
      unfold lastLine at behind
      omega
    obtain ⟨line, found⟩ := exists_line inside
    have gap_fills : ∀ text ∈ d.importGap, Line.Fills text := by
      rw [importGap]
      split
      · exact List.forall_mem_singleton.mpr Line.isProper_nil
      · exact List.forall_mem_nil _
    have whole : ∀ line' ∈ (normalize statement :: d.importGap).map (Line.mk · .newline),
        line'.IsWhole := by
      intro line' member
      obtain ⟨text, text_member, rfl⟩ := List.mem_map.mp member
      exact ⟨List.forall_mem_cons.mpr ⟨fills, gap_fills⟩ text text_member .newline, rfl⟩
    have edit_eq : d.importEdit statement = .insert ⟨d.importLine, 0⟩
        (((normalize statement :: d.importGap).map (Line.mk · .newline)).flatMap Line.source) := by
      rw [importEdit, if_neg behind, importGap]
      by_cases separated : (d.line? d.importLine).any needsSeparator
      · rw [if_pos separated, if_pos separated]
        simp [Line.source, LineEnding.text]
      · rw [if_neg separated, if_neg separated]
        simp [Line.source, LineEnding.text]
    obtain ⟨result, applied, lines_eq⟩ := exists_insertLines found whole
    refine ⟨result, by rw [edit_eq, applied], ?_⟩
    rw [texts_ofText lines_eq]
    simp [texts, Function.comp_def]

/-- The state in which the scan leaves lines without code is that in which it leaves them with more
such lines behind. -/
theorem exists_passed_front {before rest : List Text} {inComment : Bool}
    (passed : passAll? false 0 (before ++ rest) = some inComment) :
    ∃ inComment', passAll? false 0 before = some inComment' := by
  rw [passAll?_append] at passed
  obtain ⟨state, front_passed, -⟩ := Option.bind_eq_some_iff.mp passed
  exact ⟨state, front_passed⟩

section Inserted

variable {after : Document}

theorem importGap_eq_nil (unneeded : (d.line? d.importLine).any needsSeparator = false) :
    d.importGap = [] := by
  rw [importGap, if_neg (by simp [unneeded])]

/-- An import put behind the declarations of a module has the next one behind it. -/
theorem importLine_of_declarations {before lines tail : List Text}
    (passed : passAll? false 0 before = some false)
    (code : ∃ first later, lines = first :: later ∧ pass? false before.length first = none)
    {added : Text} (ends : endsOn added) (starts : startsDeclaration (Text.trimStart added))
    (stops : ∀ next ∈ tail.head?, startsDeclaration (Text.trimStart next) = false)
    (texts_eq : d.texts = before ++ (lines.take (leadingLines lines) ++ added :: tail)) :
    d.importLine = before.length + leadingLines lines + 1 := by
  obtain ⟨line, rest, rfl, line_code⟩ := code
  have code_behind : ∃ next later, (line :: rest).take (leadingLines (line :: rest)) ++
      added :: tail = next :: later ∧ pass? false before.length next = none := by
    cases leadingLines (line :: rest) with
    | zero => exact ⟨added, tail, rfl, pass?_of_startsDeclaration starts⟩
    | succ n => exact ⟨line, _, rfl, line_code⟩
  rw [importLine_of_passed texts_eq passed code_behind, leadingLines_insert ends starts stops,
    Nat.add_assoc]

/-- An import put behind lines without code has the next one behind it, also when it stands in an
open comment. -/
theorem importLine_of_front {front tail : List Text} {inComment : Bool}
    (passed : passAll? false 0 front = some inComment) {added : Text} (ends : endsOn added)
    (starts : startsDeclaration (Text.trimStart added)) (tail_eq : tail = [] ∨ tail = [[]])
    (texts_eq : d.texts = front ++ added :: tail) : d.importLine = front.length + 1 := by
  cases inComment with
  | false =>
      have stops : ∀ next ∈ tail.head?, startsDeclaration (Text.trimStart next) = false := by
        rcases tail_eq with rfl | rfl <;> simp
        decide
      have leading := leadingLines_insert ends starts stops []
      rw [List.take_nil, List.nil_append, leadingLines] at leading
      rw [importLine_of_passed texts_eq passed
        ⟨added, tail, rfl, pass?_of_startsDeclaration starts⟩, leading]
  | true =>
      have added_ne : added ≠ [] := by
        rintro rfl
        exact absurd starts (by decide)
      have all_passed : ∃ state, passAll? false 0 d.texts = some state := by
        rw [texts_eq, passAll?_append, passed]
        rcases tail_eq with rfl | rfl
        · exact ⟨_, rfl⟩
        · refine ⟨!Text.containsPiece (Text.trim added) "*/", ?_⟩
          change (pass? _ _ []).bind _ = _
          rw [pass?_nil]
          rfl
      obtain ⟨state, all_passed⟩ := all_passed
      rw [importLine_of_no_code all_passed, texts_eq]
      rcases tail_eq with rfl | rfl <;> simp [added_ne]

/-- Where an import was added in front of a line, the next one goes right behind it. -/
theorem importLine_inserted (isStatement : IsStatement statement)
    (texts_eq : after.texts = d.texts.take d.importLine ++
      normalize statement :: (d.importGap ++ d.texts.drop d.importLine)) :
    after.importLine = d.importLine + 1 := by
  have added_starts := isStatement.starts_trimmed
  have added_ends := endsOn_normalize statement
  generalize normalize statement = added at texts_eq added_starts added_ends
  cases searched : firstCode? false 0 d.texts with
  | some first =>
      obtain ⟨before, line, rest, d_texts, first_eq, passed, line_code⟩ :=
        exists_code_of_firstCode? searched
      rw [Nat.zero_add] at first_eq
      subst first_eq
      have code : ∃ first later, line :: rest = first :: later ∧
          pass? false before.length first = none := ⟨line, rest, rfl, line_code⟩
      have line_eq := importLine_of_passed d_texts passed code
      generalize line :: rest = lines at d_texts code line_eq
      have stops : ∀ next ∈ (d.importGap ++ lines.drop (leadingLines lines)).head?,
          startsDeclaration (Text.trimStart next) = false := by
        rw [importGap]
        split
        · rintro next ⟨⟩
          decide
        · exact not_starts_behind lines
      rw [line_eq]
      refine importLine_of_declarations passed code added_ends added_starts stops ?_
      rw [texts_eq, line_eq, d_texts, List.take_length_add_append, List.drop_length_add_append,
        List.append_assoc]
  | none =>
      obtain ⟨inComment, passed⟩ := exists_passAll?_of_firstCode?_eq_none searched
      have line_eq := importLine_of_no_code passed
      by_cases empty_last : d.texts.getLast? = some []
      · obtain ⟨front, d_texts⟩ := List.getLast?_eq_some_iff.mp empty_last
        have front_line : d.importLine = front.length := by
          rw [line_eq, if_pos empty_last, d_texts]
          simp
        have no_gap : d.importGap = [] := by
          apply importGap_eq_nil
          rw [← getElem?_texts, front_line, d_texts]
          simp [needsSeparator_nil]
        rw [d_texts] at passed
        obtain ⟨state, front_passed⟩ := exists_passed_front passed
        rw [front_line]
        refine importLine_of_front front_passed added_ends added_starts (.inr rfl) ?_
        rw [texts_eq, no_gap, front_line, d_texts]
        simp
      · have end_line : d.importLine = d.texts.length := by rw [line_eq, if_neg empty_last]
        have no_gap : d.importGap = [] := by
          apply importGap_eq_nil
          rw [← getElem?_texts, end_line]
          simp
        rw [end_line]
        refine importLine_of_front passed added_ends added_starts (.inl rfl) ?_
        rw [texts_eq, no_gap, end_line]
        simp

/-- An import that was added needs no gap behind it any more. -/
theorem importGap_inserted (isStatement : IsStatement statement)
    (texts_eq : after.texts = d.texts.take d.importLine ++
      normalize statement :: (d.importGap ++ d.texts.drop d.importLine)) :
    after.importGap = [] := by
  have line_le := d.importLine_le
  have next_eq : after.texts[d.importLine + 1]? =
      (d.importGap ++ d.texts.drop d.importLine)[0]? := by
    rw [texts_eq, List.getElem?_append_right (by rw [List.length_take]; omega),
      List.length_take_of_le line_le, Nat.add_sub_cancel_left, List.getElem?_cons_succ]
  apply importGap_eq_nil
  rw [importLine_inserted isStatement texts_eq, ← getElem?_texts, next_eq, importGap]
  split
  · exact needsSeparator_nil
  · rename_i unneeded
    rw [List.nil_append, List.getElem?_drop, Nat.add_zero, getElem?_texts]
    simpa using unneeded

theorem unreturned_inserted (unreturned : ∀ text ∈ d.texts, text.getLast? ≠ some '\r')
    (texts_eq : after.texts = d.texts.take d.importLine ++
      normalize statement :: (d.importGap ++ d.texts.drop d.importLine)) :
    ∀ text ∈ after.texts, text.getLast? ≠ some '\r' := by
  obtain ⟨front, normal⟩ := exists_normalize_eq statement
  have gap_unreturned : ∀ text ∈ d.importGap, text.getLast? ≠ some '\r' := by
    rw [importGap]
    split <;> simp
  rw [texts_eq]
  intro text member
  simp only [List.mem_append, List.mem_cons] at member
  rcases member with kept | rfl | gap | kept
  · exact unreturned text (List.mem_of_mem_take kept)
  · simp [normal]
  · exact gap_unreturned text gap
  · exact unreturned text (List.mem_of_mem_drop kept)

end Inserted

/-- The document with an import added, if the edit applies. -/
def withImport? (d : Document) (statement : Text) : Option Document :=
  (d.applyEdits? [d.importEdit statement]).map ofText

/-- Imports added one after another: each goes behind the one before it, and the gap stays behind
the last. -/
theorem exists_withImports {statements : List Text}
    (each : ∀ statement ∈ statements, IsStatement statement)
    (unreturned : ∀ text ∈ d.texts, text.getLast? ≠ some '\r') :
    ∃ after, statements.foldlM withImport? d = some after ∧
      after.texts = d.texts.take d.importLine ++ (statements.map normalize ++
        ((if statements = [] then [] else d.importGap) ++ d.texts.drop d.importLine)) ∧
      after.importLine = d.importLine + statements.length := by
  induction statements generalizing d with
  | nil => exact ⟨d, rfl, by simp, rfl⟩
  | cons statement statements ih =>
      obtain ⟨isStatement, later_each⟩ := List.forall_mem_cons.mp each
      obtain ⟨result, applied, texts_eq⟩ := exists_importEdit unreturned isStatement
      obtain ⟨after, folded, after_texts, after_line⟩ :=
        ih later_each (unreturned_inserted unreturned texts_eq)
      have line_eq := importLine_inserted isStatement texts_eq
      have no_gap := importGap_inserted isStatement texts_eq
      refine ⟨after, ?_, ?_, ?_⟩
      · rw [List.foldlM_cons, withImport?, applied]
        exact folded
      · have line_le := d.importLine_le
        have before_next : (ofText result).texts.take (d.importLine + 1) =
            d.texts.take d.importLine ++ [normalize statement] := by
          rw [texts_eq, List.take_append, List.length_take_of_le line_le, Nat.add_sub_cancel_left,
            List.take_of_length_le (by rw [List.length_take]; omega)]
          rfl
        have behind_next : (ofText result).texts.drop (d.importLine + 1) =
            d.importGap ++ d.texts.drop d.importLine := by
          rw [texts_eq, List.drop_append, List.length_take_of_le line_le, Nat.add_sub_cancel_left,
            List.drop_eq_nil_of_le (by rw [List.length_take]; omega)]
          rfl
        rw [after_texts, line_eq, before_next, behind_next, no_gap, ite_self, List.nil_append,
          if_neg (List.cons_ne_nil _ _), List.map_cons]
        simp
      · rw [after_line, line_eq, List.length_cons]
        omega

/-- Imports are stable under repetition.  Adding a statement applies, puts its normal form in front
of the line where it goes, with a blank line behind it if that line needs one, and the next import
goes right behind; so statements added one after another stand on consecutive lines in that order,
with one blank line behind them at most. -/
theorem imports_stay_in_order (unreturned : ∀ text ∈ d.texts, text.getLast? ≠ some '\r') :
    (∀ statement, IsStatement statement →
      ∃ result, d.applyEdits? [d.importEdit statement] = some result ∧
        (ofText result).texts = d.texts.take d.importLine ++
          normalize statement :: (d.importGap ++ d.texts.drop d.importLine) ∧
        (ofText result).importLine = d.importLine + 1) ∧
    ∀ statements : List Text, (∀ statement ∈ statements, IsStatement statement) →
      ∃ after, statements.foldlM withImport? d = some after ∧
        after.texts = d.texts.take d.importLine ++ (statements.map normalize ++
          ((if statements = [] then [] else d.importGap) ++ d.texts.drop d.importLine)) ∧
        after.importLine = d.importLine + statements.length := by
  constructor
  · intro statement isStatement
    obtain ⟨result, applied, texts_eq⟩ := exists_importEdit unreturned isStatement
    exact ⟨result, applied, texts_eq, importLine_inserted isStatement texts_eq⟩
  · intro statements each
    exact exists_withImports each unreturned

/-- A module whose only import is not closed. -/
def unclosedModule : Document := .ofText "// note\nimport \x7b\n  a\nfoo()"

theorem imports_stay_in_order_behind_unclosed :
    let statements : List Text := ["import b from \"b\"", "export * from 'c';"]
    (∀ text ∈ unclosedModule.texts, text.getLast? ≠ some '\r') ∧
      (∀ statement ∈ statements, IsStatement statement) ∧
      ∃ after, statements.foldlM withImport? unclosedModule = some after ∧
        after.texts = (["// note", "import \x7b", "import b from \"b\";", "export * from 'c';", "",
          "  a", "foo()"] : List Text) ∧ after.importLine = 4 := by
  intro statements
  have unreturned : ∀ text ∈ unclosedModule.texts, text.getLast? ≠ some '\r' := by decide +kernel
  have each : ∀ statement ∈ statements, IsStatement statement := by
    refine List.forall_mem_cons.mpr ⟨⟨?_, ?_⟩, List.forall_mem_singleton.mpr ⟨?_, ?_⟩⟩ <;>
      decide +kernel
  have line_eq : unclosedModule.importLine = 2 := by decide +kernel
  obtain ⟨after, folded, texts_eq, after_line⟩ :=
    (imports_stay_in_order unreturned).2 statements each
  refine ⟨unreturned, each, after, folded, ?_, ?_⟩
  · rw [texts_eq, importGap, line_eq]
    decide +kernel
  · rw [after_line, line_eq]
    rfl

end Document

end LintRepair
