import LintRepair.Import
import LintRepair.Proofs.Document.Layout
import LintRepair.Proofs.Text.Blank

/-!
# Scanning the top of a module

The scan first passes over lines without code, and is then either inside an open block comment or
not; what it does next depends on no more than that.  From the first line of code on it passes over
declarations, each up to the line it ends on.
-/

namespace LintRepair

namespace Import

section Starts

variable {s line : Text}

/-- A declaration starts with a letter. -/
theorem exists_eq_cons_of_startsDeclaration (starts : startsDeclaration s) :
    ∃ c rest, s = c :: rest ∧ Text.isBlank c = false ∧ c ≠ '#' ∧ c ≠ '/' := by
  rw [startsDeclaration, Bool.or_eq_true, startsImport, startsReexport] at starts
  rcases starts with starts | starts
  · cases found : Text.after? "import" s with
    | none =>
        rw [found] at starts
        contradiction
    | some rest =>
        obtain rfl := Text.after?_eq_some_iff.mp found
        exact ⟨'i', "mport" ++ rest, rfl, by decide⟩
  · cases found : Text.after? "export" s with
    | none =>
        rw [found] at starts
        contradiction
    | some rest =>
        obtain rfl := Text.after?_eq_some_iff.mp found
        exact ⟨'e', "xport" ++ rest, rfl, by decide⟩

/-- A text that starts a declaration has no blanks in front of it. -/
theorem trimStart_of_startsDeclaration (starts : startsDeclaration s) : Text.trimStart s = s := by
  obtain ⟨c, rest, rfl, visible, -⟩ := exists_eq_cons_of_startsDeclaration starts
  simp [Text.trimStart, visible]

end Starts

section Lines

variable {line first : Text} {lines rest : List Text} {index : Nat}

theorem endsOn_append_semicolon (front : Text) {trailing : Text}
    (trailing_blank : ∀ c ∈ trailing, Text.isBlank c) : endsOn (front ++ ';' :: trailing) := by
  have visible : Text.isBlank ';' = false := by decide
  have trimmed : Text.trimEnd (front ++ ';' :: trailing) = front ++ [';'] := by
    rw [Text.trimEnd_append_cons visible, Text.trimEnd_of_blank trailing_blank]
  have terminated : Text.before? ";" (front ++ [';']) = some front :=
    Text.before?_eq_some_iff.mpr rfl
  rw [endsOn, trimmed, Text.endsWith, terminated]
  rfl

/-- Whether a declaration ends on the line it starts on. -/
def closes (line : Text) : Bool := endsOn line || isSideEffectImport (Text.trim line)

theorem furtherLines_of_closes (closed : closes line) : furtherLines line rest = 0 := by
  rw [furtherLines]
  exact if_pos closed

theorem furtherLines_of_found (unclosed : closes line = false) {j : Nat}
    (found : rest.findIdx? endsOn = some j) :
    furtherLines line rest = if j < maxFurtherLines then j + 1 else 0 := by
  have not_closed : ¬ (endsOn line || isSideEffectImport (Text.trim line)) := by
    simpa [closes] using unclosed
  rw [furtherLines, if_neg not_closed, List.findIdx?_take, found, Option.bind_some, Option.guard]
  by_cases near : j < maxFurtherLines <;> simp [near]

theorem furtherLines_of_endless (unclosed : closes line = false)
    (endless : rest.findIdx? endsOn = none) : furtherLines line rest = 0 := by
  have not_closed : ¬ (endsOn line || isSideEffectImport (Text.trim line)) := by
    simpa [closes] using unclosed
  rw [furtherLines, if_neg not_closed, List.findIdx?_take, endless]
  rfl

theorem furtherLines_le (line : Text) (rest : List Text) :
    furtherLines line rest ≤ rest.length := by
  cases closed : closes line with
  | true =>
      rw [furtherLines_of_closes closed]
      exact Nat.zero_le _
  | false =>
      cases found : rest.findIdx? endsOn with
      | none =>
          rw [furtherLines_of_endless closed found]
          exact Nat.zero_le _
      | some j =>
          have inside := (List.findIdx?_eq_some_iff_findIdx_eq.mp found).1
          rw [furtherLines_of_found closed found]
          split <;> omega

theorem leadingLines_of_not_starts (stops : ∀ first ∈ lines.head?,
    startsDeclaration (Text.trimStart first) = false) : leadingLines lines = 0 := by
  cases lines with
  | nil => rw [leadingLines]
  | cons line rest =>
      have line_stops := stops line rfl
      rw [leadingLines, line_stops]
      rfl

theorem leadingLines_cons (starts : startsDeclaration (Text.trimStart line)) :
    leadingLines (line :: rest) =
      1 + furtherLines line rest + leadingLines (rest.drop (furtherLines line rest)) := by
  rw [leadingLines, if_pos starts]

theorem leadingLines_le (lines : List Text) : leadingLines lines ≤ lines.length := by
  induction lines using leadingLines.induct with
  | case1 => exact Nat.le_of_eq (by rw [leadingLines]; rfl)
  | case2 line rest starts further ih =>
      have further_le := furtherLines_le line rest
      rw [List.length_drop] at ih
      rw [leadingLines_cons starts, List.length_cons]
      simp only [further] at ih
      omega
  | case3 line rest stops =>
      rw [leadingLines, if_neg stops]
      exact Nat.zero_le _

/-- The line behind the declarations starts none. -/
theorem not_starts_behind (lines : List Text) : ∀ first ∈ (lines.drop (leadingLines lines)).head?,
    startsDeclaration (Text.trimStart first) = false := by
  induction lines using leadingLines.induct with
  | case1 => simp
  | case2 line rest starts further ih =>
      have behind : (line :: rest).drop (leadingLines (line :: rest)) =
          (rest.drop further).drop (leadingLines (rest.drop further)) := by
        rw [leadingLines_cons starts, List.drop_drop, Nat.add_assoc, Nat.add_comm 1,
          List.drop_succ_cons]
      rw [behind]
      exact ih
  | case3 line rest stops =>
      rw [leadingLines, if_neg stops]
      simpa using stops

/-- The first of a kind, when an element of that kind is put in at an index. -/
theorem exists_findIdx?_insert {p : α → Bool} {added : α} {as rest : List α} {m : Nat}
    (is_kind : p added) (inside : m ≤ as.length) :
    ∃ j, (as.take m ++ added :: rest).findIdx? p = some j ∧
      (j < m ∧ as.findIdx? p = some j ∨ j = m ∧ ∀ i < m, as.findIdx? p ≠ some i) := by
  rw [List.findIdx?_append, List.findIdx?_take, List.findIdx?_cons, is_kind,
    List.length_take_of_le inside]
  cases found : as.findIdx? p with
  | none => exact ⟨m, by simp, .inr ⟨rfl, fun i _ => by simp⟩⟩
  | some j =>
      by_cases before : j < m
      · exact ⟨j, by simp [Option.guard, before], .inl ⟨before, rfl⟩⟩
      · refine ⟨m, by simp [Option.guard, before], .inr ⟨rfl, fun i i_lt same => ?_⟩⟩
        obtain rfl := Option.some.inj same
        exact before i_lt

/-- A declaration still ends where it did when a line on which one ends is put in behind, unless it
was taken for a line of its own and now ends there. -/
theorem furtherLines_insert {added : Text} (ends : endsOn added) {n : Nat}
    (inside : furtherLines line lines + n ≤ lines.length) :
    let inserted := lines.take (furtherLines line lines + n) ++ added :: rest
    furtherLines line inserted = furtherLines line lines ∨
      furtherLines line lines = 0 ∧ furtherLines line inserted = n + 1 := by
  intro inserted
  cases closed : closes line with
  | true =>
      rw [furtherLines_of_closes closed, furtherLines_of_closes closed]
      exact .inl rfl
  | false =>
      obtain ⟨j, found, ⟨-, original⟩ | ⟨j_eq, none_before⟩⟩ := exists_findIdx?_insert ends inside
      · rw [furtherLines_of_found closed found, furtherLines_of_found closed original]
        exact .inl rfl
      · -- an end that was found before would still be the first
        have alone : furtherLines line lines = 0 := by
          cases original : lines.findIdx? endsOn with
          | none => exact furtherLines_of_endless closed original
          | some i =>
              have taken := furtherLines_of_found closed original
              by_cases near : i < maxFurtherLines
              · rw [if_pos near] at taken
                exact absurd original (none_before i (by omega))
              · rw [taken, if_neg near]
        rw [alone, Nat.zero_add] at j_eq
        rw [furtherLines_of_found closed found, j_eq, alone]
        by_cases near : n < maxFurtherLines
        · exact .inr ⟨rfl, if_pos near⟩
        · exact .inl (if_neg near)

/-- A closed declaration put behind those that some lines start with is one more of them. -/
theorem leadingLines_insert {added : Text} (ends : endsOn added)
    (starts : startsDeclaration (Text.trimStart added))
    (stops : ∀ first ∈ rest.head?, startsDeclaration (Text.trimStart first) = false)
    (lines : List Text) :
    leadingLines (lines.take (leadingLines lines) ++ added :: rest) = leadingLines lines + 1 := by
  have added_closes : closes added := by simp [closes, ends]
  have added_leads : leadingLines (added :: rest) = 1 := by
    rw [leadingLines_cons starts, furtherLines_of_closes added_closes, List.drop_zero,
      leadingLines_of_not_starts stops]
  induction lines using leadingLines.induct with
  | case1 => rw [leadingLines, List.take_nil, List.nil_append, added_leads]
  | case2 line later line_starts further ih =>
      have further_le : further ≤ later.length := furtherLines_le line later
      have leading_eq : leadingLines (line :: later) =
          1 + further + leadingLines (later.drop further) := leadingLines_cons line_starts
      have behind_le := leadingLines_le (later.drop further)
      generalize leadingLines (later.drop further) = behind at ih leading_eq behind_le
      rw [List.length_drop] at behind_le
      have inside : further + behind ≤ later.length := by omega
      have front_eq : (line :: later).take (1 + further + behind) =
          line :: later.take (further + behind) := by
        rw [Nat.add_assoc, Nat.add_comm 1, List.take_succ_cons]
      have inserted_length : (later.take (further + behind)).length = further + behind :=
        List.length_take_of_le inside
      rw [leading_eq, front_eq, List.cons_append, leadingLines_cons line_starts]
      rcases furtherLines_insert ends inside with kept | ⟨alone, taken⟩
      · have rest_eq : (later.take (further + behind) ++ added :: rest).drop further =
            (later.drop further).take behind ++ added :: rest := by
          rw [List.drop_append_of_le_length (by omega), List.drop_take, Nat.add_sub_cancel_left]
        rw [kept, rest_eq, ih]
        change 1 + further + (behind + 1) = 1 + further + behind + 1
        omega
      · have further_eq : further = 0 := alone
        have rest_eq : (later.take (further + behind) ++ added :: rest).drop (behind + 1) =
            rest := by
          rw [further_eq, Nat.zero_add] at inserted_length ⊢
          rw [List.drop_append, inserted_length, Nat.add_sub_cancel_left, List.drop_one,
            List.tail_cons, List.drop_eq_nil_of_le (by omega), List.nil_append]
        rw [taken, rest_eq, leadingLines_of_not_starts stops, further_eq]
        omega
  | case3 line later line_stops =>
      rw [leadingLines, if_neg line_stops, List.take_zero, List.nil_append, added_leads]

end Lines

section Header

variable {line : Text} {lines rest before : List Text} {index found : Nat}
  {inComment inComment' : Bool}

/-- Whether a block comment is open behind a line that holds no code; nothing for a line of
code. -/
def pass? (inComment : Bool) (index : Nat) (line : Text) : Option Bool :=
  let line := Text.trim line
  if inComment then some (!Text.containsPiece line "*/")
  else if (index = 0 ∧ Text.startsWith line "#!") ∨ line = [] ∨ Text.startsWith line "//" then
    some false
  else
    match Text.after? "/*" line with
    | none => none
    | some opened =>
        match Text.splitFirst? "*/" opened with
        | none => some true
        | some (_, behind) => if Text.isAllBlank behind then some false else none

/-- The first line of a declaration is a line of code. -/
theorem pass?_of_startsDeclaration (starts : startsDeclaration (Text.trimStart line)) :
    pass? false index line = none := by
  obtain ⟨c, rest, line_eq, visible, hash, slash⟩ := exists_eq_cons_of_startsDeclaration starts
  have trimmed : Text.trim line = c :: Text.trimEnd rest := by
    rw [Text.trim, line_eq]
    exact Text.trimEnd_append_cons visible [] rest
  have no_shebang : Text.after? ['#', '!'] (c :: Text.trimEnd rest) = none := if_neg hash.symm
  have no_note : Text.after? ['/', '/'] (c :: Text.trimEnd rest) = none := if_neg slash.symm
  have no_comment : Text.after? ['/', '*'] (c :: Text.trimEnd rest) = none := if_neg slash.symm
  rw [pass?, trimmed]
  simp [Text.startsWith, no_shebang, no_note, no_comment]

theorem firstCode?_cons (inComment : Bool) (index : Nat) (line : Text) (rest : List Text) :
    firstCode? inComment index (line :: rest) =
      match pass? inComment index line with
      | none => some index
      | some inComment' => firstCode? inComment' (index + 1) rest := by
  rw [firstCode?, pass?]
  cases inComment with
  | true => rfl
  | false =>
      simp only [Bool.false_eq_true, if_false]
      split
      · rfl
      · cases Text.after? "/*" (Text.trim line) with
        | none => rfl
        | some opened =>
            simp only
            cases Text.splitFirst? "*/" opened with
            | none => rfl
            | some parts =>
                simp only
                split <;> rfl

/-- Whether a block comment is open behind lines that hold no code; nothing when there is code
among them. -/
def passAll? : (inComment : Bool) → (index : Nat) → List Text → Option Bool
  | inComment, _, [] => some inComment
  | inComment, index, line :: rest =>
      (pass? inComment index line).bind fun inComment' => passAll? inComment' (index + 1) rest

theorem passAll?_append (inComment : Bool) (index : Nat) (before rest : List Text) :
    passAll? inComment index (before ++ rest) =
      (passAll? inComment index before).bind fun inComment' =>
        passAll? inComment' (index + before.length) rest := by
  induction before generalizing inComment index with
  | nil => rfl
  | cons line before ih =>
      rw [List.cons_append, passAll?, passAll?, Option.bind_assoc, List.length_cons]
      refine congrArg (Option.bind _) (funext fun inComment' => ?_)
      rw [ih, Nat.add_assoc, Nat.add_comm 1]

/-- Behind lines without code the search goes on in the state they leave. -/
theorem firstCode?_append_of_passed (passed : passAll? inComment index before = some inComment')
    (rest : List Text) :
    firstCode? inComment index (before ++ rest) =
      firstCode? inComment' (index + before.length) rest := by
  induction before generalizing inComment index with
  | nil =>
      cases passed
      rfl
  | cons line before ih =>
      obtain ⟨state, line_passed, later_passed⟩ := Option.bind_eq_some_iff.mp passed
      rw [List.cons_append, firstCode?_cons, line_passed, List.length_cons]
      exact (ih later_passed).trans (by rw [Nat.add_assoc, Nat.add_comm 1])

/-- Code among some lines is found there, whatever is behind them. -/
theorem exists_firstCode?_append (stopped : passAll? inComment index before = none) :
    ∃ found < index + before.length, ∀ rest,
      firstCode? inComment index (before ++ rest) = some found := by
  induction before generalizing inComment index with
  | nil => cases stopped
  | cons line before ih =>
      rw [passAll?] at stopped
      cases line_passed : pass? inComment index line with
      | none =>
          refine ⟨index, by simp, fun rest => ?_⟩
          rw [List.cons_append, firstCode?_cons, line_passed]
      | some state =>
          rw [line_passed] at stopped
          obtain ⟨found, found_lt, later⟩ := ih stopped
          refine ⟨found, by rw [List.length_cons]; omega, fun rest => ?_⟩
          rw [List.cons_append, firstCode?_cons, line_passed]
          exact later rest

theorem firstCode?_eq_none (passed : passAll? inComment index lines = some inComment') :
    firstCode? inComment index lines = none := by
  rw [← List.append_nil lines, firstCode?_append_of_passed passed, firstCode?]

theorem exists_passAll?_of_firstCode?_eq_none (unfound : firstCode? inComment index lines = none) :
    ∃ inComment', passAll? inComment index lines = some inComment' := by
  cases passed : passAll? inComment index lines with
  | some state => exact ⟨state, rfl⟩
  | none =>
      obtain ⟨found, -, always⟩ := exists_firstCode?_append passed
      have found_here := always []
      rw [List.append_nil, unfound] at found_here
      cases found_here

/-- A found line is one of code, behind lines without code that leave no comment open. -/
theorem exists_code_of_firstCode? (searched : firstCode? inComment index lines = some found) :
    ∃ before line rest, lines = before ++ line :: rest ∧ found = index + before.length ∧
      passAll? inComment index before = some false ∧ pass? false found line = none := by
  induction lines generalizing inComment index with
  | nil => cases searched
  | cons line lines ih =>
      rw [firstCode?_cons] at searched
      cases line_passed : pass? inComment index line with
      | none =>
          rw [line_passed] at searched
          obtain rfl := Option.some.inj searched
          cases inComment with
          | true => cases line_passed
          | false => exact ⟨[], line, lines, rfl, rfl, rfl, line_passed⟩
      | some state =>
          rw [line_passed] at searched
          obtain ⟨before, code, rest, rfl, rfl, passed, code_found⟩ := ih searched
          refine ⟨line :: before, code, rest, rfl, ?_, ?_, code_found⟩
          · rw [List.length_cons, Nat.add_assoc, Nat.add_comm 1]
          · rw [passAll?, line_passed]
            exact passed

end Header

end Import

namespace Document

open Import

variable {d : Document}

theorem importLine_eq (d : Document) :
    d.importLine = match firstCode? false 0 d.texts with
      | some first => first + leadingLines (d.texts.drop first)
      | none => if d.texts.getLast? = some [] then d.texts.length - 1 else d.texts.length := by
  have last_eq : d.texts.getLast? = d.line? d.lastLine := by
    rw [List.getLast?_eq_getElem?, length_texts, getElem?_texts, lastLine]
  have count_eq : d.lastLine + 1 = d.texts.length := by
    have last_lt := d.lastLine_lt
    rw [length_texts]
    unfold lastLine at last_lt ⊢
    omega
  rw [last_eq, ← count_eq, Nat.add_sub_cancel]
  rfl

/-- A new import goes behind the declarations that follow the lines without code. -/
theorem importLine_of_passed {before rest : List Text} (texts_eq : d.texts = before ++ rest)
    (passed : passAll? false 0 before = some false)
    (code : ∃ first later, rest = first :: later ∧ pass? false before.length first = none) :
    d.importLine = before.length + leadingLines rest := by
  obtain ⟨first, later, rest_eq, first_code⟩ := code
  have searched : firstCode? false 0 d.texts = some before.length := by
    rw [texts_eq, firstCode?_append_of_passed passed, rest_eq, firstCode?_cons, Nat.zero_add,
      first_code]
  rw [importLine_eq, searched, texts_eq]
  simp

/-- With no code at all, a new import goes onto the empty last line or behind the last line. -/
theorem importLine_of_no_code {inComment : Bool}
    (passed : passAll? false 0 d.texts = some inComment) :
    d.importLine = if d.texts.getLast? = some [] then d.texts.length - 1 else d.texts.length := by
  rw [importLine_eq, firstCode?_eq_none passed]

theorem importLine_le (d : Document) : d.importLine ≤ d.texts.length := by
  rw [importLine_eq]
  cases searched : firstCode? false 0 d.texts with
  | none =>
      simp only
      split <;> omega
  | some first =>
      obtain ⟨before, line, rest, texts_eq, rfl, -⟩ := exists_code_of_firstCode? searched
      have leading_le := leadingLines_le (d.texts.drop (0 + before.length))
      rw [List.length_drop] at leading_le
      have first_le : 0 + before.length ≤ d.texts.length := by simp [texts_eq]
      simp only
      omega

end Document

end LintRepair
