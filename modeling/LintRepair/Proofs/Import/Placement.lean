import Mathlib.Data.Option.Basic
import LintRepair.Proofs.Import.Scan
import LintRepair.Proofs.Text.Search

/-!
# Where a new import lands

A module in its usual form has a header without code, imports that are written on one line each, and
code.  A new import lands between the imports and the code, unless the scan runs on from an import
whose end it does not see into code that ends like one.  It sees the end of every import that has no
comment behind it.
-/

namespace LintRepair

namespace Import

/-! ### The header -/

/-- A block comment whose first line starts with it, and that has nothing behind it. -/
inductive IsBlockComment : List Text → Prop
  /-- On a line of its own. -/
  | short {line inner : Text} (line_eq : Text.trim line = "/*" ++ (inner ++ "*/"))
      (unclosed : ¬ ("*/" : Text) <:+: inner) : IsBlockComment [line]
  /-- Over several lines. -/
  | long {first last inner behind : Text} {middle : List Text}
      (first_eq : Text.trim first = "/*" ++ inner) (first_open : ¬ ("*/" : Text) <:+: inner)
      (middle_open : ∀ line ∈ middle, ¬ ("*/" : Text) <:+: line)
      (last_eq : Text.trim last = behind ++ "*/") (last_open : ¬ ("*/" : Text) <:+: behind) :
      IsBlockComment (first :: (middle ++ [last]))

/-- Lines at the top of a module that hold no code, from an index on. -/
inductive IsHeader : (index : Nat) → List Text → Prop
  | nil {index : Nat} : IsHeader index []
  /-- A shebang, on the first line only. -/
  | shebang {line : Text} {rest : List Text} (starts : ("#!" : Text) <+: Text.trim line)
      (later : IsHeader 1 rest) : IsHeader 0 (line :: rest)
  /-- A line of blanks. -/
  | blank {index : Nat} {line : Text} {rest : List Text} (empty : Text.trim line = [])
      (later : IsHeader (index + 1) rest) : IsHeader index (line :: rest)
  /-- A comment up to the end of the line. -/
  | note {index : Nat} {line : Text} {rest : List Text} (starts : ("//" : Text) <+: Text.trim line)
      (later : IsHeader (index + 1) rest) : IsHeader index (line :: rest)
  /-- A block comment. -/
  | comment {index : Nat} {block rest : List Text} (isComment : IsBlockComment block)
      (later : IsHeader (index + block.length) rest) : IsHeader index (block ++ rest)

/-- A line that holds code, at an index. -/
structure IsCode (index : Nat) (line : Text) : Prop where
  not_blank : Text.trim line ≠ []
  not_note : ¬ ("//" : Text) <+: Text.trim line
  not_shebang : index = 0 → ¬ ("#!" : Text) <+: Text.trim line
  /-- A block comment at its start is closed, with something behind it. -/
  code_behind : ∀ comment, Text.trim line = "/*" ++ comment → ∃ inner behind,
    comment = inner ++ ("*/" ++ behind) ∧ ¬ ("*/" : Text) <:+: inner ∧ Text.trim behind ≠ []

section Header

variable {index : Nat} {line : Text} {lines : List Text}

theorem pass?_of_note (starts : ("//" : Text) <+: Text.trim line) :
    pass? false index line = some false :=
  if_pos (.inr (.inr (Text.startsWith_iff.mpr starts)))

theorem pass?_of_blank (empty : Text.trim line = []) : pass? false index line = some false :=
  if_pos (.inr (.inl empty))

theorem pass?_of_shebang (starts : ("#!" : Text) <+: Text.trim line) :
    pass? false 0 line = some false :=
  if_pos (.inl ⟨rfl, Text.startsWith_iff.mpr starts⟩)

theorem pass?_in_comment (line : Text) :
    pass? true index line = some (!Text.containsPiece (Text.trim line) "*/") := rfl

theorem pass?_of_comment {comment : Text} {parts : Option (Text × Text)}
    (line_eq : Text.trim line = "/*" ++ comment) (split : Text.splitFirst? "*/" comment = parts) :
    pass? false index line = parts.elim (some true) fun around =>
      if Text.isAllBlank around.2 then some false else none := by
  have not_passed : ¬ ((index = 0 ∧ Text.startsWith (Text.trim line) "#!") ∨ Text.trim line = [] ∨
      Text.startsWith (Text.trim line) "//") := by
    rw [line_eq]
    simp [Text.startsWith, Text.after?]
  have opened : Text.after? "/*" (Text.trim line) = some comment :=
    Text.after?_eq_some_iff.mpr line_eq
  rw [pass?]
  simp only [Bool.false_eq_true, if_false]
  rw [if_neg not_passed, opened]
  simp only [split]
  cases parts <;> rfl

theorem pass?_of_closed {comment inner behind : Text} (line_eq : Text.trim line = "/*" ++ comment)
    (comment_eq : comment = inner ++ ("*/" ++ behind)) (inner_open : ¬ ("*/" : Text) <:+: inner) :
    pass? false index line = if Text.isAllBlank behind then some false else none := by
  have split : Text.splitFirst? "*/" comment = some (inner, behind) := by
    rw [comment_eq]
    exact Text.splitFirst?_append_pair (by decide) inner_open behind
  exact pass?_of_comment line_eq split

theorem pass?_of_open {comment : Text} (line_eq : Text.trim line = "/*" ++ comment)
    (comment_open : ¬ ("*/" : Text) <:+: comment) : pass? false index line = some true := by
  have unclosed : Text.splitFirst? "*/" comment = none := by
    rw [← Option.not_isSome_iff_eq_none]
    exact mt Text.containsPiece_iff.mp comment_open
  exact pass?_of_comment line_eq unclosed

/-- A line of an open comment leaves it open unless it closes it. -/
theorem passAll?_of_open {middle : List Text}
    (middle_open : ∀ line ∈ middle, ¬ ("*/" : Text) <:+: line) :
    passAll? true index middle = some true := by
  induction middle generalizing index with
  | nil => rfl
  | cons line middle ih =>
      obtain ⟨line_open, later_open⟩ := List.forall_mem_cons.mp middle_open
      have unclosed : Text.containsPiece (Text.trim line) "*/" = false := by
        rw [← Bool.not_eq_true, Text.containsPiece_iff]
        refine mt (fun held => held.trans ?_) line_open
        exact ⟨_, _, by rw [List.append_assoc]; exact (Text.eq_append_trim line).symm⟩
      rw [passAll?, pass?_in_comment, unclosed]
      exact ih later_open

theorem IsBlockComment.passAll? {block : List Text} (isComment : IsBlockComment block) :
    passAll? false index block = some false := by
  cases isComment with
  | short line_eq unclosed =>
      rw [Import.passAll?, pass?_of_closed line_eq rfl unclosed]
      rfl
  | @long first last inner behind middle first_eq first_open middle_open last_eq last_open =>
      have closed : Text.containsPiece (Text.trim last) "*/" := by
        rw [Text.containsPiece_iff, last_eq]
        exact (List.suffix_append _ _).isInfix
      rw [Import.passAll?, pass?_of_open first_eq first_open, Option.bind_some, passAll?_append,
        passAll?_of_open middle_open, Option.bind_some, Import.passAll?, pass?_in_comment, closed]
      rfl

/-- A header is passed over, with no comment left open. -/
theorem IsHeader.passAll? (isHeader : IsHeader index lines) :
    passAll? false index lines = some false := by
  induction isHeader with
  | nil => rfl
  | shebang starts later ih =>
      rw [Import.passAll?, pass?_of_shebang starts]
      exact ih
  | blank empty later ih =>
      rw [Import.passAll?, pass?_of_blank empty]
      exact ih
  | note starts later ih =>
      rw [Import.passAll?, pass?_of_note starts]
      exact ih
  | comment isComment later ih =>
      rw [passAll?_append, isComment.passAll?]
      exact ih

theorem IsCode.pass? (isCode : IsCode index line) : pass? false index line = none := by
  obtain ⟨not_blank, not_note, not_shebang, code_behind⟩ := isCode
  have not_passed : ¬ ((index = 0 ∧ Text.startsWith (Text.trim line) "#!") ∨ Text.trim line = [] ∨
      Text.startsWith (Text.trim line) "//") := by
    rw [Text.startsWith_iff, Text.startsWith_iff]
    rintro (⟨first, shebang⟩ | blank | note)
    · exact not_shebang first shebang
    · exact not_blank blank
    · exact not_note note
  cases opened : Text.after? "/*" (Text.trim line) with
  | none =>
      rw [Import.pass?]
      simp only [Bool.false_eq_true, if_false]
      rw [if_neg not_passed, opened]
  | some comment =>
      have line_eq := Text.after?_eq_some_iff.mp opened
      obtain ⟨inner, behind, comment_eq, inner_open, visible⟩ := code_behind comment line_eq
      have not_all_blank : ¬ Text.isAllBlank behind := fun all_blank =>
        visible (Text.trim_eq_nil_iff.mpr (Text.blank_of_isAllBlank all_blank))
      rw [pass?_of_closed line_eq comment_eq inner_open, if_neg not_all_blank]

end Header

/-! ### Imports on one line -/

/-- A module name between quotes, without a quote in it. -/
structure IsSpecifier (s : Text) : Prop where
  parts : ∃ quote name, s = quote :: (name ++ [quote]) ∧ isSpecifierQuote quote ∧ name ≠ [] ∧
    ∀ c ∈ name, isSpecifierQuote c = false

/-- An import declaration up to its module name. -/
inductive IsImport : Text → Prop
  /-- An import of the module alone. -/
  | module {gap specifier : Text} (gap_blank : ∀ c ∈ gap, Text.isBlank c)
      (isSpecifier : IsSpecifier specifier) : IsImport ("import" ++ (gap ++ specifier))
  /-- An import of names; what stands around the names keeps them apart from `import` and `from`. -/
  | names {names gap specifier : Text}
      (begins : ∃ c ∈ names.head?, Text.isBlank c ∨ c = '{' ∨ c = '*')
      (ends : ∃ c ∈ names.getLast?, Text.isWord c = false) (gap_blank : ∀ c ∈ gap, Text.isBlank c)
      (isSpecifier : IsSpecifier specifier) :
      IsImport ("import" ++ (names ++ ("from" ++ (gap ++ specifier))))

/-- A line with an import, perhaps a semicolon, and a comment or nothing behind it. -/
structure IsImportLine (line comment : Text) : Prop where
  parts : ∃ indent declaration gap semicolon trailing,
    line = indent ++ (declaration ++ (gap ++ (semicolon ++ (trailing ++ comment)))) ∧
    (∀ c ∈ indent, Text.isBlank c) ∧ IsImport declaration ∧ (∀ c ∈ gap, Text.isBlank c) ∧
    (semicolon = [] ∨ semicolon = [';']) ∧ ∀ c ∈ trailing, Text.isBlank c
  is_comment : comment = [] ∨ ("//" : Text) <+: comment

/-- A line with an import of a module alone, and anything behind it. -/
structure IsModuleLine (line : Text) : Prop where
  parts : ∃ indent gap specifier rest,
    line = indent ++ ("import" ++ (gap ++ specifier) ++ rest) ∧ (∀ c ∈ indent, Text.isBlank c) ∧
    (∀ c ∈ gap, Text.isBlank c) ∧ IsSpecifier specifier

section Imports

variable {line comment declaration s : Text}

theorem IsSpecifier.enclosed? (isSpecifier : IsSpecifier s) {gap : Text}
    (gap_blank : ∀ c ∈ gap, Text.isBlank c) (rest : Text) :
    ∃ name, Text.enclosed? isSpecifierQuote (Text.trimStart (gap ++ (s ++ rest))) =
      some (name, rest) := by
  obtain ⟨quote, name, rfl, isQuote, nonempty, unquoted⟩ := isSpecifier.parts
  have visible : Text.isBlank quote = false := by
    simp only [isSpecifierQuote, Bool.or_eq_true, decide_eq_true_eq] at isQuote
    rcases isQuote with rfl | rfl <;> decide
  have started : Text.trimStart (gap ++ (quote :: (name ++ [quote]) ++ rest)) =
      quote :: (name ++ quote :: rest) := by
    rw [List.cons_append, Text.trimStart_append_cons gap_blank visible, List.append_assoc]
    rfl
  rw [started]
  exact ⟨name, Text.enclosed?_eq_some_iff.mpr
    ⟨quote, quote, rfl, isQuote, isQuote, nonempty, unquoted⟩⟩

/-- A module name ends in a visible character. -/
theorem IsSpecifier.exists_concat (isSpecifier : IsSpecifier s) :
    ∃ front quote, s = front ++ [quote] ∧ Text.isBlank quote = false := by
  obtain ⟨quote, name, rfl, isQuote, -, -⟩ := isSpecifier.parts
  refine ⟨quote :: name, quote, rfl, ?_⟩
  simp only [isSpecifierQuote, Bool.or_eq_true, decide_eq_true_eq] at isQuote
  rcases isQuote with rfl | rfl <;> decide

theorem startsImport_append {c : Char} {rest : Text}
    (begins : Text.isBlank c ∨ c = '{' ∨ c = '*' ∨ isSpecifierQuote c) :
    startsImport ("import" ++ c :: rest) := by
  have found : Text.after? "import" ("import" ++ c :: rest) = some (c :: rest) :=
    Text.after?_eq_some_iff.mpr rfl
  rw [startsImport, found]
  simpa [or_assoc] using begins

theorem IsImport.startsImport (isImport : IsImport declaration) (rest : Text) :
    startsImport (declaration ++ rest) := by
  cases isImport with
  | @module gap specifier gap_blank isSpecifier =>
      obtain ⟨quote, name, rfl, isQuote, -, -⟩ := isSpecifier.parts
      rw [List.append_assoc]
      cases gap with
      | nil => exact startsImport_append (.inr (.inr (.inr isQuote)))
      | cons c gap => exact startsImport_append (.inl (gap_blank c List.mem_cons_self))
  | @names names gap specifier begins ends gap_blank isSpecifier =>
      obtain ⟨c, first, begins⟩ := begins
      cases names with
      | nil => cases first
      | cons d names =>
          obtain rfl : d = c := by simpa using first
          rw [List.append_assoc]
          exact startsImport_append (begins.imp_right fun mark => mark.imp_right .inl)

theorem IsImportLine.starts (isImportLine : IsImportLine line comment) :
    startsDeclaration (Text.trimStart line) := by
  obtain ⟨indent, declaration, gap, semicolon, trailing, rfl, indent_blank, isImport, -⟩ :=
    isImportLine.parts
  have starts := isImport.startsImport (gap ++ (semicolon ++ (trailing ++ comment)))
  have starts_declaration :
      startsDeclaration (declaration ++ (gap ++ (semicolon ++ (trailing ++ comment)))) := by
    rw [startsDeclaration, starts]
    rfl
  rw [Text.trimStart_append indent_blank, trimStart_of_startsDeclaration starts_declaration]
  exact starts_declaration

/-- An import of a module alone closes whatever is behind it. -/
theorem IsModuleLine.closes (isModuleLine : IsModuleLine line) : closes line := by
  obtain ⟨indent, gap, specifier, rest, rfl, indent_blank, gap_blank, isSpecifier⟩ :=
    isModuleLine.parts
  have starts : startsDeclaration ("import" ++ (gap ++ specifier) ++ rest) := by
    rw [startsDeclaration, (IsImport.module gap_blank isSpecifier).startsImport rest]
    rfl
  obtain ⟨front, quote, specifier_eq, visible⟩ := isSpecifier.exists_concat
  have trimmed : Text.trim (indent ++ ("import" ++ (gap ++ specifier) ++ rest)) =
      "import" ++ (gap ++ (specifier ++ Text.trimEnd rest)) := by
    rw [Text.trim, Text.trimStart_append indent_blank, trimStart_of_startsDeclaration starts,
      specifier_eq]
    have kept := Text.trimEnd_append_cons visible ("import" ++ (gap ++ front)) rest
    simpa using kept
  have found : Text.after? "import" ("import" ++ (gap ++ (specifier ++ Text.trimEnd rest))) =
      some (gap ++ (specifier ++ Text.trimEnd rest)) := Text.after?_eq_some_iff.mpr rfl
  obtain ⟨name, enclosed⟩ := isSpecifier.enclosed? gap_blank (Text.trimEnd rest)
  rw [Import.closes, Bool.or_eq_true, isSideEffectImport, trimmed, found, Option.bind_some,
    enclosed]
  exact .inr rfl

/-- The last part of a declaration is recognised where the word `from` starts. -/
theorem isSome_fromClause {before gap specifier : Text}
    (word_starts : ∃ c ∈ before.head?, Text.isWord c = false)
    (gap_blank : ∀ c ∈ gap, Text.isBlank c) (isSpecifier : IsSpecifier specifier) :
    (fromClause before ("from" ++ (gap ++ specifier))).isSome := by
  obtain ⟨c, nearest, apart⟩ := word_starts
  have boundary : Text.isBoundary before.head? ("from" ++ (gap ++ specifier)) := by
    rw [Option.mem_def.mp nearest]
    change Text.isWord c != Text.isWord 'f'
    rw [apart]
    decide
  have found : Text.afterWordStart? "from" before ("from" ++ (gap ++ specifier)) =
      some (gap ++ specifier) := by
    rw [Text.afterWordStart?, if_pos boundary]
    exact Text.after?_eq_some_iff.mpr rfl
  obtain ⟨name, enclosed⟩ := isSpecifier.enclosed? gap_blank []
  rw [List.append_nil] at enclosed
  rw [fromClause]
  simp only [found, enclosed, Option.bind_eq_bind, Option.bind_some]
  rfl

/-- A declaration ends on a line that ends in its last part. -/
theorem endsOn_of_clause {front gap specifier trailing : Text}
    (word_starts : ∃ c ∈ front.getLast?, Text.isWord c = false)
    (gap_blank : ∀ c ∈ gap, Text.isBlank c) (isSpecifier : IsSpecifier specifier)
    (trailing_blank : ∀ c ∈ trailing, Text.isBlank c) :
    endsOn (front ++ ("from" ++ (gap ++ specifier)) ++ trailing) := by
  obtain ⟨inner, quote, specifier_eq, visible⟩ := isSpecifier.exists_concat
  have trimmed : Text.trimEnd (front ++ ("from" ++ (gap ++ specifier)) ++ trailing) =
      front ++ ("from" ++ (gap ++ specifier)) := by
    have kept := Text.trimEnd_append_cons visible (front ++ ("from" ++ (gap ++ inner))) trailing
    rw [Text.trimEnd_of_blank trailing_blank] at kept
    simpa [specifier_eq] using kept
  have nearest : ∃ c ∈ (front.reverse ++ []).head?, Text.isWord c = false := by
    rw [List.append_nil, List.head?_reverse]
    exact word_starts
  rw [endsOn, Bool.or_eq_true, trimmed]
  exact .inr (Text.isSome_search_append (isSome_fromClause nearest gap_blank isSpecifier))

/-- An import with nothing behind it closes. -/
theorem IsImportLine.closes (isImportLine : IsImportLine line []) : closes line := by
  obtain ⟨indent, declaration, gap, semicolon, trailing, rfl, indent_blank, isImport, gap_blank,
    semicolon_eq, trailing_blank⟩ := isImportLine.parts
  rw [List.append_nil]
  cases isImport with
  | @module inner specifier inner_blank isSpecifier =>
      exact IsModuleLine.closes ⟨_, _, _, _, rfl, indent_blank, inner_blank, isSpecifier⟩
  | @names names inner specifier begins ends inner_blank isSpecifier =>
      rw [Import.closes, Bool.or_eq_true]
      refine .inl ?_
      rcases semicolon_eq with rfl | rfl
      · have word_starts : ∃ c ∈ (indent ++ ("import" ++ names)).getLast?,
            Text.isWord c = false := by
          obtain ⟨c, last, apart⟩ := ends
          refine ⟨c, ?_, apart⟩
          rw [Option.mem_def] at last ⊢
          rw [List.getLast?_append, List.getLast?_append, last]
          rfl
        have blank_behind := List.forall_mem_append.mpr ⟨gap_blank, trailing_blank⟩
        have line_ends := endsOn_of_clause word_starts inner_blank isSpecifier blank_behind
        simpa using line_ends
      · have line_ends := endsOn_append_semicolon
          (indent ++ ("import" ++ (names ++ ("from" ++ (inner ++ specifier))) ++ gap))
          trailing_blank
        simpa using line_ends

end Imports

/-! ### The scan of the imports -/

/-- The scan runs on from an import into code: it sees no end on the line of the import or on one of
those behind it, and within its limit there is code that ends like a declaration. -/
structure RunsOn (line : Text) (after code : List Text) : Prop where
  unclosed : closes line = false
  unclosed_behind : ∀ later ∈ after, endsOn later = false
  code_ends : ∃ later ∈ code.take (maxFurtherLines - after.length), endsOn later

/-- The scan runs on from one of the imports into code. -/
def Overruns (imports code : List Text) : Prop :=
  ∃ line after, line :: after <:+ imports ∧ RunsOn line after code

section Run

variable {line : Text} {after code imports : List Text}

/-- Among the first elements of a list there is one of a kind if the first of that kind is. -/
theorem exists_mem_take_iff {p : α → Bool} {as : List α} {n : Nat} :
    (∃ a ∈ as.take n, p a) ↔ ∃ j < n, as.findIdx? p = some j := by
  rw [← List.any_eq_true, ← List.findIdx?_isSome, List.findIdx?_take]
  cases as.findIdx? p with
  | none => simp
  | some j => simp [Option.guard]

theorem not_overruns_nil : ¬ Overruns [] code := by
  rintro ⟨line, after, part, -⟩
  cases List.suffix_nil.mp part

theorem overruns_cons :
    Overruns (line :: after) code ↔ RunsOn line after code ∨ Overruns after code := by
  simp only [Overruns, List.suffix_cons_iff, List.cons.injEq]
  constructor
  · rintro ⟨first, rest, ⟨rfl, rfl⟩ | later, runsOn⟩
    · exact .inl runsOn
    · exact .inr ⟨first, rest, later, runsOn⟩
  · rintro (runsOn | ⟨first, rest, later, runsOn⟩)
    · exact ⟨line, after, .inl ⟨rfl, rfl⟩, runsOn⟩
    · exact ⟨first, rest, .inr later, runsOn⟩

/-- Up to a line that ends a declaration the scan does not run on into code. -/
theorem overruns_append_of_ends {front rest : List Text} {last : Text} (ends : endsOn last) :
    Overruns (front ++ last :: rest) code ↔ Overruns rest code := by
  induction front with
  | nil =>
      have not_runsOn : ¬ RunsOn last rest code := by
        rintro ⟨unclosed, -⟩
        simp [closes, ends] at unclosed
      rw [List.nil_append, overruns_cons, or_iff_right not_runsOn]
  | cons line front ih =>
      have not_runsOn : ¬ RunsOn line (front ++ last :: rest) code := by
        rintro ⟨-, unclosed_behind, -⟩
        have unended := unclosed_behind last (by simp)
        rw [ends] at unended
        contradiction
      rw [List.cons_append, overruns_cons, or_iff_right not_runsOn, ih]

/-- The lines that a declaration takes in front of code: either the scan runs on into the code, or
it takes no more than declarations up to one that ends. -/
theorem furtherLines_append (line : Text) (after code : List Text) :
    (RunsOn line after code ∧ after.length < furtherLines line (after ++ code)) ∨
      ∃ front rest, after = front ++ rest ∧ furtherLines line (after ++ code) = front.length ∧
        (Overruns (line :: after) code ↔ Overruns rest code) := by
  have stays (alone : furtherLines line (after ++ code) = 0)
      (not_runsOn : ¬ RunsOn line after code) :
      ∃ front rest, after = front ++ rest ∧ furtherLines line (after ++ code) = front.length ∧
        (Overruns (line :: after) code ↔ Overruns rest code) :=
    ⟨[], after, rfl, alone, by rw [overruns_cons, or_iff_right not_runsOn]⟩
  cases closed : closes line with
  | true =>
      have not_runsOn : ¬ RunsOn line after code := by
        rintro ⟨unclosed, -⟩
        rw [closed] at unclosed
        contradiction
      exact .inr (stays (furtherLines_of_closes closed) not_runsOn)
  | false =>
      cases found : after.findIdx? endsOn with
      | some j =>
          -- another import ends like a declaration first
          have all_found : (after ++ code).findIdx? endsOn = some j := by
            rw [List.findIdx?_append, found, Option.some_or]
          obtain ⟨inside, ends, -⟩ := List.findIdx?_eq_some_iff_getElem.mp found
          have not_runsOn : ¬ RunsOn line after code := by
            intro runsOn
            have unended := runsOn.unclosed_behind after[j] (List.getElem_mem inside)
            rw [ends] at unended
            contradiction
          have taken := furtherLines_of_found closed all_found
          by_cases near : j < maxFurtherLines
          · rw [if_pos near] at taken
            refine .inr ⟨after.take (j + 1), after.drop (j + 1),
              (List.take_append_drop _ _).symm, ?_, ?_⟩
            · rw [taken, List.length_take_of_le inside]
            · have parts : line :: after =
                  (line :: after.take j) ++ after[j] :: after.drop (j + 1) := by
                rw [List.cons_append, List.getElem_cons_drop, List.take_append_drop]
              rw [parts, overruns_append_of_ends ends]
          · rw [if_neg near] at taken
            exact .inr (stays taken not_runsOn)
      | none =>
          have unclosed_behind : ∀ later ∈ after, endsOn later = false :=
            List.findIdx?_eq_none_iff.mp found
          have all_found : (after ++ code).findIdx? endsOn =
              (code.findIdx? endsOn).map (· + after.length) := by
            rw [List.findIdx?_append, found, Option.none_or]
          cases code_found : code.findIdx? endsOn with
          | none =>
              rw [code_found, Option.map_none] at all_found
              have not_runsOn : ¬ RunsOn line after code := by
                intro runsOn
                obtain ⟨j, -, found_near⟩ := exists_mem_take_iff.mp runsOn.code_ends
                rw [code_found] at found_near
                contradiction
              exact .inr (stays (furtherLines_of_endless closed all_found) not_runsOn)
          | some c =>
              rw [code_found, Option.map_some] at all_found
              have taken := furtherLines_of_found closed all_found
              by_cases near : c + after.length < maxFurtherLines
              · have code_ends : ∃ later ∈ code.take (maxFurtherLines - after.length),
                    endsOn later := exists_mem_take_iff.mpr ⟨c, by omega, code_found⟩
                rw [if_pos near] at taken
                exact .inl ⟨⟨closed, unclosed_behind, code_ends⟩, by omega⟩
              · have not_runsOn : ¬ RunsOn line after code := by
                  intro runsOn
                  obtain ⟨j, j_lt, found_near⟩ := exists_mem_take_iff.mp runsOn.code_ends
                  obtain rfl : c = j := Option.some.inj (code_found.symm.trans found_near)
                  omega
                rw [if_neg near] at taken
                exact .inr (stays taken not_runsOn)

/-- The scan takes all imports, and no code unless it runs on. -/
theorem leadingLines_append
    (starts : ∀ line ∈ imports, startsDeclaration (Text.trimStart line))
    (stops : ∀ first ∈ code.head?, startsDeclaration (Text.trimStart first) = false) :
    imports.length ≤ leadingLines (imports ++ code) ∧
      (leadingLines (imports ++ code) = imports.length ↔ ¬ Overruns imports code) := by
  induction size : imports.length using Nat.strong_induction_on generalizing imports with
  | _ n ih =>
      subst size
      cases imports with
      | nil =>
          rw [List.nil_append, leadingLines_of_not_starts stops]
          exact ⟨Nat.le_refl _, fun _ => not_overruns_nil, fun _ => rfl⟩
      | cons line after =>
          obtain ⟨line_starts, later_starts⟩ := List.forall_mem_cons.mp starts
          rw [List.cons_append, leadingLines_cons line_starts]
          rcases furtherLines_append line after code with ⟨runsOn, past⟩ |
            ⟨front, rest, rfl, taken, overruns_iff⟩
          · rw [overruns_cons, List.length_cons]
            refine ⟨by omega, fun same => by omega, fun not_overruns => ?_⟩
            exact absurd (.inl runsOn) not_overruns
          · have shorter : rest.length < (line :: (front ++ rest)).length := by
              simp only [List.length_cons, List.length_append]
              omega
            obtain ⟨least, exact_iff⟩ := ih rest.length shorter
              (fun l member => later_starts l (List.mem_append_right _ member)) rfl
            rw [overruns_iff, ← exact_iff, taken, List.append_assoc, List.drop_left,
              List.length_cons, List.length_append]
            omega

theorem not_overruns_of_closes (imports_close : ∀ line ∈ imports, closes line) :
    ¬ Overruns imports code := by
  rintro ⟨line, after, part, unclosed, -⟩
  rw [imports_close line (part.subset List.mem_cons_self)] at unclosed
  contradiction

end Run

/-- A module in its usual form: a header, imports on one line each, and code that starts with no
declaration, and with a line of code where there are no imports. -/
structure LaidOut (d : Document) (header imports code : List Text) : Prop where
  texts_eq : d.texts = header ++ (imports ++ code)
  is_header : IsHeader 0 header
  are_imports : ∀ line ∈ imports, ∃ comment, IsImportLine line comment
  not_declaration : ∀ first ∈ code.head?, startsDeclaration (Text.trimStart first) = false
  is_code : imports = [] → ∀ first ∈ code.head?, IsCode header.length first

section Placement

variable {d : Document} {header imports code : List Text}

theorem LaidOut.importLine_eq (laidOut : LaidOut d header imports code)
    (some_behind : imports ++ code ≠ []) :
    d.importLine = header.length + leadingLines (imports ++ code) := by
  refine Document.importLine_of_passed laidOut.texts_eq laidOut.is_header.passAll? ?_
  cases imports_eq : imports with
  | cons line imports =>
      obtain ⟨comment, isImportLine⟩ := laidOut.are_imports line (by simp [imports_eq])
      exact ⟨line, _, rfl, pass?_of_startsDeclaration isImportLine.starts⟩
  | nil =>
      cases code_eq : code with
      | nil => simp [imports_eq, code_eq] at some_behind
      | cons first code =>
          exact ⟨first, code, rfl, (laidOut.is_code imports_eq first (by simp [code_eq])).pass?⟩

/-- A new import lands right behind the imports of a module in its usual form, and before all of its
code, exactly if the scan does not run on from an import into code; it does not if each import has
no comment behind it or is of a module alone.  Behind a header with nothing behind it the import
lands on the last line if that is empty. -/
theorem lands_before_code_iff (laidOut : LaidOut d header imports code) :
    (imports ++ code ≠ [] → header.length + imports.length ≤ d.importLine ∧
      (d.importLine = header.length + imports.length ↔ ¬ Overruns imports code)) ∧
    (imports ++ code = [] → d.importLine =
      if header.getLast? = some [] then header.length - 1 else header.length) ∧
    ((∀ line ∈ imports, IsImportLine line [] ∨ IsModuleLine line) → ¬ Overruns imports code) ∧
    (code ≠ [] → ¬ Overruns imports code → ∀ statement, ∃ text,
      d.importEdit statement = .insert ⟨header.length + imports.length, 0⟩ text) := by
  have starts : ∀ line ∈ imports, startsDeclaration (Text.trimStart line) := by
    intro line member
    obtain ⟨comment, isImportLine⟩ := laidOut.are_imports line member
    exact isImportLine.starts
  obtain ⟨least, exact_iff⟩ := leadingLines_append starts laidOut.not_declaration
  refine ⟨?_, ?_, ?_, ?_⟩
  · intro some_behind
    rw [laidOut.importLine_eq some_behind, ← exact_iff]
    omega
  · intro none_behind
    have texts_eq : d.texts = header := by rw [laidOut.texts_eq, none_behind, List.append_nil]
    have passed := laidOut.is_header.passAll?
    rw [← texts_eq] at passed ⊢
    exact Document.importLine_of_no_code passed
  · intro imports_close
    refine not_overruns_of_closes fun line member => ?_
    exact (imports_close line member).elim IsImportLine.closes IsModuleLine.closes
  · intro some_code not_overruns statement
    have line_eq : d.importLine = header.length + imports.length := by
      rw [laidOut.importLine_eq (by simp [some_code]), exact_iff.mpr not_overruns]
    have inside : ¬ d.lastLine < d.importLine := by
      have code_pos := List.length_pos_iff.mpr some_code
      have count_eq := d.length_texts
      rw [laidOut.texts_eq] at count_eq
      simp only [List.length_append] at count_eq
      unfold Document.lastLine
      omega
    rw [Document.importEdit, if_neg inside, line_eq]
    split
    · exact ⟨_, rfl⟩
    · exact ⟨_, rfl⟩

end Placement

/-- A module with a header of a shebang, a block comment and a blank line, an import of a module
with a comment behind it, and an import of a name without a semicolon. -/
def headedModule : Document :=
  .ofText ("#!/usr/bin/env deno\n/* a\n b */\n\nimport 'x'; // y\n"
    ++ "  import \x7bb\x7dfrom './b.ts' \nfoo()")

theorem lands_before_code_behind_two :
    let header : List Text := ["#!/usr/bin/env deno", "/* a", " b */", ""]
    let imports : List Text := ["import 'x'; // y", "  import \x7bb\x7dfrom './b.ts' "]
    let code : List Text := ["foo()"]
    LaidOut headedModule header imports code ∧
      (∀ line ∈ imports, IsImportLine line [] ∨ IsModuleLine line) ∧ headedModule.importLine = 6 ∧
      ∃ text, headedModule.importEdit "import c from 'c'" = .insert ⟨6, 0⟩ text := by
  intro header imports code
  have blank : ∀ c ∈ (" " : Text), Text.isBlank c := Text.blank_of_isAllBlank (by decide)
  have indented : ∀ c ∈ ("  " : Text), Text.isBlank c := Text.blank_of_isAllBlank (by decide)
  have nothing : ∀ c ∈ ([] : Text), Text.isBlank c := List.forall_mem_nil _
  have module_name : IsSpecifier "'x'" :=
    ⟨'\'', "x", rfl, rfl, by decide, by simp [isSpecifierQuote]⟩
  have file_name : IsSpecifier "'./b.ts'" :=
    ⟨'\'', "./b.ts", rfl, rfl, by decide, by simp [isSpecifierQuote]⟩
  have first_line : IsImportLine "import 'x'; // y" "// y" :=
    ⟨⟨[], "import" ++ (" " ++ "'x'"), [], [';'], " ", rfl, nothing, .module blank module_name,
      nothing, .inr rfl, blank⟩, .inr (Text.startsWith_iff.mp rfl)⟩
  have second_line : IsImportLine "  import \x7bb\x7dfrom './b.ts' " [] :=
    ⟨⟨"  ", "import" ++ (" \x7bb\x7d" ++ ("from" ++ (" " ++ "'./b.ts'"))), " ", [], [], rfl,
      indented, .names ⟨' ', rfl, .inl rfl⟩ ⟨'\x7d', rfl, rfl⟩ blank file_name, blank, .inl rfl,
      nothing⟩, .inl rfl⟩
  have module_line : IsModuleLine "import 'x'; // y" :=
    ⟨[], " ", "'x'", "; // y", rfl, nothing, blank, module_name⟩
  have opened : Text.trim "/* a" = "/*" ++ (" a" : Text) := by decide +kernel
  have closed : Text.trim " b */" = ("b " : Text) ++ "*/" := by decide +kernel
  have block : IsBlockComment ("/* a" :: (([] : List Text) ++ ([" b */"] : List Text))) :=
    .long opened (by decide) (List.forall_mem_nil _) closed (by decide)
  have laidOut : LaidOut headedModule header imports code := by
    refine ⟨by decide +kernel, ?_, ?_, by decide +kernel,
      fun none => absurd none (List.cons_ne_nil _ _)⟩
    · exact .shebang (by decide) (.comment block (.blank (by decide) .nil))
    · exact List.forall_mem_cons.mpr
        ⟨⟨_, first_line⟩, List.forall_mem_singleton.mpr ⟨_, second_line⟩⟩
  have imports_close : ∀ line ∈ imports, IsImportLine line [] ∨ IsModuleLine line :=
    List.forall_mem_cons.mpr ⟨.inr module_line, List.forall_mem_singleton.mpr (.inl second_line)⟩
  obtain ⟨line_iff, -, not_overruns, inserted⟩ := lands_before_code_iff laidOut
  have lands := (line_iff (by decide)).2.mpr (not_overruns imports_close)
  exact ⟨laidOut, imports_close, lands,
    inserted (by decide) (not_overruns imports_close) "import c from 'c'"⟩

/-- A module whose only import has a semicolon and a comment behind it, in front of a call. -/
def commentedModule : Document := .ofText "import a from \"./a.ts\"; // a\nfoo();\n"

/-- There the scan runs on, and a new import lands behind the call. -/
theorem lands_behind_code :
    let header : List Text := []
    let imports : List Text := ["import a from \"./a.ts\"; // a"]
    let code : List Text := ["foo();", ""]
    LaidOut commentedModule header imports code ∧
      commentedModule.importLine ≠ header.length + imports.length ∧
      commentedModule.importEdit "import process from \"node:process\"" =
        .insert ⟨2, 0⟩ "import process from \"node:process\";\n" := by
  intro header imports code
  have blank : ∀ c ∈ (" " : Text), Text.isBlank c := Text.blank_of_isAllBlank (by decide)
  have nothing : ∀ c ∈ ([] : Text), Text.isBlank c := List.forall_mem_nil _
  have file_name : IsSpecifier "\"./a.ts\"" :=
    ⟨'"', "./a.ts", rfl, rfl, by decide, by simp [isSpecifierQuote]⟩
  have only_line : IsImportLine "import a from \"./a.ts\"; // a" "// a" :=
    ⟨⟨[], "import" ++ (" a " ++ ("from" ++ (" " ++ "\"./a.ts\""))), [], [';'], " ", rfl, nothing,
      .names ⟨' ', rfl, .inl rfl⟩ ⟨' ', rfl, rfl⟩ blank file_name, nothing, .inr rfl, blank⟩,
      .inr (Text.startsWith_iff.mp rfl)⟩
  have laidOut : LaidOut commentedModule header imports code :=
    ⟨by decide +kernel, .nil, List.forall_mem_singleton.mpr ⟨_, only_line⟩, by decide +kernel,
      fun none => absurd none (List.cons_ne_nil _ _)⟩
  have line_eq : commentedModule.importLine = 2 := by decide +kernel
  refine ⟨laidOut, ?_, by decide +kernel⟩
  rw [line_eq]
  decide

end Import

end LintRepair
