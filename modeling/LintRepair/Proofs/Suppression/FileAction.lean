import LintRepair.Proofs.Suppression
import LintRepair.Proofs.Suppression.Header

/-!
# Silencing a rule for the whole file

The action that silences a rule for the whole file takes effect exactly if the header has room for
a directive: behind its last line of comment there is a line left in the window that is scanned, and
no block comment is open there.  Where there is room the new directive is found, and the action is
not offered again.
-/

namespace LintRepair

namespace Suppression

open Scan (pass? start)

/-- What the action that silences a rule for the whole file is called. -/
def fileTitle (code : Text) : Text := "Disable '" ++ code ++ "' for " ++ "the entire file"

/-- The header of a document holds a file directive on a line, and it lists a code. -/
structure SilencesFile (d : Document) (code : Text) (line : Nat) (directive : Directive) :
    Prop where
  header_eq : header d = .directive line directive
  on_line : d.directive? line = some directive
  scope_eq : directive.scope = .file
  lists : directive.lists code
  /-- The line is among those that are scanned. -/
  in_window : line < headerLines
  /-- No block comment is open in front of the line. -/
  outside : commentOpen (d.texts.take line) = false

/-- Whether a file directive behind the last line of comment of the header can be found: that line
is not the last one that is scanned, and no block comment is open behind it. -/
def hasRoom (d : Document) : Bool :=
  match header d with
  | .comments (some line) =>
      line + 1 < headerLines && !commentOpen (d.texts.take (line + 1))
  | _ => true

/-- The directive that silences a code for the whole file. -/
def fileDirective (code : Text) : Directive := ⟨[], " ", .file, [code]⟩

variable {d : Document} {site : Site} {code : Text} {line : Nat} {directive : Directive}

theorem SilencesFile.of_header (header_eq : header d = .directive line directive)
    (lists : directive.lists code) : SilencesFile d code line directive := by
  obtain ⟨last, passed, in_window, on_line, scope_eq⟩ := passed_of_header_directive header_eq
  exact ⟨header_eq, on_line, scope_eq, lists, in_window,
    (Scan.eq_of_foldlM_pass? passed).2.symm⟩

theorem fileDirective_isWellFormed (isToken : Text.IsToken code) :
    (fileDirective code).IsWellFormed := by
  have gap_blank : ∀ c ∈ (" " : Text), Text.isBlank c :=
    List.forall_mem_singleton.mpr (by decide)
  exact ⟨List.forall_mem_nil _, gap_blank, List.forall_mem_singleton.mpr isToken⟩

theorem fileDirective_render (code : Text) :
    (fileDirective code).render = "// deno-lint-ignore-file " ++ code := by
  have front : ("//" : Text) ++ " " ++ DirectiveScope.file.marker ++ [' '] =
      "// deno-lint-ignore-file " := by decide
  rw [← front, Directive.render, fileDirective]
  simp

/-- The action has no edit exactly where the header silences the code already. -/
theorem fileEdit?_eq_none_iff : fileEdit? site = none ↔
    ∃ line directive, SilencesFile site.document site.code line directive := by
  constructor
  · intro none_offered
    rw [fileEdit?] at none_offered
    cases header_eq : header site.document with
    | directive line directive =>
        simp only [header_eq, extend?, Directive.withCode?, Option.map_eq_none_iff,
          ite_eq_left_iff, reduceCtorEq, imp_false, not_not] at none_offered
        exact ⟨line, directive, .of_header header_eq none_offered⟩
    | comments last => cases last <;> simp [header_eq] at none_offered
  · rintro ⟨line, directive, silences⟩
    simp [fileEdit?, silences.header_eq, extend?, Directive.withCode?, silences.lists]

/-- The directive extended by the code is found on its line. -/
theorem exists_extended (header_eq : header d = .directive line directive)
    (isToken : Text.IsToken code) {e : Edit} (extended : extend? d line directive code = some e) :
    ∃ text, d.applyEdits? [e] = some text ∧
      header (.ofText text) =
        .directive line { directive with codes := directive.codes ++ [code] } := by
  obtain ⟨last, passed, in_window, on_line, scope_eq⟩ := passed_of_header_directive header_eq
  obtain ⟨text, written, applied, texts_eq, parsed⟩ :=
    exists_applied_extend? on_line isToken extended
  refine ⟨text, applied, ?_⟩
  have inside : line < d.texts.length := by
    rw [d.length_texts]
    exact Document.lt_lineCount_of_directive? on_line
  rw [List.set_eq_take_append_cons_drop, if_pos inside] at texts_eq
  exact header_of_texts texts_eq passed in_window rfl parsed scope_eq

theorem fills_fileDirective (isToken : Text.IsToken code) :
    Line.Fills (fileDirective code).render := by
  have gap : '\n' ∉ (" " : Text) := by decide
  exact (fileDirective_isWellFormed isToken).fills_render List.not_mem_nil gap

/-- A directive in front of all lines is found there. -/
theorem exists_inserted_first (d : Document) (isToken : Text.IsToken code) :
    ∃ text,
      d.applyEdits? [.insert ⟨0, 0⟩ ("// deno-lint-ignore-file " ++ code ++ "\n")] = some text ∧
      header (.ofText text) = .directive 0 (fileDirective code) := by
  obtain ⟨first, found⟩ := Document.exists_line d.lineCount_pos
  have whole : ∀ line ∈ [(⟨(fileDirective code).render, .newline⟩ : Line)], line.IsWhole :=
    List.forall_mem_singleton.mpr ⟨fills_fileDirective isToken .newline, rfl⟩
  obtain ⟨text, applied, lines_eq⟩ := Document.exists_insertLines found whole
  refine ⟨text, ?_, ?_⟩
  · rw [← fileDirective_render]
    simpa [Line.source, LineEnding.text] using applied
  · have texts_eq : (Document.ofText text).texts =
        [] ++ (fileDirective code).render :: d.texts := by
      simp [Document.texts, lines_eq]
    exact header_of_texts texts_eq (t := start) rfl (by decide) rfl
      (fileDirective_isWellFormed isToken).parse?_render rfl

/-- The scan passes a line as before when a carriage return at its end is taken away. -/
theorem foldlM_pass?_closed {comment closed : Line} (found : d.lines[line]? = some comment)
    (closed_text : closed.text = comment.text ∨ closed.text ++ ['\r'] = comment.text) :
    (d.texts.take line ++ [closed.text]).foldlM pass? start =
      (d.texts.take (line + 1)).foldlM pass? start := by
  rw [List.take_add_one, d.getElem?_texts, Document.line?_eq_some found, Option.toList_some,
    List.foldlM_append, List.foldlM_append]
  rcases closed_text with same | shortened
  · rw [same]
  · have blank : Text.isBlank '\r' := by decide
    simp only [← shortened, List.foldlM_cons, Scan.pass?_append_blank _ blank]

theorem hasRoom_iff_of_comments (header_eq : header d = .comments (some line)) :
    hasRoom d ↔ line + 1 < headerLines ∧ commentOpen (d.texts.take (line + 1)) = false := by
  rw [hasRoom, header_eq, Bool.and_eq_true, decide_eq_true_eq, Bool.not_eq_true']

/-- A directive behind the last line of comment is found exactly if the header has room. -/
theorem exists_inserted_behind (header_eq : header d = .comments (some line))
    (isToken : Text.IsToken code) :
    ∃ text,
      d.applyEdits? [d.insertAfterLine line ("// deno-lint-ignore-file " ++ code ++ "\n")] =
        some text ∧
      (hasRoom d → header (.ofText text) = .directive (line + 1) (fileDirective code)) ∧
      (¬ hasRoom d → ∃ last, header (.ofText text) = .comments last) := by
  obtain ⟨passed, fits, exhausted⟩ := passed_of_header_comments header_eq
  obtain ⟨comment, found⟩ := Document.exists_line (d := d) (header_line_lt (by rw [header_eq]; rfl))
  obtain ⟨text, closed, ending, applied, closed_text, lines_eq⟩ :=
    Document.exists_insertAfterLine found (List.forall_mem_nil _) (fills_fileDirective isToken)
  have texts_eq : (Document.ofText text).texts = (d.texts.take line ++ [closed.text]) ++
      (fileDirective code).render :: d.texts.drop (line + 1) := by
    simp [Document.texts, lines_eq, List.map_take, List.map_drop]
  rw [← foldlM_pass?_closed found closed_text] at passed
  rw [List.flatMap_nil, List.nil_append, fileDirective_render] at applied
  rw [hasRoom_iff_of_comments header_eq]
  refine ⟨text, applied, fun room => ?_, fun no_room => ?_⟩
  · obtain ⟨below, outside⟩ := room
    exact header_of_texts texts_eq passed below outside
      (fileDirective_isWellFormed isToken).parse?_render rfl
  · refine header_of_texts_of_no_room texts_eq passed fits fun below => ?_
    have opened : commentOpen (d.texts.take (line + 1)) := by
      rw [← Bool.not_eq_false]
      exact fun outside => no_room ⟨below, outside⟩
    refine ⟨opened, List.drop_eq_nil_of_le ?_⟩
    rw [d.length_texts]
    exact (exhausted opened).resolve_left (Nat.ne_of_lt below)

/-- The edit can be applied.  Where the header has room, the code is silenced afterwards; where it
has none, the header holds no directive as before. -/
theorem exists_applied_fileEdit? (isToken : Text.IsToken site.code) {e : Edit}
    (edit_eq : fileEdit? site = some e) :
    ∃ text, site.document.applyEdits? [e] = some text ∧
      (hasRoom site.document →
        ∃ line directive, SilencesFile (.ofText text) site.code line directive) ∧
      (¬ hasRoom site.document → ∃ last, header (.ofText text) = .comments last) := by
  rw [fileEdit?] at edit_eq
  cases header_eq : header site.document with
  | directive line directive =>
      rw [header_eq] at edit_eq
      obtain ⟨text, applied, found⟩ := exists_extended header_eq isToken edit_eq
      have lists : { directive with codes := directive.codes ++ [site.code] }.lists site.code := by
        simp [Directive.lists]
      exact ⟨text, applied, fun _ => ⟨line, _, .of_header found lists⟩,
        fun no_room => by simp [hasRoom, header_eq] at no_room⟩
  | comments last =>
      rw [header_eq] at edit_eq
      have lists : (fileDirective site.code).lists site.code := by
        simp [Directive.lists, fileDirective]
      cases last with
      | none =>
          obtain rfl := Option.some.inj edit_eq
          obtain ⟨text, applied, found⟩ := exists_inserted_first site.document isToken
          exact ⟨text, applied, fun _ => ⟨0, _, .of_header found lists⟩,
            fun no_room => by simp [hasRoom, header_eq] at no_room⟩
      | some line =>
          obtain rfl := Option.some.inj edit_eq
          obtain ⟨text, applied, found, lost⟩ := exists_inserted_behind header_eq isToken
          exact ⟨text, applied, fun room => ⟨line + 1, _, .of_header (found room) lists⟩, lost⟩

theorem lineTitle_ne_fileTitle (code : Text) :
    "Disable '" ++ code ++ "' for " ++ "this line" ≠ fileTitle code := by
  intro same
  exact absurd (List.append_cancel_left same) (by decide)

/-- The two actions are told apart by what they are called. -/
theorem fileEdit?_of_mem_actions {fix : Fix} (offered : fix ∈ actions site)
    (title : fix.title = fileTitle site.code) :
    site.code ≠ [] ∧ ∃ e, fileEdit? site = some e ∧ fix.edits = [e] := by
  rw [actions] at offered
  split at offered
  · exact absurd offered List.not_mem_nil
  · rename_i nonempty
    refine ⟨nonempty, ?_⟩
    simp only [List.mem_append, Option.mem_toList, Option.map_eq_some_iff] at offered
    rcases offered with ⟨e, -, rfl⟩ | ⟨e, edit_eq, rfl⟩
    · exact absurd title (lineTitle_ne_fileTitle site.code)
    · exact ⟨e, edit_eq, rfl⟩

theorem exists_mem_actions {e : Edit} (nonempty : site.code ≠ [])
    (edit_eq : fileEdit? site = some e) :
    ∃ fix ∈ actions site, fix.title = fileTitle site.code := by
  rw [actions, if_neg nonempty, edit_eq]
  exact ⟨_, List.mem_append_right _ List.mem_cons_self, rfl⟩

/-- The action that silences a rule for the whole file can be applied.  The header then silences the
code, and the action is not offered for it again, exactly if the header has room. -/
theorem file_action_silences_iff_room {site : Site} {fix : Fix}
    (blank_free : ∀ c ∈ site.code, Text.isBlank c = false) (offered : fix ∈ actions site)
    (title : fix.title = fileTitle site.code) :
    ∃ text, fix.applied? site.document = some text ∧
      (hasRoom site.document ↔
        ∃ line directive, SilencesFile (.ofText text) site.code line directive) ∧
      (hasRoom site.document ↔
        ∀ later : Site, later.document = .ofText text → later.code = site.code →
          ∀ other ∈ actions later, other.title ≠ fileTitle site.code) := by
  obtain ⟨nonempty, e, edit_eq, edits_eq⟩ := fileEdit?_of_mem_actions offered title
  obtain ⟨text, applied, found, lost⟩ := exists_applied_fileEdit? ⟨nonempty, blank_free⟩ edit_eq
  have silenced_iff : hasRoom site.document ↔
      ∃ line directive, SilencesFile (.ofText text) site.code line directive := by
    refine ⟨found, fun ⟨line, directive, silences⟩ => Decidable.byContradiction fun no_room => ?_⟩
    obtain ⟨last, header_eq⟩ := lost no_room
    exact nomatch silences.header_eq.symm.trans header_eq
  refine ⟨text, by rw [Fix.applied?, edits_eq, applied], silenced_iff,
    silenced_iff.trans ⟨?_, ?_⟩⟩
  · rintro ⟨line, directive, silences⟩ later document_eq code_eq other other_offered same_title
    rw [← code_eq] at same_title
    obtain ⟨-, e', edit_eq', -⟩ := fileEdit?_of_mem_actions other_offered same_title
    rw [← document_eq, ← code_eq] at silences
    rw [fileEdit?_eq_none_iff.mpr ⟨line, directive, silences⟩] at edit_eq'
    contradiction
  · intro withheld
    let later : Site := { site with document := .ofText text }
    cases edit_eq' : fileEdit? later with
    | none => exact fileEdit?_eq_none_iff.mp edit_eq'
    | some e' =>
        have later_nonempty : later.code ≠ [] := nonempty
        obtain ⟨other, other_offered, same_title⟩ := exists_mem_actions later_nonempty edit_eq'
        exact absurd same_title (withheld later rfl rfl other other_offered)

/-- A use of `var` below a shebang and a block comment. -/
def headedSite : Site where
  diagnostic := ⟨"no-var", "`var` is not allowed", .onLine 5 0 10, .error, none, none, "deno-lint"⟩
  document := .ofText "#!/usr/bin/env -S deno run\n/*\n * Tools\n */\n\nvar x = 1;\n"
  settings := .standard

/-- The action that silences `no-var` behind the comment. -/
def headedFix : Fix :=
  (headedSite.fix (fileTitle "no-var")
    (.insert ⟨4, 0⟩ "// deno-lint-ignore-file no-var\n")).onRequest

theorem file_action_silences_below_comment :
    (∀ c ∈ headedSite.code, Text.isBlank c = false) ∧ headedFix ∈ actions headedSite ∧
    headedFix.title = fileTitle headedSite.code ∧ hasRoom headedSite.document ∧
    ∃ text, headedFix.applied? headedSite.document = some text ∧
      (hasRoom headedSite.document ↔
        ∃ line directive, SilencesFile (.ofText text) headedSite.code line directive) ∧
      (hasRoom headedSite.document ↔
        ∀ later : Site, later.document = .ofText text → later.code = headedSite.code →
          ∀ other ∈ actions later, other.title ≠ fileTitle headedSite.code) := by
  have blank_free : ∀ c ∈ headedSite.code, Text.isBlank c = false :=
    Text.visible_of_all (by decide)
  have offered : headedFix ∈ actions headedSite := by decide +kernel
  exact ⟨blank_free, offered, rfl, by decide +kernel,
    file_action_silences_iff_room blank_free offered rfl⟩

/-- A use of `var` below a block comment of twelve lines. -/
def longHeadedSite : Site where
  diagnostic := ⟨"no-var", "`var` is not allowed", .onLine 12 0 10, .error, none, none, "deno-lint"⟩
  document := .ofText
    "/*\n * 1\n * 2\n * 3\n * 4\n * 5\n * 6\n * 7\n * 8\n * 9\n * 10\n */\nvar x = 1;\n"
  settings := .standard

/-- A comment that goes on behind the lines that are scanned takes in the new directive. -/
theorem file_directive_lost_in_long_comment :
    ¬ ∀ (site : Site) (fix : Fix), site.code ≠ [] →
      (∀ c ∈ site.code, Text.isBlank c = false) → fix ∈ actions site →
      fix.title = fileTitle site.code → ∀ text, fix.applied? site.document = some text →
        ∃ line directive, SilencesFile (.ofText text) site.code line directive := by
  intro silenced
  have nonempty : longHeadedSite.code ≠ [] := by decide
  have blank_free : ∀ c ∈ longHeadedSite.code, Text.isBlank c = false :=
    Text.visible_of_all (by decide)
  have edit_eq : fileEdit? longHeadedSite =
      some (.insert ⟨10, 0⟩ "// deno-lint-ignore-file no-var\n") := by decide +kernel
  have no_room : ¬ hasRoom longHeadedSite.document := by decide +kernel
  obtain ⟨text, applied, -, lost⟩ := exists_applied_fileEdit? ⟨nonempty, blank_free⟩ edit_eq
  obtain ⟨fix, offered, title⟩ := exists_mem_actions nonempty edit_eq
  obtain ⟨-, e, edit_eq', edits_eq⟩ := fileEdit?_of_mem_actions offered title
  obtain rfl := Option.some.inj (edit_eq.symm.trans edit_eq')
  obtain ⟨line, directive, silences⟩ := silenced longHeadedSite fix nonempty blank_free offered
    title text (by rw [Fix.applied?, edits_eq, applied])
  obtain ⟨last, header_eq⟩ := lost no_room
  rw [silences.header_eq] at header_eq
  cases header_eq

end Suppression

end LintRepair
