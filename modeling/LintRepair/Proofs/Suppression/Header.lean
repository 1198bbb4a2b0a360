import LintRepair.Proofs.Directive.Grammar
import LintRepair.Proofs.Document.Layout
import LintRepair.Suppression

/-!
# The scan of a header

The scan reads the lines at the top of a document one by one.  Each line either ends it or is
passed, and what it knows behind a passed line is the index of the next line, whether a block
comment is open, and the last line of shebang or comment.
-/

namespace LintRepair

namespace Suppression

/-- Whether a block comment is open behind a line: it goes on from the lines before or starts at the
front of the line, and the line does not hold its end. -/
def opensBehind (inComment : Bool) (line : Text) : Bool :=
  (inComment || Text.startsWith (Text.trim line) "/*") &&
    !Text.containsPiece (Text.trim line) "*/"

/-- Whether a block comment is open behind lines. -/
def commentOpen (lines : List Text) : Bool := lines.foldl opensBehind false

/-- Where the scan of a header stands. -/
structure Scan where
  /-- Index of the next line. -/
  index : Nat
  /-- Whether a block comment is open. -/
  inComment : Bool
  /-- The last line of shebang or comment before. -/
  last : Option Nat
  deriving DecidableEq

namespace Scan

/-- The scan in front of the first line. -/
def start : Scan := ⟨0, false, none⟩

/-- What the scan finds in the lines from where it stands. -/
def header (s : Scan) (lines : List Text) : Header :=
  scanHeader s.index s.inComment s.last lines

/-- Where the scan stands behind a line that it passes. -/
def pass? (s : Scan) (line : Text) : Option Scan :=
  let trimmed := Text.trim line
  let commented : Scan := ⟨s.index + 1, opensBehind s.inComment line, some s.index⟩
  if s.inComment then some commented
  else if (Directive.parse? line).isSome then none
  else if ((s.index = 0 ∧ Text.startsWith trimmed "#!") ∨ Text.startsWith trimmed "//") ∨
      Text.startsWith trimmed "/*" then some commented
  else if trimmed = [] then some ⟨s.index + 1, false, s.last⟩
  else none

/-- What the scan finds when it ends at a line. -/
def verdict (s : Scan) (line : Text) : Header :=
  match Directive.parse? line with
  | some directive =>
      match directive.scope with
      | .file => .directive s.index directive
      | .line => .comments s.last
  | none => .comments s.last

/-- A shebang or a comment to the end of the line opens no block comment. -/
theorem opensBehind_eq_false {line lead : Text} (leads : Text.startsWith (Text.trim line) lead)
    (two : lead.length = 2) (other : lead ≠ "/*") : opensBehind false line = false := by
  have unopened : Text.startsWith (Text.trim line) "/*" = false := by
    rw [← Bool.not_eq_true]
    intro opened
    exact other (Text.eq_of_startsWith leads opened two)
  rw [opensBehind, unopened]
  rfl

theorem header_cons (s : Scan) (line : Text) (rest : List Text) :
    s.header (line :: rest) =
      match s.pass? line with
      | some t => t.header rest
      | none => s.verdict line := by
  obtain ⟨index, inComment, last⟩ := s
  rw [header, scanHeader, pass?]
  cases inComment with
  | true => rfl
  | false =>
      simp only [Bool.false_eq_true, if_false]
      cases parsed : Directive.parse? line with
      | some directive =>
          cases scope_eq : directive.scope <;>
            simp only [Option.isSome_some, if_true, verdict, parsed, scope_eq]
      | none =>
          simp only [Option.isSome_none, Bool.false_eq_true, if_false, verdict, parsed]
          by_cases marked : (index = 0 ∧ Text.startsWith (Text.trim line) "#!") ∨
              Text.startsWith (Text.trim line) "//"
          · have unopened : opensBehind false line = false := by
              rcases marked with ⟨-, shebang⟩ | comment
              · exact opensBehind_eq_false shebang rfl (by decide)
              · exact opensBehind_eq_false comment rfl (by decide)
            rw [if_pos marked, if_pos (Or.inl marked), unopened]
            rfl
          · by_cases opened : Text.startsWith (Text.trim line) "/*"
            · rw [if_neg marked, if_pos opened, if_pos (Or.inr opened), opensBehind, opened]
              rfl
            · rw [if_neg marked, if_neg opened, if_neg (not_or.mpr ⟨marked, opened⟩)]
              by_cases empty : Text.trim line = []
              · rw [if_pos empty, if_pos empty]
                rfl
              · rw [if_neg empty, if_neg empty]

/-- All that passing a line can do: the line is part of a comment, or it is blank and outside of
comments. -/
theorem pass?_cases {s t : Scan} {line : Text} (passed : s.pass? line = some t) :
    t = ⟨s.index + 1, opensBehind s.inComment line, some s.index⟩ ∨
      (t = ⟨s.index + 1, opensBehind s.inComment line, s.last⟩ ∧ s.inComment = false) := by
  obtain ⟨index, inComment, last⟩ := s
  rw [pass?] at passed
  cases inComment with
  | true => exact .inl (Option.some.inj passed).symm
  | false =>
      simp only [Bool.false_eq_true, if_false] at passed
      split at passed
      · contradiction
      · split at passed
        · exact .inl (Option.some.inj passed).symm
        · split at passed
          · rename_i empty
            obtain rfl := Option.some.inj passed
            refine .inr ⟨?_, rfl⟩
            rw [opensBehind, empty]
            rfl
          · contradiction

/-- The scan never ends inside a comment. -/
theorem outside_of_pass?_eq_none {s : Scan} {line : Text} (stopped : s.pass? line = none) :
    s.inComment = false := by
  rw [pass?] at stopped
  split at stopped
  · contradiction
  · rename_i outside
    exact Bool.not_eq_true _ ▸ outside

theorem verdict_eq_directive {s : Scan} {text : Text} {line : Nat} {directive : Directive}
    (found : s.verdict text = .directive line directive) :
    s.index = line ∧ Directive.parse? text = some directive ∧ directive.scope = .file := by
  rw [verdict] at found
  split at found
  · rename_i parsed
    split at found
    · rename_i scope_eq
      obtain ⟨rfl, rfl⟩ := Header.directive.inj found
      exact ⟨rfl, parsed, scope_eq⟩
    · contradiction
  · contradiction

theorem verdict_eq_comments {s : Scan} {text : Text} {last : Option Nat}
    (found : s.verdict text = .comments last) : s.last = last := by
  rw [verdict] at found
  split at found
  · split at found
    · contradiction
    · exact Header.comments.inj found
  · exact Header.comments.inj found

theorem pass?_append_blank (s : Scan) {c : Char} (blank : Text.isBlank c) (line : Text) :
    s.pass? (line ++ [c]) = s.pass? line := by
  simp only [pass?, opensBehind, Text.trim_append_blank blank,
    Directive.parse?_append_blank blank]

theorem foldlM_pass?_cons {s t : Scan} {line : Text} {front : List Text} :
    (line :: front).foldlM pass? s = some t ↔
      ∃ next, s.pass? line = some next ∧ front.foldlM pass? next = some t := by
  rw [List.foldlM_cons]
  exact Option.bind_eq_some_iff

/-- A scan that passes lines goes on behind them. -/
theorem header_append {s t : Scan} {front : List Text} (passed : front.foldlM pass? s = some t)
    (rest : List Text) : s.header (front ++ rest) = t.header rest := by
  induction front generalizing s with
  | nil =>
      obtain rfl := Option.some.inj passed
      rfl
  | cons line front ih =>
      obtain ⟨next, line_passed, later_passed⟩ := foldlM_pass?_cons.mp passed
      rw [List.cons_append, header_cons, line_passed]
      exact ih later_passed

/-- Behind passed lines the scan knows their number and whether a block comment is open. -/
theorem eq_of_foldlM_pass? {s t : Scan} {front : List Text}
    (passed : front.foldlM pass? s = some t) :
    t.index = s.index + front.length ∧ t.inComment = front.foldl opensBehind s.inComment := by
  induction front generalizing s with
  | nil =>
      obtain rfl := Option.some.inj passed
      exact ⟨rfl, rfl⟩
  | cons line front ih =>
      obtain ⟨next, line_passed, later_passed⟩ := foldlM_pass?_cons.mp passed
      obtain ⟨index_eq, inComment_eq⟩ := ih later_passed
      have step : next.index = s.index + 1 ∧ next.inComment = opensBehind s.inComment line := by
        rcases pass?_cases line_passed with rfl | ⟨rfl, -⟩ <;> exact ⟨rfl, rfl⟩
      rw [List.length_cons, List.foldl_cons, index_eq, inComment_eq, step.1, step.2]
      exact ⟨by omega, rfl⟩

/-- A line that holds a file directive outside of comments is what the scan finds there. -/
theorem header_cons_directive {s : Scan} {line : Text} {directive : Directive} (rest : List Text)
    (outside : s.inComment = false) (parsed : Directive.parse? line = some directive)
    (scope_eq : directive.scope = .file) :
    s.header (line :: rest) = .directive s.index directive := by
  have stopped : s.pass? line = none := by simp [pass?, outside, parsed]
  rw [header_cons, stopped]
  simp [verdict, parsed, scope_eq]

/-- A file directive that the scan finds is on a line behind passed lines. -/
theorem exists_front_of_directive {s : Scan} {lines : List Text} {line : Nat}
    {directive : Directive} (found : s.header lines = .directive line directive) :
    ∃ front text back last, lines = front ++ text :: back ∧
      front.foldlM pass? s = some ⟨line, false, last⟩ ∧
      Directive.parse? text = some directive ∧ directive.scope = .file := by
  induction lines generalizing s with
  | nil => contradiction
  | cons text rest ih =>
      rw [header_cons] at found
      cases passed : s.pass? text with
      | some t =>
          rw [passed] at found
          obtain ⟨front, text', back, last, rfl, later_passed, directive_found⟩ := ih found
          exact ⟨text :: front, text', back, last, rfl,
            foldlM_pass?_cons.mpr ⟨t, passed, later_passed⟩, directive_found⟩
      | none =>
          rw [passed] at found
          obtain ⟨rfl, parsed, scope_eq⟩ := verdict_eq_directive found
          have outside := outside_of_pass?_eq_none passed
          exact ⟨[], text, rest, s.last, rfl, by rw [← outside]; rfl, parsed, scope_eq⟩

/-- The last line of comment that the scan finds is behind passed lines.  A block comment that is
open behind it is open to the end of the lines. -/
theorem exists_front_of_comments {s : Scan} {lines : List Text} {line : Nat}
    (found : s.header lines = .comments (some line)) :
    (s.last = some line ∧ (s.inComment → lines = [])) ∨
      ∃ front back inComment, lines = front ++ back ∧
        front.foldlM pass? s = some ⟨line + 1, inComment, some line⟩ ∧
        (inComment → back = []) := by
  induction lines generalizing s with
  | nil => exact .inl ⟨Header.comments.inj found, fun _ => rfl⟩
  | cons text rest ih =>
      rw [header_cons] at found
      cases passed : s.pass? text with
      | none =>
          rw [passed] at found
          have outside := outside_of_pass?_eq_none passed
          exact .inl ⟨verdict_eq_comments found, fun inside => by simp [outside] at inside⟩
      | some t =>
          rw [passed] at found
          rcases ih found with ⟨last_eq, exhausted⟩ | ⟨front, back, inComment, rfl, later, ended⟩
          · rcases pass?_cases passed with rfl | ⟨rfl, outside⟩
            · -- The scan starts to know its last line of comment here.
              obtain rfl := Option.some.inj last_eq
              exact .inr ⟨[text], rest, _, rfl, foldlM_pass?_cons.mpr ⟨_, passed, rfl⟩, exhausted⟩
            · exact .inl ⟨last_eq, fun inside => by simp [outside] at inside⟩
          · exact .inr ⟨text :: front, back, inComment, rfl,
              foldlM_pass?_cons.mpr ⟨t, passed, later⟩, ended⟩

/-- Inside a comment even a directive is passed. -/
theorem header_singleton_of_inComment {s : Scan} (inside : s.inComment) (text : Text) :
    s.header [text] = .comments (some s.index) := by
  rw [header_cons, pass?, if_pos inside]
  rfl

end Scan

section Document

open Scan (pass? start)

variable {d : Document} {line : Nat} {directive : Directive}

theorem header_eq (d : Document) : header d = start.header (d.texts.take headerLines) := by
  rw [header, Document.texts, List.map_take]
  rfl

theorem length_of_passed {front : List Text} {t : Scan}
    (passed : front.foldlM pass? start = some t) : front.length = t.index := by
  simpa [start] using (Scan.eq_of_foldlM_pass? passed).1.symm

/-- Passed lines in the window of the header are the first lines of the document. -/
theorem take_eq_of_passed {front back : List Text} {t : Scan}
    (window : d.texts.take headerLines = front ++ back)
    (passed : front.foldlM pass? start = some t) :
    front.length = t.index ∧ t.index + back.length ≤ headerLines ∧
      front = d.texts.take t.index ∧ t.inComment = commentOpen (d.texts.take t.index) := by
  have size := length_of_passed passed
  have fits : t.index + back.length ≤ headerLines := by
    have bound := List.length_take_le headerLines d.texts
    rwa [window, List.length_append, size] at bound
  have front_eq : front = d.texts.take t.index := by
    calc
      front = (front ++ back).take t.index := by rw [← size, List.take_left]
      _ = d.texts.take t.index := by
        rw [← window, List.take_take, Nat.min_eq_left (Nat.le_of_add_right_le fits)]
  exact ⟨size, fits, front_eq, front_eq ▸ (Scan.eq_of_foldlM_pass? passed).2⟩

/-- A file directive of the header is on a line of the window, outside of block comments. -/
theorem passed_of_header_directive (found : header d = .directive line directive) :
    ∃ last, (d.texts.take line).foldlM pass? start = some ⟨line, false, last⟩ ∧
      line < headerLines ∧ d.directive? line = some directive ∧ directive.scope = .file := by
  rw [header_eq] at found
  obtain ⟨front, text, back, last, window, passed, parsed, scope_eq⟩ :=
    Scan.exists_front_of_directive found
  obtain ⟨size, fits, rfl, -⟩ := take_eq_of_passed window passed
  have inside : line < headerLines := by
    simp only [List.length_cons] at fits
    omega
  have text_found : d.line? line = some text := by
    calc
      d.line? line = (d.texts.take headerLines)[line]? := by
        rw [List.getElem?_take_of_lt inside, d.getElem?_texts]
      _ = some text := by
        rw [window, List.getElem?_append_right (Nat.le_of_eq size), size, Nat.sub_self]
        rfl
  refine ⟨last, passed, inside, ?_, scope_eq⟩
  rw [Document.directive?, text_found]
  exact parsed

/-- Behind the last line of comment of the header a block comment is open only where the window or
the document ends. -/
theorem passed_of_header_comments (found : header d = .comments (some line)) :
    (d.texts.take (line + 1)).foldlM pass? start =
        some ⟨line + 1, commentOpen (d.texts.take (line + 1)), some line⟩ ∧
      line + 1 ≤ headerLines ∧
      (commentOpen (d.texts.take (line + 1)) →
        line + 1 = headerLines ∨ d.lineCount ≤ line + 1) := by
  rw [header_eq] at found
  rcases Scan.exists_front_of_comments found with
    ⟨last_eq, -⟩ | ⟨front, back, inComment, window, passed, exhausted⟩
  · contradiction
  · obtain ⟨size, fits, rfl, inComment_eq⟩ := take_eq_of_passed window passed
    obtain rfl : inComment = commentOpen (d.texts.take (line + 1)) := inComment_eq
    refine ⟨passed, Nat.le_of_add_right_le fits, fun opened => ?_⟩
    have lengths : min headerLines d.lineCount = min (line + 1) d.lineCount := by
      simpa [exhausted opened, d.length_texts] using congrArg List.length window
    have window_bound : line + 1 ≤ headerLines := Nat.le_of_add_right_le fits
    omega

/-- A file directive behind passed lines of the window, outside of comments, is what the header
holds. -/
theorem header_of_texts {front back : List Text} {text : Text} {t : Scan}
    (texts_eq : d.texts = front ++ text :: back) (passed : front.foldlM pass? start = some t)
    (fits : t.index < headerLines) (outside : t.inComment = false)
    (parsed : Directive.parse? text = some directive) (scope_eq : directive.scope = .file) :
    header d = .directive t.index directive := by
  have size := length_of_passed passed
  obtain ⟨room, room_eq⟩ := Nat.exists_eq_add_one_of_ne_zero (Nat.sub_ne_zero_of_lt (size ▸ fits))
  rw [header_eq, texts_eq, List.take_append, List.take_of_length_le (by omega), room_eq,
    List.take_succ_cons, Scan.header_append passed]
  exact Scan.header_cons_directive _ outside parsed scope_eq

/-- A directive behind the window, or at the end of a document inside a comment, is not found. -/
theorem header_of_texts_of_no_room {front back : List Text} {text : Text} {t : Scan}
    (texts_eq : d.texts = front ++ text :: back) (passed : front.foldlM pass? start = some t)
    (fits : t.index ≤ headerLines) (no_room : t.index < headerLines → t.inComment ∧ back = []) :
    ∃ last, header d = .comments last := by
  have size := length_of_passed passed
  rw [header_eq, texts_eq, List.take_append, List.take_of_length_le (by omega),
    Scan.header_append passed]
  rcases Nat.eq_or_lt_of_le fits with full | room
  · rw [size, full, Nat.sub_self]
    exact ⟨t.last, rfl⟩
  · obtain ⟨inside, rfl⟩ := no_room room
    obtain ⟨rest, rest_eq⟩ := Nat.exists_eq_add_one_of_ne_zero (Nat.sub_ne_zero_of_lt (size ▸ room))
    rw [rest_eq, List.take_succ_cons, List.take_nil]
    exact ⟨_, Scan.header_singleton_of_inComment inside text⟩

end Document

end Suppression

end LintRepair
