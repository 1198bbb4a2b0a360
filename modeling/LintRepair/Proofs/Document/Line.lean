import LintRepair.Document.Line
import LintRepair.Proofs.Text.Cut

/-!
# The lines of a text

The lines of a text, each written with its ending, give the text back.  No line holds a newline, and
exactly the lines before the last one end in a newline.
-/

namespace LintRepair

namespace LineEnding

/-- Whether an ending separates its line from a next one. -/
def isBreak : LineEnding → Bool
  | none => false
  | lone => false
  | newline => true
  | returnNewline => true

theorem byteSize_text_pos {ending : LineEnding} (breaks : ending.isBreak) :
    0 < Text.byteSize ending.text := by
  cases ending with
  | none => contradiction
  | lone => contradiction
  | newline => decide
  | returnNewline => decide

theorem getLast?_text {ending : LineEnding} (breaks : ending.isBreak) :
    ending.text.getLast? = some '\n' := by
  cases ending with
  | none => contradiction
  | lone => contradiction
  | newline => rfl
  | returnNewline => rfl

theorem withReturn?_eq_some {before after : LineEnding}
    (extended : before.withReturn? = some after) :
    after.text = '\r' :: before.text ∧ after.isBreak = before.isBreak := by
  cases before with
  | none | newline =>
      obtain rfl := Option.some.inj extended
      exact ⟨rfl, rfl⟩
  | lone | returnNewline => contradiction

theorem exists_text_eq_of_withReturn? {ending : LineEnding}
    (taken : ending.withReturn? = Option.none) :
    ∃ after, ending.text = '\r' :: after := by
  cases ending with
  | none | newline => contradiction
  | lone | returnNewline => exact ⟨_, rfl⟩

end LineEnding

namespace Line

/-- The lines of a text in order: only the last one is not followed by a newline, and none of them
holds one. -/
structure IsLayout (lines : List Line) : Prop where
  /-- There is a last line. -/
  nonempty : lines ≠ []
  /-- Every line before the last has an ending that separates it from the next. -/
  breaks : ∀ line ∈ lines.dropLast, line.ending.isBreak
  /-- The last line has no such ending. -/
  last_open : ∀ line ∈ lines.getLast?, line.ending.isBreak = false
  /-- No line holds a newline. -/
  newline_not_mem : ∀ line ∈ lines, '\n' ∉ line.text

theorem push_source (c : Char) (line : Line) : (line.push c).source = c :: line.source := by
  unfold push
  split
  · rename_i ending head_eq ending_eq
    obtain ⟨text_eq, rfl⟩ := of_decide_eq_true head_eq
    simp [source, text_eq, (LineEnding.withReturn?_eq_some ending_eq).1]
  · simp [source]

theorem push_isBreak (c : Char) (line : Line) :
    (line.push c).ending.isBreak = line.ending.isBreak := by
  unfold push
  split
  · rename_i ending head_eq ending_eq
    exact (LineEnding.withReturn?_eq_some ending_eq).2
  · rfl

theorem newline_not_mem_push {c : Char} {line : Line} (c_ne : c ≠ '\n')
    (absent : '\n' ∉ line.text) : '\n' ∉ (line.push c).text := by
  unfold push
  split
  · simp
  · simp [absent, c_ne.symm]

theorem pushAll_source (c : Char) (lines : List Line) :
    (pushAll c lines).flatMap source = c :: lines.flatMap source := by
  unfold pushAll
  split
  · rename_i c_eq
    simp [source, LineEnding.text, c_eq]
  · cases lines with
    | nil =>
        have pushed := push_source c ⟨[], .none⟩
        simpa [source, LineEnding.text] using pushed
    | cons line rest => simp [push_source]

theorem IsLayout.cons {line : Line} {rest : List Line} (layout : IsLayout rest)
    (breaks : line.ending.isBreak) (absent : '\n' ∉ line.text) : IsLayout (line :: rest) := by
  obtain ⟨next, later, rfl⟩ := List.exists_cons_of_ne_nil layout.nonempty
  refine ⟨List.cons_ne_nil _ _, ?_, ?_, List.forall_mem_cons.mpr ⟨absent, layout.newline_not_mem⟩⟩
  · rw [List.dropLast_cons_cons]
    exact List.forall_mem_cons.mpr ⟨breaks, layout.breaks⟩
  · rw [List.getLast?_cons_cons]
    exact layout.last_open

/-- The first line can be exchanged for another one that ends the same way. -/
theorem IsLayout.exchange {line other : Line} {rest : List Line} (layout : IsLayout (line :: rest))
    (same : other.ending.isBreak = line.ending.isBreak) (absent : '\n' ∉ other.text) :
    IsLayout (other :: rest) := by
  have later_absent := (List.forall_mem_cons.mp layout.newline_not_mem).2
  refine ⟨List.cons_ne_nil _ _, ?_, ?_, List.forall_mem_cons.mpr ⟨absent, later_absent⟩⟩
  · have breaks := layout.breaks
    cases rest with
    | nil => simp
    | cons next later =>
        rw [List.dropLast_cons_cons, List.forall_mem_cons] at breaks ⊢
        rwa [same]
  · have last_open := layout.last_open
    cases rest with
    | nil => simpa [same] using last_open
    | cons next later =>
        rw [List.getLast?_cons_cons] at last_open ⊢
        exact last_open

theorem IsLayout.pushAll {lines : List Line} (layout : IsLayout lines) (c : Char) :
    IsLayout (pushAll c lines) := by
  cases lines with
  | nil => exact (layout.nonempty rfl).elim
  | cons line rest =>
      by_cases c_eq : c = '\n'
      · rw [Line.pushAll, if_pos c_eq]
        exact layout.cons rfl List.not_mem_nil
      · rw [Line.pushAll, if_neg c_eq]
        have absent := newline_not_mem_push c_eq (layout.newline_not_mem line List.mem_cons_self)
        exact layout.exchange (push_isBreak c line) absent

@[simp]
theorem split_nil : split [] = [⟨[], .none⟩] := rfl

@[simp]
theorem split_cons (c : Char) (s : Text) : split (c :: s) = pushAll c (split s) := rfl

/-- Writing the lines of a text with their endings gives the text back. -/
theorem split_source (s : Text) : (split s).flatMap source = s := by
  induction s with
  | nil => rfl
  | cons c s ih => rw [split_cons, pushAll_source, ih]

/-- The lines of every text are laid out as lines of a text. -/
theorem split_isLayout (s : Text) : IsLayout (split s) := by
  induction s with
  | nil =>
      refine ⟨by simp, by simp, ?_, ?_⟩
      · intro last member
        obtain rfl : ⟨[], .none⟩ = last := by simpa using member
        rfl
      · intro line member
        obtain rfl : line = ⟨[], .none⟩ := by simpa using member
        simp
  | cons c s ih => exact ih.pushAll c

end Line

end LintRepair
