import LintRepair.Proofs.Repair.SparseArray
import LintRepair.Proofs.Text.Comment

/-!
# Comments in arrays

Taking the blanks around the slots of an array away may take the newline that ends a line comment,
and the comment then goes on over what follows.  Apart from blanks and commas the same characters
stand in comments before and after the repair exactly if no such newline is taken.  If moreover no
quote and no bracket stands in a comment, the array without its comments keeps its elements.
-/

namespace LintRepair

namespace Expression

open Text Reading

/-- The characters of a text other than blanks and commas, each with whether it stands in a
comment. -/
def marks (state : Reading) : Text → List (Char × Bool)
  | [] => []
  | c :: s =>
      if isBlank c ∨ c = ',' then marks (state.step c) s
      else (c, state.inComment) :: marks (state.step c) s

/-- The newline that ends a line comment stands in a piece, with only blanks between it and an end
of the piece. -/
def LosesEndIn (state : Reading) (piece : Text) : Prop :=
  ∃ front back, piece = front ++ '\n' :: back ∧ state.run front = .lineComment ∧
    ((∀ c ∈ front, isBlank c) ∨ ∀ c ∈ back, isBlank c)

/-- One of some pieces, each with a comma behind it, loses the end of a line comment. -/
def LosesEnd (state : Reading) (pieces : List Text) : Prop :=
  ∃ before piece behind, pieces = before ++ piece :: behind ∧
    LosesEndIn (state.run (before.flatMap (· ++ [',']))) piece

/-- A slot of an array, given by its inner text, loses the end of a line comment when the blanks
around it are taken away. -/
def LosesCommentEnd (inner : Text) : Prop := LosesEnd Reading.start (splitTopLevel ',' inner)

section Gaps

variable {state : Reading} {a b s gap : Text} {c : Char}

theorem IsGap.isInert (isGap : IsGap gap) : ∀ c ∈ gap, IsInert c := by
  intro c member
  rcases isGap c member with blank | rfl
  · exact isInert_of_isBlank blank
  · decide

theorem isGap_of_isBlank (blank : ∀ c ∈ gap, isBlank c) : IsGap gap :=
  fun c member => .inl (blank c member)

theorem isGap_append_comma_cons {other : Text} (isGap : IsGap gap) (other_gap : IsGap other) :
    IsGap (gap ++ ',' :: other) := by
  rw [IsGap, List.forall_mem_append, List.forall_mem_cons]
  exact ⟨isGap, .inr rfl, other_gap⟩

theorem IsGap.append_comma (isGap : IsGap gap) : IsGap (gap ++ [',']) :=
  isGap_append_comma_cons isGap (List.forall_mem_nil _)

theorem marks_append : marks state (a ++ b) = marks state a ++ marks (state.run a) b := by
  induction a generalizing state with
  | nil => rfl
  | cons c a ih =>
      rw [List.cons_append, marks, marks, ih, run_cons]
      split <;> rfl

theorem marks_of_isGap (isGap : IsGap gap) : marks state gap = [] := by
  induction gap generalizing state with
  | nil => rfl
  | cons c gap ih =>
      obtain ⟨first, later⟩ := List.forall_mem_cons.mp isGap
      rw [marks, if_pos first, ih later]

theorem marks_gap_append (isGap : IsGap gap) :
    marks state (gap ++ s) = marks (state.run gap) s := by
  rw [marks_append, marks_of_isGap isGap, List.nil_append]

theorem marks_visible (visible : isBlank c = false) (no_comma : c ≠ ',') :
    marks state (c :: s) = (c, state.inComment) :: marks (state.step c) s := by
  rw [marks, if_neg (by simp [visible, no_comma])]

theorem marks_closing : marks state [']'] = [(']', state.inComment)] :=
  marks_visible (by decide) (by decide)

/-- The first character of an element is neither a blank nor a comma. -/
theorem exists_visible_cons {element : Text} (nonempty : element ≠ [])
    (trimmed : trim element = element) (whole : splitTopLevel ',' element = [element]) :
    ∃ c rest, element = c :: rest ∧ isBlank c = false ∧ c ≠ ',' := by
  obtain ⟨c, rest, rfl⟩ := List.exists_cons_of_ne_nil nonempty
  refine ⟨c, rest, rfl, visible_of_trim_cons trimmed, ?_⟩
  rintro rfl
  have cut : splitTopLevel ',' ([] ++ ',' :: rest) = [[]] ++ splitTopLevel ',' rest :=
    splitTopLevel_append_cons (by decide) rfl
  rw [List.nil_append, whole] at cut
  exact absurd (List.cons.inj cut).1 (List.cons_ne_nil _ _)

end Gaps

section Ends

variable {state : Reading} {piece : Text} {rest : List Text}

theorem losesEnd_nil : ¬ LosesEnd state [] := by
  rintro ⟨before, piece, behind, parts, -⟩
  simp at parts

theorem losesEnd_cons_iff : LosesEnd state (piece :: rest) ↔
    LosesEndIn state piece ∨ LosesEnd (state.run (piece ++ [','])) rest := by
  constructor
  · rintro ⟨before, other, behind, parts, loses⟩
    rcases List.cons_eq_append_iff.mp parts with ⟨rfl, same⟩ | ⟨before, rfl, same⟩
    · obtain ⟨rfl, rfl⟩ := List.cons.inj same
      exact .inl loses
    · rw [List.flatMap_cons, run_append] at loses
      exact .inr ⟨before, other, behind, same, loses⟩
  · rintro (loses | ⟨before, other, behind, rfl, loses⟩)
    · exact ⟨[], piece, rest, rfl, loses⟩
    · refine ⟨piece :: before, other, behind, rfl, ?_⟩
      rw [List.flatMap_cons, run_append]
      exact loses

/-- Blanks hold the end of a line comment if they start in one and a newline is among them. -/
theorem losesEndIn_of_isBlank (blank : ∀ c ∈ piece, isBlank c) :
    LosesEndIn state piece ↔ state = .lineComment ∧ '\n' ∈ piece := by
  have inert := (isGap_of_isBlank blank).isInert
  constructor
  · rintro ⟨front, back, rfl, commented, -⟩
    rw [List.forall_mem_append] at inert
    exact ⟨((run_eq_lineComment_iff inert.1).mp commented).1, by simp⟩
  · rintro ⟨rfl, newline⟩
    obtain ⟨front, back, rfl, absent⟩ := List.eq_append_cons_of_mem newline
    rw [List.forall_mem_append] at inert blank
    exact ⟨front, back, rfl, (run_eq_lineComment_iff inert.1).mpr ⟨rfl, absent⟩, .inl blank.1⟩

/-- The blanks around an element hold the end of a line comment if one stands open before them and a
newline is among them. -/
theorem losesEndIn_iff {lead element trail : Text} (lead_blank : ∀ c ∈ lead, isBlank c)
    (trail_blank : ∀ c ∈ trail, isBlank c) (nonempty : element ≠ [])
    (trimmed : trim element = element) :
    LosesEndIn state (lead ++ (element ++ trail)) ↔
      (state = .lineComment ∧ '\n' ∈ lead) ∨
        (state.run (lead ++ element) = .lineComment ∧ '\n' ∈ trail) := by
  rw [← losesEndIn_of_isBlank lead_blank, ← losesEndIn_of_isBlank trail_blank]
  constructor
  · rintro ⟨front, back, parts, commented, front_blank | back_blank⟩
    · -- The blanks up to the newline end before the first character of the element.
      obtain ⟨c, rest, rfl⟩ := List.exists_cons_of_ne_nil nonempty
      have lead_parts : lead ++ c :: (rest ++ trail) = (front ++ ['\n']) ++ back := by
        simpa using parts
      have newline_blank : ∀ d ∈ front ++ ['\n'], isBlank d :=
        List.forall_mem_append.mpr ⟨front_blank, List.forall_mem_singleton.mpr (by decide)⟩
      obtain ⟨more, rfl, -⟩ := exists_of_eq_blanks_append newline_blank
        (visible_of_trim_cons trimmed) lead_parts
      exact .inl ⟨front, more, by simp, commented, .inl front_blank⟩
    · -- The blanks from the newline on start behind the last character of the element.
      obtain ⟨rest, c, rfl⟩ := (List.eq_nil_or_concat element).resolve_left nonempty
      rw [List.concat_eq_append] at *
      have trail_parts : (lead ++ rest) ++ c :: trail = front ++ '\n' :: back := by
        simpa using parts
      have newline_blank : ∀ d ∈ '\n' :: back, isBlank d :=
        List.forall_mem_cons.mpr ⟨by decide, back_blank⟩
      obtain ⟨more, rfl, rfl⟩ := exists_of_eq_append_blanks newline_blank
        (visible_of_trim_concat trimmed) trail_parts
      refine .inr ⟨more, back, rfl, ?_, .inr back_blank⟩
      rw [← run_append]
      simpa using commented
  · rintro (⟨front, back, rfl, commented, -⟩ | ⟨front, back, rfl, commented, -⟩)
    · rw [List.forall_mem_append] at lead_blank
      exact ⟨front, back ++ (element ++ trail), by simp, commented, .inl lead_blank.1⟩
    · rw [List.forall_mem_append, List.forall_mem_cons] at trail_blank
      refine ⟨lead ++ (element ++ front), back, by simp, ?_, .inr trail_blank.2.2⟩
      rwa [← List.append_assoc, run_append]

/-- Neither the blanks of some pieces nor a gap before them, with a comma in front of each piece,
hold the end of a line comment. -/
def KeepsEnds (state : Reading) (gap : Text) (pieces : List Text) : Prop :=
  (state = .lineComment → '\n' ∉ gap) ∧ ¬ LosesEnd (state.run (gap ++ [','])) pieces

theorem keepsEnds_cons_of_isBlank {gap : Text} (isGap : IsGap gap)
    (blank : ∀ c ∈ piece, isBlank c) :
    KeepsEnds state gap (piece :: rest) ↔ KeepsEnds state (gap ++ ',' :: piece) rest := by
  have ran : (state.run (gap ++ [','])).run (piece ++ [',']) =
      state.run ((gap ++ ',' :: piece) ++ [',']) := by
    rw [← run_append]
    simp
  rw [KeepsEnds, KeepsEnds, losesEnd_cons_iff, losesEndIn_of_isBlank blank,
    run_eq_lineComment_iff isGap.append_comma.isInert, ran]
  simp only [List.mem_append, List.mem_cons, List.not_mem_nil]
  tauto

theorem keepsEnds_cons_iff {gap lead element trail : Text} (isGap : IsGap gap)
    (lead_blank : ∀ c ∈ lead, isBlank c) (trail_blank : ∀ c ∈ trail, isBlank c)
    (nonempty : element ≠ []) (trimmed : trim element = element) :
    KeepsEnds state gap ((lead ++ (element ++ trail)) :: rest) ↔
      (state = .lineComment → '\n' ∉ gap ++ ',' :: lead) ∧
        KeepsEnds ((state.run (gap ++ ',' :: lead)).run element) trail rest := by
  have element_run : (state.run (gap ++ [','])).run (lead ++ element) =
      (state.run (gap ++ ',' :: lead)).run element := by
    rw [← run_append, ← run_append]
    simp
  have piece_run : (state.run (gap ++ [','])).run (lead ++ (element ++ trail) ++ [',']) =
      ((state.run (gap ++ ',' :: lead)).run element).run (trail ++ [',']) := by
    simp only [← run_append]
    simp
  rw [KeepsEnds, KeepsEnds, losesEnd_cons_iff,
    losesEndIn_iff lead_blank trail_blank nonempty trimmed,
    run_eq_lineComment_iff isGap.append_comma.isInert, element_run, piece_run]
  simp only [List.mem_append, List.mem_cons, List.not_mem_nil]
  tauto

end Ends

section Rejoined

variable {state : Reading} {gap : Text} {pieces : List Text}

/-- The pieces that are not blank, trimmed. -/
def filled (pieces : List Text) : List Text := (pieces.map trim).filter (· ≠ [])

theorem filled_cons_of_isBlank {piece : Text} (blank : ∀ c ∈ piece, isBlank c) :
    filled (piece :: pieces) = filled pieces := by
  simp [filled, trim_eq_nil_iff.mpr blank]

/-- A piece that is not blank holds an element with blanks around it. -/
theorem exists_element {piece : Text} (visible : ¬ ∀ c ∈ piece, isBlank c) :
    ∃ lead element trail, piece = lead ++ (element ++ trail) ∧ (∀ c ∈ lead, isBlank c) ∧
      (∀ c ∈ trail, isBlank c) ∧ element ≠ [] ∧ trim element = element ∧ trim piece = element := by
  obtain ⟨lead, trail, parts, lead_blank, trail_blank⟩ := exists_eq_append_trim piece
  exact ⟨lead, trim piece, trail, parts, lead_blank, trail_blank, mt trim_eq_nil_iff.mp visible,
    trim_trim piece, rfl⟩

theorem filled_cons {piece element : Text} (trimmed : trim piece = element)
    (nonempty : element ≠ []) : filled (piece :: pieces) = element :: filled pieces := by
  simp [filled, trimmed, nonempty]

/-- A gap in front of a visible character can be written shorter unless it ends a line comment. -/
theorem marks_gap_eq_iff {element a b : Text}
    (starts : ∃ c rest, element = c :: rest ∧ isBlank c = false ∧ c ≠ ',') (isGap : IsGap gap)
    (nonempty : gap ≠ []) :
    marks state (gap ++ (element ++ a)) = marks state ([',', ' '] ++ (element ++ b)) ↔
      (state = .lineComment → '\n' ∉ gap) ∧
        marks ((state.run gap).run element) a = marks ((state.run gap).run element) b := by
  have space_gap : IsGap [',', ' '] := by decide
  have space_run : state.run [',', ' '] = state.settled :=
    run_of_isInert (by decide) space_gap.isInert fun _ => by decide
  rw [marks_gap_append isGap, marks_gap_append space_gap, space_run]
  by_cases stays : state = .lineComment → '\n' ∉ gap
  · rw [run_of_isInert nonempty isGap.isInert stays, marks_append, marks_append,
      List.append_cancel_left_eq]
    exact (and_iff_right stays).symm
  · obtain ⟨rfl, newline⟩ := Classical.not_imp.mp stays
    obtain ⟨c, rest, rfl, visible, no_comma⟩ := starts
    rw [run_lineComment_of_newline isGap.isInert (not_not.mp newline), List.cons_append,
      List.cons_append, marks_visible visible no_comma, marks_visible visible no_comma]
    refine iff_of_false (fun same => ?_) fun kept => stays kept.1
    simp [start, inComment, settled] at same

/-- Writing the pieces that are not blank with a comma and a space between them leaves the same
characters in comments exactly if no end of a line comment is lost. -/
theorem marks_rejoined_iff (state : Reading) (isGap : IsGap gap)
    (whole : ∀ piece ∈ pieces, splitTopLevel ',' piece = [piece]) :
    marks state (gap ++ (pieces.flatMap ([','] ++ ·) ++ [']'])) =
      marks state ((filled pieces).flatMap ([',', ' '] ++ ·) ++ [']']) ↔
    KeepsEnds state gap pieces := by
  induction pieces generalizing state gap with
  | nil =>
      rw [List.flatMap_nil, List.nil_append, marks_gap_append isGap, KeepsEnds,
        and_iff_left losesEnd_nil, ← inComment_run_iff isGap.isInert, marks_closing]
      simp [filled, marks_closing]
  | cons piece pieces ih =>
      rw [List.forall_mem_cons] at whole
      by_cases blank : ∀ c ∈ piece, isBlank c
      · have further := isGap_append_comma_cons isGap (isGap_of_isBlank blank)
        rw [keepsEnds_cons_of_isBlank isGap blank, filled_cons_of_isBlank blank,
          ← ih state further whole.2]
        simp
      · obtain ⟨lead, element, trail, rfl, lead_blank, trail_blank, nonempty, trimmed,
          element_eq⟩ := exists_element blank
        have element_whole := splitTopLevel_trim_of_whole (by decide) whole.1
        rw [element_eq] at element_whole
        have starts := exists_visible_cons nonempty trimmed element_whole
        have further := isGap_append_comma_cons isGap (isGap_of_isBlank lead_blank)
        rw [filled_cons element_eq nonempty,
          keepsEnds_cons_iff isGap lead_blank trail_blank nonempty trimmed,
          ← ih _ (isGap_of_isBlank trail_blank) whole.2,
          ← marks_gap_eq_iff starts further (List.append_ne_nil_of_right_ne_nil _ (by simp))]
        simp

theorem isBalanced_append_pending {a : Text} (balanced : isBalanced a) (state : Reading) :
    isBalanced (a ++ state.pending) := by
  refine isBalanced_append balanced (isBalanced_of_isPlain ?_)
  cases state with
  | code slash =>
      cases slash with
      | false => exact List.forall_mem_nil _
      | true => exact List.forall_mem_singleton.mpr (by decide)
  | _ => exact List.forall_mem_nil _

theorem agrees_settled (agrees : Agrees state Nesting.flat) :
    Agrees state.settled Nesting.flat := by
  cases state with
  | literal quote delimits escaped => exact absurd agrees.1 nofun
  | _ => exact agrees

/-- The code of an element opens and closes what the element does. -/
theorem isBalanced_shown {element : Text} (agrees : Agrees state Nesting.flat)
    (plain : CommentsPlain state element) (balanced : isBalanced element) :
    isBalanced (state.shown element) ∧ Agrees (state.run element) Nesting.flat := by
  rw [isBalanced_iff] at *
  obtain ⟨same, later⟩ := agrees.run_shown Nesting.isSane_flat plain
  exact ⟨same.trans balanced, later _ balanced⟩

/-- Behind a gap, or a comma and a space in its place, code goes on if the gap stands in a comment;
otherwise its elements are apart from those before. -/
theorem elements_codeOf_gap {a s t : Text} (isGap : IsGap gap) (parts : ',' ∈ gap)
    (stays : state = .lineComment → '\n' ∉ gap) (balanced : isBalanced a)
    (later : ∀ front, isBalanced front →
      elements (front ++ state.settled.codeOf s) = elements (front ++ state.settled.codeOf t)) :
    elements (a ++ state.codeOf (gap ++ s)) = elements (a ++ state.codeOf ([',', ' '] ++ t)) := by
  have space_gap : IsGap [',', ' '] := by decide
  have waited := isBalanced_append_pending balanced state
  rw [codeOf_inert_append state (List.ne_nil_of_mem parts) isGap.isInert stays,
    codeOf_inert_append state (List.cons_ne_nil _ _) space_gap.isInert fun _ => by decide,
    ← List.append_assoc, ← List.append_assoc a]
  by_cases commented : state.inComment
  · rw [if_pos commented, if_pos commented, List.nil_append, List.nil_append]
    exact later _ waited
  · rw [if_neg commented, if_neg commented, elements_append_gap_append waited isGap parts,
      elements_append_gap_append waited space_gap (by decide)]
    exact congrArg _ (later [] rfl)

/-- A gap at the end adds no element. -/
theorem elements_codeOf_of_isGap {a : Text} (isGap : IsGap gap)
    (stays : state = .lineComment → '\n' ∉ gap)
    (ends : isBalanced a ∨ ∀ c ∈ gap, isBlank c) :
    elements (a ++ state.codeOf gap) = elements (a ++ state.pending) := by
  by_cases empty : gap = []
  · rw [empty, codeOf_nil]
  · have shown := codeOf_inert_append state empty isGap.isInert stays []
    rw [List.append_nil, codeOf_nil, pending_settled, List.append_nil] at shown
    rw [shown, ← List.append_assoc]
    by_cases commented : state.inComment
    · rw [if_pos commented, List.append_nil]
    · rw [if_neg commented]
      rcases ends with balanced | blank
      · exact elements_append_gap (isBalanced_append_pending balanced state) isGap
      · exact elements_append_blanks blank _

/-- Writing the pieces that are not blank with a comma and a space between them keeps the elements
of the code, if no end of a line comment is lost and no quote and no bracket stands in a comment. -/
theorem elements_codeOf_rejoined {a : Text} (isGap : IsGap gap)
    (whole : ∀ piece ∈ pieces, splitTopLevel ',' piece = [piece])
    (closed : ∀ piece ∈ pieces.dropLast, isBalanced piece)
    (before : (isBalanced a ∧ Agrees state Nesting.flat) ∨ (pieces = [] ∧ ∀ c ∈ gap, isBlank c))
    (plain : CommentsPlain state (gap ++ pieces.flatMap ([','] ++ ·)))
    (keeps : KeepsEnds state gap pieces) :
    elements (a ++ state.codeOf (gap ++ pieces.flatMap ([','] ++ ·))) =
      elements (a ++ state.codeOf ((filled pieces).flatMap ([',', ' '] ++ ·))) := by
  -- The code `a` goes back to the last comma that is code; it is closed as long as a piece follows.
  induction pieces generalizing state gap a with
  | nil =>
      have nothing_filled : filled [] = [] := rfl
      rw [nothing_filled, List.flatMap_nil, List.flatMap_nil, List.append_nil, codeOf_nil]
      exact elements_codeOf_of_isGap isGap keeps.1 (before.imp And.left And.right)
  | cons piece pieces ih =>
      have ⟨balanced, agrees⟩ := before.resolve_right fun ends => List.cons_ne_nil _ _ ends.1
      rw [List.forall_mem_cons] at whole
      have closed_later : ∀ other ∈ pieces.dropLast, isBalanced other := by
        intro other member
        cases pieces with
        | nil => contradiction
        | cons next pieces => exact closed other (List.mem_cons_of_mem _ member)
      by_cases blank : ∀ c ∈ piece, isBlank c
      · have further := isGap_append_comma_cons isGap (isGap_of_isBlank blank)
        rw [keepsEnds_cons_of_isBlank isGap blank] at keeps
        have parts : gap ++ (piece :: pieces).flatMap ([','] ++ ·) =
            (gap ++ ',' :: piece) ++ pieces.flatMap ([','] ++ ·) := by simp
        rw [parts] at plain ⊢
        rw [filled_cons_of_isBlank blank]
        exact ih further whole.2 closed_later (.inl ⟨balanced, agrees⟩) plain keeps
      · obtain ⟨lead, element, trail, rfl, lead_blank, trail_blank, nonempty, trimmed,
          element_eq⟩ := exists_element blank
        have element_balanced : pieces ≠ [] → isBalanced element := fun more => by
          obtain ⟨next, later, rfl⟩ := List.exists_cons_of_ne_nil more
          exact element_eq ▸ isBalanced_trim (closed _ List.mem_cons_self)
        rw [filled_cons element_eq nonempty]
        -- The gap before the element leaves the place as it is, and so does the space in its place.
        rw [keepsEnds_cons_iff isGap lead_blank trail_blank nonempty trimmed] at keeps
        obtain ⟨stays, keeps_later⟩ := keeps
        have further := isGap_append_comma_cons isGap (isGap_of_isBlank lead_blank)
        have settles : state.run (gap ++ ',' :: lead) = state.settled :=
          run_of_isInert (by simp) further.isInert stays
        have parts : gap ++ ((lead ++ (element ++ trail)) :: pieces).flatMap ([','] ++ ·) =
            (gap ++ ',' :: lead) ++ (element ++ (trail ++ pieces.flatMap ([','] ++ ·))) := by simp
        rw [parts, commentsPlain_append_iff, settles] at plain
        rw [settles] at keeps_later
        obtain ⟨element_plain, plain_later⟩ := commentsPlain_append_iff.mp plain.2
        have rejoined : (element :: filled pieces).flatMap ([',', ' '] ++ ·) =
            [',', ' '] ++ (element ++ (filled pieces).flatMap ([',', ' '] ++ ·)) := by simp
        rw [parts, rejoined]
        refine elements_codeOf_gap further (by simp) stays balanced fun front front_balanced => ?_
        have code_element (s : Text) : front ++ state.settled.codeOf (element ++ s) =
            (front ++ state.settled.shown element) ++ (state.settled.run element).codeOf s := by
          rw [codeOf_append, List.append_assoc]
        rw [code_element, code_element]
        refine ih (isGap_of_isBlank trail_blank) whole.2 closed_later ?_ plain_later keeps_later
        -- Only the last element may leave something open.
        by_cases more : pieces = []
        · exact .inr ⟨more, trail_blank⟩
        · obtain ⟨shown_balanced, agrees_later⟩ :=
            isBalanced_shown (agrees_settled agrees) element_plain (element_balanced more)
          exact .inl ⟨isBalanced_append front_balanced shown_balanced, agrees_later⟩

end Rejoined

/-- The elements of an array when its comments are taken away. -/
def codeElements? (s : Text) : Option (List Text) :=
  (arrayInner? (withoutComments s)).map elements

section Arrays

variable {inner : Text}

theorem elements_eq_filled (inner : Text) : elements inner = filled (splitTopLevel ',' inner) :=
  elements_eq inner

/-- The pieces of a text with a comma in front of each. -/
theorem flatMap_splitTopLevel (inner : Text) :
    (splitTopLevel ',' inner).flatMap ([','] ++ ·) = [','] ++ inner := by
  have some_pieces : splitTopLevel ',' inner ≠ [] := Nesting.splitFrom_ne_nil
  rw [flatMap_append_eq_joined some_pieces, joined_splitTopLevel]

/-- The elements of an array with a comma and a space in front of each. -/
theorem flatMap_filled (inner : Text) :
    ∃ gap, IsGap gap ∧ (filled (splitTopLevel ',' inner)).flatMap ([',', ' '] ++ ·) =
      gap ++ joined ", " (elements inner) := by
  rw [elements_eq_filled]
  by_cases nothing : filled (splitTopLevel ',' inner) = []
  · rw [nothing]
    exact ⟨[], List.forall_mem_nil _, rfl⟩
  · exact ⟨[',', ' '], by decide, flatMap_append_eq_joined nothing⟩

theorem marks_compact_iff (inner : Text) :
    marks start (joined ", " (elements inner) ++ [']']) = marks start (inner ++ [']']) ↔
      ¬ LosesCommentEnd inner := by
  obtain ⟨gap, isGap, compact_eq⟩ := flatMap_filled inner
  have rejoined := marks_rejoined_iff start (List.forall_mem_nil _)
    fun piece (member : piece ∈ splitTopLevel ',' inner) => whole_of_mem_splitTopLevel member
  have comma_gap : IsGap [','] := by decide
  rw [flatMap_splitTopLevel, compact_eq, List.nil_append, List.append_assoc, List.append_assoc,
    marks_gap_append comma_gap, marks_gap_append isGap, run_code_of_isInert comma_gap.isInert,
    run_code_of_isInert isGap.isInert] at rejoined
  rw [eq_comm, rejoined, KeepsEnds, and_iff_right nofun, LosesCommentEnd]
  rfl

theorem elements_withoutComments_gap_append {gap : Text} (isGap : IsGap gap) (s : Text) :
    elements (withoutComments (gap ++ s)) = elements (withoutComments s) := by
  by_cases empty : gap = []
  · rw [empty, List.nil_append]
  · rw [withoutComments, codeOf_inert_append start empty isGap.isInert nofun]
    exact elements_gap_append isGap _

theorem elements_withoutComments_compact (kept : ¬ LosesCommentEnd inner)
    (plain : CommentsPlain start inner) :
    elements (withoutComments (joined ", " (elements inner))) =
      elements (withoutComments inner) := by
  obtain ⟨gap, isGap, compact_eq⟩ := flatMap_filled inner
  have comma_gap : IsGap [','] := by decide
  have comma_plain :
      CommentsPlain start ([] ++ (splitTopLevel ',' inner).flatMap ([','] ++ ·)) := by
    rw [List.nil_append, flatMap_splitTopLevel]
    exact commentsPlain_cons_iff.mpr ⟨nofun, plain⟩
  have agrees : Agrees start Nesting.flat := rfl
  have rejoined := elements_codeOf_rejoined (a := []) (List.forall_mem_nil _)
    (fun piece (member : piece ∈ splitTopLevel ',' inner) => whole_of_mem_splitTopLevel member)
    (fun _ => isBalanced_of_mem_dropLast) (.inl ⟨rfl, agrees⟩) comma_plain ⟨nofun, kept⟩
  rw [List.nil_append, List.nil_append, List.nil_append, flatMap_splitTopLevel, compact_eq]
    at rejoined
  calc
    elements (withoutComments (joined ", " (elements inner))) =
        elements (withoutComments (gap ++ joined ", " (elements inner))) :=
      (elements_withoutComments_gap_append isGap _).symm
    _ = elements (withoutComments ([','] ++ inner)) := rejoined.symm
    _ = elements (withoutComments inner) := elements_withoutComments_gap_append comma_gap inner

/-- Where the closing bracket of an array is code, it stays when the comments are taken away. -/
theorem codeElements?_bracketed (code : (start.run inner).inComment = false) :
    codeElements? (bracketed inner) = some (elements (withoutComments inner)) := by
  have inert : ∀ c ∈ [']'], IsInert c := List.forall_mem_singleton.mpr (by decide)
  have closing := codeOf_inert_append (start.run inner) (List.cons_ne_nil _ _) inert
    (fun _ => by decide) []
  rw [code, codeOf_nil, pending_settled, List.append_nil] at closing
  have shown : withoutComments (bracketed inner) = bracketed (withoutComments inner) := by
    calc
      withoutComments (bracketed inner) = '[' :: start.codeOf (inner ++ [']']) := rfl
      _ = bracketed (withoutComments inner) := by
        rw [codeOf_append, closing, bracketed, withoutComments, codeOf, List.append_assoc]
        rfl
  rw [codeElements?, shown, arrayInner?_eq_some_iff.mpr (trim_bracketed _), Option.map_some]

/-- Arrays with the same characters in comments both end in a comment or both in code. -/
theorem inComment_of_marks_eq {other : Text}
    (same : marks start (other ++ [']']) = marks start (inner ++ [']'])) :
    (start.run other).inComment = (start.run inner).inComment := by
  rw [marks_append, marks_append, marks_closing, marks_closing] at same
  simpa using (List.append_inj' same rfl).2

end Arrays

end Expression

namespace Repair

open Text Reading Expression

/-- The repair of an array leaves the same characters in comments, blanks and commas apart, exactly
if it takes no newline away that ends a line comment.  Without its comments the new array then has
the elements of the old one, if no quote and no bracket stands in a comment. -/
theorem array_comments_kept_iff {site : Site} {fix : Fix} (offered : sparseArray site = some fix) :
    ∃ text inner compact, site.text? = some text ∧ trim text = bracketed inner ∧
      fix = site.replaceRange "Remove empty slots from the array" (bracketed compact) ∧
      (marks start (bracketed compact) = marks start (bracketed inner) ↔
        ¬ LosesCommentEnd inner) ∧
      (¬ LosesCommentEnd inner → CommentsPlain start inner →
        (start.run inner).inComment = false →
        codeElements? (bracketed compact) = codeElements? (bracketed inner)) := by
  simp only [sparseArray, Option.bind_eq_bind, Option.bind_eq_some_iff] at offered
  obtain ⟨array, ⟨text, text_eq, compacted⟩, same⟩ := offered
  obtain ⟨inner, trimmed, rfl, -⟩ := compacted?_eq_some_iff.mp compacted
  have opening (s : Text) : marks start (bracketed s) = ('[', false) :: marks start (s ++ [']']) :=
    marks_visible (by decide) (by decide)
  refine ⟨text, inner, joined ", " (elements inner), text_eq, trimmed,
    (Option.some.inj same).symm, ?_, fun kept plain code => ?_⟩
  · rw [opening, opening, List.cons_inj_right, marks_compact_iff]
  · have compact_code := inComment_of_marks_eq ((marks_compact_iff inner).mpr kept)
    rw [codeElements?_bracketed code, codeElements?_bracketed (compact_code.trans code),
      elements_withoutComments_compact kept plain]

/-- A line comment inside a slot, and a comma inside a comment with a closing mark. -/
def commentedInner : Text := "\n  1, // one\n  2, , /* three, */ 3\n"

/-- A report about the array with these slots. -/
def commentedSite : Site :=
  .reporting "no-sparse-arrays" (bracketed commentedInner) (.between ⟨0, 0⟩ ⟨3, 1⟩)

theorem array_comments_kept_of_commented :
    sparseArray commentedSite = some (commentedSite.replaceRange
      "Remove empty slots from the array" "[1, // one\n  2, /* three, */ 3]") ∧
    codeElements? "[1, // one\n  2, /* three, */ 3]" =
      codeElements? (bracketed commentedInner) := by
  have offered : sparseArray commentedSite = some (commentedSite.replaceRange
      "Remove empty slots from the array" (bracketed "1, // one\n  2, /* three, */ 3")) := by
    decide +kernel
  have covered : commentedSite.text? = some (bracketed commentedInner) := by decide +kernel
  obtain ⟨text, inner, compact, text_eq, trimmed, same, marked, kept⟩ :=
    array_comments_kept_iff offered
  obtain rfl := Option.some.inj (covered.symm.trans text_eq)
  obtain rfl := bracketed_inj.mp (Site.replaceRange_inj.mp same)
  rw [trim_bracketed] at trimmed
  obtain rfl := bracketed_inj.mp trimmed
  exact ⟨offered, kept (marked.mp (by decide +kernel)) (by decide +kernel) (by decide +kernel)⟩

/-- A report about an array whose last slot ends in a line comment. -/
def endedSite : Site :=
  .reporting "no-sparse-arrays" "const a = [1, , 2 // two\n];\n" (.between ⟨0, 10⟩ ⟨1, 1⟩)

/-- A line comment at the end of a slot goes on over the closing bracket, and what is left is no
array any more. -/
theorem bracket_lost_in_comment :
    endedSite.text? = some ("[1, , 2 // two\n]" : Text) ∧
    codeElements? "[1, , 2 // two\n]" = some [("1" : Text), ("2" : Text)] ∧
    sparseArray endedSite = some (endedSite.replaceRange
      "Remove empty slots from the array" "[1, 2 // two]") ∧
    codeElements? "[1, 2 // two]" = none := by
  decide +kernel

end Repair

end LintRepair
