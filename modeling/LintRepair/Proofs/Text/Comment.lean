import LintRepair.Proofs.Text.Nesting

/-!
# Comments

Reading a text from left to right tells at each place whether it stands in code, in a string, in a
comment up to the end of the line or in a comment with a closing mark.  Characters that mean nothing
to this reading leave it as it is, a newline behind a line comment apart.  If no quote and no
bracket stands in a comment, brackets and strings are open in the text without its comments exactly
where they are in the text itself.
-/

namespace LintRepair

/-- What a place of a text stands in. -/
inductive Reading where
  /-- In code, `slash` telling whether a slash directly before may start a comment. -/
  | code (slash : Bool)
  /-- In a string, `escaped` telling whether a backslash takes the next character along. -/
  | literal (quote : Char) (delimits : Nesting.isQuote quote) (escaped : Bool)
  /-- In a comment up to the end of the line. -/
  | lineComment
  /-- In a comment up to its closing mark, `star` telling whether a star stands directly before. -/
  | blockComment (star : Bool)
  deriving DecidableEq

namespace Reading

open Text Nesting

/-- What the place behind one more character stands in. -/
def step : Reading → Char → Reading
  | code slash, c =>
      if slash ∧ c = '/' then lineComment
      else if slash ∧ c = '*' then blockComment false
      else if delimits : isQuote c then literal c delimits false
      else code (c = '/')
  | literal quote delimits escaped, c =>
      if escaped then literal quote delimits false
      else if c = '\\' then literal quote delimits true
      else if c = quote then code false
      else literal quote delimits false
  | lineComment, c => if c = '\n' then code false else lineComment
  | blockComment star, c => if star ∧ c = '/' then code false else blockComment (c = '*')

/-- What the place behind a text stands in. -/
def run (state : Reading) (s : Text) : Reading := s.foldl step state

/-- Where a text starts. -/
def start : Reading := code false

/-- Whether a place stands in a comment. -/
def inComment : Reading → Bool
  | lineComment => true
  | blockComment _ => true
  | _ => false

/-- The same place with no character directly before that the next one could go with. -/
def settled : Reading → Reading
  | code _ => code false
  | literal quote delimits _ => literal quote delimits false
  | lineComment => lineComment
  | blockComment _ => blockComment false

/-- What one more character adds to the code: a slash waits for the next character, and of a line
comment its newline stays. -/
def written : Reading → Char → Text
  | code slash, c =>
      if slash ∧ (c = '/' ∨ c = '*') then []
      else (if slash then ['/'] else []) ++ if c = '/' then [] else [c]
  | literal _ _ _, c => [c]
  | lineComment, c => if c = '\n' then [c] else []
  | blockComment _, _ => []

/-- The slash that waits for the next character. -/
def pending : Reading → Text
  | code true => ['/']
  | _ => []

/-- What a text adds to the code, up to a slash at its end. -/
def shown (state : Reading) : Text → Text
  | [] => []
  | c :: s => state.written c ++ shown (state.step c) s

/-- What a text adds to the code. -/
def codeOf (state : Reading) (s : Text) : Text := state.shown s ++ (state.run s).pending

/-- A character that starts, ends and escapes nothing, unless it is a newline. -/
structure IsInert (c : Char) : Prop where
  not_slash : c ≠ '/'
  not_star : c ≠ '*'
  not_escape : c ≠ '\\'
  not_quote : isQuote c = false

instance (c : Char) : Decidable (IsInert c) :=
  decidable_of_iff (c ≠ '/' ∧ c ≠ '*' ∧ c ≠ '\\' ∧ isQuote c = false)
    ⟨fun ⟨slash, star, escape, quote⟩ => ⟨slash, star, escape, quote⟩,
      fun ⟨slash, star, escape, quote⟩ => ⟨slash, star, escape, quote⟩⟩

/-- No quote and no bracket stands in the comments of what follows a place. -/
def CommentsPlain (state : Reading) (s : Text) : Prop :=
  ∀ front c back, s = front ++ c :: back → (state.run front).inComment → IsPlain c

/-- The string that a place stands in is the one that is open there. -/
def Agrees : Reading → Nesting → Prop
  | literal quote _ escaped, nesting => nesting.quote = some quote ∧ nesting.escaped = escaped
  | _, nesting => nesting.quote = none

section Run

variable {state : Reading} {c : Char} {a b s : Text}

@[simp]
theorem run_nil : state.run [] = state := rfl

theorem run_cons : state.run (c :: s) = (state.step c).run s := rfl

theorem run_append : state.run (a ++ b) = (state.run a).run b := List.foldl_append

theorem shown_append : state.shown (a ++ b) = state.shown a ++ (state.run a).shown b := by
  induction a generalizing state with
  | nil => rfl
  | cons c a ih => rw [List.cons_append, shown, ih, shown, run_cons, List.append_assoc]

theorem codeOf_append : state.codeOf (a ++ b) = state.shown a ++ (state.run a).codeOf b := by
  rw [codeOf, codeOf, shown_append, run_append, List.append_assoc]

@[simp]
theorem codeOf_nil : state.codeOf [] = state.pending := rfl

end Run

section Inert

variable {state : Reading} {c : Char} {a s : Text}

theorem isInert_of_isBlank (blank : isBlank c) : IsInert c where
  not_slash := by
    rintro rfl
    contradiction
  not_star := by
    rintro rfl
    contradiction
  not_escape := by
    rintro rfl
    contradiction
  not_quote := (isPlain_of_isBlank blank).1

@[simp]
theorem settled_settled : state.settled.settled = state.settled := by cases state <;> rfl

@[simp]
theorem inComment_settled : state.settled.inComment = state.inComment := by cases state <;> rfl

@[simp]
theorem pending_settled : state.settled.pending = [] := by cases state <;> rfl

theorem settled_eq_lineComment_iff : state.settled = lineComment ↔ state = lineComment := by
  cases state <;> simp [settled]

theorem step_of_isInert (inert : IsInert c) (stays : state = lineComment → c ≠ '\n') :
    state.step c = state.settled := by
  obtain ⟨not_slash, not_star, not_escape, not_quote⟩ := inert
  cases state with
  | code slash => simp [step, settled, not_slash, not_star, not_quote]
  | literal quote delimits escaped =>
      have apart : c ≠ quote := by
        rintro rfl
        rw [not_quote] at delimits
        contradiction
      cases escaped <;> simp [step, settled, not_escape, apart]
  | lineComment => simp [step, settled, stays rfl]
  | blockComment star => simp [step, settled, not_slash, not_star]

/-- Behind characters that mean nothing a place stands in what it stood in. -/
theorem run_of_isInert (nonempty : s ≠ []) (inert : ∀ c ∈ s, IsInert c)
    (stays : state = lineComment → '\n' ∉ s) : state.run s = state.settled := by
  induction s generalizing state with
  | nil => contradiction
  | cons c s ih =>
      obtain ⟨first, later⟩ := List.forall_mem_cons.mp inert
      have first_stays : state = lineComment → c ≠ '\n' := fun commented same =>
        stays commented (same ▸ List.mem_cons_self)
      rw [run_cons, step_of_isInert first first_stays]
      cases s with
      | nil => rfl
      | cons d s =>
          rw [ih (List.cons_ne_nil _ _) later, settled_settled]
          intro commented newline
          exact stays (settled_eq_lineComment_iff.mp commented) (List.mem_cons_of_mem _ newline)

theorem run_code_of_isInert (inert : ∀ c ∈ s, IsInert c) : start.run s = start := by
  cases s with
  | nil => rfl
  | cons c s => exact run_of_isInert (List.cons_ne_nil _ _) inert nofun

/-- A newline among characters that mean nothing ends a line comment. -/
theorem run_lineComment_of_newline (inert : ∀ c ∈ s, IsInert c) (newline : '\n' ∈ s) :
    lineComment.run s = start := by
  obtain ⟨front, back, rfl, absent⟩ := List.eq_append_cons_of_mem newline
  rw [List.forall_mem_append, List.forall_mem_cons] at inert
  have front_run : lineComment.run front = lineComment := by
    cases front with
    | nil => rfl
    | cons c front => exact run_of_isInert (List.cons_ne_nil _ _) inert.1 fun _ => absent
  rw [run_append, front_run, run_cons]
  exact run_code_of_isInert inert.2.2

/-- Characters that mean nothing lead into no comment. -/
theorem run_eq_lineComment_iff (inert : ∀ c ∈ s, IsInert c) :
    state.run s = lineComment ↔ state = lineComment ∧ '\n' ∉ s := by
  by_cases empty : s = []
  · simp [empty]
  by_cases ends : state = lineComment ∧ '\n' ∈ s
  · obtain ⟨rfl, newline⟩ := ends
    rw [run_lineComment_of_newline inert newline]
    simp [start, newline]
  · have stays : state = lineComment → '\n' ∉ s := fun commented newline =>
      ends ⟨commented, newline⟩
    rw [run_of_isInert empty inert stays, settled_eq_lineComment_iff]
    exact ⟨fun commented => ⟨commented, stays commented⟩, And.left⟩

/-- Characters that mean nothing leave a comment only by a newline. -/
theorem inComment_run_iff (inert : ∀ c ∈ s, IsInert c) :
    (state.run s).inComment = state.inComment ↔ (state = lineComment → '\n' ∉ s) := by
  by_cases empty : s = []
  · simp [empty]
  by_cases ends : state = lineComment ∧ '\n' ∈ s
  · obtain ⟨rfl, newline⟩ := ends
    rw [run_lineComment_of_newline inert newline]
    simp [start, inComment, newline]
  · have stays : state = lineComment → '\n' ∉ s := fun commented newline =>
      ends ⟨commented, newline⟩
    rw [run_of_isInert empty inert stays, inComment_settled]
    exact iff_of_true rfl stays

theorem written_of_isInert (inert : IsInert c) (stays : state = lineComment → c ≠ '\n') :
    state.written c = state.pending ++ if state.inComment then [] else [c] := by
  obtain ⟨not_slash, not_star, -, -⟩ := inert
  cases state with
  | code slash => cases slash <;> simp [written, pending, inComment, not_slash, not_star]
  | literal quote delimits escaped => rfl
  | lineComment => simp [written, pending, inComment, stays rfl]
  | blockComment star => rfl

/-- Characters that mean nothing are code unless they stand in a comment. -/
theorem shown_of_isInert (nonempty : s ≠ []) (inert : ∀ c ∈ s, IsInert c)
    (stays : state = lineComment → '\n' ∉ s) :
    state.shown s = state.pending ++ if state.inComment then [] else s := by
  induction s generalizing state with
  | nil => contradiction
  | cons c s ih =>
      obtain ⟨first, later⟩ := List.forall_mem_cons.mp inert
      have first_stays : state = lineComment → c ≠ '\n' := fun commented same =>
        stays commented (same ▸ List.mem_cons_self)
      rw [shown, step_of_isInert first first_stays, written_of_isInert first first_stays]
      cases s with
      | nil => simp [shown]
      | cons d s =>
          have later_stays : state.settled = lineComment → '\n' ∉ d :: s := fun commented newline =>
            stays (settled_eq_lineComment_iff.mp commented) (List.mem_cons_of_mem _ newline)
          rw [ih (List.cons_ne_nil _ _) later later_stays, pending_settled, inComment_settled]
          cases state.inComment <;> simp

/-- Characters that mean nothing are passed by the code behind them. -/
theorem codeOf_inert_append (state : Reading) (nonempty : a ≠ []) (inert : ∀ c ∈ a, IsInert c)
    (stays : state = lineComment → '\n' ∉ a) (b : Text) :
    state.codeOf (a ++ b) =
      state.pending ++ ((if state.inComment then [] else a) ++ state.settled.codeOf b) := by
  rw [codeOf_append, shown_of_isInert nonempty inert stays, run_of_isInert nonempty inert stays,
    List.append_assoc]

end Inert

section Plain

variable {state : Reading} {nesting next : Nesting} {c : Char} {a b s : Text}

theorem commentsPlain_cons_iff : CommentsPlain state (c :: s) ↔
    (state.inComment → IsPlain c) ∧ CommentsPlain (state.step c) s := by
  constructor
  · intro plain
    exact ⟨plain [] c s rfl, fun front d back parts =>
      plain (c :: front) d back (congrArg (c :: ·) parts)⟩
  · rintro ⟨first, later⟩ front d back parts commented
    rcases List.cons_eq_append_iff.mp parts with ⟨rfl, same⟩ | ⟨front, rfl, same⟩
    · obtain ⟨rfl, rfl⟩ := List.cons.inj same
      exact first commented
    · exact later front d back same commented

instance decidableCommentsPlain : (state : Reading) → (s : Text) → Decidable (CommentsPlain state s)
  | _, [] => isTrue fun front c back parts => by simp at parts
  | state, c :: s =>
      have := decidableCommentsPlain (state.step c) s
      decidable_of_iff _ commentsPlain_cons_iff.symm

theorem commentsPlain_append_iff : CommentsPlain state (a ++ b) ↔
    CommentsPlain state a ∧ CommentsPlain (state.run a) b := by
  induction a generalizing state with
  | nil =>
      refine ⟨fun plain => ⟨?_, plain⟩, And.right⟩
      intro front c back parts
      simp at parts
  | cons c a ih =>
      rw [List.cons_append, commentsPlain_cons_iff, commentsPlain_cons_iff, ih, run_cons, and_assoc]

theorem quote_of_step (unquoted : nesting.quote = none) (stepped : nesting.step c = some next) :
    next.quote = (if isQuote c then some c else none) ∧ next.escaped = nesting.escaped := by
  simp only [Nesting.step, unquoted] at stepped
  grind

theorem Agrees.step (agrees : Agrees state nesting) (sane : nesting.IsSane)
    (stepped : nesting.step c = some next) (plain : state.inComment → IsPlain c) :
    Agrees (state.step c) next := by
  cases state with
  | code slash =>
      obtain ⟨quote_eq, escaped_eq⟩ := quote_of_step agrees stepped
      rw [sane.unescaped agrees] at escaped_eq
      by_cases delimits : isQuote c
      · have not_slash : c ≠ '/' := by
          rintro rfl
          contradiction
        have not_star : c ≠ '*' := by
          rintro rfl
          contradiction
        rw [if_pos delimits] at quote_eq
        simp [Reading.step, not_slash, not_star, delimits, Agrees, quote_eq, escaped_eq]
      · rw [if_neg delimits] at quote_eq
        simp only [Reading.step, delimits]
        split
        · exact quote_eq
        · split <;> exact quote_eq
  | literal quote delimits escaped =>
      obtain ⟨quote_eq, escaped_eq⟩ := agrees
      simp only [Nesting.step, quote_eq, escaped_eq] at stepped
      simp only [Reading.step]
      grind [Agrees]
  | lineComment =>
      obtain rfl := Option.some.inj ((step_of_isPlain agrees (plain rfl)).symm.trans stepped)
      simp only [Reading.step]
      split <;> exact agrees
  | blockComment star =>
      obtain rfl := Option.some.inj ((step_of_isPlain agrees (plain rfl)).symm.trans stepped)
      simp only [Reading.step]
      split <;> exact agrees

/-- One more character opens and closes in the code what it does in the text. -/
theorem Agrees.run_written (agrees : Agrees state nesting) (plain : state.inComment → IsPlain c) :
    nesting.run (state.written c) = nesting.step c := by
  have single (d : Char) : nesting.run [d] = nesting.step d := bind_pure _
  cases state with
  | code slash =>
      have slash_step : nesting.step '/' = some nesting := step_of_isPlain agrees (by decide)
      have star_step : nesting.step '*' = some nesting := step_of_isPlain agrees (by decide)
      rw [written]
      split
      · rename_i opens
        rcases opens.2 with rfl | rfl
        · exact slash_step.symm
        · exact star_step.symm
      · have waited : nesting.run (if slash then ['/'] else []) = some nesting := by
          split
          · exact (single '/').trans slash_step
          · rfl
        rw [Nesting.run_append, waited]
        by_cases slashes : c = '/'
        · rw [if_pos slashes, slashes, slash_step]
          rfl
        · rw [if_neg slashes]
          exact single c
  | literal quote delimits escaped => exact single c
  | lineComment =>
      rw [step_of_isPlain agrees (plain rfl)]
      by_cases newline : c = '\n'
      · subst newline
        exact (single _).trans (step_of_isPlain agrees (by decide))
      · rw [written, if_neg newline]
        rfl
  | blockComment star => exact (step_of_isPlain agrees (plain rfl)).symm

/-- The code opens and closes what the text does. -/
theorem Agrees.run_shown (agrees : Agrees state nesting) (sane : nesting.IsSane)
    (plain : CommentsPlain state s) :
    nesting.run (state.shown s) = nesting.run s ∧
      ∀ next, nesting.run s = some next → Agrees (state.run s) next := by
  induction s generalizing state nesting with
  | nil => exact ⟨rfl, fun next same => Option.some.inj same ▸ agrees⟩
  | cons c s ih =>
      obtain ⟨first, later⟩ := commentsPlain_cons_iff.mp plain
      rw [shown, Nesting.run_append, agrees.run_written first, Nesting.run_cons, run_cons]
      cases stepped : nesting.step c with
      | none => exact ⟨rfl, nofun⟩
      | some next => exact ih (agrees.step sane stepped first) (sane.step stepped) later

end Plain

end Reading

namespace Text

/-- A text without its comments; the newline behind a line comment stays. -/
def withoutComments (s : Text) : Text := Reading.start.codeOf s

end Text

end LintRepair
