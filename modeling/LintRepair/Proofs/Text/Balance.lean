import LintRepair.Proofs.Text.TopLevel

/-!
# The grammar of balanced texts

A balanced text is made of characters that open and close nothing, of strings that end at the quote
they start with, and of balanced texts in brackets, where the two brackets need not be of one kind.
Reading character by character accepts exactly these texts.

The separators at which a text is cut are those behind a balanced text.  This determines the pieces,
which join to the text and are not cut again, and makes cutting turn texts joined by a separator
into lists one after another.
-/

namespace LintRepair

namespace Nesting

open Text

/-- The characters between the quotes of a string: a backslash takes the next character along, and
the quote stands only behind such a backslash. -/
inductive IsStringBody (quote : Char) : Text → Prop
  | nil : IsStringBody quote []
  | escaped (c : Char) {body : Text} (later : IsStringBody quote body) :
      IsStringBody quote ('\\' :: c :: body)
  | cons {c : Char} {body : Text} (unescaping : c ≠ '\\') (apart : c ≠ quote)
      (later : IsStringBody quote body) : IsStringBody quote (c :: body)

/-- A text in which nothing is left open and nothing is closed that was not opened. -/
inductive IsClosed : Text → Prop
  | nil : IsClosed []
  | append {a b : Text} (first : IsClosed a) (second : IsClosed b) : IsClosed (a ++ b)
  | plain {c : Char} (plain : IsPlain c) : IsClosed [c]
  | string {quote : Char} {body : Text} (delimits : isQuote quote)
      (inside : IsStringBody quote body) : IsClosed (quote :: (body ++ [quote]))
  | brackets {first last : Char} {inner : Text} (opens : isOpening first) (inside : IsClosed inner)
      (closes : isClosing last) : IsClosed (first :: (inner ++ [last]))

theorem ne_backslash_of_isQuote {c : Char} (delimits : isQuote c) : c ≠ '\\' := by
  rintro rfl
  contradiction

section Grammar

variable {depth : Nat} {quote : Char} {body s : Text}

/-- A string is left behind its closing quote. -/
theorem run_string (delimits : isQuote quote) (inside : IsStringBody quote body) :
    run ⟨depth, some quote, false⟩ (body ++ [quote]) = some ⟨depth, none, false⟩ := by
  induction inside with
  | nil => simp [run, step, ne_backslash_of_isQuote delimits]
  | escaped c later ih => simpa [run, step] using ih
  | cons unescaping apart later ih => simpa [run, step, unescaping, apart] using ih

theorem IsClosed.run_flat (closed : IsClosed s) : flat.run s = some flat := by
  induction closed with
  | nil => rfl
  | append first second first_ran second_ran =>
      rw [run_append, first_ran]
      exact second_ran
  | plain plain => exact run_of_isPlain rfl (List.forall_mem_singleton.mpr plain)
  | string delimits inside =>
      rw [run_cons, flat, step_of_isQuote delimits]
      exact run_string delimits inside
  | @brackets first last inner opens inside closes inner_ran =>
      -- What the brackets hold is read one level deeper.
      have inner_deeper : run ⟨1, none, false⟩ inner = some ⟨1, none, false⟩ :=
        run_deeper 1 inner_ran
      rw [run_cons, flat, step_of_isOpening opens]
      change run ⟨1, none, false⟩ (inner ++ [last]) = _
      rw [run_append, inner_deeper, Option.bind_eq_bind, Option.bind_some, run_cons,
        step_of_isClosing closes]
      rfl

/-- A text that closes a number of brackets, with closed texts before, between and behind them. -/
def Closes : Nat → Text → Prop
  | 0, s => IsClosed s
  | depth + 1, s => ∃ inner last rest,
      s = inner ++ last :: rest ∧ IsClosed inner ∧ isClosing last ∧ Closes depth rest

/-- A text that closes all that is open: first the string, with what a backslash takes along, then
the brackets around it. -/
def Completes (state : Nesting) (s : Text) : Prop :=
  match state.quote with
  | none => Closes state.depth s
  | some quote => ∃ body rest, s = body ++ quote :: rest ∧
      IsStringBody quote (if state.escaped then '\\' :: body else body) ∧ Closes state.depth rest

theorem Closes.append {front : Text} (closed : IsClosed front) (closes : Closes depth s) :
    Closes depth (front ++ s) := by
  cases depth with
  | zero => exact closed.append closes
  | succ depth =>
      obtain ⟨inner, last, rest, rfl, inner_closed, last_closes, later⟩ := closes
      exact ⟨front ++ inner, last, rest, (List.append_assoc _ _ _).symm,
        closed.append inner_closed, last_closes, later⟩

theorem Closes.opening {c : Char} (opens : isOpening c) (closes : Closes (depth + 1) s) :
    Closes depth (c :: s) := by
  obtain ⟨inner, last, rest, rfl, inner_closed, last_closes, later⟩ := closes
  have parts : c :: (inner ++ last :: rest) = (c :: (inner ++ [last])) ++ rest := by simp
  rw [parts]
  exact later.append (.brackets opens inner_closed last_closes)

section Cons

variable {next : Nesting} {c : Char}

theorem Completes.cons_quoted {escaped : Bool}
    (stepped : step ⟨depth, some quote, escaped⟩ c = some next) (completes : next.Completes s) :
    Completes ⟨depth, some quote, escaped⟩ (c :: s) := by
  cases escaped with
  | true =>
      obtain rfl := Option.some.inj stepped
      obtain ⟨body, rest, rfl, inside, closes⟩ := completes
      exact ⟨c :: body, rest, rfl, .escaped c inside, closes⟩
  | false =>
      simp only [step, Bool.false_eq_true, if_false] at stepped
      split at stepped
      · rename_i takes
        obtain rfl := Option.some.inj stepped
        obtain ⟨body, rest, rfl, inside, closes⟩ := completes
        exact ⟨c :: body, rest, rfl, takes ▸ inside, closes⟩
      · rename_i unescaping
        split at stepped
        · rename_i ends
          obtain rfl := Option.some.inj stepped
          exact ⟨[], s, ends ▸ rfl, .nil, completes⟩
        · rename_i apart
          obtain rfl := Option.some.inj stepped
          obtain ⟨body, rest, rfl, inside, closes⟩ := completes
          exact ⟨c :: body, rest, rfl, .cons unescaping apart inside, closes⟩

theorem Completes.cons_unquoted (stepped : step ⟨depth, none, false⟩ c = some next)
    (completes : next.Completes s) : Completes ⟨depth, none, false⟩ (c :: s) := by
  rcases kind_cases c with delimits | opens | closes | plain
  · rw [step_of_isQuote delimits] at stepped
    obtain rfl := Option.some.inj stepped
    obtain ⟨body, rest, rfl, inside, closes⟩ := completes
    have parts : c :: (body ++ c :: rest) = (c :: (body ++ [c])) ++ rest := by simp
    rw [parts]
    exact Closes.append (.string delimits inside) closes
  · rw [step_of_isOpening opens] at stepped
    obtain rfl := Option.some.inj stepped
    exact Closes.opening opens completes
  · cases depth with
    | zero =>
        rw [step_of_isClosing_flat closes] at stepped
        contradiction
    | succ depth =>
        rw [step_of_isClosing closes] at stepped
        obtain rfl := Option.some.inj stepped
        exact ⟨[], c, s, rfl, .nil, closes, completes⟩
  · rw [step_of_isPlain rfl plain] at stepped
    obtain rfl := Option.some.inj stepped
    exact Closes.append (.plain plain) completes

end Cons

/-- What leads from a state to nothing open completes the state. -/
theorem completes_of_run {state : Nesting} (sane : state.IsSane) (ran : state.run s = some flat) :
    state.Completes s := by
  induction s generalizing state with
  | nil =>
      obtain rfl := Option.some.inj ran
      exact IsClosed.nil
  | cons c s ih =>
      obtain ⟨next, stepped, ran⟩ := Option.bind_eq_some_iff.mp ran
      have completes := ih (sane.step stepped) ran
      obtain ⟨depth, quote, escaped⟩ := state
      cases quote with
      | some quote => exact completes.cons_quoted stepped
      | none =>
          obtain rfl : escaped = false := sane.unescaped rfl
          exact completes.cons_unquoted stepped

end Grammar

end Nesting

namespace Text

open Nesting

section Pieces

variable {separator : Char} {s : Text}

/-- Reading accepts exactly the texts of the grammar. -/
theorem isBalanced_iff_isClosed : isBalanced s ↔ IsClosed s := by
  rw [isBalanced_iff]
  exact ⟨completes_of_run isSane_flat, IsClosed.run_flat⟩

theorem isBalanced_flatten {texts : List Text} (balanced : ∀ text ∈ texts, isBalanced text) :
    isBalanced texts.flatten := by
  induction texts with
  | nil => rfl
  | cons text texts ih =>
      obtain ⟨first, later⟩ := List.forall_mem_cons.mp balanced
      exact isBalanced_append first (ih later)

/-- No separator of a text stands behind a balanced text. -/
def IsUndivided (separator : Char) (s : Text) : Prop :=
  ∀ front behind, s = front ++ separator :: behind → ¬ isBalanced front

/-- Exactly the undivided texts are not cut. -/
theorem splitTopLevel_eq_singleton_iff_isUndivided (plain : IsPlain separator) :
    splitTopLevel separator s = [s] ↔ IsUndivided separator s := by
  constructor
  · rintro whole front behind rfl
    exact not_isBalanced_of_whole plain whole
  · intro undivided
    have written := joined_splitTopLevel separator s
    obtain ⟨first, later, cut⟩ := List.exists_cons_of_ne_nil (splitTopLevel_ne_nil separator s)
    cases later with
    | nil =>
        rw [cut, joined_singleton] at written
        rw [cut, written]
    | cons next later =>
        -- The first separator that cuts stands behind the first piece, which is balanced.
        have first_mem : first ∈ (splitTopLevel separator s).dropLast := by simp [cut]
        rw [cut, joined_cons (List.cons_ne_nil _ _)] at written
        exact absurd (isBalanced_of_mem_dropLast first_mem) (undivided _ _ written.symm)

/-- The pieces of a text are the only undivided texts, all but the last balanced, that join to
it. -/
theorem splitTopLevel_eq_iff (plain : IsPlain separator) {pieces : List Text} :
    splitTopLevel separator s = pieces ↔
      pieces ≠ [] ∧ joined [separator] pieces = s ∧
      (∀ piece ∈ pieces, IsUndivided separator piece) ∧
      ∀ piece ∈ pieces.dropLast, isBalanced piece := by
  simp only [← splitTopLevel_eq_singleton_iff_isUndivided plain]
  constructor
  · rintro rfl
    exact ⟨splitTopLevel_ne_nil separator s, joined_splitTopLevel separator s,
      fun _ => whole_of_mem_splitTopLevel, fun _ => isBalanced_of_mem_dropLast⟩
  · rintro ⟨nonempty, rfl, whole, balanced⟩
    induction pieces with
    | nil => contradiction
    | cons piece pieces ih =>
        obtain ⟨piece_whole, later_whole⟩ := List.forall_mem_cons.mp whole
        cases pieces with
        | nil => rw [joined_singleton, piece_whole]
        | cons next pieces =>
            rw [List.dropLast_cons_cons, List.forall_mem_cons] at balanced
            rw [joined_cons (List.cons_ne_nil _ _), List.singleton_append,
              splitTopLevel_append_cons plain balanced.1, piece_whole,
              ih (List.cons_ne_nil _ _) later_whole balanced.2]
            rfl

/-- Cutting at a separator loses nothing and turns a balanced text, a separator and any text into
the pieces of the one and of the other.  Pieces are not cut again, and those of a balanced text are
balanced, as are balanced texts one after another.  The balanced texts are those of the grammar,
and the pieces are the only undivided texts, all but the last balanced, that join to the text. -/
theorem splitting_is_lossless_homomorphism (plain : IsPlain separator) :
    (∀ s, joined [separator] (splitTopLevel separator s) = s) ∧
    (∀ s, ∀ piece ∈ splitTopLevel separator s, splitTopLevel separator piece = [piece]) ∧
    (∀ s, isBalanced s → ∀ piece ∈ splitTopLevel separator s, isBalanced piece) ∧
    (∀ texts : List Text, (∀ text ∈ texts, isBalanced text) → isBalanced texts.flatten) ∧
    (∀ a b, isBalanced a → splitTopLevel separator (a ++ separator :: b) =
      splitTopLevel separator a ++ splitTopLevel separator b) ∧
    (∀ s, isBalanced s ↔ IsClosed s) ∧
    ∀ s pieces, splitTopLevel separator s = pieces ↔
      pieces ≠ [] ∧ joined [separator] pieces = s ∧
      (∀ piece ∈ pieces, IsUndivided separator piece) ∧
      ∀ piece ∈ pieces.dropLast, isBalanced piece :=
  ⟨joined_splitTopLevel separator, fun _ _ => whole_of_mem_splitTopLevel,
    fun _ balanced _ => isBalanced_of_mem_splitTopLevel plain balanced,
    fun _ => isBalanced_flatten, fun _ _ => splitTopLevel_append_cons plain,
    fun _ => isBalanced_iff_isClosed, fun _ _ => splitTopLevel_eq_iff plain⟩

/-- A text with separators in brackets, in a string behind a taken quote, and between two brackets
of different kinds. -/
def callText : Text := "f(a, b), \"x\\\",y\", [1, 2)"

theorem splitting_is_lossless_homomorphism_at_comma :
    IsPlain ',' ∧ joined [','] (splitTopLevel ',' callText) = callText ∧
    isBalanced callText ∧ (" [1, 2)" : Text) ∈ splitTopLevel ',' callText ∧
    splitTopLevel ',' " [1, 2)" = [(" [1, 2)" : Text)] ∧ isBalanced " [1, 2)" ∧
    isBalanced [callText, callText].flatten ∧ IsClosed callText ∧
    splitTopLevel ',' (callText ++ ',' :: "a], 'b, c") =
      splitTopLevel ',' callText ++ ["a], 'b, c".toList] ∧
    IsUndivided ',' "a], 'b, c" := by
  have plain : IsPlain ',' := by decide
  have balanced : isBalanced callText := by decide
  have member : (" [1, 2)" : Text) ∈ splitTopLevel ',' callText := by decide
  have both : ∀ text ∈ [callText, callText], isBalanced text := by simp [balanced]
  have refused : splitTopLevel ',' "a], 'b, c" = ["a], 'b, c".toList] := by decide
  obtain ⟨joins, whole, pieces_balanced, flatten_balanced, append, closed, only⟩ :=
    splitting_is_lossless_homomorphism plain
  exact ⟨plain, joins callText, balanced, member, whole callText _ member,
    pieces_balanced callText balanced _ member, flatten_balanced _ both,
    (closed callText).mp balanced, refused ▸ append callText _ balanced,
    ((only _ _).mp refused).2.2.1 _ (by simp)⟩

end Pieces

end Text

end LintRepair
