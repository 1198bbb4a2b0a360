import Mathlib.Data.List.Basic
import LintRepair.Proofs.Text.Blank
import LintRepair.Text.Nesting

/-!
# Balanced texts and their pieces

A text is balanced if reading it from nothing open ends with nothing open.  Texts are cut at the
separators outside brackets and strings: joining the pieces gives the text back, behind a balanced
text the last piece goes on, and behind a balanced text and a separator the cut starts anew.
-/

namespace LintRepair

namespace Nesting

/-- A character is neither a quote nor a bracket. -/
def IsPlain (c : Char) : Prop := isQuote c = false ∧ isOpening c = false ∧ isClosing c = false

instance (c : Char) : Decidable (IsPlain c) := inferInstanceAs (Decidable (_ ∧ _ ∧ _))

section Kinds

variable {depth : Nat} {c : Char}

theorem isQuote_eq_false_of_isOpening (opens : isOpening c) : isQuote c = false := by
  simp only [isOpening, Bool.or_eq_true, decide_eq_true_eq] at opens
  rcases opens with (rfl | rfl) | rfl <;> rfl

theorem isQuote_eq_false_of_isClosing (closes : isClosing c) : isQuote c = false := by
  simp only [isClosing, Bool.or_eq_true, decide_eq_true_eq] at closes
  rcases closes with (rfl | rfl) | rfl <;> rfl

theorem isOpening_eq_false_of_isClosing (closes : isClosing c) : isOpening c = false := by
  simp only [isClosing, Bool.or_eq_true, decide_eq_true_eq] at closes
  rcases closes with (rfl | rfl) | rfl <;> rfl

/-- A character is of one of the kinds that reading tells apart outside strings. -/
theorem kind_cases (c : Char) : isQuote c ∨ isOpening c ∨ isClosing c ∨ IsPlain c := by
  simp only [IsPlain, ← Bool.not_eq_true]
  tauto

theorem step_of_isQuote (delimits : isQuote c) :
    step ⟨depth, none, false⟩ c = some ⟨depth, some c, false⟩ := by
  simp [step, delimits]

theorem step_of_isOpening (opens : isOpening c) :
    step ⟨depth, none, false⟩ c = some ⟨depth + 1, none, false⟩ := by
  simp [step, opens, isQuote_eq_false_of_isOpening opens]

theorem step_of_isClosing (closes : isClosing c) :
    step ⟨depth + 1, none, false⟩ c = some ⟨depth, none, false⟩ := by
  simp [step, closes, isQuote_eq_false_of_isClosing closes, isOpening_eq_false_of_isClosing closes]

theorem step_of_isClosing_flat (closes : isClosing c) : step ⟨0, none, false⟩ c = none := by
  simp [step, closes, isQuote_eq_false_of_isClosing closes,
    isOpening_eq_false_of_isClosing closes]

theorem step_of_isPlain {state : Nesting} (unquoted : state.quote = none) (plain : IsPlain c) :
    state.step c = some state := by
  obtain ⟨not_quote, not_opening, not_closing⟩ := plain
  simp [Nesting.step, unquoted, not_quote, not_opening, not_closing]

end Kinds

/-- A backslash is only waited behind inside a string, and strings are delimited by quotes. -/
structure IsSane (state : Nesting) : Prop where
  unescaped : state.quote = none → state.escaped = false
  isQuote : ∀ quote ∈ state.quote, Nesting.isQuote quote

theorem isSane_flat : IsSane flat := ⟨fun _ => rfl, nofun⟩

section Step

variable {state next : Nesting} {c : Char}

theorem IsSane.step (sane : state.IsSane) (stepped : state.step c = some next) : next.IsSane := by
  obtain ⟨depth, quote, escaped⟩ := state
  obtain ⟨unescaped, quoted⟩ := sane
  cases quote with
  | some quote =>
      simp only [Nesting.step] at stepped
      split at stepped
      · obtain rfl := Option.some.inj stepped
        exact ⟨nofun, quoted⟩
      · split at stepped
        · obtain rfl := Option.some.inj stepped
          exact ⟨nofun, quoted⟩
        · split at stepped
          · obtain rfl := Option.some.inj stepped
            rename_i not_escaped _ _
            exact ⟨fun _ => by simpa using not_escaped, nofun⟩
          · obtain rfl := Option.some.inj stepped
            exact ⟨nofun, quoted⟩
  | none =>
      obtain rfl : escaped = false := unescaped rfl
      rcases kind_cases c with delimits | opens | closes | plain
      · rw [step_of_isQuote delimits] at stepped
        obtain rfl := Option.some.inj stepped
        exact ⟨nofun, fun quote member => Option.some.inj member ▸ delimits⟩
      · rw [step_of_isOpening opens] at stepped
        obtain rfl := Option.some.inj stepped
        exact ⟨fun _ => rfl, nofun⟩
      · cases depth with
        | zero =>
            rw [step_of_isClosing_flat closes] at stepped
            contradiction
        | succ depth =>
            rw [step_of_isClosing closes] at stepped
            obtain rfl := Option.some.inj stepped
            exact ⟨fun _ => rfl, nofun⟩
      · rw [step_of_isPlain rfl plain] at stepped
        obtain rfl := Option.some.inj stepped
        exact ⟨fun _ => rfl, nofun⟩

/-- A character opens at most one bracket. -/
theorem depth_le_of_step (stepped : state.step c = some next) : next.depth ≤ state.depth + 1 := by
  simp only [Nesting.step] at stepped
  grind

theorem exists_step_of_isPlain (plain : IsPlain c) : ∃ next, state.step c = some next := by
  obtain ⟨depth, quote, escaped⟩ := state
  cases quote with
  | none => exact ⟨_, step_of_isPlain rfl plain⟩
  | some quote =>
      simp only [Nesting.step]
      split
      · exact ⟨_, rfl⟩
      · split
        · exact ⟨_, rfl⟩
        · split <;> exact ⟨_, rfl⟩

theorem isPlain_of_isBlank (blank : Text.isBlank c) : IsPlain c := by
  refine ⟨?_, ?_, ?_⟩ <;>
  · rw [← Bool.not_eq_true]
    intro delimits
    simp only [isQuote, isOpening, isClosing, Bool.or_eq_true, decide_eq_true_eq] at delimits
    rcases delimits with (rfl | rfl) | rfl <;> contradiction

/-- What is no quote and no bracket closes nothing. -/
theorem eq_flat_of_step_plain (sane : state.IsSane) (plain : IsPlain c)
    (stepped : state.step c = some flat) : state = flat := by
  obtain ⟨depth, quote, escaped⟩ := state
  cases quote with
  | none => exact Option.some.inj ((step_of_isPlain rfl plain).symm.trans stepped)
  | some quote =>
      have apart : c ≠ quote := by
        rintro rfl
        have delimits := sane.isQuote c rfl
        rw [plain.1] at delimits
        contradiction
      cases escaped <;> simp [Nesting.step, apart, flat] at stepped
      split at stepped <;> simp at stepped

end Step

section Run

variable {state next : Nesting} {c : Char} {a b s : Text}

theorem run_cons : state.run (c :: s) = state.step c >>= fun next => next.run s := rfl

theorem run_append : state.run (a ++ b) = state.run a >>= fun next => next.run b :=
  List.foldlM_append

theorem IsSane.run (sane : state.IsSane) (ran : state.run s = some next) : next.IsSane := by
  induction s generalizing state with
  | nil => exact Option.some.inj ran ▸ sane
  | cons c s ih =>
      obtain ⟨middle, stepped, ran⟩ := Option.bind_eq_some_iff.mp ran
      exact ih (sane.step stepped) ran

theorem depth_le_of_run (ran : state.run s = some next) :
    next.depth ≤ state.depth + s.length := by
  induction s generalizing state with
  | nil => exact Nat.le_of_eq (congrArg depth (Option.some.inj ran).symm)
  | cons c s ih =>
      obtain ⟨middle, stepped, ran⟩ := Option.bind_eq_some_iff.mp ran
      calc
        next.depth ≤ middle.depth + s.length := ih ran
        _ ≤ state.depth + 1 + s.length := Nat.add_le_add_right (depth_le_of_step stepped) _
        _ = state.depth + (c :: s).length := by rw [List.length_cons, Nat.add_assoc, Nat.add_comm 1]

/-- A signed word of 32 bits counts the open brackets of a text that is not longer than it. -/
theorem toInt_ofNat_depth (ran : flat.run s = some state)
    (short : (s.length : Int) ≤ Int32.maxValue.toInt) :
    (Int32.ofNat state.depth).toInt = state.depth := by
  have few : state.depth ≤ 0 + s.length := depth_le_of_run ran
  have counted : (s.length : Int) ≤ 2147483647 := short
  exact Int32.toInt_ofNat_of_lt (by omega)

theorem run_of_isPlain (unquoted : state.quote = none) (plain : ∀ c ∈ s, IsPlain c) :
    state.run s = some state := by
  induction s with
  | nil => rfl
  | cons c s ih =>
      obtain ⟨first, later⟩ := List.forall_mem_cons.mp plain
      rw [run_cons, step_of_isPlain unquoted first]
      exact ih later

theorem eq_flat_of_run_plain (sane : state.IsSane) (plain : ∀ c ∈ s, IsPlain c)
    (ran : state.run s = some flat) : state = flat := by
  induction s generalizing state with
  | nil => exact Option.some.inj ran
  | cons c s ih =>
      obtain ⟨first, later⟩ := List.forall_mem_cons.mp plain
      obtain ⟨middle, stepped, ran⟩ := Option.bind_eq_some_iff.mp ran
      obtain rfl := ih (sane.step stepped) later ran
      exact eq_flat_of_step_plain sane first stepped

/-- The same place inside some more brackets. -/
def deeper (state : Nesting) (outer : Nat) : Nesting := { state with depth := outer + state.depth }

theorem step_deeper (outer : Nat) (stepped : state.step c = some next) :
    (state.deeper outer).step c = some (next.deeper outer) := by
  obtain ⟨depth, quote, escaped⟩ := state
  cases quote with
  | some quote =>
      simp only [step, deeper] at stepped ⊢
      grind
  | none =>
      simp only [step, deeper] at stepped ⊢
      grind

/-- A text that closes nothing open before it reads the same inside more brackets. -/
theorem run_deeper (outer : Nat) (ran : state.run s = some next) :
    (state.deeper outer).run s = some (next.deeper outer) := by
  induction s generalizing state with
  | nil => exact congrArg (fun state => some (state.deeper outer)) (Option.some.inj ran)
  | cons c s ih =>
      obtain ⟨middle, stepped, ran⟩ := Option.bind_eq_some_iff.mp ran
      rw [run_cons, step_deeper outer stepped]
      exact ih ran

/-- Outside strings only brackets are open. -/
theorem IsSane.eq_deeper (sane : state.IsSane) (unquoted : state.quote = none) :
    state = flat.deeper state.depth := by
  obtain ⟨depth, quote, escaped⟩ := state
  obtain rfl : quote = none := unquoted
  obtain rfl := sane.unescaped rfl
  rfl

end Run

end Nesting

namespace Text

open Nesting

section Balanced

variable {a b s : Text}

theorem isBalanced_iff : isBalanced s ↔ flat.run s = some flat := by
  rw [isBalanced]
  cases ran : flat.run s with
  | none => simp
  | some state =>
      have sane := isSane_flat.run ran
      obtain ⟨depth, quote, escaped⟩ := state
      constructor
      · intro closed
        simp only [Bool.and_eq_true, decide_eq_true_eq, Option.isNone_iff_eq_none] at closed
        obtain ⟨rfl, rfl⟩ := closed
        obtain rfl := sane.unescaped rfl
        rfl
      · intro closed
        rw [Option.some.inj closed]
        rfl

/-- A balanced text in front leaves all as it is. -/
theorem isBalanced_append_iff (balanced : isBalanced a) : isBalanced (a ++ b) ↔ isBalanced b := by
  rw [isBalanced_iff, isBalanced_iff, run_append, isBalanced_iff.mp balanced]
  rfl

theorem isBalanced_append (a_balanced : isBalanced a) (b_balanced : isBalanced b) :
    isBalanced (a ++ b) := (isBalanced_append_iff a_balanced).mpr b_balanced

theorem isBalanced_of_isPlain (plain : ∀ c ∈ s, IsPlain c) : isBalanced s :=
  isBalanced_iff.mpr (run_of_isPlain rfl plain)

theorem isBalanced_of_isBlank (blank : ∀ c ∈ s, isBlank c) : isBalanced s :=
  isBalanced_of_isPlain fun c member => isPlain_of_isBlank (blank c member)

/-- What is no quote and no bracket can be taken from the end. -/
theorem isBalanced_of_append (plain : ∀ c ∈ b, IsPlain c) (balanced : isBalanced (a ++ b)) :
    isBalanced a := by
  rw [isBalanced_iff] at balanced ⊢
  obtain ⟨state, ran, closes⟩ := Option.bind_eq_some_iff.mp (run_append.symm.trans balanced)
  obtain rfl := eq_flat_of_run_plain (isSane_flat.run ran) plain closes
  exact ran

theorem isBalanced_trimStart (balanced : isBalanced s) : isBalanced (trimStart s) := by
  have indented := isBalanced_of_isBlank fun c (member : c ∈ indentation s) =>
    blank_of_mem_indentation member
  rw [← indentation_append_trimStart s] at balanced
  exact (isBalanced_append_iff indented).mp balanced

theorem isBalanced_trim (balanced : isBalanced s) : isBalanced (trim s) := by
  have started := isBalanced_trimStart balanced
  rw [← trimEnd_append_trailing (trimStart s)] at started
  exact isBalanced_of_append (fun c member => isPlain_of_isBlank (blank_of_mem_trailing member))
    started

theorem isBalanced_trim_iff : isBalanced (trim s) ↔ isBalanced s := by
  refine ⟨fun balanced => ?_, isBalanced_trim⟩
  rw [eq_append_trim s]
  refine isBalanced_append (isBalanced_of_isBlank fun _ => blank_of_mem_indentation) ?_
  exact isBalanced_append balanced (isBalanced_of_isBlank fun _ => blank_of_mem_trailing)

end Balanced

end Text

namespace Nesting

open Text

section Split

variable {separator c : Char} {state next : Nesting} {a b s : Text}

theorem splitFrom_ne_nil : splitFrom separator state s ≠ [] := by
  cases s with
  | nil => exact List.cons_ne_nil _ _
  | cons c s =>
      rw [splitFrom]
      split
      · exact List.cons_ne_nil _ _
      · split
        · exact List.cons_ne_nil _ _
        · rw [pushFirst.eq_def]
          split <;> exact List.cons_ne_nil _ _

theorem isTopLevel_iff : state.isTopLevel c ↔ state.quote = none ∧ state.depth = 0 ∧ IsPlain c := by
  simp [isTopLevel, IsPlain, and_assoc]

theorem eq_flat_of_isTopLevel (sane : state.IsSane) (top : state.isTopLevel c) : state = flat := by
  obtain ⟨unquoted, surface, -⟩ := isTopLevel_iff.mp top
  rw [sane.eq_deeper unquoted, surface]
  rfl

theorem splitFrom_of_refused (refused : state.step c = none) :
    splitFrom separator state (c :: s) = [c :: s] := by
  rw [splitFrom, refused]

theorem splitFrom_of_separator (separates : state.isTopLevel separator)
    (stepped : state.step separator = some next) :
    splitFrom separator state (separator :: s) = [] :: splitFrom separator next s := by
  rw [splitFrom, stepped]
  simp [separates]

theorem splitFrom_of_passed (passes : ¬ (state.isTopLevel c ∧ c = separator))
    (stepped : state.step c = some next) :
    splitFrom separator state (c :: s) = pushFirst c (splitFrom separator next s) := by
  rw [splitFrom, stepped]
  simp only [Bool.and_eq_true, decide_eq_true_eq, if_neg passes]

/-- Joining the pieces gives the text back. -/
theorem joined_splitFrom : joined [separator] (splitFrom separator state s) = s := by
  induction s generalizing state with
  | nil => rfl
  | cons c s ih =>
      cases stepped : state.step c with
      | none => rw [splitFrom_of_refused stepped, joined_singleton]
      | some next =>
          by_cases separates : state.isTopLevel c ∧ c = separator
          · obtain ⟨top, rfl⟩ := separates
            rw [splitFrom_of_separator top stepped, joined_cons splitFrom_ne_nil, ih]
            rfl
          · rw [splitFrom_of_passed separates stepped, joined_pushFirst, ih]

/-- Behind a text that leaves nothing open the last piece goes on as the first one of what
follows. -/
theorem splitFrom_append_pieces {first : Text} {later : List Text} (ran : state.run a = some flat)
    (cut : splitFrom separator flat b = first :: later) :
    ∃ front last, splitFrom separator state a = front ++ [last] ∧
      splitFrom separator state (a ++ b) = front ++ (last ++ first) :: later := by
  induction a generalizing state with
  | nil =>
      obtain rfl := Option.some.inj ran
      exact ⟨[], [], rfl, cut⟩
  | cons c a ih =>
      obtain ⟨next, stepped, ran⟩ := Option.bind_eq_some_iff.mp ran
      obtain ⟨front, last, a_cut, both_cut⟩ := ih ran
      rw [List.cons_append]
      by_cases separates : state.isTopLevel c ∧ c = separator
      · obtain ⟨top, rfl⟩ := separates
        rw [splitFrom_of_separator top stepped, splitFrom_of_separator top stepped, a_cut, both_cut]
        exact ⟨[] :: front, last, rfl, rfl⟩
      · rw [splitFrom_of_passed separates stepped, splitFrom_of_passed separates stepped, a_cut,
          both_cut]
        cases front with
        | nil => exact ⟨[], c :: last, rfl, rfl⟩
        | cons piece front => exact ⟨(c :: piece) :: front, last, rfl, rfl⟩

/-- Behind a text that leaves nothing open and a separator the cut starts anew. -/
theorem splitFrom_append (plain : IsPlain separator) (ran : state.run a = some flat) :
    splitFrom separator state (a ++ separator :: b) =
      splitFrom separator state a ++ splitFrom separator flat b := by
  have top : flat.isTopLevel separator := isTopLevel_iff.mpr ⟨rfl, rfl, plain⟩
  have cut : splitFrom separator flat (separator :: b) = [] :: splitFrom separator flat b :=
    splitFrom_of_separator top (step_of_isPlain rfl plain)
  obtain ⟨front, last, a_cut, both_cut⟩ := splitFrom_append_pieces ran cut
  rw [both_cut, a_cut, List.append_nil, List.append_assoc]
  rfl

theorem splitFrom_of_isPlain (plain : ∀ c ∈ s, IsPlain c ∧ c ≠ separator) :
    splitFrom separator state s = [s] := by
  induction s generalizing state with
  | nil => rfl
  | cons c s ih =>
      obtain ⟨⟨c_plain, differs⟩, later⟩ := List.forall_mem_cons.mp plain
      obtain ⟨next, stepped⟩ : ∃ next, state.step c = some next := exists_step_of_isPlain c_plain
      rw [splitFrom_of_passed (fun separates => differs separates.2) stepped, ih later]
      rfl

/-- What has no separator, quote or bracket goes with the last piece of the text before it, whatever
that leaves open. -/
theorem splitFrom_append_plain (plain : ∀ c ∈ b, IsPlain c ∧ c ≠ separator) (a : Text) :
    ∃ front last, splitFrom separator state a = front ++ [last] ∧
      splitFrom separator state (a ++ b) = front ++ [last ++ b] := by
  induction a generalizing state with
  | nil => exact ⟨[], [], rfl, splitFrom_of_isPlain plain⟩
  | cons c a ih =>
      rw [List.cons_append]
      cases stepped : state.step c with
      | none =>
          rw [splitFrom_of_refused stepped, splitFrom_of_refused stepped]
          exact ⟨[], c :: a, rfl, rfl⟩
      | some next =>
          obtain ⟨front, last, cut, both_cut⟩ : ∃ front last,
              splitFrom separator next a = front ++ [last] ∧
                splitFrom separator next (a ++ b) = front ++ [last ++ b] := ih
          by_cases separates : state.isTopLevel c ∧ c = separator
          · obtain ⟨top, rfl⟩ := separates
            rw [splitFrom_of_separator top stepped, splitFrom_of_separator top stepped, cut,
              both_cut]
            exact ⟨[] :: front, last, rfl, rfl⟩
          · rw [splitFrom_of_passed separates stepped, splitFrom_of_passed separates stepped, cut,
              both_cut]
            cases front with
            | nil => exact ⟨[], c :: last, rfl, rfl⟩
            | cons piece front => exact ⟨(c :: piece) :: front, last, rfl, rfl⟩

end Split

end Nesting

namespace Text

open Nesting

section Pieces

variable {separator : Char} {a b s : Text}

theorem splitTopLevel_ne_nil (separator : Char) (s : Text) : splitTopLevel separator s ≠ [] :=
  splitFrom_ne_nil

theorem joined_splitTopLevel (separator : Char) (s : Text) :
    joined [separator] (splitTopLevel separator s) = s := joined_splitFrom

theorem splitTopLevel_append_cons (plain : IsPlain separator) (balanced : isBalanced a) :
    splitTopLevel separator (a ++ separator :: b) =
      splitTopLevel separator a ++ splitTopLevel separator b :=
  splitFrom_append plain (isBalanced_iff.mp balanced)

theorem splitTopLevel_append {first : Text} {later : List Text} (balanced : isBalanced a)
    (cut : splitTopLevel separator b = first :: later) :
    ∃ front last, splitTopLevel separator a = front ++ [last] ∧
      splitTopLevel separator (a ++ b) = front ++ (last ++ first) :: later :=
  splitFrom_append_pieces (isBalanced_iff.mp balanced) cut

theorem splitTopLevel_of_isPlain (plain : ∀ c ∈ s, IsPlain c ∧ c ≠ separator) :
    splitTopLevel separator s = [s] := splitFrom_of_isPlain plain

/-- A text without a separator goes in front of the first piece. -/
theorem splitTopLevel_append_of_whole (balanced : isBalanced a)
    (whole : splitTopLevel separator a = [a]) {first : Text} {later : List Text}
    (cut : splitTopLevel separator b = first :: later) :
    splitTopLevel separator (a ++ b) = (a ++ first) :: later := by
  obtain ⟨front, last, a_cut, both_cut⟩ := splitTopLevel_append balanced cut
  have single : [] ++ [a] = front ++ [last] := whole.symm.trans a_cut
  obtain ⟨rfl, same⟩ := List.append_inj' single rfl
  obtain rfl := (List.cons.inj same).1
  exact both_cut

section Blanks

variable (visible : isBlank separator = false)

include visible

theorem plain_of_isBlank {blanks : Text} (blank : ∀ c ∈ blanks, isBlank c) :
    ∀ c ∈ blanks, IsPlain c ∧ c ≠ separator := by
  refine fun c member => ⟨isPlain_of_isBlank (blank c member), ?_⟩
  rintro rfl
  rw [blank c member] at visible
  contradiction

/-- Blanks behind a text are no part of its trimmed pieces. -/
theorem map_trim_splitTopLevel_append_blanks {blanks : Text} (blank : ∀ c ∈ blanks, isBlank c)
    (a : Text) :
    (splitTopLevel separator (a ++ blanks)).map trim = (splitTopLevel separator a).map trim := by
  obtain ⟨front, last, cut, trailed_cut⟩ : ∃ front last,
      splitTopLevel separator a = front ++ [last] ∧
        splitTopLevel separator (a ++ blanks) = front ++ [last ++ blanks] :=
    splitFrom_append_plain (plain_of_isBlank visible blank) a
  rw [cut, trailed_cut, List.map_append, List.map_append, List.map_singleton, List.map_singleton,
    trim_append_blanks blank]

/-- Blanks in front of a text are no part of its trimmed pieces. -/
theorem map_trim_splitTopLevel_blanks_append {blanks : Text} (blank : ∀ c ∈ blanks, isBlank c)
    (b : Text) :
    (splitTopLevel separator (blanks ++ b)).map trim = (splitTopLevel separator b).map trim := by
  obtain ⟨first, later, cut⟩ := List.exists_cons_of_ne_nil (splitTopLevel_ne_nil separator b)
  rw [splitTopLevel_append_of_whole (isBalanced_of_isBlank blank)
      (splitTopLevel_of_isPlain (plain_of_isBlank visible blank)) cut,
    cut, List.map_cons, List.map_cons, trim_blanks_append blank]

/-- Blanks around a text are blanks around its pieces. -/
theorem map_trim_splitTopLevel_padded {lead trail : Text} (lead_blank : ∀ c ∈ lead, isBlank c)
    (trail_blank : ∀ c ∈ trail, isBlank c) (s : Text) :
    (splitTopLevel separator (lead ++ (s ++ trail))).map trim =
      (splitTopLevel separator s).map trim := by
  rw [map_trim_splitTopLevel_blanks_append visible lead_blank,
    map_trim_splitTopLevel_append_blanks visible trail_blank]

theorem map_trim_splitTopLevel_trim (s : Text) :
    (splitTopLevel separator (trim s)).map trim = (splitTopLevel separator s).map trim := by
  conv =>
    rhs
    rw [eq_append_trim s]
  exact (map_trim_splitTopLevel_padded visible (fun _ => blank_of_mem_indentation)
    (fun _ => blank_of_mem_trailing) (trim s)).symm

end Blanks

theorem isBalanced_joined {between : Text} (plain : ∀ c ∈ between, IsPlain c) {texts : List Text}
    (balanced : ∀ text ∈ texts, isBalanced text) : isBalanced (joined between texts) := by
  induction texts with
  | nil => rfl
  | cons text texts ih =>
      obtain ⟨first, later⟩ := List.forall_mem_cons.mp balanced
      cases texts with
      | nil => rwa [joined_singleton]
      | cons next texts =>
          rw [joined_cons (List.cons_ne_nil _ _)]
          exact isBalanced_append first (isBalanced_append (isBalanced_of_isPlain plain) (ih later))

/-- Balanced texts written one after another are cut one after another. -/
theorem splitTopLevel_joined (plain : IsPlain separator) {texts : List Text} (nonempty : texts ≠ [])
    (balanced : ∀ text ∈ texts, isBalanced text) :
    splitTopLevel separator (joined [separator] texts) =
      texts.flatMap (splitTopLevel separator) := by
  induction texts with
  | nil => contradiction
  | cons text texts ih =>
      obtain ⟨first, later⟩ := List.forall_mem_cons.mp balanced
      cases texts with
      | nil => simp [joined_singleton]
      | cons next texts =>
          rw [joined_cons (List.cons_ne_nil _ _), List.singleton_append,
            splitTopLevel_append_cons plain first, ih (List.cons_ne_nil _ _) later]
          exact List.flatMap_cons.symm

/-- A text without a separator is the only one of its pieces. -/
theorem splitTopLevel_eq_singleton_iff :
    splitTopLevel separator s = [s] ↔ (splitTopLevel separator s).length = 1 := by
  constructor
  · intro whole
    rw [whole, List.length_singleton]
  · intro single
    obtain ⟨piece, cut⟩ := List.length_eq_one_iff.mp single
    have written := joined_splitTopLevel separator s
    rw [cut, joined_singleton] at written
    rw [cut, written]

/-- Blanks around a text neither bring in a separator nor take one away. -/
theorem splitTopLevel_padded_of_whole (visible : isBlank separator = false)
    (whole : splitTopLevel separator s = [s]) {lead trail : Text}
    (lead_blank : ∀ c ∈ lead, isBlank c) (trail_blank : ∀ c ∈ trail, isBlank c) :
    splitTopLevel separator (lead ++ (s ++ trail)) = [lead ++ (s ++ trail)] := by
  have lengths := congrArg List.length
    (map_trim_splitTopLevel_padded visible lead_blank trail_blank s)
  rw [List.length_map, List.length_map, whole, List.length_singleton] at lengths
  exact splitTopLevel_eq_singleton_iff.mpr lengths

theorem splitTopLevel_trim_of_whole (visible : isBlank separator = false)
    (whole : splitTopLevel separator s = [s]) : splitTopLevel separator (trim s) = [trim s] := by
  have lengths := congrArg List.length (map_trim_splitTopLevel_trim visible s)
  rw [List.length_map, List.length_map, whole, List.length_singleton] at lengths
  exact splitTopLevel_eq_singleton_iff.mpr lengths

theorem splitTopLevel_joined_of_whole {between : Text}
    (plain : ∀ c ∈ between, IsPlain c ∧ c ≠ separator) {texts : List Text}
    (balanced : ∀ text ∈ texts, isBalanced text)
    (whole : ∀ text ∈ texts, splitTopLevel separator text = [text]) :
    splitTopLevel separator (joined between texts) = [joined between texts] := by
  have between_balanced := isBalanced_of_isPlain fun c member => (plain c member).1
  induction texts with
  | nil => rfl
  | cons text texts ih =>
      rw [List.forall_mem_cons] at balanced whole
      cases texts with
      | nil =>
          rw [joined_singleton]
          exact whole.1
      | cons next texts =>
          rw [joined_cons (List.cons_ne_nil _ _)]
          have later := splitTopLevel_append_of_whole between_balanced
            (splitTopLevel_of_isPlain plain) (ih balanced.2 whole.2)
          exact splitTopLevel_append_of_whole balanced.1 whole.1 later

/-- A text that is not cut has no separator behind a balanced text. -/
theorem not_isBalanced_of_whole (plain : IsPlain separator)
    (whole : splitTopLevel separator (a ++ separator :: b) = [a ++ separator :: b]) :
    ¬ isBalanced a := by
  intro balanced
  rw [splitTopLevel_append_cons plain balanced] at whole
  have lengths := congrArg List.length whole
  have some_piece := List.length_pos_iff.mpr (splitTopLevel_ne_nil separator a)
  have last_piece := List.length_pos_iff.mpr (splitTopLevel_ne_nil separator b)
  simp only [List.length_append, List.length_singleton] at lengths
  omega

theorem getLast?_ne_separator (plain : IsPlain separator) (balanced : isBalanced s)
    (whole : splitTopLevel separator s = [s]) : s.getLast? ≠ some separator := by
  intro ends
  obtain ⟨front, rfl⟩ := List.getLast?_eq_some_iff.mp ends
  have front_balanced := isBalanced_of_append (List.forall_mem_singleton.mpr plain) balanced
  exact not_isBalanced_of_whole plain whole front_balanced

/-- Texts joined by separators, with the same number of pieces in the same places, are the same. -/
theorem append_inj_of_length_splitTopLevel (plain : IsPlain separator) {a' b' : Text}
    (balanced : isBalanced a) (balanced' : isBalanced a')
    (same : (splitTopLevel separator a).length = (splitTopLevel separator a').length)
    (joined_eq : a ++ separator :: b = a' ++ separator :: b') : a = a' ∧ b = b' := by
  have cuts := congrArg (splitTopLevel separator) joined_eq
  rw [splitTopLevel_append_cons plain balanced, splitTopLevel_append_cons plain balanced'] at cuts
  have a_eq : a = a' := by
    rw [← joined_splitTopLevel separator a, (List.append_inj cuts same).1,
      joined_splitTopLevel]
  subst a_eq
  exact ⟨rfl, (List.cons.inj (List.append_cancel_left joined_eq)).2⟩

section Gap

variable {gap : Text} (plain : IsPlain separator) (gap_plain : ∀ c ∈ gap, IsPlain c ∧ c ≠ separator)

include plain gap_plain

theorem length_splitTopLevel_joined {texts : List Text} (nonempty : texts ≠ [])
    (balanced : ∀ text ∈ texts, isBalanced text) :
    (splitTopLevel separator (joined (separator :: gap) texts)).length =
      (texts.flatMap (splitTopLevel separator)).length := by
  induction texts with
  | nil => contradiction
  | cons text texts ih =>
      obtain ⟨first, later⟩ := List.forall_mem_cons.mp balanced
      cases texts with
      | nil => simp [joined_singleton]
      | cons next texts =>
          obtain ⟨piece, pieces, cut⟩ := List.exists_cons_of_ne_nil
            (splitTopLevel_ne_nil separator (joined (separator :: gap) (next :: texts)))
          have gap_balanced := isBalanced_of_isPlain fun c member => (gap_plain c member).1
          have led_cut := splitTopLevel_append_of_whole gap_balanced
            (splitTopLevel_of_isPlain gap_plain) cut
          have counted := ih (List.cons_ne_nil _ _) later
          rw [cut] at counted
          rw [joined_cons (List.cons_ne_nil _ _), List.cons_append,
            splitTopLevel_append_cons plain first, led_cut, List.flatMap_cons, List.length_append,
            List.length_append, ← counted, List.length_cons, List.length_cons]

/-- Texts without a separator are counted by the pieces of what they are joined to. -/
theorem length_splitTopLevel_joined_of_whole {texts : List Text} (nonempty : texts ≠ [])
    (balanced : ∀ text ∈ texts, isBalanced text)
    (whole : ∀ text ∈ texts, splitTopLevel separator text = [text]) :
    (splitTopLevel separator (joined (separator :: gap) texts)).length = texts.length := by
  rw [length_splitTopLevel_joined plain gap_plain nonempty balanced, List.flatMap_congr whole,
    List.flatMap_singleton']

omit gap_plain in
/-- Balanced texts with the same numbers of pieces are determined by what they are joined to. -/
theorem eq_of_joined_map_eq {items : List α} {f g : α → Text}
    (f_balanced : ∀ item ∈ items, isBalanced (f item))
    (g_balanced : ∀ item ∈ items, isBalanced (g item))
    (same : ∀ item ∈ items,
      (splitTopLevel separator (f item)).length = (splitTopLevel separator (g item)).length)
    (joined_eq : joined (separator :: gap) (items.map f) =
      joined (separator :: gap) (items.map g)) :
    ∀ item ∈ items, f item = g item := by
  induction items with
  | nil => simp
  | cons item items ih =>
      rw [List.forall_mem_cons] at *
      cases items with
      | nil =>
          simp only [List.map_cons, List.map_nil, joined_singleton] at joined_eq
          exact ⟨joined_eq, by simp⟩
      | cons next items =>
          simp only [List.map_cons, joined_cons (List.cons_ne_nil _ _), List.cons_append]
            at joined_eq
          obtain ⟨first_eq, later_eq⟩ := append_inj_of_length_splitTopLevel plain f_balanced.1
            g_balanced.1 same.1 joined_eq
          exact ⟨first_eq, ih f_balanced.2 g_balanced.2 same.2 (List.append_cancel_left later_eq)⟩

end Gap

end Pieces

/-- A literal is its body between two equal quotes that the body does not hold. -/
theorem literalBody?_eq_some_iff {s body : Text} : literalBody? s = some body ↔
    ∃ quote, s = quote :: (body ++ [quote]) ∧ isQuote quote ∧ quote ∉ body := by
  cases s with
  | nil => simp [literalBody?]
  | cons quote rest =>
      rw [literalBody?]
      split
      · rename_i is_quote
        simp only [Option.filter_eq_some_iff, before?_eq_some_iff, List.cons.injEq]
        constructor
        · rintro ⟨rfl, absent⟩
          exact ⟨quote, ⟨rfl, rfl⟩, is_quote, by simpa using absent⟩
        · rintro ⟨_, ⟨rfl, rfl⟩, -, absent⟩
          exact ⟨rfl, by simpa using absent⟩
      · rename_i no_quote
        refine iff_of_false nofun ?_
        rintro ⟨_, same, is_quote, -⟩
        obtain ⟨rfl, -⟩ := List.cons.inj same
        exact no_quote is_quote

end Text

end LintRepair
