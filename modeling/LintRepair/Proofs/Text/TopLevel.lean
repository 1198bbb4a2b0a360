import LintRepair.Proofs.Text.Nesting

/-!
# Pieces of any text

A text is cut at its separators outside brackets and strings also where brackets and strings are
left open or closed too often.  No piece has such a separator itself, and only the last one need not
be balanced, which it is in a balanced text.  Trimmed pieces written one after another are cut at
the same places again.
-/

namespace LintRepair

namespace Nesting

open Text

section Split

variable {state : Nesting}

/-- The pieces of any text have no separator themselves, and all but the last leave nothing open,
the first one from where the text starts. -/
theorem exists_splitFrom (separator : Char) (sane : state.IsSane) (s : Text) :
    ∃ first later, splitFrom separator state s = first :: later ∧
      splitFrom separator state first = [first] ∧ (later ≠ [] → state.run first = some flat) ∧
      (∀ piece ∈ later, splitFrom separator flat piece = [piece]) ∧
      ∀ piece ∈ later.dropLast, flat.run piece = some flat := by
  induction s generalizing state with
  | nil => exact ⟨[], [], rfl, rfl, by simp, by simp, by simp⟩
  | cons c s ih =>
      cases stepped : state.step c with
      | none =>
          have refused : splitFrom separator state (c :: s) = [c :: s] :=
            splitFrom_of_refused stepped
          exact ⟨c :: s, [], refused, refused, by simp, by simp, by simp⟩
      | some next =>
          obtain ⟨first, later, cut, first_whole, first_ran, later_whole, later_ran⟩ :=
            ih (sane.step stepped)
          by_cases separates : state.isTopLevel c ∧ c = separator
          · obtain ⟨top, rfl⟩ := separates
            obtain rfl := eq_flat_of_isTopLevel sane top
            obtain rfl := Option.some.inj
              ((step_of_isPlain rfl (isTopLevel_iff.mp top).2.2).symm.trans stepped)
            rw [splitFrom_of_separator top stepped, cut]
            refine ⟨[], first :: later, rfl, rfl, fun _ => rfl,
              List.forall_mem_cons.mpr ⟨first_whole, later_whole⟩, ?_⟩
            cases later with
            | nil => simp
            | cons next later =>
                exact List.forall_mem_cons.mpr ⟨first_ran (List.cons_ne_nil _ _), later_ran⟩
          · rw [splitFrom_of_passed separates stepped, cut]
            refine ⟨c :: first, later, rfl, ?_, fun nonempty => ?_, later_whole, later_ran⟩
            · rw [splitFrom_of_passed separates stepped, first_whole]
              rfl
            · rw [run_cons, stepped]
              exact first_ran nonempty

end Split

end Nesting

namespace Text

open Nesting

section Pieces

variable {separator : Char} {s : Text}

theorem whole_of_mem_splitTopLevel {piece : Text} (member : piece ∈ splitTopLevel separator s) :
    splitTopLevel separator piece = [piece] := by
  obtain ⟨first, later, cut, first_whole, -, later_whole, -⟩ :=
    exists_splitFrom separator isSane_flat s
  rw [splitTopLevel, cut] at member
  rcases List.mem_cons.mp member with rfl | later_member
  · exact first_whole
  · exact later_whole piece later_member

/-- Only the last piece of a text need not be balanced. -/
theorem isBalanced_of_mem_dropLast {piece : Text}
    (member : piece ∈ (splitTopLevel separator s).dropLast) : isBalanced piece := by
  obtain ⟨first, later, cut, -, first_ran, -, later_ran⟩ :=
    exists_splitFrom separator isSane_flat s
  rw [splitTopLevel, cut] at member
  rw [isBalanced_iff]
  cases later with
  | nil => simp at member
  | cons next later =>
      rcases List.mem_cons.mp member with rfl | later_member
      · exact first_ran (List.cons_ne_nil _ _)
      · exact later_ran piece later_member

/-- In a balanced text the last of the texts it is joined of is balanced as the others are. -/
theorem isBalanced_of_isBalanced_joined {between : Text} (plain : ∀ c ∈ between, IsPlain c)
    {texts : List Text} (front_balanced : ∀ text ∈ texts.dropLast, isBalanced text)
    (balanced : isBalanced (joined between texts)) : ∀ text ∈ texts, isBalanced text := by
  induction texts with
  | nil => simp
  | cons text texts ih =>
      cases texts with
      | nil =>
          rw [joined_singleton] at balanced
          exact List.forall_mem_singleton.mpr balanced
      | cons next texts =>
          rw [List.dropLast_cons_cons, List.forall_mem_cons] at front_balanced
          rw [joined_cons (List.cons_ne_nil _ _), isBalanced_append_iff front_balanced.1,
            isBalanced_append_iff (isBalanced_of_isPlain plain)] at balanced
          exact List.forall_mem_cons.mpr ⟨front_balanced.1, ih front_balanced.2 balanced⟩

theorem isBalanced_of_mem_splitTopLevel (plain : IsPlain separator) (balanced : isBalanced s)
    {piece : Text} (member : piece ∈ splitTopLevel separator s) : isBalanced piece := by
  refine isBalanced_of_isBalanced_joined (List.forall_mem_singleton.mpr plain)
    (fun _ => isBalanced_of_mem_dropLast) ?_ piece member
  rwa [joined_splitTopLevel]

/-- Texts without separators, all but the last balanced, are the pieces of what they are joined to,
up to the blanks behind the separators. -/
theorem map_trim_splitTopLevel_joined (plain : IsPlain separator)
    (visible : isBlank separator = false) {gap : Text} (gap_blank : ∀ c ∈ gap, isBlank c)
    {texts : List Text} (nonempty : texts ≠ [])
    (balanced : ∀ text ∈ texts.dropLast, isBalanced text)
    (whole : ∀ text ∈ texts, splitTopLevel separator text = [text]) :
    (splitTopLevel separator (joined (separator :: gap) texts)).map trim = texts.map trim := by
  induction texts with
  | nil => contradiction
  | cons text texts ih =>
      rw [List.forall_mem_cons] at whole
      cases texts with
      | nil => rw [joined_singleton, whole.1]
      | cons next texts =>
          rw [List.dropLast_cons_cons, List.forall_mem_cons] at balanced
          have later := ih (List.cons_ne_nil _ _) balanced.2 whole.2
          calc
            (splitTopLevel separator (joined (separator :: gap) (text :: next :: texts))).map trim =
                ([text] ++ splitTopLevel separator
                  (gap ++ joined (separator :: gap) (next :: texts))).map trim := by
              rw [joined_cons (List.cons_ne_nil _ _), List.cons_append,
                splitTopLevel_append_cons plain balanced.1, whole.1]
            _ = trim text :: (next :: texts).map trim := by
              rw [List.map_append, map_trim_splitTopLevel_blanks_append visible gap_blank, later]
              rfl

end Pieces

end Text

end LintRepair
