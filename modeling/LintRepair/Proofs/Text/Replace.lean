import LintRepair.Proofs.Text.Search

/-!
# Texts with exchanged pieces

Replacing what a recogniser accepts exchanges pieces of the text and keeps all else.  Which pieces
these are is told by a condition on the places that are looked at, which holds at the first place
and is carried from each place to the next one.
-/

namespace LintRepair

namespace Text

/-- Behind `front` a text becomes another one in which pieces are exchanged.  The condition is on
the text before each of them, the piece, what is put in its place, and the text behind it. -/
inductive Exchanged (allowed : (front old new back : Text) → Prop) :
    (front s out : Text) → Prop
  | nil {front : Text} : Exchanged allowed front [] []
  | keep {front s out : Text} (c : Char) (later : Exchanged allowed (front ++ [c]) s out) :
      Exchanged allowed front (c :: s) (c :: out)
  | swap {front old new back out : Text} (fits : allowed front old new back)
      (later : Exchanged allowed (front ++ old) back out) :
      Exchanged allowed front (old ++ back) (new ++ out)

section Replace

variable {allowed : (front old new back : Text) → Prop} {front s out : Text}

theorem Exchanged.keep_append (kept : Text) (later : Exchanged allowed (front ++ kept) s out) :
    Exchanged allowed front (kept ++ s) (kept ++ out) := by
  induction kept generalizing front with
  | nil => simpa using later
  | cons c kept ih => exact .keep c (ih (by simpa using later))

variable {recognise : Recogniser Text} {ready : (before s : Text) → Prop}

/-- A condition on places is carried on by a replacement if it survives a refused place, and holds
behind what is recognised, which is kept as it is or may be exchanged. -/
structure Recogniser.Carries (recognise : Recogniser Text) (ready : (before s : Text) → Prop)
    (allowed : (front old new back : Text) → Prop) : Prop where
  refused : ∀ before c s, ready before (c :: s) → recognise before (c :: s) = none →
    ready (c :: before) s
  recognised : ∀ before s value rest, ready before s → recognise before s = some (value, rest) →
    ∃ old, old ≠ [] ∧ s = old ++ rest ∧ ready (old.reverse ++ before) rest ∧
      (value = old ∨ allowed before.reverse old value rest)

theorem exchanged_replaceFrom (carries : recognise.Carries ready allowed) {before s : Text}
    (start : ready before s) :
    Exchanged allowed before.reverse s (replaceFrom recognise before s) := by
  fun_induction replaceFrom recognise before s with
  | case1 before => exact .nil
  | case2 before c s value rest found shorter ih =>
      obtain ⟨old, -, parts, onward, kept | fits⟩ :=
        carries.recognised before (c :: s) value rest start found
      all_goals
        rw [parts, consumed_append] at ih ⊢
        have later := ih onward
        rw [List.reverse_append, List.reverse_reverse] at later
      · rw [kept]
        exact later.keep_append old
      · exact .swap fits later
  | case3 before c s value rest found longer ih =>
      obtain ⟨old, nonempty, parts, -⟩ := carries.recognised before (c :: s) value rest start found
      have lengths := congrArg List.length parts
      have some_taken := List.length_pos_iff.mpr nonempty
      simp only [List.length_cons, List.length_append] at lengths
      omega
  | case4 before c s found ih =>
      have later := ih (carries.refused before c s start found)
      rw [List.reverse_cons] at later
      exact .keep c later

theorem exchanged_replaceAll (carries : recognise.Carries ready allowed) (start : ready [] s) :
    Exchanged allowed [] s (replaceAll recognise s) := exchanged_replaceFrom carries start

end Replace

end Text

end LintRepair
