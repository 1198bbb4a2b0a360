import Mathlib.Data.Option.Basic
import LintRepair.Proofs.Provider
import LintRepair.Proofs.Text.Nesting
import LintRepair.Repair.Expression

/-!
# Casts to boolean

The operand of a call of `Boolean` is put in the place of the call as it stands.  It binds as one
unit in whatever text it comes to stand exactly if no comma and no logical operator stands in it
outside brackets and strings; where one does, the repair adds no parentheses around it.
-/

namespace LintRepair

namespace Expression

open Text Nesting

/-- One of some marks stands in a text outside its brackets and strings. -/
def StandsIn (marks : List Text) (s : Text) : Prop :=
  ∃ front mark back, s = front ++ (mark ++ back) ∧ mark ∈ marks ∧ isBalanced front

/-- A text is one pair of parentheses with what stands in it. -/
def IsParenthesised (s : Text) : Prop := ∃ inner, s = '(' :: (inner ++ [')']) ∧ isBalanced inner

/-- Behind any text that ends outside strings, no mark of the operand stands at the level of what is
around it. -/
def BindsAsUnit (marks : List Text) (operand : Text) : Prop :=
  ∀ left state, flat.run left = some state → state.quote = none →
    ∀ front mark back, operand = front ++ (mark ++ back) → mark ∈ marks →
      flat.run (left ++ front) ≠ some state

/-- The logical operators. -/
def logicalOperators : List Text := ["||", "&&", "??"]

/-- The marks that take apart what a cast is an operand of: a comma and the logical operators. -/
def looseMarks : List Text := "," :: logicalOperators

/-- A cast has one argument, and if a logical operator stands in it, what is put in the place of the
cast is in parentheses. -/
def StaysGrouped (argument replacement : Text) : Prop :=
  ¬ StandsIn [","] argument ∧ (StandsIn logicalOperators argument → IsParenthesised replacement)

section Marks

variable {marks : List Text} {s : Text}

theorem standsIn_cons_iff {mark : Text} :
    StandsIn (mark :: marks) s ↔ StandsIn [mark] s ∨ StandsIn marks s := by
  constructor
  · rintro ⟨front, found, back, parts, member, balanced⟩
    rcases List.mem_cons.mp member with rfl | later
    · exact .inl ⟨front, found, back, parts, List.mem_singleton_self _, balanced⟩
    · exact .inr ⟨front, found, back, parts, later, balanced⟩
  · rintro (⟨front, found, back, parts, member, balanced⟩ |
      ⟨front, found, back, parts, member, balanced⟩)
    · exact ⟨front, found, back, parts, List.mem_cons.mpr (.inl (List.mem_singleton.mp member)),
        balanced⟩
    · exact ⟨front, found, back, parts, List.mem_cons_of_mem _ member, balanced⟩

theorem standsIn_iff_exists_take : StandsIn marks s ↔
    ∃ n ∈ List.range (s.length + 1), isBalanced (s.take n) ∧ ∃ mark ∈ marks, mark <+: s.drop n := by
  constructor
  · rintro ⟨front, mark, back, rfl, member, balanced⟩
    refine ⟨front.length, List.mem_range.mpr ?_, ?_, mark, member, ?_⟩
    · rw [List.length_append]
      omega
    · rwa [List.take_left]
    · rw [List.drop_left]
      exact List.prefix_append mark back
  · rintro ⟨n, -, balanced, mark, member, back, drop_eq⟩
    exact ⟨s.take n, mark, back, by rw [drop_eq, List.take_append_drop], member, balanced⟩

instance : Decidable (StandsIn marks s) := decidable_of_iff' _ standsIn_iff_exists_take

/-- Blanks around a text bring in no mark and take none away. -/
theorem standsIn_trim_iff (tokens : ∀ mark ∈ marks, IsToken mark) :
    StandsIn marks (trim s) ↔ StandsIn marks s := by
  constructor
  · rintro ⟨front, mark, back, parts, member, balanced⟩
    refine ⟨indentation s ++ front, mark, back ++ trailing (trimStart s), ?_, member, ?_⟩
    · calc
        s = indentation s ++ (trim s ++ trailing (trimStart s)) := eq_append_trim s
        _ = _ := by rw [parts]; simp only [List.append_assoc]
    · exact isBalanced_append (isBalanced_of_isBlank fun _ => blank_of_mem_indentation) balanced
  · rintro ⟨front, mark, back, rfl, member, balanced⟩
    exact ⟨trimStart front, mark, trimEnd back, trim_append_token (tokens mark member) front back,
      member, isBalanced_trimStart balanced⟩

/-- Inside parentheses no mark stands at the level of what is around them. -/
theorem not_standsIn_of_isParenthesised (plain : ∀ mark ∈ marks, ∃ c ∈ mark.head?, IsPlain c)
    (parenthesised : IsParenthesised s) : ¬ StandsIn marks s := by
  rintro ⟨front, mark, back, parts, member, balanced⟩
  obtain ⟨inner, rfl, inner_balanced⟩ := parenthesised
  obtain ⟨c, first_of_mark, c_plain⟩ := plain mark member
  obtain ⟨later, rfl⟩ := List.head?_eq_some_iff.mp first_of_mark
  cases front with
  | nil =>
      obtain rfl := (List.cons.inj parts).1
      exact absurd c_plain (by decide)
  | cons first front =>
      obtain ⟨rfl, inner_parts⟩ := List.cons.inj parts
      -- The mark is none of the two parentheses, so the text before it starts the inner text.
      obtain ⟨middle, rfl⟩ : ∃ middle, inner = front ++ middle := by
        rcases List.append_eq_append_iff.mp inner_parts with
          ⟨beyond, -, last⟩ | ⟨middle, inner_eq, -⟩
        · rcases List.append_eq_singleton_iff.mp last.symm with ⟨-, mark_last⟩ | ⟨-, no_mark⟩
          · obtain rfl := (List.cons.inj mark_last).1
            exact absurd c_plain (by decide)
          · contradiction
        · exact ⟨middle, inner_eq⟩
      obtain ⟨state, ran, -⟩ := Option.bind_eq_some_iff.mp
        (run_append.symm.trans (isBalanced_iff.mp inner_balanced))
      have deeper_ran := run_deeper 1 ran
      have closed : (flat.deeper 1).run front = some flat := isBalanced_iff.mp balanced
      have depths := congrArg depth (Option.some.inj (closed.symm.trans deeper_ran))
      change 0 = 1 + state.depth at depths
      omega

/-- A balanced operand binds as one unit exactly if no mark stands in it. -/
theorem bindsAsUnit_iff (balanced : isBalanced s) : BindsAsUnit marks s ↔ ¬ StandsIn marks s := by
  constructor
  · rintro binds ⟨front, mark, back, parts, member, front_balanced⟩
    exact binds [] flat rfl rfl front mark back parts member (isBalanced_iff.mp front_balanced)
  · rintro absent left state left_ran unquoted front mark back rfl member both_ran
    have sane := isSane_flat.run left_ran
    obtain ⟨inner, ran, -⟩ := Option.bind_eq_some_iff.mp
      (run_append.symm.trans (isBalanced_iff.mp balanced))
    -- The operand closes nothing around it, so it reads behind the other text as it does alone.
    have deeper_ran := run_deeper state.depth ran
    rw [← sane.eq_deeper unquoted] at deeper_ran
    rw [run_append, left_ran] at both_ran
    have same : inner.deeper state.depth = state :=
      Option.some.inj (deeper_ran.symm.trans both_ran)
    have inner_unquoted : inner.quote = none := by rw [← unquoted, ← same]; rfl
    have depths : state.depth + inner.depth = state.depth := congrArg depth same
    have surface : inner.depth = 0 := by omega
    rw [(isSane_flat.run ran).eq_deeper inner_unquoted, surface] at ran
    exact absent ⟨front, mark, back, rfl, member, isBalanced_iff.mpr ran⟩

theorem isToken_of_mem_looseMarks {mark : Text} (member : mark ∈ looseMarks) : IsToken mark := by
  simp only [looseMarks, logicalOperators, List.mem_cons, List.not_mem_nil, or_false] at member
  rcases member with rfl | rfl | rfl | rfl <;> exact ⟨List.cons_ne_nil _ _, visible_of_all rfl⟩

theorem plain_of_mem_logicalOperators {mark : Text} (member : mark ∈ logicalOperators) :
    ∃ c ∈ mark.head?, IsPlain c := by
  simp only [logicalOperators, List.mem_cons, List.not_mem_nil, or_false] at member
  rcases member with rfl | rfl | rfl <;> exact ⟨_, rfl, by decide⟩

end Marks

theorem uncast?_call (argument : Text) : uncast? ("Boolean(" ++ (argument ++ ")")) =
    if trim argument ≠ [] ∧ isBalanced argument then some (trim argument) else none := by
  have called : after? "Boolean(" ("Boolean(" ++ (argument ++ ")")) = some (argument ++ ")") :=
    after?_eq_some_iff.mpr rfl
  have closed : before? ")" (argument ++ ")") = some argument := before?_eq_some_iff.mpr rfl
  have doubled : after? "!!" ("Boolean(" ++ (argument ++ ")")) = none := rfl
  have same_balance : isBalanced (trim argument) = isBalanced argument :=
    Bool.eq_iff_iff.mpr isBalanced_trim_iff
  simp only [uncast?, doubled, called, closed, Option.bind_eq_bind, Option.bind_some]
  rw [same_balance]
  cases trim argument <;> cases isBalanced argument <;> rfl

end Expression

namespace Repair

open Text Expression

/-- A call of `Boolean` is dropped exactly if its argument is balanced and not blank, and the
argument takes its place as it stands.  The argument stays grouped, and binds as one unit in every
text, exactly if no comma and no logical operator stands in it outside brackets and strings. -/
theorem cast_call_stays_grouped_iff {site : Site} {argument : Text}
    (covered : site.text?.map trim = some ("Boolean(" ++ (argument ++ ")"))) :
    booleanCast site = (if trim argument ≠ [] ∧ isBalanced argument then
      some (site.replaceRange "Remove unnecessary boolean cast" (trim argument)) else none) ∧
    (isBalanced argument →
      (StaysGrouped argument (trim argument) ↔ ¬ StandsIn looseMarks argument) ∧
      (BindsAsUnit looseMarks (trim argument) ↔ ¬ StandsIn looseMarks argument)) := by
  constructor
  · obtain ⟨text, text_eq, trimmed⟩ := Option.map_eq_some_iff.mp covered
    simp only [booleanCast, text_eq, Option.bind_eq_bind, Option.bind_some, trimmed, uncast?_call]
    split <;> rfl
  · intro balanced
    constructor
    · have bare (operator : StandsIn logicalOperators argument) :
          ¬ IsParenthesised (trim argument) := fun parenthesised =>
        not_standsIn_of_isParenthesised (fun _ => plain_of_mem_logicalOperators) parenthesised
          ((standsIn_trim_iff fun _ member =>
            isToken_of_mem_looseMarks (List.mem_cons_of_mem _ member)).mpr operator)
      rw [looseMarks, standsIn_cons_iff, not_or, StaysGrouped]
      exact and_congr_right fun _ => ⟨fun grouped operator => bare operator (grouped operator),
        fun absent operator => absurd operator absent⟩
    · rw [bindsAsUnit_iff (isBalanced_trim balanced),
        standsIn_trim_iff fun _ => isToken_of_mem_looseMarks]

/-- A report about a cast. -/
def castSite (text : Text) (first last : Nat) : Site :=
  .reporting "no-extra-boolean-cast" text (.onLine 0 first last)

/-- A call whose arguments hold a disjunction, and a comma in a string. -/
def callArgument : Text := " f(a || b, \",\") "

/-- A report about a cast of this call. -/
def callCast : Site := castSite ("while (Boolean(" ++ (callArgument ++ ")) \x7b\x7d")) 7 32

theorem cast_call_stays_grouped_around_call :
    callCast.text?.map trim = some ("Boolean(" ++ (callArgument ++ ")")) ∧
    booleanCast callCast =
      some (callCast.replaceRange "Remove unnecessary boolean cast" "f(a || b, \",\")") ∧
    isBalanced callArgument ∧ StaysGrouped callArgument "f(a || b, \",\")" ∧
    BindsAsUnit looseMarks "f(a || b, \",\")" := by
  have covered : callCast.text?.map trim = some ("Boolean(" ++ (callArgument ++ ")")) := by
    decide +kernel
  have balanced : isBalanced callArgument := by decide
  have absent : ¬ StandsIn looseMarks callArgument := by decide +kernel
  obtain ⟨offered, grouped⟩ := cast_call_stays_grouped_iff covered
  obtain ⟨stays_iff, binds_iff⟩ := grouped balanced
  exact ⟨covered, offered, balanced, stays_iff.mpr absent, binds_iff.mpr absent⟩

/-- The operand of a negation is taken apart. -/
theorem operand_of_negation_taken_apart :
    booleanCast (castSite "if (!Boolean(a || b)) \x7b\x7d" 5 20) =
      some ((castSite "if (!Boolean(a || b)) \x7b\x7d" 5 20).replaceRange
        "Remove unnecessary boolean cast" "a || b") ∧
    ¬ StaysGrouped "a || b" "a || b" ∧ ¬ BindsAsUnit looseMarks "a || b" := by
  have balanced : isBalanced "a || b" := by decide
  refine ⟨by decide +kernel, ?_, ?_⟩
  · rintro ⟨-, grouped⟩
    obtain ⟨inner, parts, -⟩ := grouped (by decide +kernel)
    exact absurd (List.cons.inj parts).1 (by decide)
  · rw [bindsAsUnit_iff balanced]
    exact not_not_intro (by decide +kernel)

end Repair

end LintRepair
