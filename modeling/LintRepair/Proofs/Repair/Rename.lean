import Mathlib.Data.Option.Basic
import LintRepair.Proofs.Provider
import LintRepair.Proofs.Text.Replace
import LintRepair.Proofs.Text.Word
import LintRepair.Repair.ImportLine

/-!
# Names renamed to themselves

Where a name is given itself as a new name, by `as` or by a colon, the repair writes it once.  It
finds the two names at word boundaries, next to which a dollar sign may stand: the first name goes
without the dollar signs at its start, the second one without those at its end.
-/

namespace LintRepair

namespace ImportLine

open Text

/-- A name stands between two texts as a whole: no character of a name is next to it. -/
structure StandsWhole (front name back : Text) : Prop where
  nonempty : name ≠ []
  named : ∀ c ∈ name, isRenamePart c
  before : ∀ c ∈ front.getLast?, isRenamePart c = false
  behind : ∀ c ∈ back.head?, isRenamePart c = false

/-- What may stand between a name and the new name given to it. -/
inductive Mark where
  /-- The word `as`. -/
  | as
  /-- A colon. -/
  | colon

namespace Mark

/-- The text behind the mark and the blanks around it. -/
def after? : Mark → Text → Option Text
  | .as => afterAs?
  | .colon => afterColon?

/-- The mark and the blanks around it; before a colon there are none. -/
def IsGap : Mark → Text → Prop
  | .as, gap => ∃ lead trail, gap = lead ++ ("as" ++ trail) ∧ lead ≠ [] ∧ trail ≠ [] ∧
      (∀ c ∈ lead, isBlank c) ∧ ∀ c ∈ trail, isBlank c
  | .colon, gap => ∃ blanks, gap = ':' :: blanks ∧ ∀ c ∈ blanks, isBlank c

end Mark

/-- A name and the same name behind a mark, both standing as a whole. -/
def IsSelfRename (mark : Mark) (front old new back : Text) : Prop :=
  ∃ gap, mark.IsGap gap ∧ old = new ++ (gap ++ new) ∧
    StandsWhole front new (gap ++ (new ++ back)) ∧ StandsWhole (front ++ (new ++ gap)) new back

/-- Two names with a mark between them of which one is left: they are the same up to dollar signs at
the start of the first and at the end of the second, which stay around what is left. -/
structure CollapsesAt (mark : Mark) (front old new back : Text) : Prop where
  starts : ∃ c ∈ new.head?, isWord c
  ends : ∃ c ∈ new.getLast?, isWord c
  parts : ∃ start lead gap trail rest, front = start ++ lead ∧ back = trail ++ rest ∧
    old = new ++ (gap ++ new) ∧ mark.IsGap gap ∧ (∀ c ∈ lead, c = '$') ∧ (∀ c ∈ trail, c = '$') ∧
    StandsWhole start (lead ++ new) (gap ++ (new ++ back)) ∧
    StandsWhole (front ++ (new ++ gap)) (new ++ trail) rest

section RenamePart

variable {c : Char}

theorem isRenamePart_dollar : isRenamePart '$' := by decide

theorem isWord_dollar : isWord '$' = false := by decide

theorem isRenamePart_of_isWord (word : isWord c) : isRenamePart c := by simp [isRenamePart, word]

theorem isWord_or_eq_dollar (part : isRenamePart c) : isWord c ∨ c = '$' := by
  simpa [isRenamePart] using part

theorem isWord_of_not_isRenamePart (no_part : isRenamePart c = false) : isWord c = false := by
  rw [← Bool.not_eq_true] at no_part ⊢
  exact mt isRenamePart_of_isWord no_part

theorem wordAt_eq_false {neighbour : Option Char} (no_word : ∀ c ∈ neighbour, isWord c = false) :
    wordAt neighbour = false := by
  cases neighbour with
  | none => rfl
  | some c => exact no_word c rfl

theorem not_isRenamePart_of_isBlank (blank : isBlank c) : isRenamePart c = false := by
  rw [← Bool.not_eq_true]
  intro part
  rw [visible_of_nameChar part] at blank
  contradiction

end RenamePart

namespace Mark

variable {mark : Mark} {gap s rest : Text}

theorem exists_of_after? (found : mark.after? s = some rest) :
    ∃ gap, mark.IsGap gap ∧ s = gap ++ rest := by
  cases mark with
  | as =>
      simp only [after?, afterAs?, Option.bind_eq_bind, Option.bind_eq_some_iff] at found
      obtain ⟨_, lead_found, _, as_found, trail_found⟩ := found
      obtain ⟨lead, rfl, lead_nonempty, lead_blank⟩ := exists_of_afterBlanks? lead_found
      obtain rfl := after?_eq_some_iff.mp as_found
      obtain ⟨trail, rfl, trail_nonempty, trail_blank⟩ := exists_of_afterBlanks? trail_found
      exact ⟨lead ++ ("as" ++ trail),
        ⟨lead, trail, rfl, lead_nonempty, trail_nonempty, lead_blank, trail_blank⟩, by simp⟩
  | colon =>
      obtain ⟨behind, colon_found, rfl⟩ := Option.map_eq_some_iff.mp found
      obtain rfl := after?_eq_some_iff.mp colon_found
      exact ⟨':' :: indentation behind, ⟨_, rfl, fun _ => blank_of_mem_indentation⟩, by
        simp [indentation_append_trimStart]⟩

theorem IsGap.exists_cons (isGap : mark.IsGap gap) :
    ∃ c later, gap = c :: later ∧ isRenamePart c = false := by
  cases mark with
  | as =>
      obtain ⟨lead, trail, rfl, nonempty, -, blank, -⟩ := isGap
      obtain ⟨c, later, rfl⟩ := List.exists_cons_of_ne_nil nonempty
      exact ⟨c, _, rfl, not_isRenamePart_of_isBlank (blank c List.mem_cons_self)⟩
  | colon =>
      obtain ⟨blanks, rfl, -⟩ := isGap
      exact ⟨':', blanks, rfl, by decide⟩

theorem IsGap.exists_concat (isGap : mark.IsGap gap) :
    ∃ front c, gap = front ++ [c] ∧ isRenamePart c = false := by
  cases mark with
  | as =>
      obtain ⟨lead, trail, rfl, -, nonempty, -, blank⟩ := isGap
      obtain ⟨front, c, rfl⟩ := (List.eq_nil_or_concat trail).resolve_left nonempty
      refine ⟨lead ++ ("as" ++ front), c, by simp, ?_⟩
      exact not_isRenamePart_of_isBlank (blank c (by simp))
  | colon =>
      obtain ⟨blanks, rfl, blank⟩ := isGap
      rcases List.eq_nil_or_concat blanks with rfl | ⟨front, c, rfl⟩
      · exact ⟨[], ':', rfl, by decide⟩
      · refine ⟨':' :: front, c, by simp, ?_⟩
        exact not_isRenamePart_of_isBlank (blank c (by simp))

end Mark

section BoundedName

variable {run rest : Text}

theorem wordAt_head?_append (dollars : ∀ c ∈ run, c = '$') (ends : wordAt rest.head? = false) :
    wordAt (run ++ rest).head? = false := by
  cases run with
  | nil => exact ends
  | cons c run =>
      obtain rfl := dollars c List.mem_cons_self
      exact isWord_dollar

theorem dollars_of_boundedName?_eq_none (named : ∀ c ∈ run, isRenamePart c)
    (ends : wordAt rest.head? = false) (refused : boundedName? run rest = none) :
    ∀ c ∈ run, c = '$' := by
  induction run with
  | nil => exact fun c member => absurd member List.not_mem_nil
  | cons c run ih =>
      obtain ⟨first, later⟩ := List.forall_mem_cons.mp named
      cases later_found : boundedName? run rest with
      | some result => simp [boundedName?, later_found] at refused
      | none =>
          have dollars := ih later later_found
          have no_boundary : isBoundary (some c) (run ++ rest) = false := by
            simpa [boundedName?, later_found] using refused
          rw [isBoundary, wordAt_head?_append dollars ends] at no_boundary
          refine List.forall_mem_cons.mpr ⟨(isWord_or_eq_dollar first).resolve_left ?_, dollars⟩
          simpa [wordAt] using no_boundary

/-- A bounded name is a run of characters of names without the dollar signs at its end. -/
theorem exists_of_boundedName? (named : ∀ c ∈ run, isRenamePart c)
    (ends : wordAt rest.head? = false) {name left : Text}
    (found : boundedName? run rest = some (name, left)) :
    ∃ trail, run = name ++ trail ∧ left = trail ++ rest ∧ (∀ c ∈ trail, c = '$') ∧
      ∃ c ∈ name.getLast?, isWord c := by
  induction run generalizing name with
  | nil => exact absurd found (Option.some_ne_none _).symm
  | cons c run ih =>
      obtain ⟨first, later⟩ := List.forall_mem_cons.mp named
      cases later_found : boundedName? run rest with
      | some result =>
          obtain ⟨later_name, later_left⟩ := result
          simp only [boundedName?, later_found, Option.some.injEq, Prod.mk.injEq] at found
          obtain ⟨rfl, rfl⟩ := found
          obtain ⟨trail, rfl, left_eq, dollars, d, d_last, d_word⟩ := ih later later_found
          refine ⟨trail, rfl, left_eq, dollars, d, ?_, d_word⟩
          simp [List.getLast?_cons, Option.mem_def.mp d_last]
      | none =>
          have dollars := dollars_of_boundedName?_eq_none later ends later_found
          simp only [boundedName?, later_found] at found
          split at found
          · rename_i boundary
            obtain ⟨rfl, rfl⟩ := Prod.mk.inj (Option.some.inj found)
            rw [isBoundary, wordAt_head?_append dollars ends] at boundary
            exact ⟨run, rfl, rfl, dollars, c, rfl, by simpa [wordAt] using boundary⟩
          · contradiction

end BoundedName

section Pair

variable {mark : Mark} {before s rest value : Text}

/-- The second of two names with a mark between them, read behind the first one. -/
def otherName? (mark : Mark) (behind : Text) : Option (Text × Text) := do
  let behind ← mark.after? behind
  boundedName? (behind.takeWhile isRenamePart) (behind.dropWhile isRenamePart)

theorem renamedPair_eq_some_iff :
    renamedPair mark.after? before s = some (value, rest) ↔
      isBoundary before.head? s ∧ s.takeWhile isRenamePart ≠ [] ∧
        ∃ other, otherName? mark (s.dropWhile isRenamePart) = some (other, rest) ∧
          value = if s.takeWhile isRenamePart = other then other else consumed s rest := by
  simp only [renamedPair, otherName?, Option.bind_eq_bind, Option.bind_eq_some_iff, Prod.exists,
    run?_eq_some_iff]
  constructor
  · rintro ⟨⟨⟩, boundary, _, _, ⟨nonempty, rfl, rfl⟩, behind, separated, other, _, bounded, given⟩
    obtain ⟨rfl, rfl⟩ := Prod.mk.inj (Option.some.inj given)
    refine ⟨(Option.guard_eq_some' ()).mp boundary, nonempty, other,
      ⟨behind, separated, bounded⟩, ?_⟩
    split
    · rename_i same
      exact same
    · rfl
  · rintro ⟨boundary, nonempty, other, ⟨behind, separated, bounded⟩, rfl⟩
    refine ⟨(), (Option.guard_eq_some' ()).mpr boundary, _, _, ⟨nonempty, rfl, rfl⟩, behind,
      separated, other, rest, bounded, ?_⟩
    split
    · rename_i same
      rw [← same]
      rfl
    · rfl

theorem wordAt_head?_of_takeWhile (no_word : ∀ c ∈ s.takeWhile isRenamePart, isWord c = false) :
    wordAt s.head? = false := by
  refine wordAt_eq_false fun c member => ?_
  rw [← Bool.not_eq_true]
  intro word
  obtain ⟨later, rfl⟩ := List.head?_eq_some_iff.mp member
  rw [List.takeWhile_cons_of_pos (isRenamePart_of_isWord word)] at no_word
  rw [no_word c List.mem_cons_self] at word
  contradiction

/-- What is found behind a name is a gap, a name and dollar signs that end a run. -/
theorem exists_of_otherName? {other : Text} (found : otherName? mark s = some (other, rest)) :
    ∃ gap trail back, s = gap ++ (other ++ rest) ∧ mark.IsGap gap ∧ rest = trail ++ back ∧
      (∀ c ∈ trail, c = '$') ∧ (∀ c ∈ other ++ trail, isRenamePart c) ∧
      (∀ c ∈ back.head?, isRenamePart c = false) ∧ ∃ c ∈ other.getLast?, isWord c := by
  obtain ⟨behind, separated, bounded⟩ := Option.bind_eq_some_iff.mp found
  obtain ⟨gap, isGap, rfl⟩ := Mark.exists_of_after? separated
  have named : ∀ c ∈ behind.takeWhile isRenamePart, isRenamePart c :=
    fun c member => List.mem_takeWhile_imp member
  have stop : ∀ c ∈ (behind.dropWhile isRenamePart).head?, isRenamePart c = false :=
    fun c member => refused_of_mem_dropWhile member
  have ends : wordAt (behind.dropWhile isRenamePart).head? = false :=
    wordAt_eq_false fun c member => isWord_of_not_isRenamePart (stop c member)
  obtain ⟨trail, run_eq, rfl, dollars, word_last⟩ := exists_of_boundedName? named ends bounded
  refine ⟨gap, trail, behind.dropWhile isRenamePart, ?_, isGap, rfl, dollars, run_eq ▸ named, stop,
    word_last⟩
  rw [← List.append_assoc other, ← run_eq, List.takeWhile_append_dropWhile]

/-- At a place behind a word character of a name no pair is read that begins in the rest of the
name, unless the rest is made of dollar signs. -/
def IsFresh (mark : Mark) (before s : Text) : Prop :=
  (∃ c ∈ before.takeWhile isRenamePart, isWord c) →
    otherName? mark (s.dropWhile isRenamePart) = none ∨ ∀ c ∈ s.takeWhile isRenamePart, c = '$'

/-- A refused place is not at the start of a name, or no other name follows. -/
theorem isFresh_cons {c : Char} (fresh : IsFresh mark before (c :: s))
    (refused : renamedPair mark.after? before (c :: s) = none) : IsFresh mark (c :: before) s := by
  rintro ⟨d, d_mem, d_word⟩
  have part : isRenamePart c := by
    rw [← Bool.not_eq_false]
    intro no_part
    simp [no_part] at d_mem
  simp only [IsFresh, List.takeWhile_cons_of_pos part, List.dropWhile_cons_of_pos part]
    at fresh d_mem
  by_cases inside : ∃ e ∈ before.takeWhile isRenamePart, isWord e
  · exact (fresh inside).imp_right fun dollars => (List.forall_mem_cons.mp dollars).2
  · left
    obtain rfl : d = c := by
      rcases List.mem_cons.mp d_mem with same | earlier
      · exact same
      · exact absurd ⟨d, earlier, d_word⟩ inside
    have outside : wordAt before.head? = false :=
      wordAt_head?_of_takeWhile fun e member => Bool.eq_false_iff.mpr fun e_word =>
        inside ⟨e, member, e_word⟩
    have boundary : isBoundary before.head? (d :: s) := by
      rw [isBoundary, outside]
      simp [wordAt, d_word]
    rw [Option.eq_none_iff_forall_ne_some]
    rintro ⟨other, rest⟩ found
    rw [Option.eq_none_iff_forall_ne_some] at refused
    refine refused (_, rest) (renamedPair_eq_some_iff.mpr ⟨boundary, ?_, other, ?_, rfl⟩)
    · simp [part]
    · rw [List.dropWhile_cons_of_pos part]
      exact found

theorem isFresh_append {trail back : Text} (dollars : ∀ c ∈ trail, c = '$')
    (stop : ∀ c ∈ back.head?, isRenamePart c = false) (before : Text) :
    IsFresh mark before (trail ++ back) := by
  refine fun _ => .inr ?_
  rw [takeWhile_append_eq (fun c member => dollars c member ▸ isRenamePart_dollar) stop]
  exact dollars

theorem isFresh_nil (s : Text) : IsFresh mark [] s := by
  rintro ⟨c, member, -⟩
  exact absurd member List.not_mem_nil

/-- Where two equal names are read, the first one is preceded by dollar signs only. -/
theorem dollars_before {other : Text} (fresh : IsFresh mark before s)
    (found : otherName? mark (s.dropWhile isRenamePart) = some (other, rest))
    (word_last : ∃ c ∈ (s.takeWhile isRenamePart).getLast?, isWord c) :
    ∀ c ∈ before.takeWhile isRenamePart, c = '$' := by
  intro c member
  refine (isWord_or_eq_dollar (List.mem_takeWhile_imp member)).resolve_left fun word => ?_
  rcases fresh ⟨c, member, word⟩ with none_found | dollars
  · rw [none_found] at found
    contradiction
  · obtain ⟨d, d_last, d_word⟩ := word_last
    rw [dollars d (List.mem_of_getLast? d_last), isWord_dollar] at d_word
    contradiction

theorem collapsesAt_of_otherName? {name gap trail back : Text} (fresh : IsFresh mark before s)
    (boundary : isBoundary before.head? s) (run_eq : s.takeWhile isRenamePart = name)
    (found : otherName? mark (s.dropWhile isRenamePart) = some (name, trail ++ back))
    (isGap : mark.IsGap gap) (dollars : ∀ c ∈ trail, c = '$')
    (named : ∀ c ∈ name ++ trail, isRenamePart c)
    (stop : ∀ c ∈ back.head?, isRenamePart c = false) (word_last : ∃ c ∈ name.getLast?, isWord c) :
    CollapsesAt mark before.reverse (name ++ (gap ++ name)) name (trail ++ back) := by
  have lead_dollars := dollars_before fresh found (run_eq ▸ word_last)
  have nonempty : name ≠ [] := by
    rintro rfl
    simp at word_last
  obtain ⟨first, gap_later, gap_cons, first_apart⟩ := isGap.exists_cons
  obtain ⟨gap_front, last, gap_concat, last_apart⟩ := isGap.exists_concat
  refine ⟨?_, word_last, (before.dropWhile isRenamePart).reverse,
    (before.takeWhile isRenamePart).reverse, gap, trail, back, ?_, rfl, rfl, isGap,
    fun c member => lead_dollars c (List.mem_reverse.mp member), dollars, ?_, ?_⟩
  · have outside : wordAt before.head? = false :=
      wordAt_head?_of_takeWhile fun c member => lead_dollars c member ▸ isWord_dollar
    rw [isBoundary, outside] at boundary
    cases s with
    | nil => exact absurd run_eq.symm nonempty
    | cons c s =>
        have word : isWord c := by simpa [wordAt] using boundary
        rw [← run_eq, List.takeWhile_cons_of_pos (isRenamePart_of_isWord word)]
        exact ⟨c, rfl, word⟩
  · rw [← List.reverse_append, List.takeWhile_append_dropWhile]
  · refine ⟨fun empty => nonempty (List.append_eq_nil_iff.mp empty).2, ?_, ?_, ?_⟩
    · intro c member
      rcases List.mem_append.mp member with in_lead | in_name
      · exact lead_dollars c (List.mem_reverse.mp in_lead) ▸ isRenamePart_dollar
      · exact named c (List.mem_append_left _ in_name)
    · intro c member
      rw [List.getLast?_reverse] at member
      exact refused_of_mem_dropWhile member
    · intro c member
      rw [gap_cons] at member
      obtain rfl := Option.some.inj member
      exact first_apart
  · refine ⟨fun empty => nonempty (List.append_eq_nil_iff.mp empty).1, named, ?_, stop⟩
    intro c member
    obtain rfl : last = c := by simpa [gap_concat] using member
    exact last_apart

theorem carries_renamedPair (mark : Mark) :
    (renamedPair mark.after?).Carries (IsFresh mark) (CollapsesAt mark) := by
  refine ⟨fun before c s => isFresh_cons, ?_⟩
  intro before s value rest fresh recognised
  obtain ⟨boundary, nonempty, other, found, rfl⟩ := renamedPair_eq_some_iff.mp recognised
  obtain ⟨gap, trail, back, behind_eq, isGap, rfl, dollars, named, stop, word_last⟩ :=
    exists_of_otherName? found
  have parts : s = (s.takeWhile isRenamePart ++ (gap ++ other)) ++ (trail ++ back) := by
    conv =>
      lhs
      rw [← List.takeWhile_append_dropWhile (p := isRenamePart) (l := s), behind_eq]
    simp only [List.append_assoc]
  refine ⟨s.takeWhile isRenamePart ++ (gap ++ other), ?_, parts, isFresh_append dollars stop _, ?_⟩
  · exact fun empty => nonempty (List.append_eq_nil_iff.mp empty).1
  split
  · rename_i same
    rw [same]
    exact .inr (collapsesAt_of_otherName? fresh boundary same found isGap dollars named stop
      word_last)
  · left
    conv =>
      lhs
      rw [parts, consumed_append]

end Pair

/-- A pair is collapsed as a whole exactly where no dollar sign is next to it. -/
theorem CollapsesAt.isSelfRename_iff {mark : Mark} {front old new back : Text}
    (collapses : CollapsesAt mark front old new back) :
    IsSelfRename mark front old new back ↔
      front.getLast? ≠ some '$' ∧ back.head? ≠ some '$' := by
  constructor
  · rintro ⟨gap, -, -, first_whole, second_whole⟩
    constructor
    · intro last
      exact absurd isRenamePart_dollar (Bool.eq_false_iff.mp (first_whole.before '$' last))
    · intro head
      exact absurd isRenamePart_dollar (Bool.eq_false_iff.mp (second_whole.behind '$' head))
  · rintro ⟨last_ne, head_ne⟩
    obtain ⟨start, lead, gap, trail, rest, rfl, rfl, rfl, isGap, lead_dollars, trail_dollars,
      first_whole, second_whole⟩ := collapses.parts
    have no_lead : lead = [] := by
      rcases List.eq_nil_or_concat lead with empty | ⟨lead_front, c, rfl⟩
      · exact empty
      · obtain rfl := lead_dollars c (by simp)
        exact absurd (by simp) last_ne
    have no_trail : trail = [] := by
      cases trail with
      | nil => rfl
      | cons c trail =>
          obtain rfl := trail_dollars c List.mem_cons_self
          exact absurd rfl head_ne
    subst no_lead no_trail
    simp only [List.append_nil, List.nil_append] at first_whole second_whole ⊢
    exact ⟨gap, isGap, rfl, first_whole, second_whole⟩

end ImportLine

namespace Repair

open Text ImportLine

/-- What the fix does to a line is done by collapsing pairs around `as`, and then pairs around a
colon; all else is kept.  Such a pair is a name renamed to itself exactly if no dollar sign stands
next to it. -/
theorem renames_collapsed_between_dollars (site : Site) :
    (∃ middle line, Exchanged (CollapsesAt .as) [] site.lineText middle ∧
      Exchanged (CollapsesAt .colon) [] middle line ∧
      uselessRename site =
        if line = site.lineText then none
        else some (site.replaceLine "Remove useless rename" line)) ∧
    ∀ mark front old new back, CollapsesAt mark front old new back →
      (IsSelfRename mark front old new back ↔
        front.getLast? ≠ some '$' ∧ back.head? ≠ some '$') := by
  refine ⟨⟨replaceAll (renamedPair Mark.as.after?) site.lineText, collapseRenames site.lineText,
    ?_, ?_, ?_⟩, fun mark front old new back => CollapsesAt.isSelfRename_iff⟩
  · exact exchanged_replaceAll (carries_renamedPair .as) (isFresh_nil _)
  · exact exchanged_replaceAll (carries_renamedPair .colon) (isFresh_nil _)
  · simp only [uselessRename, guard]
    split <;> simp_all

/-- A report about the first line of a text. -/
def renameSite (text : Text) : Site where
  diagnostic := ⟨"no-useless-rename", "message", .onLine 0 0 1, .error, none, none,
    Diagnostic.lintSource⟩
  document := .ofText text
  settings := .standard

theorem self_rename_collapsed_beside_other :
    uselessRename (renameSite "const \x7b bar: bar, el: $el \x7d = x;") =
      some ((renameSite "const \x7b bar: bar, el: $el \x7d = x;").replaceLine
        "Remove useless rename" "const \x7b bar, el: $el \x7d = x;") ∧
    ∃ middle, Exchanged (CollapsesAt .as) [] "const \x7b bar: bar, el: $el \x7d = x;" middle ∧
      Exchanged (CollapsesAt .colon) [] middle "const \x7b bar, el: $el \x7d = x;" := by
  have offered : uselessRename (renameSite "const \x7b bar: bar, el: $el \x7d = x;") =
      some ((renameSite "const \x7b bar: bar, el: $el \x7d = x;").replaceLine
        "Remove useless rename" "const \x7b bar, el: $el \x7d = x;") := by
    decide +kernel
  obtain ⟨⟨middle, line, by_as, by_colon, given⟩, -⟩ :=
    renames_collapsed_between_dollars (renameSite "const \x7b bar: bar, el: $el \x7d = x;")
  have covered : (renameSite "const \x7b bar: bar, el: $el \x7d = x;").lineText =
      "const \x7b bar: bar, el: $el \x7d = x;" := by decide +kernel
  rw [offered] at given
  split at given
  · exact absurd given (Option.some_ne_none _)
  · obtain rfl := Site.replaceLine_inj.mp (Option.some.inj given)
    rw [covered] at by_as
    exact ⟨offered, middle, by_as, by_colon⟩

/-- The dollar sign at the end of the new name is left behind the old one. -/
theorem dollar_behind_rename_left_behind :
    uselessRename (renameSite "import \x7b user as user$ \x7d from \"./m.ts\";") =
      some ((renameSite "import \x7b user as user$ \x7d from \"./m.ts\";").replaceLine
        "Remove useless rename" "import \x7b user$ \x7d from \"./m.ts\";") ∧
    ¬ IsSelfRename .as "import \x7b " "user as user" "user" "$ \x7d from \"./m.ts\";" := by
  refine ⟨by decide +kernel, ?_⟩
  rintro ⟨gap, -, -, -, second_whole⟩
  exact absurd (second_whole.behind '$' rfl) (by decide)

end Repair

end LintRepair
