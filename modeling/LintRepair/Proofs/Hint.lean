import Mathlib
import LintRepair.Proofs.Text.Search
import LintRepair.Proofs.Text.Word
import LintRepair.Repair.Annotation

/-!
# Hints that name a replacement

A hint that says "use X instead" is read at the first word that starts such a phrase.  Its words are
in any case, with blanks of any kind and number between them, and its value stands between backticks
or, where it has no blanks, by itself.  The title of the fix is such a phrase, so that the value is
read back from it.
-/

namespace LintRepair

namespace Hint

open Text

/-- A letter is a small letter or its capital; the long `s` is one more form of the `s`. -/
def IsCaseOf (small letter : Char) : Prop :=
  letter = small ∨ letter = small.toUpper ∨ small = 's' ∧ letter = 'ſ'

instance : DecidableRel IsCaseOf := fun small letter =>
  inferInstanceAs (Decidable (letter = small ∨ letter = small.toUpper ∨ _ ∧ _))

/-- A text is a word in small letters written in any case. -/
def IsCasing (word written : Text) : Prop := List.Forall₂ IsCaseOf word written

instance : DecidableRel IsCasing := fun word written =>
  inferInstanceAs (Decidable (List.Forall₂ IsCaseOf word written))

/-- One or more blanks. -/
structure IsGap (s : Text) : Prop where
  nonempty : s ≠ []
  blank : ∀ c ∈ s, isBlank c

/-- The ways to write a value inside a phrase. -/
inductive Writes (value : Text) : Text → Prop where
  /-- Between backticks. -/
  | ticked : Writes value ('\x60' :: (value ++ ['\x60']))
  /-- By itself. -/
  | bare (blank_free : ∀ c ∈ value, isBlank c = false) : Writes value value

/-- A phrase that says to use a value instead. -/
structure Spells (phrase value : Text) : Prop where
  nonempty : value ≠ []
  tick_free : '\x60' ∉ value
  parts : ∃ use lead written trail instead,
    phrase = use ++ (lead ++ (written ++ (trail ++ instead))) ∧ IsCasing "use" use ∧ IsGap lead ∧
      Writes value written ∧ IsGap trail ∧ IsCasing "instead" instead

/-- Behind `front` a hint says to use a value instead, in a phrase that starts a word. -/
def NamesBehind (hint front value : Text) : Prop :=
  ∃ phrase rest, hint = front ++ (phrase ++ rest) ∧ wordAt front.getLast? = false ∧
    Spells phrase value

section Casing

variable {small letter : Char} {word s rest : Text}

theorem toLower_eq_iff (is_small : small.isLower) :
    letter.toLower = small ↔ letter = small ∨ letter = small.toUpper := by
  have kept : small.toLower = small :=
    Char.toLower_eq_of_not_isUpper (Char.not_isUpper_of_isLower is_small)
  constructor
  · rintro rfl
    by_cases capital : letter.isUpper
    · right
      rw [Char.toUpper_toLower_eq_toUpper]
      exact (Char.toUpper_eq_of_not_isLower (Char.not_isLower_of_isUpper capital)).symm
    · exact .inl (Char.toLower_eq_of_not_isUpper capital).symm
  · rintro (rfl | rfl)
    · exact kept
    · rw [Char.toLower_toUpper_eq_toLower, kept]

theorem foldCase_eq_iff (is_small : small.isLower) :
    small = foldCase letter ↔ IsCaseOf small letter := by
  rw [foldCase, IsCaseOf]
  split
  · rename_i long
    subst long
    have no_small : ¬ ('ſ' = small ∨ 'ſ' = small.toUpper) := by
      rw [← toLower_eq_iff is_small]
      rintro rfl
      exact absurd is_small (by decide)
    rw [← or_assoc, or_iff_right no_small, and_iff_left rfl]
  · rename_i ordinary
    rw [eq_comm, toLower_eq_iff is_small]
    simp [ordinary]

theorem afterAnyCase?_eq_some_iff (is_small : ∀ letter ∈ word, letter.isLower) :
    afterAnyCase? word s = some rest ↔ ∃ written, IsCasing word written ∧ s = written ++ rest := by
  induction word generalizing s with
  | nil => simp [afterAnyCase?, IsCasing, eq_comm, List.forall₂_nil_left_iff]
  | cons small word ih =>
      obtain ⟨first_small, later_small⟩ := List.forall_mem_cons.mp is_small
      simp only [IsCasing, List.forall₂_cons_left_iff]
      cases s with
      | nil =>
          refine iff_of_false (Option.some_ne_none _).symm ?_
          rintro ⟨_, ⟨letter, later, -, -, rfl⟩, parts⟩
          contradiction
      | cons letter s =>
          rw [afterAnyCase?]
          split
          · rename_i same
            rw [ih later_small]
            constructor
            · rintro ⟨later, casing, rfl⟩
              exact ⟨letter :: later,
                ⟨letter, later, (foldCase_eq_iff first_small).mp same, casing, rfl⟩, rfl⟩
            · rintro ⟨_, ⟨_, later, -, casing, rfl⟩, parts⟩
              exact ⟨later, casing, (List.cons.inj parts).2⟩
          · rename_i differs
            refine iff_of_false (Option.some_ne_none _).symm ?_
            rintro ⟨_, ⟨_, later, isCase, -, rfl⟩, parts⟩
            obtain ⟨rfl, -⟩ := List.cons.inj parts
            exact differs ((foldCase_eq_iff first_small).mpr isCase)

theorem isWord_of_isAlpha (alpha : letter.isAlpha) : isWord letter := by
  have bound : letter.toNat < 0x80 := by
    simp only [Char.isAlpha, Char.isUpper, Char.isLower, Bool.or_eq_true, Bool.and_eq_true,
      decide_eq_true_eq] at alpha
    rcases alpha with ⟨-, capital⟩ | ⟨-, small⟩
    · exact Nat.lt_of_le_of_lt capital (by decide)
    · exact Nat.lt_of_le_of_lt small (by decide)
  rw [isWord, if_pos bound, Char.isAlphanum, alpha, Bool.true_or, Bool.true_or]

/-- Every letter of a word in any case is a word character. -/
theorem isWord_of_isCaseOf (is_small : small.isLower) (isCase : IsCaseOf small letter) :
    isWord letter := by
  have alpha : small.isAlpha := by rw [Char.isAlpha, is_small, Bool.or_true]
  rcases isCase with rfl | rfl | ⟨-, rfl⟩
  · exact isWord_of_isAlpha alpha
  · exact isWord_of_isAlpha (by rwa [Char.isAlpha_toUpper_eq_isAlpha])
  · decide +kernel

theorem IsCasing.exists_cons {written : Text} (is_small : small.isLower)
    (casing : IsCasing (small :: word) written) :
    ∃ letter later, written = letter :: later ∧ isWord letter := by
  obtain ⟨letter, later, isCase, -, rfl⟩ := List.forall₂_cons_left_iff.mp casing
  exact ⟨letter, later, rfl, isWord_of_isCaseOf is_small isCase⟩

end Casing

section Phrase

variable {before s rest phrase value written gap : Text}

theorem afterBlanks?_gap (isGap : IsGap gap) (visible : ∀ c ∈ s.head?, isBlank c = false) :
    afterBlanks? (gap ++ s) = some s := by
  rw [afterBlanks?_append isGap.nonempty isGap.blank, (indentation_eq_nil visible).2]

theorem exists_gap_of_afterBlanks? (found : afterBlanks? s = some rest) :
    ∃ gap, IsGap gap ∧ s = gap ++ rest := by
  obtain ⟨gap, parts, nonempty, blank⟩ := exists_of_afterBlanks? found
  exact ⟨gap, ⟨nonempty, blank⟩, parts⟩

/-- What is read as a value stands in front of the text left, in one of the two ways. -/
theorem exists_writes_of_read
    (read : (backticked? s <|> run? (fun c => c ≠ '\x60' && !isBlank c) s) = some (value, rest)) :
    value ≠ [] ∧ '\x60' ∉ value ∧ ∃ written, Writes value written ∧ s = written ++ rest := by
  rcases (Option.orElse_eq_some _ _ _).mp read with ticked | ⟨-, bare⟩
  · obtain ⟨rfl, nonempty, tick_free⟩ := backticked?_eq_some_iff.mp ticked
    exact ⟨nonempty, tick_free, _, .ticked, by simp⟩
  · obtain ⟨rfl, nonempty, accepted, -⟩ := run?_eq_some_iff_append.mp bare
    simp only [ne_eq, Bool.and_eq_true, decide_not, Bool.not_eq_true', decide_eq_false_iff_not]
      at accepted
    exact ⟨nonempty, fun member => (accepted _ member).1 rfl, value,
      .bare fun c member => (accepted c member).2, rfl⟩

/-- In front of a blank a value is read back in either way. -/
theorem read_of_writes (nonempty : value ≠ []) (tick_free : '\x60' ∉ value)
    (writes : Writes value written) (ends : EndsWord rest) :
    (backticked? (written ++ rest) <|>
      run? (fun c => c ≠ '\x60' && !isBlank c) (written ++ rest)) = some (value, rest) := by
  rw [Option.orElse_eq_some]
  cases writes with
  | ticked => exact .inl (backticked?_eq_some_iff.mpr ⟨by simp, nonempty, tick_free⟩)
  | bare blank_free =>
      right
      constructor
      · refine Option.eq_none_iff_forall_ne_some.mpr fun ⟨body, left⟩ found => ?_
        obtain ⟨parts, -⟩ := backticked?_eq_some_iff.mp found
        obtain ⟨c, value, rfl⟩ := List.exists_cons_of_ne_nil nonempty
        obtain ⟨rfl, -⟩ := List.cons.inj parts
        exact tick_free List.mem_cons_self
      · refine run?_eq_some_iff_append.mpr ⟨rfl, nonempty, fun c member => ?_, fun c first => ?_⟩
        · have differs : c ≠ '\x60' := fun same => tick_free (same ▸ member)
          simp [differs, blank_free c member]
        · simp [ends c first]

theorem Writes.visible (writes : Writes value written) (nonempty : value ≠ []) (behind : Text) :
    ∀ c ∈ (written ++ behind).head?, isBlank c = false := by
  cases writes with
  | ticked =>
      intro c first
      obtain rfl := Option.some.inj first
      decide
  | bare blank_free =>
      obtain ⟨d, value, rfl⟩ := List.exists_cons_of_ne_nil nonempty
      intro c first
      obtain rfl := Option.some.inj first
      exact blank_free _ List.mem_cons_self

theorem IsCasing.visible {small : Char} {word : Text} (is_small : small.isLower)
    (casing : IsCasing (small :: word) written) (behind : Text) :
    ∀ c ∈ (written ++ behind).head?, isBlank c = false := by
  obtain ⟨letter, later, rfl, isWord_letter⟩ := casing.exists_cons is_small
  intro c first
  obtain rfl := Option.some.inj first
  exact visible_of_nameChar (by rw [isWord_letter, Bool.true_or])

theorem IsGap.endsWord (isGap : IsGap gap) (behind : Text) : EndsWord (gap ++ behind) := by
  obtain ⟨c, gap, rfl⟩ := List.exists_cons_of_ne_nil isGap.nonempty
  exact endsWord_cons.mpr (isGap.blank c List.mem_cons_self)

theorem useInsteadPhrase_eq_some_iff :
    useInsteadPhrase before s = some (value, rest) ↔
      isBoundary before.head? s ∧ ∃ phrase, s = phrase ++ rest ∧ Spells phrase value := by
  have use_small : ∀ letter ∈ ("use" : Text), letter.isLower := List.all_eq_true.mp rfl
  have instead_small : ∀ letter ∈ ("instead" : Text), letter.isLower := List.all_eq_true.mp rfl
  simp only [useInsteadPhrase, Option.bind_eq_bind, Option.bind_eq_some_iff, Prod.exists,
    afterAnyCase?_eq_some_iff use_small, afterAnyCase?_eq_some_iff instead_small]
  constructor
  · rintro ⟨⟨⟩, boundary, _, ⟨use, use_casing, rfl⟩, _, lead_found, _, _, read, _, trail_found, _,
      ⟨instead, instead_casing, rfl⟩, given⟩
    obtain ⟨rfl, rfl⟩ := Prod.mk.inj (Option.some.inj given)
    obtain ⟨lead, lead_gap, rfl⟩ := exists_gap_of_afterBlanks? lead_found
    obtain ⟨nonempty, tick_free, written, writes, rfl⟩ := exists_writes_of_read read
    obtain ⟨trail, trail_gap, rfl⟩ := exists_gap_of_afterBlanks? trail_found
    refine ⟨(Option.guard_eq_some' ()).mp boundary,
      use ++ (lead ++ (written ++ (trail ++ instead))), by simp, nonempty, tick_free, ?_⟩
    exact ⟨use, lead, written, trail, instead, rfl, use_casing, lead_gap, writes, trail_gap,
      instead_casing⟩
  · rintro ⟨boundary, _, rfl, nonempty, tick_free, use, lead, written, trail, instead, rfl,
      use_casing, lead_gap, writes, trail_gap, instead_casing⟩
    have lead_read :=
      afterBlanks?_gap lead_gap (writes.visible nonempty (trail ++ (instead ++ rest)))
    have value_read :=
      read_of_writes nonempty tick_free writes (trail_gap.endsWord (instead ++ rest))
    have trail_read :=
      afterBlanks?_gap trail_gap (instead_casing.visible (by decide) rest)
    exact ⟨(), (Option.guard_eq_some' ()).mpr boundary, _, ⟨use, use_casing, by simp⟩, _, lead_read,
      _, _, value_read, _, trail_read, _, ⟨instead, instead_casing, rfl⟩, rfl⟩

theorem Spells.isBoundary_iff (spells : Spells phrase value) (previous : Option Char) :
    isBoundary previous (phrase ++ rest) ↔ wordAt previous = false := by
  obtain ⟨-, -, use, lead, written, trail, instead, rfl, casing, -⟩ := spells
  obtain ⟨letter, later, rfl, isWord_letter⟩ := casing.exists_cons (by decide)
  simp [isBoundary, wordAt, isWord_letter]

/-- A value is part of the phrase that names it. -/
theorem Spells.isInfix (spells : Spells phrase value) : value <:+: phrase := by
  obtain ⟨-, -, use, lead, written, trail, instead, rfl, -, -, writes, -⟩ := spells
  cases writes with
  | ticked => exact ⟨use ++ (lead ++ ['\x60']), '\x60' :: (trail ++ instead), by simp⟩
  | bare => exact ⟨use ++ lead, trail ++ instead, by simp⟩

end Phrase

section Place

variable {hint front value other : Text}

/-- A phrase stands behind a text exactly where it is recognised. -/
theorem namesBehind_iff : NamesBehind hint front value ↔
    ∃ s rest, hint = front ++ s ∧ useInsteadPhrase front.reverse s = some (value, rest) := by
  simp only [useInsteadPhrase_eq_some_iff, List.head?_reverse]
  constructor
  · rintro ⟨phrase, rest, parts, outside, spells⟩
    exact ⟨phrase ++ rest, rest, parts, (spells.isBoundary_iff _).mpr outside, phrase, rfl, spells⟩
  · rintro ⟨_, rest, parts, boundary, phrase, rfl, spells⟩
    exact ⟨phrase, rest, parts, (spells.isBoundary_iff _).mp boundary, spells⟩

/-- At one place a hint names one value. -/
theorem NamesBehind.value_unique (named : NamesBehind hint front value)
    (other_named : NamesBehind hint front other) : value = other := by
  obtain ⟨s, rest, rfl, recognised⟩ := namesBehind_iff.mp named
  obtain ⟨_, other_rest, parts, other_recognised⟩ := namesBehind_iff.mp other_named
  obtain rfl := List.append_cancel_left parts
  rw [recognised] at other_recognised
  exact congrArg Prod.fst (Option.some.inj other_recognised)

/-- The value found is named behind a text behind no shorter one of which a value is named. -/
theorem exists_of_replacement? (found : replacement? hint = some value) :
    ∃ front, NamesBehind hint front value ∧
      ∀ earlier other, NamesBehind hint earlier other → front.length ≤ earlier.length := by
  obtain ⟨place, searched, rfl⟩ := Option.map_eq_some_iff.mp found
  obtain ⟨behind, parts, recognised, refused⟩ := exists_of_search searched
  rw [List.append_nil] at recognised
  refine ⟨place.before, namesBehind_iff.mpr ⟨behind, place.rest, parts, recognised⟩, ?_⟩
  intro earlier other named
  by_contra longer
  obtain ⟨s, rest, earlier_parts, earlier_recognised⟩ := namesBehind_iff.mp named
  have none_there := refused earlier s earlier_parts (Nat.lt_of_not_le longer)
  rw [List.append_nil, earlier_recognised] at none_there
  contradiction

theorem exists_replacement?_of_named (named : NamesBehind hint front value) :
    ∃ other, replacement? hint = some other := by
  obtain ⟨s, rest, rfl, recognised⟩ := namesBehind_iff.mp named
  have found : (search useInsteadPhrase [] (front ++ s)).isSome :=
    isSome_search_append (by rw [List.append_nil, recognised]; rfl)
  rw [← Option.isSome_iff_exists, replacement?, findValue?, find?, Option.isSome_map]
  exact found

/-- A hint is read at the first place where it says to use something instead. -/
theorem replacement?_eq_some_iff : replacement? hint = some value ↔
    ∃ front, NamesBehind hint front value ∧
      ∀ earlier other, NamesBehind hint earlier other → front.length ≤ earlier.length := by
  refine ⟨exists_of_replacement?, ?_⟩
  rintro ⟨front, named, first⟩
  obtain ⟨other, found⟩ := exists_replacement?_of_named named
  obtain ⟨other_front, other_named, other_first⟩ := exists_of_replacement? found
  have same_length : front.length = other_front.length :=
    Nat.le_antisymm (first _ _ other_named) (other_first _ _ named)
  have same_front : front = other_front := by
    obtain ⟨phrase, rest, rfl, -⟩ := named
    obtain ⟨other_phrase, other_rest, parts, -⟩ := other_named
    exact List.append_inj_left parts same_length
  subst same_front
  rw [found, named.value_unique other_named]

end Place

theorem isGap_space : IsGap [' '] :=
  ⟨List.cons_ne_nil _ _, List.forall_mem_singleton.mpr rfl⟩

theorem spells_title {value : Text} (nonempty : value ≠ []) (tick_free : '\x60' ∉ value) :
    Spells ("Use `" ++ value ++ "` instead") value := by
  have use_casing : IsCasing "use" "Use" := by decide
  have instead_casing : IsCasing "instead" "instead" := by decide
  exact ⟨nonempty, tick_free, "Use", [' '], _, [' '], "instead", by simp, use_casing, isGap_space,
    .ticked, isGap_space, instead_casing⟩

theorem replacement?_eq_of_spells {phrase value : Text} (spells : Spells phrase value) :
    replacement? phrase = some value := by
  refine replacement?_eq_some_iff.mpr ⟨[], ⟨phrase, [], by simp, rfl, spells⟩, ?_⟩
  exact fun _ _ _ => Nat.zero_le _

/-- A fix that is offered for a hint puts the value the hint names in the place of the diagnostic,
and its title names the value again.  A hint that is the phrase for a value, in any case and with
any blanks, names it. -/
theorem use_instead_round_trip :
    (∀ {hint : Text} {d : Diagnostic} {fix : Fix}, Repair.useInstead hint d = some fix →
      ∃ value, replacement? hint = some value ∧ value ≠ [] ∧ '\x60' ∉ value ∧ value <:+: hint ∧
        fix.edits = [.replace d.range value] ∧ replacement? fix.title = some value) ∧
      ∀ {phrase value : Text}, Spells phrase value → replacement? phrase = some value := by
  refine ⟨?_, replacement?_eq_of_spells⟩
  intro hint d fix offered
  obtain ⟨value, found, rfl⟩ := Option.map_eq_some_iff.mp offered
  obtain ⟨front, ⟨phrase, rest, rfl, -, spells⟩, -⟩ := replacement?_eq_some_iff.mp found
  refine ⟨value, found, spells.nonempty, spells.tick_free, ?_, rfl, ?_⟩
  · exact spells.isInfix.trans ⟨front, rest, by simp⟩
  · exact replacement?_eq_of_spells (spells_title spells.nonempty spells.tick_free)

/-- A hint whose first `use` ends a word and whose value holds another one. -/
def reuseHint : Text := "Reuse it instead: USE\n`a use b`\t inſtead of c"

/-- A diagnostic that comes with it. -/
def reuseDiagnostic : Diagnostic :=
  ⟨"ban-types", "Banned", .onLine 0 4 9, .error, some reuseHint, none, "lint"⟩

theorem use_instead_round_trip_reuse :
    (∃ fix, Repair.useInstead reuseHint reuseDiagnostic = some fix ∧
      ∃ value, replacement? reuseHint = some value ∧ value ≠ [] ∧ '\x60' ∉ value ∧
        value <:+: reuseHint ∧ fix.edits = [.replace (.onLine 0 4 9) value] ∧
        replacement? fix.title = some value) ∧
      Spells "uSe [a] inſteaD" "[a]" ∧ replacement? "uSe [a] inſteaD" = some "[a]" := by
  have spells : Spells "uSe [a] inſteaD" "[a]" :=
    ⟨by decide, by decide, "uSe", " ", "[a]", " ", "inſteaD", rfl, by decide, isGap_space,
      .bare (visible_of_all rfl), isGap_space, by decide⟩
  have offered : Repair.useInstead reuseHint reuseDiagnostic =
      some (.replaceRange "Use `a use b` instead" reuseDiagnostic "a use b") := rfl
  exact ⟨⟨_, offered, use_instead_round_trip.1 offered⟩, spells, use_instead_round_trip.2 spells⟩

end Hint

end LintRepair
