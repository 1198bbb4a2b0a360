import Mathlib.Data.List.TakeWhile
import LintRepair.Proofs.Text.Piece
import LintRepair.Text.Search

/-!
# Recognised places

A recogniser leaves a final part of the text it looks at.  What a search finds is then a part of the
text, between what it gives as standing before and behind it.
-/

namespace LintRepair

namespace Text

/-- What the recogniser leaves is a final part of the text it looks at. -/
def Recogniser.LeavesSuffix (recognise : Recogniser α) : Prop :=
  ∀ before s value rest, recognise before s = some (value, rest) → rest <:+ s

theorem consumed_append (front rest : Text) : consumed (front ++ rest) rest = front := by
  simp [consumed]

theorem search_of_recognised {recognise : Recogniser α} {before s rest : Text} {value : α}
    (recognised : recognise before s = some (value, rest)) :
    search recognise before s = some ⟨[], value, rest⟩ := by
  unfold search
  rw [recognised]

theorem search_nil_of_refused {recognise : Recogniser α} {before : Text}
    (refused : recognise before [] = none) : search recognise before [] = none := by
  unfold search
  rw [refused]

theorem search_cons_of_refused {recognise : Recogniser α} {before s : Text} {c : Char}
    (refused : recognise before (c :: s) = none) :
    search recognise before (c :: s) = (search recognise (c :: before) s).map fun found =>
      { found with before := c :: found.before } := by
  conv =>
    lhs
    unfold search
  rw [refused]

/-- Where a place is recognised behind some text, one is found. -/
theorem isSome_search_append {recognise : Recogniser α} {before front s : Text}
    (recognised : (recognise (front.reverse ++ before) s).isSome) :
    (search recognise before (front ++ s)).isSome := by
  induction front generalizing before with
  | nil =>
      obtain ⟨⟨value, rest⟩, found⟩ := Option.isSome_iff_exists.mp recognised
      have here : search recognise before s = some ⟨[], value, rest⟩ := search_of_recognised found
      rw [List.nil_append, here]
      rfl
  | cons c front ih =>
      rw [List.cons_append]
      cases here : recognise before (c :: (front ++ s)) with
      | some result =>
          rw [search_of_recognised here]
          rfl
      | none =>
          have later : (search recognise (c :: before) (front ++ s)).isSome :=
            ih (by simpa using recognised)
          rw [search_cons_of_refused here, Option.isSome_map]
          exact later

/-- What is found is recognised at its place, and no place before is. -/
theorem exists_of_search {recognise : Recogniser α} {before s : Text} {found : Found α}
    (searched : search recognise before s = some found) :
    ∃ behind, s = found.before ++ behind ∧
      recognise (found.before.reverse ++ before) behind = some (found.value, found.rest) ∧
      ∀ first second, s = first ++ second → first.length < found.before.length →
        recognise (first.reverse ++ before) second = none := by
  induction s generalizing before found with
  | nil =>
      cases recognised : recognise before [] with
      | none => simp [search_nil_of_refused recognised] at searched
      | some result =>
          rw [search_of_recognised recognised] at searched
          obtain rfl := Option.some.inj searched
          exact ⟨[], rfl, recognised, fun first second _ shorter => by contradiction⟩
  | cons c s ih =>
      cases recognised : recognise before (c :: s) with
      | none =>
          rw [search_cons_of_refused recognised] at searched
          obtain ⟨later, later_found, rfl⟩ := Option.map_eq_some_iff.mp searched
          obtain ⟨behind, rfl, here, refused⟩ := ih later_found
          refine ⟨behind, rfl, by simpa using here, fun first second parts shorter => ?_⟩
          rcases List.cons_eq_append_iff.mp parts with ⟨rfl, rfl⟩ | ⟨first, rfl, same⟩
          · exact recognised
          · simpa using refused first second same (Nat.lt_of_succ_lt_succ shorter)
      | some result =>
          rw [search_of_recognised recognised] at searched
          obtain rfl := Option.some.inj searched
          exact ⟨c :: s, rfl, recognised, fun first second _ shorter => by contradiction⟩

theorem eq_append_of_search {recognise : Recogniser α} (leaves : recognise.LeavesSuffix)
    {before s : Text} {found : Found α} (searched : search recognise before s = some found) :
    ∃ taken, s = found.before ++ taken ++ found.rest := by
  obtain ⟨behind, rfl, recognised, -⟩ := exists_of_search searched
  obtain ⟨taken, rfl⟩ := leaves _ _ _ _ recognised
  exact ⟨taken, (List.append_assoc _ _ _).symm⟩

theorem afterWordStart?_eq_some_iff {word before s rest : Text} :
    afterWordStart? word before s = some rest ↔ isBoundary before.head? s ∧ s = word ++ rest := by
  rw [afterWordStart?]
  split
  · rename_i boundary
    rw [after?_eq_some_iff, and_iff_right boundary]
  · rename_i inside
    simp [inside]

section Run

variable {accept : Char → Bool} {s taken rest : Text}

theorem run?_eq_some_iff : run? accept s = some (taken, rest) ↔
    s.takeWhile accept ≠ [] ∧ taken = s.takeWhile accept ∧ rest = s.dropWhile accept := by
  rw [run?]
  split
  · rename_i none_taken
    simp [none_taken]
  · rename_i some_taken
    simp only [Option.some.injEq, Prod.mk.injEq]
    exact ⟨fun ⟨taken_eq, rest_eq⟩ => ⟨some_taken, taken_eq.symm, rest_eq.symm⟩,
      fun ⟨_, taken_eq, rest_eq⟩ => ⟨taken_eq.symm, rest_eq.symm⟩⟩

/-- A run ends where a character is not accepted. -/
theorem refused_of_mem_dropWhile {c : Char} (member : c ∈ (s.dropWhile accept).head?) :
    accept c = false := by
  have refused := List.head?_dropWhile_not accept s
  rw [Option.mem_def.mp member] at refused
  simpa using refused

/-- A run is found again behind which nothing is accepted. -/
theorem takeWhile_append_eq (accepted : ∀ c ∈ taken, accept c)
    (stop : ∀ c ∈ rest.head?, accept c = false) : (taken ++ rest).takeWhile accept = taken := by
  rw [List.takeWhile_append_of_pos accepted]
  cases rest with
  | nil => simp
  | cons c rest => simp [stop c rfl]

/-- A run that is given is non-empty and accepted, and ends where a character is not accepted. -/
theorem run?_eq_some_iff_append : run? accept s = some (taken, rest) ↔
    s = taken ++ rest ∧ taken ≠ [] ∧ (∀ c ∈ taken, accept c) ∧
      ∀ c ∈ rest.head?, accept c = false := by
  rw [run?_eq_some_iff]
  constructor
  · rintro ⟨nonempty, rfl, rfl⟩
    exact ⟨List.takeWhile_append_dropWhile.symm, nonempty, fun _ => List.mem_takeWhile_imp,
      fun _ => refused_of_mem_dropWhile⟩
  · rintro ⟨rfl, nonempty, accepted, stop⟩
    have taken_eq := takeWhile_append_eq accepted stop
    have parts := List.takeWhile_append_dropWhile (p := accept) (l := taken ++ rest)
    rw [taken_eq] at parts
    exact ⟨by rwa [taken_eq], taken_eq.symm, (List.append_cancel_left parts).symm⟩

theorem enclosed?_eq_some_iff {delimits : Char → Bool} {body : Text} :
    enclosed? delimits s = some (body, rest) ↔
      ∃ first last, s = first :: (body ++ last :: rest) ∧ delimits first ∧ delimits last ∧
        body ≠ [] ∧ ∀ c ∈ body, delimits c = false := by
  cases s with
  | nil => simp [enclosed?]
  | cons c s =>
      by_cases opens : delimits c
      · rw [enclosed?, if_pos opens]
        constructor
        · intro found
          split at found
          · rename_i body last rest ran
            obtain ⟨rfl, rfl⟩ := Prod.mk.inj (Option.some.inj found)
            obtain ⟨rfl, nonempty, inner, closes⟩ := run?_eq_some_iff_append.mp ran
            exact ⟨c, last, rfl, opens, by simpa using closes, nonempty, by simpa using inner⟩
          · contradiction
        · rintro ⟨first, last, parts, -, closes, nonempty, inner⟩
          obtain ⟨rfl, rfl⟩ := List.cons.inj parts
          have ran : run? (fun c => !delimits c) (body ++ last :: rest) =
              some (body, last :: rest) :=
            run?_eq_some_iff_append.mpr ⟨rfl, nonempty, by simpa using inner, by simpa using closes⟩
          rw [ran]
      · rw [enclosed?, if_neg opens]
        refine iff_of_false (Option.some_ne_none _).symm ?_
        rintro ⟨first, last, parts, first_opens, -⟩
        obtain ⟨rfl, -⟩ := List.cons.inj parts
        exact opens first_opens

theorem backticked?_eq_some_iff {body : Text} : backticked? s = some (body, rest) ↔
    s = '\x60' :: (body ++ '\x60' :: rest) ∧ body ≠ [] ∧ '\x60' ∉ body := by
  simp only [backticked?, enclosed?_eq_some_iff, decide_eq_true_eq, decide_eq_false_iff_not]
  constructor
  · rintro ⟨_, _, parts, rfl, rfl, nonempty, inner⟩
    exact ⟨parts, nonempty, fun member => inner _ member rfl⟩
  · rintro ⟨parts, nonempty, absent⟩
    exact ⟨_, _, parts, rfl, rfl, nonempty, fun c member same => absent (same ▸ member)⟩

end Run

/-- What is found has its place between the text before it and the text left. -/
theorem eq_append_of_find? {recognise : Recogniser α} (leaves : recognise.LeavesSuffix) {s : Text}
    {found : Found α} (searched : find? recognise s = some found) :
    ∃ taken, s = found.before ++ taken ++ found.rest :=
  eq_append_of_search leaves searched

theorem isSuffix_of_afterWord? {word before s rest : Text}
    (word_found : afterWord? word before s = some rest) : rest <:+ s := by
  simp only [afterWord?, afterWordEnd?] at word_found
  split at word_found
  · obtain ⟨found, -⟩ := Option.filter_eq_some_iff.mp word_found
    exact ⟨word, (after?_eq_some_iff.mp found).symm⟩
  · contradiction

end Text

end LintRepair
