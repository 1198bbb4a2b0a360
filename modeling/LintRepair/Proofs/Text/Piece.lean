import LintRepair.Proofs.Text.Cut
import LintRepair.Text.Blank

/-!
# Parts of a text

Looking for a fixed piece and trimming blanks take a text apart: what they give are parts of it, in
order.
-/

namespace LintRepair

namespace Text

theorem after?_eq_some_iff {lead s rest : Text} : after? lead s = some rest ↔ s = lead ++ rest := by
  induction lead generalizing s with
  | nil => simp [after?]
  | cons l lead ih =>
      cases s with
      | nil => simp [after?]
      | cons c s =>
          by_cases same : l = c
          · simp [after?, same, ih]
          · simp [after?, same, Ne.symm same]

theorem startsWith_iff {s lead : Text} : startsWith s lead ↔ lead <+: s := by
  rw [startsWith, Option.isSome_iff_exists]
  constructor
  · rintro ⟨rest, found⟩
    exact ⟨rest, (after?_eq_some_iff.mp found).symm⟩
  · rintro ⟨rest, parts⟩
    exact ⟨rest, after?_eq_some_iff.mpr parts.symm⟩

/-- A text starts with only one piece of a length. -/
theorem eq_of_startsWith {s first second : Text} (first_leads : startsWith s first)
    (second_leads : startsWith s second) (same : first.length = second.length) :
    first = second := by
  rw [startsWith_iff] at first_leads second_leads
  exact (List.prefix_of_prefix_length_le first_leads second_leads
    (Nat.le_of_eq same)).eq_of_length same

theorem before?_eq_some_iff {tail s front : Text} :
    before? tail s = some front ↔ s = front ++ tail := by
  simp only [before?, Option.map_eq_some_iff, after?_eq_some_iff]
  constructor
  · rintro ⟨reversed, parts, rfl⟩
    simpa using congrArg List.reverse parts
  · rintro rfl
    exact ⟨front.reverse, by simp, by simp⟩

theorem endsWith_iff {s tail : Text} : endsWith s tail ↔ tail <:+ s := by
  rw [endsWith, Option.isSome_iff_exists]
  exact exists_congr fun front => before?_eq_some_iff.trans eq_comm

theorem eq_append_of_splitFirst? {piece s left right : Text}
    (split : splitFirst? piece s = some (left, right)) : s = left ++ piece ++ right := by
  induction s generalizing left with
  | nil =>
      simp only [splitFirst?, Option.map_eq_some_iff, after?_eq_some_iff, Prod.mk.injEq] at split
      obtain ⟨rest, parts, rfl, rfl⟩ := split
      simpa using parts
  | cons c s ih =>
      rw [splitFirst?] at split
      split at split
      · rename_i rest found
        simp only [Option.some.injEq, Prod.mk.injEq] at split
        obtain ⟨rfl, rfl⟩ := split
        simpa using after?_eq_some_iff.mp found
      · obtain ⟨⟨front, rest⟩, found, parts⟩ := Option.map_eq_some_iff.mp split
        simp only [Prod.mk.injEq] at parts
        obtain ⟨rfl, rfl⟩ := parts
        simp [ih found]

theorem containsPiece_iff {s piece : Text} : containsPiece s piece ↔ piece <:+: s := by
  rw [containsPiece]
  constructor
  · intro found
    obtain ⟨⟨left, right⟩, split⟩ := Option.isSome_iff_exists.mp found
    exact ⟨left, right, (eq_append_of_splitFirst? split).symm⟩
  · intro occurs
    induction s with
    | nil =>
        obtain rfl := List.eq_nil_of_infix_nil occurs
        rfl
    | cons c s ih =>
        rw [splitFirst?]
        cases found : after? piece (c :: s) with
        | some rest => rfl
        | none =>
            rcases List.infix_cons_iff.mp occurs with leads | later
            · have starts := startsWith_iff.mpr leads
              rw [startsWith, found] at starts
              contradiction
            · simpa using ih later

/-- A piece without a character does not reach over an occurrence of it. -/
theorem infix_append_cons_iff {c : Char} {piece a b : Text} (absent : c ∉ piece) :
    piece <:+: a ++ c :: b ↔ piece <:+: a ∨ piece <:+: b := by
  constructor
  · rintro ⟨front, back, parts⟩
    rcases List.append_eq_append_iff.mp parts with ⟨more, rfl, -⟩ | ⟨beyond, piece_end, rest⟩
    · exact .inl ⟨front, more, rfl⟩
    · rcases List.cons_eq_append_iff.mp rest with ⟨rfl, -⟩ | ⟨beyond, rfl, rfl⟩
      · exact .inl ⟨front, [], by simpa using piece_end⟩
      · rcases List.append_eq_append_iff.mp piece_end with ⟨shared, -, rfl⟩ | ⟨shared, rfl, same⟩
        · exact absurd (by simp) absent
        · rcases List.cons_eq_append_iff.mp same with ⟨rfl, rfl⟩ | ⟨shared, rfl, rfl⟩
          · exact absurd List.mem_cons_self absent
          · exact .inr ⟨shared, back, rfl⟩
  · rintro (left | right)
    · exact left.trans (List.prefix_append a (c :: b)).isInfix
    · exact right.trans ((List.suffix_cons c b).trans (List.suffix_append a (c :: b))).isInfix

/-- A piece of two different characters is found first behind a text that does not hold it. -/
theorem splitFirst?_append_pair {a b : Char} (differ : a ≠ b) {inner : Text}
    (absent : ¬ [a, b] <:+: inner) (behind : Text) :
    splitFirst? [a, b] (inner ++ a :: b :: behind) = some (inner, behind) := by
  induction inner with
  | nil => simp [splitFirst?, after?]
  | cons c inner ih =>
      have later_absent : ¬ [a, b] <:+: inner := fun later =>
        absent (List.infix_cons_iff.mpr (.inr later))
      have not_here : after? [a, b] (c :: (inner ++ a :: b :: behind)) = none := by
        refine Option.eq_none_iff_forall_ne_some.mpr fun rest found => ?_
        have parts := after?_eq_some_iff.mp found
        cases inner with
        | nil =>
            simp only [List.cons_append, List.nil_append, List.cons.injEq] at parts
            exact differ parts.2.1
        | cons d inner =>
            simp only [List.cons_append, List.nil_append, List.cons.injEq] at parts
            obtain ⟨rfl, rfl, -⟩ := parts
            exact absent ⟨[], inner, rfl⟩
      rw [List.cons_append, splitFirst?, not_here, ih later_absent]
      rfl

/-- A text is cut at the first occurrence of a character. -/
theorem splitFirst?_char_append {c : Char} {left : Text} (absent : c ∉ left) (right : Text) :
    splitFirst? [c] (left ++ c :: right) = some (left, right) := by
  induction left with
  | nil => simp [splitFirst?, after?]
  | cons d left ih =>
      obtain ⟨differs, later_absent⟩ := not_or.mp (mt List.mem_cons.mpr absent)
      simp [splitFirst?, after?, differs, ih later_absent]

theorem splitFirst?_char_eq_some_iff {c : Char} {s left right : Text} :
    splitFirst? [c] s = some (left, right) ↔ s = left ++ c :: right ∧ c ∉ left := by
  constructor
  · intro split
    have parts : s = left ++ c :: right := by simpa using eq_append_of_splitFirst? split
    refine ⟨parts, fun member => ?_⟩
    -- The cut would be at the first occurrence in the left part.
    obtain ⟨front, back, left_eq, absent⟩ := List.eq_append_cons_of_mem member
    have earlier := splitFirst?_char_append absent (back ++ c :: right)
    rw [← List.cons_append, ← List.append_assoc, ← left_eq, ← parts, split] at earlier
    obtain ⟨rfl, -⟩ := Prod.mk.inj (Option.some.inj earlier)
    exact absent member
  · rintro ⟨rfl, absent⟩
    exact splitFirst?_char_append absent right

theorem splitFirst?_char_eq_none_iff {c : Char} {s : Text} :
    splitFirst? [c] s = none ↔ c ∉ s := by
  constructor
  · intro unsplit member
    obtain ⟨front, back, rfl, absent⟩ := List.eq_append_cons_of_mem member
    rw [splitFirst?_char_append absent] at unsplit
    contradiction
  · intro absent
    refine Option.eq_none_iff_forall_ne_some.mpr fun ⟨left, right⟩ split => absent ?_
    rw [(splitFirst?_char_eq_some_iff.mp split).1]
    exact List.mem_append_right _ List.mem_cons_self

theorem eq_append_of_splitLast? {c : Char} {s left right : Text}
    (split : splitLast? c s = some (left, right)) : s = left ++ c :: right := by
  obtain ⟨⟨front, rest⟩, found, parts⟩ := Option.map_eq_some_iff.mp split
  simp only [Prod.mk.injEq] at parts
  obtain ⟨rfl, rfl⟩ := parts
  simpa using congrArg List.reverse (eq_append_of_splitFirst? found)

@[simp]
theorem indentation_append_trimStart (s : Text) : indentation s ++ trimStart s = s :=
  List.takeWhile_append_dropWhile

@[simp]
theorem trimEnd_append_trailing (s : Text) : trimEnd s ++ trailing s = s := by
  rw [trimEnd, trailing, ← List.reverse_append, List.takeWhile_append_dropWhile,
    List.reverse_reverse]

theorem joined_singleton (separator s : Text) : joined separator [s] = s := by simp [joined]

theorem joined_cons {separator piece : Text} {pieces : List Text} (nonempty : pieces ≠ []) :
    joined separator (piece :: pieces) = piece ++ (separator ++ joined separator pieces) := by
  obtain ⟨next, later, rfl⟩ := List.exists_cons_of_ne_nil nonempty
  rw [joined, List.intercalate_cons_cons, List.append_assoc]
  rfl

theorem joined_append {separator : Text} {front back : List Text} (front_nonempty : front ≠ [])
    (back_nonempty : back ≠ []) :
    joined separator (front ++ back) =
      joined separator front ++ (separator ++ joined separator back) := by
  induction front with
  | nil => contradiction
  | cons piece front ih =>
      by_cases last : front = []
      · rw [last, List.singleton_append, joined_cons back_nonempty, joined_singleton]
      · rw [List.cons_append, joined_cons (by simp [last]), joined_cons last, ih last]
        simp only [List.append_assoc]

/-- Pieces with the separator in front of each are what is joined with one more in front. -/
theorem flatMap_append_eq_joined {separator : Text} {pieces : List Text} (nonempty : pieces ≠ []) :
    pieces.flatMap (separator ++ ·) = separator ++ joined separator pieces := by
  induction pieces with
  | nil => contradiction
  | cons piece pieces ih =>
      rw [List.flatMap_cons]
      by_cases last : pieces = []
      · rw [last, joined_singleton, List.flatMap_nil, List.append_nil]
      · rw [ih last, joined_cons last, List.append_assoc]

/-- Pieces of pieces can be joined in one go. -/
theorem joined_flatMap {separator : Text} {items : List α} {pieces : α → List Text}
    (nonempty : ∀ item ∈ items, pieces item ≠ []) :
    joined separator (items.flatMap pieces) =
      joined separator (items.map fun item => joined separator (pieces item)) := by
  induction items with
  | nil => rfl
  | cons item items ih =>
      obtain ⟨first, later⟩ := List.forall_mem_cons.mp nonempty
      cases items with
      | nil => simp [joined_singleton]
      | cons next items =>
          have some_later : (next :: items).flatMap pieces ≠ [] := by simp [later next]
          have some_mapped :
              (next :: items).map (fun item => joined separator (pieces item)) ≠ [] :=
            List.cons_ne_nil _ _
          rw [List.flatMap_cons, joined_append first some_later, ih later,
            List.map_cons (a := item), joined_cons some_mapped]

theorem joined_pushFirst (separator : Text) (c : Char) (pieces : List Text) :
    joined separator (pushFirst c pieces) = c :: joined separator pieces := by
  cases pieces with
  | nil => rfl
  | cons piece later => cases later <;> rfl

/-- What is joined holds the characters of the pieces, and of the separator between two of them. -/
theorem mem_of_mem_joined {separator : Text} {pieces : List Text} {c : Char}
    (member : c ∈ joined separator pieces) : c ∈ separator ∨ ∃ piece ∈ pieces, c ∈ piece := by
  induction pieces with
  | nil => contradiction
  | cons piece pieces ih =>
      by_cases last : pieces = []
      · rw [last, joined_singleton] at member
        exact .inr ⟨piece, List.mem_cons_self, member⟩
      · rw [joined_cons last, List.mem_append, List.mem_append] at member
        rcases member with in_piece | in_separator | later
        · exact .inr ⟨piece, List.mem_cons_self, in_piece⟩
        · exact .inl in_separator
        · obtain in_separator | ⟨other, other_mem, in_other⟩ := ih later
          · exact .inl in_separator
          · exact .inr ⟨other, List.mem_cons_of_mem _ other_mem, in_other⟩

theorem mem_joined_of_mem {separator piece : Text} {pieces : List Text} {c : Char}
    (piece_mem : piece ∈ pieces) (member : c ∈ piece) : c ∈ joined separator pieces := by
  induction pieces with
  | nil => contradiction
  | cons first pieces ih =>
      by_cases last : pieces = []
      · subst last
        obtain rfl := List.mem_singleton.mp piece_mem
        rwa [joined_singleton]
      · rw [joined_cons last]
        rcases List.mem_cons.mp piece_mem with rfl | later
        · exact List.mem_append_left _ member
        · exact List.mem_append_right _ (List.mem_append_right _ (ih later))

theorem getLast?_joined {separator last : Text} {front : List Text} (nonempty : last ≠ []) :
    (joined separator (front ++ [last])).getLast? = last.getLast? := by
  by_cases first : front = []
  · rw [first, List.nil_append, joined_singleton]
  · rw [joined_append first (List.cons_ne_nil _ _), joined_singleton, ← List.append_assoc,
      List.getLast?_append, List.getLast?_eq_some_getLast nonempty, Option.some_or]

theorem trimStart_isSuffix (s : Text) : trimStart s <:+ s := List.dropWhile_suffix _

theorem trimEnd_isPrefix (s : Text) : trimEnd s <+: s := ⟨trailing s, trimEnd_append_trailing s⟩

theorem isPrefix_of_before?_trimEnd {tail s front : Text}
    (found : before? tail (trimEnd s) = some front) : front <+: s := by
  have front_leads : front <+: trimEnd s := ⟨tail, (before?_eq_some_iff.mp found).symm⟩
  exact front_leads.trans (trimEnd_isPrefix s)

namespace IsCut

theorem of_isPrefix {front s : Text} (front_leads : front <+: s) :
    IsCut s (Text.byteSize front) := by
  obtain ⟨rest, rfl⟩ := front_leads
  exact of_append front rest

end IsCut

end Text

end LintRepair
