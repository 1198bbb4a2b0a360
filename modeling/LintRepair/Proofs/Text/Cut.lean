import LintRepair.Text.Basic

/-!
# Cutting at byte offsets

A byte offset is a cut of a text when it lies between two of its characters or at one of its ends.
This file shows that `Text.cut?` succeeds exactly at the cuts and gives the only two parts that meet
there, that a part of a text is cut out between any two cuts in order, and that `Text.floor` gives
the last cut that is not past an offset.
-/

namespace LintRepair

namespace Text

@[simp]
theorem byteSize_nil : byteSize [] = 0 := rfl

@[simp]
theorem byteSize_cons (c : Char) (s : Text) : byteSize (c :: s) = c.utf8Size + byteSize s := rfl

@[simp]
theorem byteSize_append (left right : Text) :
    byteSize (left ++ right) = byteSize left + byteSize right := by
  induction left with
  | nil => simp
  | cons c left ih => simp [ih, Nat.add_assoc]

theorem byteSize_eq_zero_iff {s : Text} : byteSize s = 0 ↔ s = [] := by
  cases s with
  | nil => simp
  | cons c cs =>
      have width := c.utf8Size_pos
      simp only [byteSize_cons, reduceCtorEq, iff_false]
      omega

/-- An offset lies between two characters of a text, or at one of its ends. -/
def IsCut (s : Text) (offset : Nat) : Prop :=
  ∃ left right, s = left ++ right ∧ byteSize left = offset

@[simp]
theorem cut?_zero (s : Text) : cut? s 0 = some ([], s) := by
  cases s <;> rfl

theorem cut?_append (left right : Text) :
    cut? (left ++ right) (byteSize left) = some (left, right) := by
  induction left with
  | nil => simp
  | cons c left ih =>
      have width := c.utf8Size_pos
      obtain ⟨rest, size_eq⟩ : ∃ rest, byteSize (c :: left) = rest + 1 :=
        ⟨byteSize (c :: left) - 1, by simp only [byteSize_cons]; omega⟩
      have rest_eq : rest + 1 - c.utf8Size = byteSize left := by
        simp only [byteSize_cons] at size_eq
        omega
      have fits : c.utf8Size ≤ rest + 1 := by
        simp only [byteSize_cons] at size_eq
        omega
      rw [size_eq, List.cons_append, cut?, if_pos fits, rest_eq, ih]
      rfl

theorem eq_append_of_cut? {s left right : Text} {offset : Nat}
    (cut : cut? s offset = some (left, right)) :
    s = left ++ right ∧ byteSize left = offset := by
  induction s generalizing offset left with
  | nil =>
      cases offset with
      | zero =>
          simp only [cut?_zero, Option.some.injEq, Prod.mk.injEq] at cut
          obtain ⟨rfl, rfl⟩ := cut
          exact ⟨rfl, rfl⟩
      | succ offset => simp [cut?] at cut
  | cons c s ih =>
      cases offset with
      | zero =>
          simp only [cut?_zero, Option.some.injEq, Prod.mk.injEq] at cut
          obtain ⟨rfl, rfl⟩ := cut
          exact ⟨rfl, rfl⟩
      | succ offset =>
          rw [cut?] at cut
          split at cut
          · rename_i fits
            obtain ⟨⟨first, second⟩, tail_cut, parts_eq⟩ := Option.map_eq_some_iff.mp cut
            simp only [Prod.mk.injEq] at parts_eq
            obtain ⟨rfl, rfl⟩ := parts_eq
            obtain ⟨rfl, size_eq⟩ := ih tail_cut
            refine ⟨rfl, ?_⟩
            simp only [byteSize_cons]
            omega
          · contradiction

theorem cut?_eq_some_iff {s left right : Text} {offset : Nat} :
    cut? s offset = some (left, right) ↔ s = left ++ right ∧ byteSize left = offset := by
  constructor
  · exact eq_append_of_cut?
  · rintro ⟨rfl, rfl⟩
    exact cut?_append left right

theorem cut?_isSome_iff {s : Text} {offset : Nat} :
    (cut? s offset).isSome ↔ IsCut s offset := by
  rw [Option.isSome_iff_exists]
  constructor
  · rintro ⟨⟨left, right⟩, cut⟩
    exact ⟨left, right, eq_append_of_cut? cut⟩
  · rintro ⟨left, right, rfl, rfl⟩
    exact ⟨(left, right), cut?_append left right⟩

/-- A text has only one cut at an offset. -/
theorem append_inj_of_byteSize_eq {left right left' right' : Text}
    (parts : left ++ right = left' ++ right') (same : byteSize left = byteSize left') :
    left = left' ∧ right = right' := by
  have cut := cut?_append left right
  rw [parts, same, cut?_append] at cut
  simpa [eq_comm] using cut

namespace IsCut

theorem zero (s : Text) : IsCut s 0 := ⟨[], s, rfl, rfl⟩

theorem byteSize (s : Text) : IsCut s (byteSize s) := ⟨s, [], by simp, rfl⟩

theorem of_append (left right : Text) : IsCut (left ++ right) (Text.byteSize left) :=
  ⟨left, right, rfl, rfl⟩

theorem le_byteSize {s : Text} {offset : Nat} (cut : IsCut s offset) :
    offset ≤ Text.byteSize s := by
  obtain ⟨left, right, rfl, rfl⟩ := cut
  simp

theorem append_right {s : Text} {offset : Nat} (cut : IsCut s offset) (t : Text) :
    IsCut (s ++ t) offset := by
  obtain ⟨left, right, rfl, rfl⟩ := cut
  exact ⟨left, right ++ t, by simp, rfl⟩

theorem append_left {s : Text} {offset : Nat} (cut : IsCut s offset) (t : Text) :
    IsCut (t ++ s) (Text.byteSize t + offset) := by
  obtain ⟨left, right, rfl, rfl⟩ := cut
  exact ⟨t ++ left, right, by simp, by simp⟩

theorem of_append_right {s t : Text} {offset : Nat} (cut : IsCut (s ++ t) offset)
    (reached : offset ≤ Text.byteSize s) : IsCut s offset := by
  obtain ⟨left, right, parts, rfl⟩ := cut
  rcases List.append_eq_append_iff.mp parts with ⟨middle, rfl, rfl⟩ | ⟨middle, rfl, rfl⟩
  · rw [Text.byteSize_append] at reached
    obtain rfl : middle = [] := byteSize_eq_zero_iff.mp (by omega)
    exact ⟨s, [], by simp, by simp⟩
  · exact .of_append left middle

/-- A cut past a leading part cuts the text behind that part. -/
theorem past {front rest : Text} {offset : Nat} (cut : IsCut (front ++ rest) offset)
    (reached : Text.byteSize front ≤ offset) :
    ∃ middle later, rest = middle ++ later ∧
      Text.byteSize front + Text.byteSize middle = offset := by
  obtain ⟨left, right, parts_eq, rfl⟩ := cut
  rcases List.append_eq_append_iff.mp parts_eq with ⟨middle, rfl, rfl⟩ | ⟨extra, rfl, rfl⟩
  · exact ⟨middle, right, rfl, by simp⟩
  · rw [Text.byteSize_append] at reached
    obtain rfl : extra = [] := byteSize_eq_zero_iff.mp (by omega)
    exact ⟨[], rest, rfl, by simp⟩

theorem of_append_left {s t : Text} {offset : Nat}
    (cut : IsCut (t ++ s) (Text.byteSize t + offset)) : IsCut s offset := by
  obtain ⟨middle, later, rfl, size⟩ := cut.past (Nat.le_add_right _ _)
  exact ⟨middle, later, rfl, Nat.add_left_cancel size⟩

theorem cons {s : Text} {offset : Nat} (cut : IsCut s offset) (c : Char) :
    IsCut (c :: s) (c.utf8Size + offset) := by
  obtain ⟨left, right, rfl, rfl⟩ := cut
  exact ⟨c :: left, right, rfl, rfl⟩

/-- Behind the first character, the cuts of a text are those of the rest. -/
theorem of_cons {c : Char} {s : Text} {offset : Nat} (cut : IsCut (c :: s) offset) :
    offset = 0 ∨ ∃ later, IsCut s later ∧ offset = c.utf8Size + later := by
  obtain ⟨left, right, parts, rfl⟩ := cut
  rcases List.cons_eq_append_iff.mp parts with ⟨rfl, -⟩ | ⟨left, rfl, rfl⟩
  · exact .inl rfl
  · exact .inr ⟨_, .of_append left right, rfl⟩

end IsCut

section Slice

variable {s part : Text} {start stop : Nat}

/-- The part of a text between two byte offsets that lie between its characters, in order. -/
def slice? (s : Text) (start stop : Nat) : Option Text := (upTo? s stop).bind (from? · start)

theorem slice?_eq_some_iff : slice? s start stop = some part ↔
    ∃ front behind, s = front ++ (part ++ behind) ∧
      byteSize front = start ∧ byteSize (front ++ part) = stop := by
  simp only [slice?, upTo?, from?, Option.bind_eq_some_iff, Option.map_eq_some_iff, Prod.exists,
    cut?_eq_some_iff]
  constructor
  · rintro ⟨_, ⟨_, behind, ⟨rfl, stop_eq⟩, rfl⟩, front, _, ⟨rfl, start_eq⟩, rfl⟩
    exact ⟨front, behind, List.append_assoc _ _ _, start_eq, stop_eq⟩
  · rintro ⟨front, behind, rfl, start_eq, stop_eq⟩
    exact ⟨front ++ part, ⟨_, behind, ⟨(List.append_assoc _ _ _).symm, stop_eq⟩, rfl⟩,
      front, part, ⟨rfl, start_eq⟩, rfl⟩

/-- A part can be cut out exactly between two cuts in order. -/
theorem slice?_isSome_iff :
    (slice? s start stop).isSome ↔ IsCut s start ∧ IsCut s stop ∧ start ≤ stop := by
  rw [Option.isSome_iff_exists]
  simp only [slice?_eq_some_iff]
  constructor
  · rintro ⟨part, front, behind, rfl, rfl, rfl⟩
    refine ⟨.of_append front _, ?_, ?_⟩
    · rw [← List.append_assoc]
      exact .of_append (front ++ part) behind
    · rw [byteSize_append]
      exact Nat.le_add_right _ _
  · rintro ⟨start_cut, ⟨left, behind, rfl, rfl⟩, ordered⟩
    obtain ⟨front, part, rfl, start_eq⟩ := start_cut.of_append_right ordered
    exact ⟨part, front, behind, List.append_assoc _ _ _, start_eq, rfl⟩

end Slice

section Floor

variable {s : Text} {offset : Nat}

theorem isCut_floor (s : Text) (offset : Nat) : IsCut s (floor s offset) := by
  induction s generalizing offset with
  | nil => exact .zero []
  | cons c s ih =>
      rw [floor]
      split
      · exact (ih _).cons c
      · exact .zero _

theorem floor_le (s : Text) (offset : Nat) : floor s offset ≤ offset := by
  induction s generalizing offset with
  | nil => exact Nat.zero_le _
  | cons c s ih =>
      rw [floor]
      split
      · have later := ih (offset - c.utf8Size)
        omega
      · exact Nat.zero_le _

/-- No cut lies between an offset and the cut it is moved back to. -/
theorem le_floor {cut : Nat} (isCut : IsCut s cut) (reached : cut ≤ offset) :
    cut ≤ floor s offset := by
  induction s generalizing cut offset with
  | nil => exact isCut.le_byteSize
  | cons c s ih =>
      rcases isCut.of_cons with rfl | ⟨later, later_cut, rfl⟩
      · exact Nat.zero_le _
      · have later_reached : later ≤ offset - c.utf8Size := by omega
        rw [floor, if_pos (by omega)]
        exact Nat.add_le_add_left (ih later_cut later_reached) _

theorem floor_eq_of_isCut (isCut : IsCut s offset) : floor s offset = offset :=
  Nat.le_antisymm (floor_le s offset) (le_floor isCut (Nat.le_refl _))

/-- Two offsets are moved back in order exactly if no cut lies behind the second one and not behind
the first one. -/
theorem floor_le_floor_iff {first second : Nat} :
    floor s first ≤ floor s second ↔ ¬ ∃ cut, IsCut s cut ∧ second < cut ∧ cut ≤ first := by
  constructor
  · rintro ordered ⟨cut, isCut, behind, reached⟩
    have cut_le := Nat.le_trans (le_floor isCut reached) ordered
    exact Nat.not_le_of_lt behind (Nat.le_trans cut_le (floor_le s second))
  · intro apart
    refine le_floor (isCut_floor s first) (Nat.not_lt.mp fun behind => ?_)
    exact apart ⟨floor s first, isCut_floor s first, behind, floor_le s first⟩

end Floor

end Text

end LintRepair
