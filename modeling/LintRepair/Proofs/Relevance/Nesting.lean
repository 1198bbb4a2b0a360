import LintRepair.Proofs.Relevance.Cursor

/-!
# Nested ranges around a cursor

As long as columns stay below the weight of a line, distance and size agree with nesting, so of two
nested ranges around a cursor the inner one comes first.  The scores are machine words, though, and
a word holds the exact score only up to multiples of its size.  A range over more lines than its
word can count may come before any range inside of it.
-/

namespace LintRepair

/-- One range lies inside of another one and is not the whole of it. -/
structure Range.IsStrictlyWithin (inner outer : Range) : Prop where
  start_le : outer.start ≤ inner.start
  stop_le : inner.stop ≤ outer.stop
  ne : inner ≠ outer

theorem Range.isEmpty_empty (p : Position) : (Range.empty p).isEmpty := decide_eq_true rfl

namespace Relevance

variable {cursor : Position} {r inner outer : Range}

section Exact

/-- How far a range starts from a cursor. -/
def exactDistance (cursor : Position) (r : Range) : Nat :=
  let gap (a b : Nat) := (a - b) + (b - a)
  if r.start.line = cursor.line then gap r.start.column cursor.column
  else gap r.start.line cursor.line * lineDistance.toNat

/-- How much a range covers. -/
def exactSize (r : Range) : Int :=
  ((r.stop.line : Int) - r.start.line) * lineSize.toInt +
    ((r.stop.column : Int) - r.start.column)

theorem distance_eq (cursor : Position) (r : Range) :
    distance cursor r = UInt64.ofNat (exactDistance cursor r) := by
  simp only [distance, exactDistance]
  split
  · rfl
  · rw [UInt64.ofNat_mul, UInt64.ofNat_toNat]

theorem size_eq (r : Range) : size r = Int64.ofInt (exactSize r) := by
  have columns : Int64.ofInt ((r.stop.column : Int) - r.start.column) =
      Int64.ofNat r.stop.column - Int64.ofNat r.start.column := by
    rw [Int64.ofInt_sub, Int64.ofInt_eq_ofNat, Int64.ofInt_eq_ofNat]
  rw [size, exactSize, Int64.ofInt_add, columns, Int64.ofInt_mul, Int64.ofInt_toInt]
  split
  · rename_i single
    have same : r.start.line = r.stop.line := of_decide_eq_true single
    simp [same]
  · have forward : r.start.line ≤ r.stop.line := by
      have ordered := r.ordered
      rw [Position.le_iff] at ordered
      omega
    rw [← Int.ofNat_sub forward, Int64.ofInt_eq_ofNat]

theorem toNat_distance (cursor : Position) (r : Range) :
    (distance cursor r).toNat = exactDistance cursor r % UInt64.size := by
  rw [distance_eq, UInt64.toNat_ofNat']

theorem toInt_size (r : Range) : (size r).toInt = (exactSize r).bmod Int64.size := by
  rw [size_eq, Int64.toInt_ofInt]

/-- The rank is made of what the words keep of the exact scores. -/
theorem rank_eq (cursor : Position) (r : Range) :
    rank cursor r =
      toLex (exactDistance cursor r % UInt64.size, (exactSize r).bmod Int64.size) := by
  rw [rank, toNat_distance, toInt_size]

/-- A range whose scores their words can hold. -/
structure Fits (cursor : Position) (r : Range) : Prop where
  distance_lt : exactDistance cursor r < UInt64.size
  size_le : exactSize r ≤ Int64.maxValue.toInt

end Exact

section Nesting

/-- A range has smaller columns than a line weighs in its size. -/
def IsNarrow (r : Range) : Prop := r.start.column < 100 ∧ r.stop.column < 100

instance (r : Range) : Decidable (IsNarrow r) :=
  inferInstanceAs (Decidable (r.start.column < 100 ∧ r.stop.column < 100))

@[simp]
theorem toNat_lineDistance : lineDistance.toNat = 1000 := rfl

@[simp]
theorem toInt_lineSize : lineSize.toInt = 100 := rfl

/-- A range that starts later, but not behind the cursor, does not start farther from it. -/
theorem exactDistance_le (start_le : outer.start ≤ inner.start) (reached : inner.start ≤ cursor)
    (narrow : cursor.column < 1000) :
    exactDistance cursor inner ≤ exactDistance cursor outer := by
  rw [Position.le_iff] at start_le reached
  simp only [exactDistance, toNat_lineDistance]
  split <;> split <;> omega

theorem exactSize_lt (within : inner.IsStrictlyWithin outer) (inner_narrow : IsNarrow inner)
    (outer_narrow : IsNarrow outer) : exactSize inner < exactSize outer := by
  obtain ⟨start_le, stop_le, ne⟩ := within
  have differ : inner.start ≠ outer.start ∨ inner.stop ≠ outer.stop := by
    by_contra same
    push Not at same
    exact ne (by cases inner; cases outer; simp_all)
  simp only [ne_eq, Position.eq_iff, Position.le_iff, IsNarrow, exactSize, toInt_lineSize] at *
  omega

theorem exactSize_nonneg (narrow : IsNarrow r) : 0 ≤ exactSize r := by
  have ordered := r.ordered
  rw [Position.le_iff] at ordered
  obtain ⟨start_narrow, stop_narrow⟩ := narrow
  rw [exactSize, toInt_lineSize]
  omega

theorem rank_of_fits (fits : Fits cursor r) (narrow : IsNarrow r) :
    rank cursor r = toLex (exactDistance cursor r, exactSize r) := by
  have nonneg : 0 ≤ exactSize r := exactSize_nonneg narrow
  have size_le : exactSize r ≤ 9223372036854775807 := fits.size_le
  have words : (Int64.size : Int) = 18446744073709551616 := rfl
  rw [rank_eq, Nat.mod_eq_of_lt fits.distance_lt, Int.bmod_eq_of_le (by omega) (by omega)]

theorem start_le_of_contains (around : r.contains cursor) : r.start ≤ cursor := by
  simp only [Range.contains, Bool.and_eq_true, decide_eq_true_eq] at around
  exact around.1

/-- Of two nested ranges that contain a cursor the inner one ranks first where the words hold the
scores of the outer one. -/
theorem rank_lt (within : inner.IsStrictlyWithin outer) (inner_narrow : IsNarrow inner)
    (outer_narrow : IsNarrow outer) (around : inner.contains cursor)
    (narrow : cursor.column < 100) (fits : Fits cursor outer) :
    rank cursor inner < rank cursor outer := by
  have nearer : exactDistance cursor inner ≤ exactDistance cursor outer :=
    exactDistance_le within.start_le (start_le_of_contains around) (narrow.trans (by decide))
  have smaller : exactSize inner < exactSize outer := exactSize_lt within inner_narrow outer_narrow
  have inner_fits : Fits cursor inner :=
    ⟨nearer.trans_lt fits.distance_lt, smaller.le.trans fits.size_le⟩
  rw [rank_of_fits fits outer_narrow, rank_of_fits inner_fits inner_narrow,
    Prod.Lex.toLex_lt_toLex]
  rcases Nat.lt_or_eq_of_le nearer with nearer | same
  · exact .inl nearer
  · exact .inr ⟨same, smaller⟩

theorem contains_of_within (within : inner.IsStrictlyWithin outer)
    (around : inner.contains cursor) : outer.contains cursor := by
  obtain ⟨start_le, stop_le, -⟩ := within
  simp only [Range.contains, Bool.and_eq_true, decide_eq_true_eq, Position.le_iff] at *
  omega

end Nesting

/-- What the words keep of the scores of an outer range comes to no more than what they keep of the
scores of an inner one. -/
def WrapsPast (cursor : Position) (outer inner : Range) : Prop :=
  exactDistance cursor outer % UInt64.size < exactDistance cursor inner % UInt64.size ∨
    (exactDistance cursor outer % UInt64.size = exactDistance cursor inner % UInt64.size ∧
      (exactSize outer).bmod Int64.size ≤ (exactSize inner).bmod Int64.size)

theorem rank_le_iff : rank cursor outer ≤ rank cursor inner ↔ WrapsPast cursor outer inner := by
  rw [rank_eq, rank_eq, Prod.Lex.toLex_le_toLex, WrapsPast]

/-- Of two ranges around a cursor it is about the first one unless the second one ranks before. -/
theorem select_pair_eq_iff {d other : Diagnostic} (differ : d ≠ other)
    (d_around : d.range.contains cursor) (around : other.range.contains cursor) :
    select [d, other] (.empty cursor) = [d] ↔ rank cursor d.range ≤ rank cursor other.range := by
  have both : [d, other].filter (·.range.contains cursor) = [d, other] :=
    List.filter_eq_self.mpr (by simp [d_around, around])
  rw [select, selectBy_of_cursor (Range.isEmpty_empty cursor)]
  simp only [Range.empty, both, firstLeast?]
  by_cases better : rank cursor other.range < rank cursor d.range
  · simp [isBetter_iff.mpr better, better, differ.symm]
  · simp [mt isBetter_iff.mp better, not_lt.mp better]

/-- While columns stay below one hundred, a cursor is about no diagnostic that has another one
strictly inside of its range around the cursor, as long as the words hold the scores of the outer
range.  Where they do not, the outer one can be chosen, but only if its scores wrap past those of
the inner one; in front of the inner one alone it is chosen exactly then. -/
theorem innermost_wins_where_scores_fit {diagnostics : List Diagnostic} {cursor : Position}
    (cursor_narrow : cursor.column < 100)
    (narrow : ∀ d ∈ diagnostics, d.range.contains cursor → IsNarrow d.range)
    {d other : Diagnostic} (d_mem : d ∈ diagnostics) (other_mem : other ∈ diagnostics)
    (around : other.range.contains cursor) (within : other.range.IsStrictlyWithin d.range) :
    (Fits cursor d.range → d ∉ select diagnostics (.empty cursor)) ∧
    (d ∈ select diagnostics (.empty cursor) → WrapsPast cursor d.range other.range) ∧
    (select [d, other] (.empty cursor) = [d] ↔ WrapsPast cursor d.range other.range) := by
  have d_around : d.range.contains cursor := contains_of_within within around
  have no_better (selected : d ∈ select diagnostics (.empty cursor)) :
      rank cursor d.range ≤ rank cursor other.range :=
    ((mem_selectBy_iff (Range.isEmpty_empty cursor)).mp selected).key_le other
      (List.mem_filter.mpr ⟨other_mem, around⟩)
  have better (fits : Fits cursor d.range) : rank cursor other.range < rank cursor d.range :=
    rank_lt within (narrow other other_mem around) (narrow d d_mem d_around) around cursor_narrow
      fits
  have differ : d ≠ other := fun same => within.ne (congrArg Diagnostic.range same.symm)
  refine ⟨fun fits selected => absurd (better fits) (not_lt_of_ge (no_better selected)),
    fun selected => rank_le_iff.mp (no_better selected), ?_⟩
  rw [← rank_le_iff, select_pair_eq_iff differ d_around around]

/-- A name in a call in a block over several lines. -/
def stackedDiagnostics : List Diagnostic :=
  [diagnosticAt "block" (.between ⟨0, 4⟩ ⟨3, 1⟩), diagnosticAt "call" (.between ⟨1, 2⟩ ⟨2, 7⟩),
    diagnosticAt "name" (.onLine 1 2 9)]

theorem call_loses_to_name_of_stacked :
    (∀ d ∈ stackedDiagnostics, d.range.contains ⟨1, 5⟩ → IsNarrow d.range) ∧
    (Range.onLine 1 2 9).contains ⟨1, 5⟩ ∧
    (Range.onLine 1 2 9).IsStrictlyWithin (.between ⟨1, 2⟩ ⟨2, 7⟩) ∧
    Fits ⟨1, 5⟩ (.between ⟨1, 2⟩ ⟨2, 7⟩) ∧
    diagnosticAt "call" (.between ⟨1, 2⟩ ⟨2, 7⟩) ∉ select stackedDiagnostics (.empty ⟨1, 5⟩) ∧
    ¬ WrapsPast ⟨1, 5⟩ (.between ⟨1, 2⟩ ⟨2, 7⟩) (.onLine 1 2 9) := by
  have narrow : ∀ d ∈ stackedDiagnostics, d.range.contains ⟨1, 5⟩ → IsNarrow d.range := by decide
  have within : (Range.onLine 1 2 9).IsStrictlyWithin (.between ⟨1, 2⟩ ⟨2, 7⟩) :=
    ⟨by decide, by decide, by decide⟩
  have fits : Fits ⟨1, 5⟩ (.between ⟨1, 2⟩ ⟨2, 7⟩) := ⟨by decide, by decide⟩
  have call_mem : diagnosticAt "call" (.between ⟨1, 2⟩ ⟨2, 7⟩) ∈ stackedDiagnostics := by decide
  have name_mem : diagnosticAt "name" (.onLine 1 2 9) ∈ stackedDiagnostics := by decide
  have call_first : select [diagnosticAt "call" (.between ⟨1, 2⟩ ⟨2, 7⟩),
      diagnosticAt "name" (.onLine 1 2 9)] (.empty ⟨1, 5⟩) ≠
        [diagnosticAt "call" (.between ⟨1, 2⟩ ⟨2, 7⟩)] := by decide
  obtain ⟨unselected, -, chosen_iff⟩ :=
    innermost_wins_where_scores_fit (show (⟨1, 5⟩ : Position).column < 100 by decide) narrow
      call_mem name_mem rfl within
  exact ⟨narrow, rfl, within, fits, unselected fits, mt chosen_iff.mpr call_first⟩

/-- A range over all lines that a word can count, and a short one on its first line. -/
def wideDiagnostics : List Diagnostic :=
  [diagnosticAt "outer" (.between ⟨0, 0⟩ ⟨18446744073709551615, 0⟩),
    diagnosticAt "inner" (.onLine 0 0 50)]

/-- The size of a range over all lines that a word can count wraps around to minus one hundred. -/
theorem wide_range_hides_inner :
    (∀ d ∈ wideDiagnostics, IsNarrow d.range ∧ d.range.contains ⟨0, 10⟩) ∧
    (Range.onLine 0 0 50).IsStrictlyWithin (.between ⟨0, 0⟩ ⟨18446744073709551615, 0⟩) ∧
    select wideDiagnostics (.empty ⟨0, 10⟩) =
      [diagnosticAt "outer" (.between ⟨0, 0⟩ ⟨18446744073709551615, 0⟩)] :=
  ⟨by decide, ⟨by decide, by decide, by decide⟩, by decide⟩

/-- At a column of one hundred a line weighs no more than the columns of a range inside of it. -/
example :
    select [diagnosticAt "outer" (.between ⟨0, 0⟩ ⟨1, 0⟩), diagnosticAt "inner" (.onLine 0 0 100)]
      (.empty ⟨0, 0⟩) = [diagnosticAt "outer" (.between ⟨0, 0⟩ ⟨1, 0⟩)] := by decide

end Relevance

end LintRepair
