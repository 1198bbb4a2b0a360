import Mathlib.Order.Bounds.Defs
import LintRepair.Proofs.Document.Clamp

/-!
# Clamping and the last addressable position

Every position has a last addressable position that is not past it.  Clamping finds that one except
behind the last line, where it keeps to the column although the whole line stands before the
position.  For the same reason two positions that are moved onto one line may change places.
-/

namespace LintRepair

namespace Document

/-- The addressable positions that are not past a position. -/
def addressableUpTo (d : Document) (p : Position) : Set Position :=
  {q | d.IsAddressable q ∧ q ≤ p}

/-- A position behind the last line has a column before the end of the last line. -/
def FallsShort (d : Document) (p : Position) : Prop :=
  d.lastLine < p.line ∧ p.column < d.lineLen d.lastLine

instance (d : Document) (p : Position) : Decidable (d.FallsShort p) :=
  inferInstanceAs (Decidable (_ ∧ _))

/-- Two positions are moved onto one line, and a place of that line lies behind the column of the
second one and not behind the column of the first one. -/
def Crosses (d : Document) (p q : Position) : Prop :=
  min p.line d.lastLine = min q.line d.lastLine ∧
    ∃ column, d.IsAddressable ⟨min p.line d.lastLine, column⟩ ∧
      q.column < column ∧ column ≤ p.column

variable {d : Document} {p q : Position}

theorem clamp_le (d : Document) (p : Position) : d.clamp p ≤ p := by
  obtain ⟨line, -, clamp_eq⟩ := d.exists_clamp_eq p
  have column_le := Text.floor_le line.text p.column
  rw [clamp_eq, Position.le_iff]
  dsimp only
  omega

theorem clamp_clamp (d : Document) (p : Position) : d.clamp (d.clamp p) = d.clamp p :=
  clamp_eq_self (d.isAddressable_clamp p)

theorem isAddressable_lastEnd (d : Document) : d.IsAddressable (d.lineEnd d.lastLine) :=
  isAddressable_lineEnd d.lastLine_lt

/-- Unless a position falls short, no addressable position lies between it and where it is moved. -/
theorem le_clamp (reaches : ¬ d.FallsShort p) (addressable : d.IsAddressable q) (before : q ≤ p) :
    q ≤ d.clamp p := by
  obtain ⟨line, found, clamp_eq⟩ := d.exists_clamp_eq p
  have q_inside : q.line ≤ d.lastLine := Nat.le_sub_one_of_lt addressable.line_lt
  rw [Position.le_iff] at before
  rw [clamp_eq, Position.le_iff]
  by_cases earlier : q.line < min p.line d.lastLine
  · exact .inl earlier
  · have same_line : q.line = min p.line d.lastLine := by omega
    obtain ⟨text, text_found, cut⟩ := isAddressable_iff.mp addressable
    obtain rfl : line.text = text := by
      rw [same_line, line?_eq_some found] at text_found
      exact Option.some.inj text_found
    -- Behind the last line the column is not before the end of the line, so it is not before `q`.
    have column_le : q.column ≤ p.column := by
      by_cases behind : d.lastLine < p.line
      · have last_line : min p.line d.lastLine = d.lastLine := by omega
        rw [last_line] at found
        have reached : d.lineLen d.lastLine ≤ p.column :=
          Nat.not_lt.mp fun shorter => reaches ⟨behind, shorter⟩
        rw [lineLen_eq found] at reached
        exact Nat.le_trans cut.le_byteSize reached
      · omega
    exact .inr ⟨same_line, Text.le_floor cut column_le⟩

/-- Clamping finds the last addressable position that is not past a position, exactly unless the
position falls short. -/
theorem isGreatest_clamp_iff :
    IsGreatest (d.addressableUpTo p) (d.clamp p) ↔ ¬ d.FallsShort p := by
  constructor
  · rintro ⟨-, greatest⟩ ⟨behind, shorter⟩
    have end_le : d.lineEnd d.lastLine ≤ d.clamp p :=
      greatest ⟨d.isAddressable_lastEnd, .inl behind⟩
    obtain ⟨line, -, clamp_eq⟩ := d.exists_clamp_eq p
    have column_le := Text.floor_le line.text p.column
    rw [clamp_eq, Position.le_iff] at end_le
    dsimp only [lineEnd] at end_le
    omega
  · intro reaches
    exact ⟨⟨d.isAddressable_clamp p, d.clamp_le p⟩,
      fun q ⟨addressable, before⟩ => le_clamp reaches addressable before⟩

/-- Positions on lines in order stay in order exactly unless they cross. -/
theorem clamp_le_clamp_iff (lines : p.line ≤ q.line) :
    d.clamp p ≤ d.clamp q ↔ ¬ d.Crosses p q := by
  obtain ⟨line, p_found, p_eq⟩ := d.exists_clamp_eq p
  obtain ⟨q_line, q_found, q_eq⟩ := d.exists_clamp_eq q
  rw [p_eq, q_eq, Position.le_iff]
  by_cases same : min p.line d.lastLine = min q.line d.lastLine
  · obtain rfl : line = q_line := by
      rw [same] at p_found
      exact Option.some.inj (p_found.symm.trans q_found)
    have addressable_iff (column : Nat) :
        d.IsAddressable ⟨min p.line d.lastLine, column⟩ ↔ Text.IsCut line.text column := by
      simp [IsAddressable, p_found]
    have columns : ¬ d.Crosses p q ↔
        Text.floor line.text p.column ≤ Text.floor line.text q.column := by
      rw [Text.floor_le_floor_iff, Crosses, and_iff_right same]
      simp only [addressable_iff]
    rw [columns]
    dsimp only
    omega
  · refine iff_of_true (.inl ?_) fun crosses => same crosses.1
    dsimp only
    omega

/-- Positions in order cross only on the last line, where the second one falls short. -/
theorem Crosses.of_le (crosses : d.Crosses p q) (ordered : p ≤ q) :
    d.lastLine ≤ p.line ∧ d.FallsShort q := by
  obtain ⟨same, column, addressable, behind, reached⟩ := crosses
  rw [Position.le_iff] at ordered
  have last : min p.line d.lastLine = d.lastLine := by omega
  rw [last] at addressable
  obtain ⟨line, found, cut⟩ := addressable
  have column_le := cut.le_byteSize
  rw [← lineLen_eq found] at column_le
  dsimp only at column_le
  exact ⟨by omega, by omega, by omega⟩

end Document

end LintRepair
