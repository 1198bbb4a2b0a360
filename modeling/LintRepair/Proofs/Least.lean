import LintRepair.Least
import Mathlib.Order.Lattice

/-!
# The first least element of a list

What is chosen is an element of the list, and only from the empty list nothing is chosen.  Where
elements are compared by a key, the chosen one is the earliest of those with the least key.
-/

namespace LintRepair

theorem mem_of_firstLeast? {less : α → α → Bool} {as : List α} {a : α}
    (found : firstLeast? less as = some a) : a ∈ as := by
  induction as generalizing a with
  | nil => contradiction
  | cons b as ih =>
      rw [firstLeast?] at found
      split at found
      · obtain rfl := Option.some.inj found
        exact List.mem_cons_self
      · rename_i c tail_found
        split at found
        · obtain rfl := Option.some.inj found
          exact List.mem_cons_of_mem b (ih tail_found)
        · obtain rfl := Option.some.inj found
          exact List.mem_cons_self

theorem firstLeast?_eq_none_iff {less : α → α → Bool} {as : List α} :
    firstLeast? less as = none ↔ as = [] := by
  cases as with
  | nil => simp [firstLeast?]
  | cons a as =>
      rw [firstLeast?]
      split
      · simp
      · split <;> simp

/-- Of at most one element it is the least. -/
theorem toList_firstLeast?_of_length_le_one {less : α → α → Bool} {as : List α}
    (few : as.length ≤ 1) : (firstLeast? less as).toList = as := by
  cases as with
  | nil => rfl
  | cons a as =>
      obtain rfl : as = [] := by simpa using few
      rfl

section Key

variable [LinearOrder β] {key : α → β} {less : α → α → Bool} {as : List α} {a b : α}

/-- The keys before an element of a list are greater than its own, and those behind it no less. -/
def IsFirstLeast (key : α → β) (as : List α) (a : α) : Prop :=
  ∃ before after, as = before ++ a :: after ∧ (∀ b ∈ before, key a < key b) ∧
    ∀ b ∈ after, key a ≤ key b

theorem IsFirstLeast.mem (least : IsFirstLeast key as a) : a ∈ as := by
  obtain ⟨before, after, rfl, -, -⟩ := least
  exact List.mem_append_right before List.mem_cons_self

theorem IsFirstLeast.key_le (least : IsFirstLeast key as a) : ∀ b ∈ as, key a ≤ key b := by
  obtain ⟨before, after, rfl, earlier, later⟩ := least
  intro b member
  rcases List.mem_append.mp member with member | member
  · exact le_of_lt (earlier b member)
  · rcases List.mem_cons.mp member with rfl | member
    · exact le_refl _
    · exact later b member

theorem isFirstLeast_cons_iff :
    IsFirstLeast key (b :: as) a ↔
      (b = a ∧ ∀ c ∈ as, key b ≤ key c) ∨ (key a < key b ∧ IsFirstLeast key as a) := by
  constructor
  · rintro ⟨before, after, parts, earlier, later⟩
    cases before with
    | nil =>
        obtain ⟨rfl, rfl⟩ := List.cons.inj parts
        exact .inl ⟨rfl, later⟩
    | cons _ before =>
        obtain ⟨rfl, rfl⟩ := List.cons.inj parts
        obtain ⟨first, earlier⟩ := List.forall_mem_cons.mp earlier
        exact .inr ⟨first, before, after, rfl, earlier, later⟩
  · rintro (⟨rfl, later⟩ | ⟨first, before, after, rfl, earlier, later⟩)
    · exact ⟨[], as, rfl, List.forall_mem_nil _, later⟩
    · exact ⟨b :: before, after, rfl, List.forall_mem_cons.mpr ⟨first, earlier⟩, later⟩

theorem firstLeast?_eq_some_iff (less_iff : ∀ a b, less a b ↔ key a < key b) :
    firstLeast? less as = some a ↔ IsFirstLeast key as a := by
  induction as generalizing a with
  | nil => simp [firstLeast?, IsFirstLeast]
  | cons b as ih =>
      rw [firstLeast?, isFirstLeast_cons_iff, ← ih]
      cases chosen : firstLeast? less as with
      | none => simp [firstLeast?_eq_none_iff.mp chosen]
      | some c =>
          have c_least := (ih.mp chosen).key_le
          by_cases undercut : key c < key b
          · -- The first element is undercut, so it is not the least.
            have not_least : ¬ ∀ d ∈ as, key b ≤ key d := fun least =>
              absurd (least c (mem_of_firstLeast? chosen)) (not_le_of_gt undercut)
            simp only [(less_iff c b).mpr undercut, if_true, Option.some.injEq]
            refine ⟨fun same => .inr ⟨same ▸ undercut, same⟩, ?_⟩
            rintro (⟨-, least⟩ | ⟨-, same⟩)
            · exact absurd least not_least
            · exact same
          · have least : ∀ d ∈ as, key b ≤ key d := fun d member =>
              le_trans (le_of_not_gt undercut) (c_least d member)
            simp only [mt (less_iff c b).mp undercut, Bool.false_eq_true, if_false,
              Option.some.injEq]
            refine ⟨fun same => .inl ⟨same, least⟩, ?_⟩
            rintro (⟨same, -⟩ | ⟨lower, same⟩)
            · exact same
            · exact absurd (same ▸ lower) undercut

end Key

end LintRepair
