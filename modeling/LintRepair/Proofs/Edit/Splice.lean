import LintRepair.Edit
import LintRepair.Proofs.Document.Offset

/-!
# Assembling sorted splices

Assembly reads a sorted list of splices once and compares each splice only with the one before it.
This file shows that the comparison of neighbours decides whether any two splices of the list
clash, wherever they stand in it.
-/

namespace LintRepair

namespace Splice

theorem le_iff {a b : Splice} :
    le a b ↔ a.start < b.start ∨ (a.start = b.start ∧ a.stop ≤ b.stop) := by
  simp [le]

theorem le_trans {a b c : Splice} (first : le a b) (second : le b c) : le a c := by
  rw [le_iff] at first second ⊢
  omega

theorem le_total (a b : Splice) : le a b || le b a := by
  rw [Bool.or_eq_true, le_iff, le_iff]
  omega

theorem sorted_mergeSort (splices : List Splice) :
    (splices.mergeSort le).Pairwise fun a b => le a b :=
  @List.pairwise_mergeSort _ le (fun _ _ _ => le_trans) le_total splices

/-- Two splices share replaced bytes, or one lies inside the other, or both insert at one place. -/
def Clash (a b : Splice) : Prop :=
  (a.start = a.stop ∧ b.start = b.stop ∧ a.start = b.start) ∨
    (a.start < b.stop ∧ b.start < a.stop)

theorem Clash.symm {a b : Splice} (clash : Clash a b) : Clash b a := by
  unfold Clash at clash ⊢
  omega

/-- Among ordered neighbours a clash shows in the end and the start of the first one. -/
theorem not_clash_iff_of_le {a b : Splice} (a_ordered : a.start ≤ a.stop)
    (b_ordered : b.start ≤ b.stop) (a_le_b : le a b) :
    ¬ Clash a b ↔ a.stop ≤ b.start ∧ ¬ (b.start = b.stop ∧ a.start = b.start) := by
  rw [le_iff] at a_le_b
  unfold Clash
  omega

/-- A splice that does not clash with its successor clashes with none behind that one. -/
theorem not_clash_of_le_of_le {a b c : Splice} (a_ordered : a.start ≤ a.stop)
    (b_ordered : b.start ≤ b.stop) (c_ordered : c.start ≤ c.stop) (a_le_b : le a b)
    (b_le_c : le b c) (a_b : ¬ Clash a b) (b_c : ¬ Clash b c) : ¬ Clash a c := by
  rw [not_clash_iff_of_le a_ordered b_ordered a_le_b] at a_b
  rw [not_clash_iff_of_le b_ordered c_ordered b_le_c] at b_c
  rw [not_clash_iff_of_le a_ordered c_ordered (le_trans a_le_b b_le_c)]
  omega

/-- In a sorted list, a first splice that does not clash with its successor clashes with none. -/
theorem pairwise_not_clash_cons_cons_iff {a b : Splice} {splices : List Splice}
    (ordered : ∀ s ∈ a :: b :: splices, s.start ≤ s.stop)
    (sorted : (a :: b :: splices).Pairwise fun x y => le x y) (a_b : ¬ Clash a b) :
    (a :: b :: splices).Pairwise (fun x y => ¬ Clash x y) ↔
      (b :: splices).Pairwise fun x y => ¬ Clash x y := by
  constructor
  · intro apart
    exact (List.pairwise_cons.mp apart).2
  · intro tail_apart
    refine List.pairwise_cons.mpr ⟨?_, tail_apart⟩
    intro c member
    rcases List.mem_cons.mp member with rfl | c_behind
    · exact a_b
    · obtain ⟨a_le, tail_sorted⟩ := List.pairwise_cons.mp sorted
      have b_le_c := (List.pairwise_cons.mp tail_sorted).1 c c_behind
      have b_c := (List.pairwise_cons.mp tail_apart).1 c c_behind
      exact not_clash_of_le_of_le (ordered a (by simp)) (ordered b (by simp))
        (ordered c (by simp [c_behind])) (a_le b (by simp)) b_le_c a_b b_c

/-- The two ends of a splice are cuts of a text, in order. -/
structure Fits (text : Text) (s : Splice) : Prop where
  /-- The end does not precede the start. -/
  ordered : s.start ≤ s.stop
  /-- The start lies between characters. -/
  start_cut : Text.IsCut text s.start
  /-- The end lies between characters. -/
  stop_cut : Text.IsCut text s.stop

/-- What assembly does with one splice behind the part that is done: it keeps the text up to the
splice, puts the new text, and goes on behind the splice. -/
theorem assemble?_cons {front rest : Text} {s : Splice} {previous : Option Nat}
    (fits : s.Fits (front ++ rest)) (behind : Text.byteSize front ≤ s.start)
    (apart : ¬ (s.start = s.stop ∧ previous = some s.start)) :
    ∃ kept replaced later, rest = kept ++ replaced ++ later ∧
      Text.byteSize (front ++ kept) = s.start ∧
      Text.byteSize (front ++ kept ++ replaced) = s.stop ∧
      ∀ splices, assemble? (Text.byteSize front) previous rest (s :: splices) =
        (assemble? s.stop (some s.start) later splices).map (kept ++ s.text ++ ·) := by
  obtain ⟨kept, behind_start, rfl, start_eq⟩ := fits.start_cut.past behind
  have stop_cut : Text.IsCut ((front ++ kept) ++ behind_start) s.stop := by
    simpa using fits.stop_cut
  have start_size : Text.byteSize (front ++ kept) = s.start := by simpa using start_eq
  obtain ⟨replaced, later, rfl, stop_eq⟩ := stop_cut.past (start_size ▸ fits.ordered)
  have stop_size : Text.byteSize (front ++ kept ++ replaced) = s.stop := by
    rw [Text.byteSize_append, stop_eq]
  refine ⟨kept, replaced, later, by simp, start_size, stop_size, ?_⟩
  intro splices
  have accepted : ¬ (s.start < Text.byteSize front ∨
      (s.start = s.stop ∧ previous = some s.start)) := by
    rintro (early | repeated)
    · omega
    · exact apart repeated
  have kept_size : s.start - Text.byteSize front = Text.byteSize kept := by omega
  have replaced_size : s.stop - s.start = Text.byteSize replaced := by omega
  rw [assemble?, if_neg accepted, kept_size, Text.cut?_append, replaced_size]
  simp only [Option.bind_eq_bind, Option.bind_some, Text.cut?_append, Option.pure_def]
  cases assemble? s.stop (some s.start) later splices <;> rfl

/-- Behind a splice, assembly of sorted splices succeeds exactly if no two of them clash. -/
private theorem assemble?_behind_isSome_iff (a : Splice) (splices : List Splice)
    {front rest : Text} (front_size : Text.byteSize front = a.stop) (a_ordered : a.start ≤ a.stop)
    (fits : ∀ s ∈ splices, s.Fits (front ++ rest))
    (sorted : (a :: splices).Pairwise fun x y => le x y) :
    (assemble? a.stop (some a.start) rest splices).isSome ↔
      (a :: splices).Pairwise fun x y => ¬ Clash x y := by
  induction splices generalizing a front rest with
  | nil => simp [assemble?]
  | cons s splices ih =>
      have s_fits := fits s List.mem_cons_self
      have s_sorted := (List.pairwise_cons.mp sorted).2
      have a_le_s := (List.pairwise_cons.mp sorted).1 s List.mem_cons_self
      have s_iff := not_clash_iff_of_le a_ordered s_fits.ordered a_le_s
      by_cases clash : Clash a s
      · have rejected : s.start < a.stop ∨ (s.start = s.stop ∧ some a.start = some s.start) := by
          simp only [Option.some.injEq]
          have := mt s_iff.mpr (not_not_intro clash)
          omega
        rw [assemble?, if_pos rejected]
        simp only [Option.isSome_none, Bool.false_eq_true, false_iff]
        intro apart
        exact (List.pairwise_cons.mp apart).1 s List.mem_cons_self clash
      · obtain ⟨behind, apart⟩ := s_iff.mp clash
        have fresh : ¬ (s.start = s.stop ∧ some a.start = some s.start) := by simpa using apart
        obtain ⟨kept, replaced, later, rfl, -, stop_size, step⟩ :=
          assemble?_cons s_fits (front_size ▸ behind) fresh
        have later_fits : ∀ t ∈ splices, t.Fits ((front ++ kept ++ replaced) ++ later) := by
          intro t member
          simpa using fits t (List.mem_cons_of_mem s member)
        have ordered : ∀ t ∈ a :: s :: splices, t.start ≤ t.stop :=
          List.forall_mem_cons.mpr ⟨a_ordered, fun t member => (fits t member).ordered⟩
        rw [← front_size, step, Option.isSome_map,
          ih s stop_size s_fits.ordered later_fits s_sorted,
          pairwise_not_clash_cons_cons_iff ordered sorted clash]

/-- Assembly of sorted splices of a text succeeds exactly if no two of them clash. -/
theorem assemble?_isSome_iff {text : Text} {splices : List Splice}
    (fits : ∀ s ∈ splices, s.Fits text) (sorted : splices.Pairwise fun x y => le x y) :
    (assemble? 0 none text splices).isSome ↔ splices.Pairwise fun x y => ¬ Clash x y := by
  cases splices with
  | nil => simp [assemble?]
  | cons s splices =>
      have s_fits : s.Fits ([] ++ text) := fits s List.mem_cons_self
      have fresh : ¬ (s.start = s.stop ∧ none = some s.start) := by simp
      obtain ⟨kept, replaced, later, rfl, -, stop_size, step⟩ :=
        assemble?_cons s_fits (Nat.zero_le _) fresh
      have later_fits : ∀ t ∈ splices, t.Fits ((kept ++ replaced) ++ later) :=
        fun t member => fits t (List.mem_cons_of_mem s member)
      rw [← Text.byteSize_nil, step, Option.isSome_map]
      exact assemble?_behind_isSome_iff s splices stop_size s_fits.ordered later_fits sorted

end Splice

end LintRepair
