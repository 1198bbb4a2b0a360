import LintRepair.Fix
import LintRepair.Provider
import LintRepair.Proofs.Edit.Splice

/-!
# Edits that can be applied together

Overlap of edits is told by positions, two at a time; application sorts byte offsets and looks at
neighbours.  The main statements say that both decide the same: edits can be applied together
exactly if all their ranges are addressable and no two of them overlap.
-/

namespace LintRepair

namespace Range

theorem overlaps_iff {r s : Range} :
    r.overlaps s ↔ (r.start = r.stop ∧ s.start = s.stop ∧ r.start = s.start) ∨
      (r.start < s.stop ∧ s.start < r.stop) := by
  have r_ordered : r.start ≤ r.stop := r.ordered
  unfold overlaps isEmpty
  split
  · rename_i both_empty
    simp only [Bool.and_eq_true, decide_eq_true_eq] at both_empty ⊢
    simp only [both_empty, true_and, iff_self_or, Position.lt_iff]
    omega
  · rename_i not_both
    simp only [Bool.and_eq_true, decide_eq_true_eq, not_and] at not_both ⊢
    simp only [iff_or_self]
    rintro ⟨r_empty, s_empty, -⟩
    exact (not_both r_empty s_empty).elim

/-- Two insertions overlap only at one place. -/
theorem overlaps_empty_iff {p q : Position} : (Range.empty p).overlaps (.empty q) ↔ p = q := by
  simp only [overlaps_iff, empty, true_and, Position.lt_iff, Position.eq_iff]
  omega

theorem overlaps_symm {r s : Range} (overlap : r.overlaps s) : s.overlaps r := by
  rw [overlaps_iff] at overlap ⊢
  rcases overlap with ⟨r_empty, s_empty, same⟩ | ⟨before, after⟩
  · exact Or.inl ⟨s_empty, r_empty, same.symm⟩
  · exact Or.inr ⟨after, before⟩

end Range

namespace Edit

/-- No two edits at different places of a list overlap. -/
def Disjoint (edits : List Edit) : Prop := edits.Pairwise fun e f => ¬ e.overlaps f

theorem overlaps_symm {e f : Edit} (overlap : e.overlaps f) : f.overlaps e :=
  Range.overlaps_symm overlap

theorem anyOverlap_eq_false_iff {edits : List Edit} :
    anyOverlap edits = false ↔ Disjoint edits := by
  induction edits with
  | nil => simp [anyOverlap, Disjoint]
  | cons e edits ih =>
      rw [anyOverlap, Bool.or_eq_false_iff, ih]
      unfold Disjoint
      rw [List.pairwise_cons]
      simp

/-- Disjointness named by indices, in either order. -/
theorem disjoint_iff_getElem {edits : List Edit} :
    Disjoint edits ↔ ∀ (i j : Nat) (hi : i < edits.length) (hj : j < edits.length),
      i ≠ j → ¬ edits[i].overlaps edits[j] := by
  rw [Disjoint, List.pairwise_iff_getElem]
  constructor
  · intro disjoint i j hi hj distinct
    rcases Nat.lt_or_gt_of_ne distinct with before | after
    · exact disjoint i j hi hj before
    · exact fun overlap => disjoint j i hj hi after (overlaps_symm overlap)
  · intro apart i j hi hj before
    exact apart i j hi hj (Nat.ne_of_lt before)

end Edit

namespace Splice

/-- The bytes that an edit with addressable ends replaces. -/
def ofEdit (d : Document) (e : Edit) : Splice :=
  ⟨(d.offset? e.range.start).getD 0, (d.offset? e.range.stop).getD 0, e.text⟩

theorem ofEdit?_eq_some {d : Document} {e : Edit} (inside : d.containsRange e.range) :
    ofEdit? d e = some (ofEdit d e) := by
  rw [Document.containsRange, Bool.and_eq_true] at inside
  obtain ⟨start, start_found⟩ := Option.isSome_iff_exists.mp inside.1
  obtain ⟨stop, stop_found⟩ := Option.isSome_iff_exists.mp inside.2
  simp [ofEdit?, ofEdit, start_found, stop_found]

theorem ofEdit?_eq_none {d : Document} {e : Edit} (outside : ¬ d.containsRange e.range) :
    ofEdit? d e = none := by
  rw [Document.containsRange, Bool.and_eq_true, Option.isSome_iff_ne_none,
    Option.isSome_iff_ne_none] at outside
  unfold ofEdit?
  cases start_found : d.offset? e.range.start with
  | none => rfl
  | some start =>
      cases stop_found : d.offset? e.range.stop with
      | none => rfl
      | some stop => simp [start_found, stop_found] at outside

/-- Both ends of an addressable range have offsets, ordered as the ends are. -/
theorem exists_offsets {d : Document} {e : Edit} (inside : d.containsRange e.range) :
    d.offset? e.range.start = some (ofEdit d e).start ∧
      d.offset? e.range.stop = some (ofEdit d e).stop := by
  rw [Document.containsRange, Bool.and_eq_true] at inside
  obtain ⟨start, start_found⟩ := Option.isSome_iff_exists.mp inside.1
  obtain ⟨stop, stop_found⟩ := Option.isSome_iff_exists.mp inside.2
  simp [ofEdit, start_found, stop_found]

theorem ofEdit_fits {d : Document} {e : Edit} (inside : d.containsRange e.range) :
    (ofEdit d e).Fits d.text := by
  obtain ⟨start_found, stop_found⟩ := exists_offsets inside
  exact ⟨(Document.offset?_le_iff start_found stop_found).mpr e.range.ordered,
    Document.isCut_of_offset? start_found, Document.isCut_of_offset? stop_found⟩

/-- Splices clash exactly if the edits they come from overlap. -/
theorem clash_ofEdit_iff {d : Document} {e f : Edit} (e_inside : d.containsRange e.range)
    (f_inside : d.containsRange f.range) : Clash (ofEdit d e) (ofEdit d f) ↔ e.overlaps f := by
  obtain ⟨e_start, e_stop⟩ := exists_offsets e_inside
  obtain ⟨f_start, f_stop⟩ := exists_offsets f_inside
  rw [Edit.overlaps, Range.overlaps_iff, Clash, Document.offset?_inj e_start e_stop,
    Document.offset?_inj f_start f_stop, Document.offset?_inj e_start f_start,
    Document.offset?_lt_iff e_start f_stop, Document.offset?_lt_iff f_start e_stop]

theorem mapM_ofEdit?_eq_some {d : Document} {edits : List Edit}
    (inside : ∀ e ∈ edits, d.containsRange e.range) :
    edits.mapM (ofEdit? d) = some (edits.map (ofEdit d)) := by
  induction edits with
  | nil => rfl
  | cons e edits ih =>
      rw [List.mapM_cons, ofEdit?_eq_some (inside e List.mem_cons_self),
        ih fun f member => inside f (List.mem_cons_of_mem e member)]
      rfl

theorem mapM_ofEdit?_eq_none {d : Document} {edits : List Edit}
    (outside : ¬ ∀ e ∈ edits, d.containsRange e.range) : edits.mapM (ofEdit? d) = none := by
  induction edits with
  | nil => simp at outside
  | cons e edits ih =>
      rw [List.mapM_cons]
      by_cases inside : d.containsRange e.range
      · have rest_outside : ¬ ∀ f ∈ edits, d.containsRange f.range := by
          intro all_inside
          apply outside
          intro f member
          rcases List.mem_cons.mp member with rfl | member
          · exact inside
          · exact all_inside f member
        rw [ofEdit?_eq_some inside, ih rest_outside]
        rfl
      · rw [ofEdit?_eq_none inside]
        rfl

end Splice

namespace Document

/-- Edits with addressable ranges are applied by assembling their splices in order. -/
theorem applyEdits?_eq_assemble? {d : Document} {edits : List Edit}
    (inside : ∀ e ∈ edits, d.containsRange e.range) :
    d.applyEdits? edits =
      Splice.assemble? 0 none d.text ((edits.map (Splice.ofEdit d)).mergeSort Splice.le) := by
  rw [applyEdits?, Splice.mapM_ofEdit?_eq_some inside]
  rfl

/-- Edits can be applied together exactly if all are addressable and no two overlap. -/
theorem applyEdits?_isSome_iff {d : Document} {edits : List Edit} :
    (d.applyEdits? edits).isSome ↔
      (∀ e ∈ edits, d.containsRange e.range) ∧ Edit.Disjoint edits := by
  by_cases inside : ∀ e ∈ edits, d.containsRange e.range
  · have perm := (edits.map (Splice.ofEdit d)).mergeSort_perm Splice.le
    have fits : ∀ s ∈ (edits.map (Splice.ofEdit d)).mergeSort Splice.le, s.Fits d.text := by
      intro s member
      obtain ⟨e, e_member, rfl⟩ := List.mem_map.mp (perm.mem_iff.mp member)
      exact Splice.ofEdit_fits (inside e e_member)
    have sorted : ((edits.map (Splice.ofEdit d)).mergeSort Splice.le).Pairwise
        fun x y => Splice.le x y := Splice.sorted_mergeSort _
    rw [applyEdits?_eq_assemble? inside, Splice.assemble?_isSome_iff fits sorted,
      perm.pairwise_iff fun apart clash => apart clash.symm, List.pairwise_map, Edit.Disjoint,
      and_iff_right inside]
    constructor
    · intro apart
      exact apart.imp_of_mem fun e_member f_member not_clash overlap =>
        not_clash ((Splice.clash_ofEdit_iff (inside _ e_member) (inside _ f_member)).mpr overlap)
    · intro apart
      exact apart.imp_of_mem fun e_member f_member disjoint clash =>
        disjoint ((Splice.clash_ofEdit_iff (inside _ e_member) (inside _ f_member)).mp clash)
  · simp [applyEdits?, Splice.mapM_ofEdit?_eq_none inside, inside]

end Document

namespace Fix

theorem isUsable_iff {document : Document} {fix : Fix} :
    fix.isUsable document ↔
      (∀ e ∈ fix.edits, document.containsRange e.range) ∧ Edit.Disjoint fix.edits := by
  rw [isUsable, Bool.and_eq_true, List.all_eq_true, Bool.not_eq_true', hasOverlap,
    Edit.anyOverlap_eq_false_iff]

/-- A fix passes the test for usability exactly if it can be applied. -/
theorem isUsable_eq_isSome_applied? (document : Document) (fix : Fix) :
    fix.isUsable document = (fix.applied? document).isSome := by
  rw [Bool.eq_iff_iff, isUsable_iff, applied?, Document.applyEdits?_isSome_iff]

end Fix

/-- The two tests for overlap agree.  Edits can be applied together exactly if both ends of each are
addressable and no two at different places of the list overlap, which is what the test of a fix
looks at; so the fixes of a provider that are kept are those that can be applied. -/
theorem Document.overlap_tests_agree (d : Document) (edits : List Edit) :
    ((d.applyEdits? edits).isSome ↔
      (∀ e ∈ edits, (d.offset? e.range.start).isSome ∧ (d.offset? e.range.stop).isSome) ∧
        ∀ (i j : Nat) (hi : i < edits.length) (hj : j < edits.length),
          i ≠ j → ¬ edits[i].overlaps edits[j]) ∧
      (Edit.anyOverlap edits = false ↔
        ∀ (i j : Nat) (hi : i < edits.length) (hj : j < edits.length),
          i ≠ j → ¬ edits[i].overlaps edits[j]) ∧
      (∀ fix : Fix, fix.isUsable d ↔ (fix.applied? d).isSome) ∧
      ∀ (provider : Provider) (site : Site),
        provider.usableFixes site =
          ((provider.build site).getD []).filter fun fix =>
            (fix.applied? site.document).isSome := by
  refine ⟨?_, ?_, ?_, ?_⟩
  · simp only [applyEdits?_isSome_iff, Edit.disjoint_iff_getElem, containsRange, Bool.and_eq_true]
  · rw [Edit.anyOverlap_eq_false_iff, Edit.disjoint_iff_getElem]
  · intro fix
    rw [Fix.isUsable_eq_isSome_applied?]
  · intro provider site
    rw [Provider.usableFixes]
    congr 1
    funext fix
    exact Fix.isUsable_eq_isSome_applied? site.document fix

end LintRepair
