import LintRepair.Proofs.Edit.Overlap
import Mathlib.Data.List.Pairwise

/-!
# Edits one at a time

Edits that can be applied together can as well be applied one at a time, the last one in the text
first, since what stands before an edit is then still as it was.  Both ways keep all the text
outside the edits.  The order in which the edits are listed does not matter.
-/

namespace LintRepair

namespace Splice

/-- The text after one splice. -/
def into? (text : Text) (s : Splice) : Option Text := do
  let (upTo, behind) ← Text.cut? text s.stop
  let (kept, _) ← Text.cut? upTo s.start
  return kept ++ s.text ++ behind

/-- Two texts from the offset `done` of the first one on agree but for splices in order: each
splice stands in the second text for the bytes it replaces in the first. -/
inductive Weaves : Nat → List Splice → Text → Text → Prop where
  /-- Behind the last splice the texts are the same. -/
  | nil (done : Nat) (rest : Text) : Weaves done [] rest rest
  /-- Text that both have, then a splice, then the texts behind it. -/
  | cons {done : Nat} {s : Splice} {splices : List Splice} {kept replaced old new : Text}
      (start_eq : done + Text.byteSize kept = s.start)
      (stop_eq : s.start + Text.byteSize replaced = s.stop)
      (behind : Weaves s.stop splices old new) :
      Weaves done (s :: splices) (kept ++ replaced ++ old) (kept ++ s.text ++ new)

/-- Assembly keeps the text outside of the splices. -/
theorem weaves_of_assemble? {done : Nat} {previous : Option Nat} {rest text : Text}
    {splices : List Splice} (ordered : ∀ s ∈ splices, s.start ≤ s.stop)
    (assembled : assemble? done previous rest splices = some text) :
    Weaves done splices rest text := by
  induction splices generalizing done previous rest text with
  | nil =>
      obtain rfl := Option.some.inj assembled
      exact .nil done rest
  | cons s splices ih =>
      obtain ⟨s_ordered, later_ordered⟩ := List.forall_mem_cons.mp ordered
      rw [assemble?] at assembled
      split at assembled
      · contradiction
      · rename_i accepted
        simp only [Option.bind_eq_bind, Option.bind_eq_some_iff, Prod.exists] at assembled
        obtain ⟨kept, from_start, start_cut, replaced, later, stop_cut, tail, tail_eq, same⟩ :=
          assembled
        obtain ⟨rfl, kept_size⟩ := Text.cut?_eq_some_iff.mp start_cut
        obtain ⟨rfl, replaced_size⟩ := Text.cut?_eq_some_iff.mp stop_cut
        obtain rfl := Option.some.inj same
        rw [← List.append_assoc]
        exact .cons (by omega) (by omega) (ih later_ordered tail_eq)

/-- A splice of a text that is given in parts. -/
theorem into?_append {front kept replaced behind : Text} {s : Splice}
    (start_eq : Text.byteSize front + Text.byteSize kept = s.start)
    (stop_eq : s.start + Text.byteSize replaced = s.stop) :
    into? (front ++ (kept ++ replaced ++ behind)) s =
      some (front ++ (kept ++ s.text ++ behind)) := by
  have stop_cut := Text.cut?_append (front ++ kept ++ replaced) behind
  have start_cut := Text.cut?_append (front ++ kept) replaced
  rw [Text.byteSize_append, Text.byteSize_append, start_eq, stop_eq] at stop_cut
  rw [Text.byteSize_append, start_eq] at start_cut
  have parts : front ++ (kept ++ replaced ++ behind) = front ++ kept ++ replaced ++ behind := by
    simp
  rw [into?, parts, stop_cut]
  simp only [Option.bind_eq_bind, Option.bind_some, start_cut]
  simp

/-- From the last splice to the first, one splice at a time leads to the same text. -/
theorem Weaves.foldlM_reverse {done : Nat} {splices : List Splice} {old new : Text}
    (weaves : Weaves done splices old new) {front : Text} (size : Text.byteSize front = done) :
    splices.reverse.foldlM into? (front ++ old) = some (front ++ new) := by
  induction weaves generalizing front with
  | nil => rfl
  | @cons done s splices kept replaced old new start_eq stop_eq behind ih =>
      have front_size : Text.byteSize (front ++ kept ++ replaced) = s.stop := by
        simp only [Text.byteSize_append]
        omega
      -- The later splices are done by then, and they leave what stands before them as it is.
      have later := ih front_size
      have here : into? (front ++ (kept ++ replaced ++ new)) s =
          some (front ++ (kept ++ s.text ++ new)) := into?_append (size ▸ start_eq) stop_eq
      simp only [List.append_assoc] at later here ⊢
      rw [List.reverse_cons, List.foldlM_append, later]
      simpa using here

/-- Order by start, then by end, with no two splices at the same place. -/
def Precedes (a b : Splice) : Prop := a.start < b.start ∨ (a.start = b.start ∧ a.stop < b.stop)

theorem precedes_of_not_clash {a b : Splice} (a_ordered : a.start ≤ a.stop)
    (b_ordered : b.start ≤ b.stop) (a_le_b : le a b) (apart : ¬ Clash a b) : Precedes a b := by
  rw [le_iff] at a_le_b
  unfold Clash at apart
  unfold Precedes
  omega

/-- Splices that do not clash are sorted in one way only. -/
theorem mergeSort_eq_of_perm {splices others : List Splice} (perm : others.Perm splices)
    (ordered : ∀ s ∈ splices, s.start ≤ s.stop)
    (apart : splices.Pairwise fun a b => ¬ Clash a b) :
    others.mergeSort le = splices.mergeSort le := by
  refine List.Perm.eq_of_pairwise ?_ (sorted_mergeSort others) (sorted_mergeSort splices) ?_
  · intro a b a_member b_member a_le_b b_le_a
    have a_of_splices := perm.subset (List.mem_mergeSort.mp a_member)
    have b_of_splices := List.mem_mergeSort.mp b_member
    by_contra distinct
    -- Two splices that precede each other have the same bounds, so they clash.
    have symmetric : Std.Symm fun a b : Splice => ¬ Clash a b :=
      ⟨fun _ _ apart clash => apart clash.symm⟩
    apply apart.forall a_of_splices b_of_splices distinct
    have a_ordered := ordered a a_of_splices
    rw [le_iff] at a_le_b b_le_a
    unfold Clash
    omega
  · exact (others.mergeSort_perm le).trans (perm.trans (splices.mergeSort_perm le).symm)

end Splice

namespace Document

/-- What the splices of edits are that can be applied together. -/
theorem exists_splices {d : Document} {edits : List Edit}
    (accepted : (d.applyEdits? edits).isSome) :
    (∀ e ∈ edits, d.containsRange e.range) ∧
      (∀ s ∈ edits.map (Splice.ofEdit d), s.start ≤ s.stop) ∧
      (edits.map (Splice.ofEdit d)).Pairwise fun a b => ¬ Splice.Clash a b := by
  obtain ⟨inside, disjoint⟩ := applyEdits?_isSome_iff.mp accepted
  refine ⟨inside, ?_, ?_⟩
  · intro s member
    obtain ⟨e, e_member, rfl⟩ := List.mem_map.mp member
    exact (Splice.ofEdit_fits (inside e e_member)).ordered
  · rw [List.pairwise_map]
    exact disjoint.imp_of_mem fun e_member f_member apart clash =>
      apart ((Splice.clash_ofEdit_iff (inside _ e_member) (inside _ f_member)).mp clash)

/-- The order in which edits are listed does not matter. -/
theorem applyEdits?_perm (d : Document) {edits others : List Edit} (perm : others.Perm edits) :
    d.applyEdits? others = d.applyEdits? edits := by
  have same_success : (d.applyEdits? others).isSome = (d.applyEdits? edits).isSome := by
    rw [Bool.eq_iff_iff, applyEdits?_isSome_iff, applyEdits?_isSome_iff, Edit.Disjoint,
      Edit.Disjoint, perm.pairwise_iff fun apart overlap => apart (Edit.overlaps_symm overlap)]
    simp only [perm.mem_iff]
  cases accepted : (d.applyEdits? edits).isSome with
  | false =>
      rw [accepted] at same_success
      rw [Option.isSome_eq_false_iff, Option.isNone_iff_eq_none] at accepted same_success
      rw [accepted, same_success]
  | true =>
      obtain ⟨inside, ordered, apart⟩ := exists_splices accepted
      have others_inside : ∀ e ∈ others, d.containsRange e.range :=
        fun e member => inside e (perm.mem_iff.mp member)
      rw [applyEdits?_eq_assemble? inside, applyEdits?_eq_assemble? others_inside,
        Splice.mergeSort_eq_of_perm (perm.map _) ordered apart]

/-- What edits do when they can be applied together, and that their order in the list does not
matter.  Sorted by the offsets of start and end, the edits have a place each.  The text before and
the text after agree outside of the edits, and every replacement stands once in the text after, in
the place of what it replaces.  Splicing the edits into the text one at a time, from the last to the
first in this order, gives the same text. -/
theorem edits_spliced_last_first (d : Document) (edits : List Edit) :
    (∀ text, d.applyEdits? edits = some text →
      ∃ splices sorted, edits.mapM (Splice.ofEdit? d) = some splices ∧ sorted.Perm splices ∧
        sorted.Pairwise Splice.Precedes ∧ Splice.Weaves 0 sorted d.text text ∧
        sorted.reverse.foldlM Splice.into? d.text = some text) ∧
      ∀ others, others.Perm edits → d.applyEdits? others = d.applyEdits? edits := by
  refine ⟨fun text applied => ?_, fun others perm => d.applyEdits?_perm perm⟩
  obtain ⟨inside, ordered, apart⟩ := exists_splices (Option.isSome_of_eq_some applied)
  have perm := (edits.map (Splice.ofEdit d)).mergeSort_perm Splice.le
  have sorted_ordered : ∀ s ∈ (edits.map (Splice.ofEdit d)).mergeSort Splice.le,
      s.start ≤ s.stop := fun s member => ordered s (perm.mem_iff.mp member)
  have sorted_apart := (perm.pairwise_iff fun apart clash => apart clash.symm).mpr apart
  have sorted := Splice.sorted_mergeSort (edits.map (Splice.ofEdit d))
  rw [applyEdits?_eq_assemble? inside] at applied
  have weaves := Splice.weaves_of_assemble? sorted_ordered applied
  refine ⟨_, _, Splice.mapM_ofEdit?_eq_some inside, perm, ?_, weaves, ?_⟩
  · have both := sorted.and sorted_apart
    exact both.imp_of_mem fun a_member b_member ⟨a_le_b, not_clash⟩ =>
      Splice.precedes_of_not_clash (sorted_ordered _ a_member) (sorted_ordered _ b_member)
        a_le_b not_clash
  · exact weaves.foldlM_reverse Text.byteSize_nil

/-- Two insertions that touch a replacement, one at either end of it, listed out of order. -/
def touchingEdits : List Edit :=
  [.insert ⟨1, 0⟩ "x", .replace (.between ⟨0, 1⟩ ⟨1, 0⟩) "-", .insert ⟨0, 1⟩ "y"]

theorem edits_spliced_last_first_touching :
    (ofText "ab\ncd").applyEdits? touchingEdits = some ("ay-xcd" : Text) ∧
    (∃ splices sorted, touchingEdits.mapM (Splice.ofEdit? (ofText "ab\ncd")) = some splices ∧
      sorted.Perm splices ∧ sorted.Pairwise Splice.Precedes ∧
      Splice.Weaves 0 sorted "ab\ncd" "ay-xcd" ∧
      sorted.reverse.foldlM Splice.into? "ab\ncd" = some ("ay-xcd" : Text)) ∧
    (ofText "ab\ncd").applyEdits? touchingEdits.reverse =
      (ofText "ab\ncd").applyEdits? touchingEdits := by
  have applied : (ofText "ab\ncd").applyEdits? touchingEdits = some ("ay-xcd" : Text) := by
    rw [← applyEdits?_perm _ touchingEdits.reverse_perm,
      applyEdits?_eq_assemble? (by decide +kernel), List.mergeSort_of_pairwise (by decide +kernel)]
    decide +kernel
  have spliced := edits_spliced_last_first (ofText "ab\ncd") touchingEdits
  exact ⟨applied, spliced.1 _ applied, spliced.2 _ touchingEdits.reverse_perm⟩

end Document

end LintRepair
