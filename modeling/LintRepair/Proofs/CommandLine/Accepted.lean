import LintRepair.CommandLine.Fixing
import LintRepair.Proofs.Dispatcher
import Mathlib.Data.List.ReduceOption

/-!
# Fixes accepted for a file

The fixes of a file's diagnostics are offered one after another.  An offer is declined exactly if it
overlaps an edit accepted before it, so the accepted edits stay disjoint, and the file can always be
fixed with all of them at once.
-/

namespace LintRepair

namespace Command

namespace Accepted

/-- Whether an edit of a fix overlaps one of the edits accepted before. -/
def collides (earlier : List Edit) (fix : Fix) : Bool :=
  fix.edits.any fun edit => earlier.any fun accepted => accepted.overlaps edit

theorem collides_eq_false_iff {earlier : List Edit} {fix : Fix} :
    collides earlier fix = false ↔ ∀ e ∈ earlier, ∀ f ∈ fix.edits, ¬ e.overlaps f := by
  simp only [collides, List.any_eq_false, Bool.not_eq_true, List.any_eq_true, not_exists, not_and]
  constructor
  · intro apart e e_member f f_member
    exact apart f f_member e e_member
  · intro apart f f_member e e_member
    exact apart e e_member f f_member

/-- What is decided on offers made one after another: the fix, where one is offered and accepted. -/
def decisions (earlier : List Edit) : List (Option Fix) → List (Option Fix)
  | [] => []
  | Option.none :: offers => Option.none :: decisions earlier offers
  | some fix :: offers =>
      if collides earlier fix then Option.none :: decisions earlier offers
      else some fix :: decisions (earlier ++ fix.edits) offers

/-- The edits of the fixes that decisions accept. -/
def editsOf (decided : List (Option Fix)) : List Edit := decided.reduceOption.flatMap (·.edits)

@[simp]
theorem editsOf_nil : editsOf [] = [] := rfl

@[simp]
theorem editsOf_none (decided : List (Option Fix)) :
    editsOf (Option.none :: decided) = editsOf decided := rfl

@[simp]
theorem editsOf_some (fix : Fix) (decided : List (Option Fix)) :
    editsOf (some fix :: decided) = fix.edits ++ editsOf decided := rfl

theorem mem_editsOf {decided : List (Option Fix)} {e : Edit} :
    e ∈ editsOf decided ↔ ∃ fix, some fix ∈ decided ∧ e ∈ fix.edits := by
  simp [editsOf, List.mem_flatMap, List.reduceOption_mem_iff]

theorem collides_append (earlier later : List Edit) (fix : Fix) :
    collides (earlier ++ later) fix = false ↔
      collides earlier fix = false ∧ collides later fix = false := by
  simp only [collides_eq_false_iff, List.mem_append]
  constructor
  · intro apart
    exact ⟨fun e member => apart e (Or.inl member), fun e member => apart e (Or.inr member)⟩
  · rintro ⟨apart_earlier, apart_later⟩ e (member | member)
    · exact apart_earlier e member
    · exact apart_later e member

private theorem accepted_before_none {decided : List (Option Fix)} {i : Nat} {P : Fix → Prop} :
    (∀ j < i + 1, ∀ other, (Option.none :: decided)[j]? = some (some other) → P other) ↔
      ∀ j < i, ∀ other, decided[j]? = some (some other) → P other := by
  constructor
  · intro all j before other found
    exact all (j + 1) (by omega) other (by simpa using found)
  · intro all j before other found
    cases j with
    | zero => simp at found
    | succ j => exact all j (by omega) other (by simpa using found)

private theorem accepted_before_some {first : Fix} {decided : List (Option Fix)} {i : Nat}
    {P : Fix → Prop} :
    (∀ j < i + 1, ∀ other, (some first :: decided)[j]? = some (some other) → P other) ↔
      P first ∧ ∀ j < i, ∀ other, decided[j]? = some (some other) → P other := by
  constructor
  · intro all
    refine ⟨all 0 (by omega) first rfl, ?_⟩
    intro j before other found
    exact all (j + 1) (by omega) other (by simpa using found)
  · rintro ⟨first_holds, all⟩ j before other found
    cases j with
    | zero =>
        obtain rfl : first = other := by simpa using found
        exact first_holds
    | succ j => exact all j (by omega) other (by simpa using found)

/-- A fix is accepted exactly if it is offered and overlaps no edit that was accepted before, either
at the outset or from an earlier offer. -/
theorem decisions_getElem?_eq_some_iff {earlier : List Edit} {offers : List (Option Fix)} {i : Nat}
    {fix : Fix} :
    (decisions earlier offers)[i]? = some (some fix) ↔
      offers[i]? = some (some fix) ∧ collides earlier fix = false ∧
        ∀ j < i, ∀ other, (decisions earlier offers)[j]? = some (some other) →
          collides other.edits fix = false := by
  induction offers generalizing earlier i with
  | nil => simp [decisions]
  | cons offer offers ih =>
      cases offer with
      | none =>
          cases i with
          | zero => simp [decisions]
          | succ i =>
              rw [decisions, accepted_before_none, List.getElem?_cons_succ, ih,
                List.getElem?_cons_succ]
      | some offered =>
          by_cases declined : collides earlier offered
          · rw [decisions, if_pos declined]
            cases i with
            | zero =>
                simp only [List.getElem?_cons_zero, Option.some.injEq, reduceCtorEq, false_iff]
                rintro ⟨rfl, apart, -⟩
                simp [declined] at apart
            | succ i =>
                rw [accepted_before_none, List.getElem?_cons_succ, ih, List.getElem?_cons_succ]
          · rw [decisions, if_neg declined]
            cases i with
            | zero =>
                simp only [List.getElem?_cons_zero, Option.some.injEq]
                constructor
                · rintro rfl
                  exact ⟨rfl, by simpa using declined, by simp⟩
                · rintro ⟨same, -⟩
                  exact same
            | succ i =>
                rw [accepted_before_some, List.getElem?_cons_succ, ih, collides_append,
                  List.getElem?_cons_succ, and_assoc]

/-- Offers that are disjoint in themselves leave the accepted edits disjoint. -/
theorem disjoint_decisions {earlier : List Edit} {offers : List (Option Fix)}
    (earlier_disjoint : Edit.Disjoint earlier)
    (offers_disjoint : ∀ fix, some fix ∈ offers → Edit.Disjoint fix.edits) :
    Edit.Disjoint (earlier ++ editsOf (decisions earlier offers)) := by
  induction offers generalizing earlier with
  | nil => simpa [decisions] using earlier_disjoint
  | cons offer offers ih =>
      have rest_disjoint : ∀ fix, some fix ∈ offers → Edit.Disjoint fix.edits :=
        fun fix member => offers_disjoint fix (List.mem_cons_of_mem offer member)
      cases offer with
      | none => simpa [decisions] using ih earlier_disjoint rest_disjoint
      | some offered =>
          by_cases declined : collides earlier offered
          · simpa [decisions, declined] using ih earlier_disjoint rest_disjoint
          · have apart := collides_eq_false_iff.mp (by simpa using declined)
            have joined : Edit.Disjoint (earlier ++ offered.edits) :=
              List.pairwise_append.mpr
                ⟨earlier_disjoint, offers_disjoint offered List.mem_cons_self, apart⟩
            simpa [decisions, declined] using ih joined rest_disjoint

theorem mem_offers_of_mem_decisions {earlier : List Edit} {offers : List (Option Fix)} {fix : Fix}
    (member : some fix ∈ decisions earlier offers) : some fix ∈ offers := by
  obtain ⟨i, found⟩ := List.mem_iff_getElem?.mp member
  exact List.mem_of_getElem? (decisions_getElem?_eq_some_iff.mp found).1

/-- One offer after another, accepted fixes add their edits and every offer is counted once. -/
theorem foldl_offer (accepted : Accepted) (offers : List (Option Fix)) :
    offers.foldl offer accepted =
      { edits := accepted.edits ++ editsOf (decisions accepted.edits offers)
        applied := accepted.applied + (decisions accepted.edits offers).reduceOption.length
        unfixable :=
          accepted.unfixable + (decisions accepted.edits offers).countP (·.isNone) } := by
  induction offers generalizing accepted with
  | nil => simp [decisions]
  | cons offer offers ih =>
      rw [List.foldl_cons, ih]
      cases offer with
      | none => simp [Accepted.offer, decisions, Nat.add_assoc, Nat.add_comm 1]
      | some offered =>
          rw [Accepted.offer, ← collides, decisions]
          split
          · simp [Nat.add_assoc, Nat.add_comm 1]
          · simp [Nat.add_assoc, Nat.add_comm 1]

/-- What is decided on the preferred fixes of a file's diagnostics. -/
def decided (dispatcher : Dispatcher) (document : Document) (diagnostics : List Diagnostic) :
    List (Option Fix) :=
  decisions [] (diagnostics.map fun diagnostic => dispatcher.preferredFix? diagnostic document)

theorem collect_eq (dispatcher : Dispatcher) (document : Document)
    (diagnostics : List Diagnostic) :
    collect dispatcher document diagnostics =
      { edits := editsOf (decided dispatcher document diagnostics)
        applied := (decided dispatcher document diagnostics).reduceOption.length
        unfixable := (decided dispatcher document diagnostics).countP (·.isNone) } := by
  rw [collect, ← List.foldl_map, foldl_offer]
  simp [Accepted.none, decided]

theorem exists_preferredFix?_of_mem_decided {dispatcher : Dispatcher} {document : Document}
    {diagnostics : List Diagnostic} {fix : Fix}
    (member : some fix ∈ decided dispatcher document diagnostics) :
    ∃ diagnostic, dispatcher.preferredFix? diagnostic document = some fix := by
  obtain ⟨diagnostic, -, preferred⟩ := List.mem_map.mp (mem_offers_of_mem_decisions member)
  exact ⟨diagnostic, preferred⟩

/-- The edits accepted for a file can be applied together. -/
theorem applyEdits?_decided_isSome (dispatcher : Dispatcher) (document : Document)
    (diagnostics : List Diagnostic) :
    (document.applyEdits? (editsOf (decided dispatcher document diagnostics))).isSome := by
  rw [Document.applyEdits?_isSome_iff]
  constructor
  · intro e member
    obtain ⟨fix, fix_member, e_member⟩ := mem_editsOf.mp member
    obtain ⟨diagnostic, preferred⟩ := exists_preferredFix?_of_mem_decided fix_member
    exact (Dispatcher.preferredFix?_eq_some preferred).2.1 e e_member
  · have offers_disjoint : ∀ fix,
        some fix ∈ diagnostics.map (fun diagnostic =>
          dispatcher.preferredFix? diagnostic document) → Edit.Disjoint fix.edits := by
      intro fix member
      obtain ⟨diagnostic, -, preferred⟩ := List.mem_map.mp member
      exact (Dispatcher.preferredFix?_eq_some preferred).2.2
    have none_earlier : Edit.Disjoint [] := List.Pairwise.nil
    simpa [decided] using disjoint_decisions none_earlier offers_disjoint

/-- Something is edited exactly if a fix is accepted, since a preferred fix has edits. -/
theorem editsOf_decided_eq_nil_iff {dispatcher : Dispatcher} {document : Document}
    {diagnostics : List Diagnostic} :
    editsOf (decided dispatcher document diagnostics) = [] ↔
      (decided dispatcher document diagnostics).reduceOption = [] := by
  constructor
  · intro no_edits
    refine List.eq_nil_iff_forall_not_mem.mpr fun fix member => ?_
    rw [List.reduceOption_mem_iff] at member
    obtain ⟨diagnostic, preferred⟩ := exists_preferredFix?_of_mem_decided member
    obtain ⟨edits_ne, -⟩ := Dispatcher.preferredFix?_eq_some preferred
    obtain ⟨e, e_member⟩ := List.exists_mem_of_ne_nil _ edits_ne
    have edited := mem_editsOf.mpr ⟨fix, member, e_member⟩
    simp [no_edits] at edited
  · intro none_accepted
    rw [editsOf, none_accepted, List.flatMap_nil]

end Accepted

/-- Fixing a document never fails. -/
theorem fixDocument_eq_ok (dispatcher : Dispatcher) (path : Text) (document : Document)
    (entries : List Report.Entry) :
    let decided := Accepted.decided dispatcher document (convert dispatcher document entries)
    fixDocument dispatcher path document entries = .ok
      { path
        old := document.text
        new := if decided.reduceOption = [] then none
          else document.applyEdits? (Accepted.editsOf decided)
        applied := decided.reduceOption.length
        unfixable := decided.countP (·.isNone) } := by
  intro decided
  have applies := Accepted.applyEdits?_decided_isSome dispatcher document
    (convert dispatcher document entries)
  obtain ⟨text, applied⟩ := Option.isSome_iff_exists.mp applies
  simp only [fixDocument, Accepted.collect_eq, List.isEmpty_iff,
    Accepted.editsOf_decided_eq_nil_iff, applied]
  split
  · rename_i none_accepted
    simp [decided, none_accepted]
  · simp [decided, applied]

end Command

end LintRepair
