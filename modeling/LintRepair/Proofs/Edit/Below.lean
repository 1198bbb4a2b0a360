import LintRepair.Proofs.Document.LineEdits
import LintRepair.Proofs.Edit.Sequence

/-!
# An edit below another one

Of two edits on different lines the lower one can be applied first: the lines above it are kept, and
with them every place on these lines.  So a text put behind one line and a line added further below
are two edits whose results do not depend on each other.
-/

namespace LintRepair

namespace Splice

theorem foldlM_reverse_of_assemble? {splices : List Splice} {before after : Text}
    (ordered : ∀ s ∈ splices, s.start ≤ s.stop)
    (assembled : assemble? 0 none before splices = some after) :
    splices.reverse.foldlM into? before = some after :=
  (weaves_of_assemble? ordered assembled).foldlM_reverse Text.byteSize_nil

end Splice

namespace Document

variable {d : Document} {e f : Edit}

/-- A single edit is one splice. -/
theorem applyEdits?_singleton_eq_into? (inside : d.containsRange e.range) :
    d.applyEdits? [e] = Splice.into? d.text (Splice.ofEdit d e) := by
  have all_inside : ∀ g ∈ [e], d.containsRange g.range := List.forall_mem_singleton.mpr inside
  obtain ⟨text, applied⟩ := Option.isSome_iff_exists.mp
    (applyEdits?_isSome_iff.mpr ⟨all_inside, List.pairwise_singleton _ _⟩)
  have assembled := applied
  rw [applyEdits?_eq_assemble? all_inside, List.map_singleton, List.mergeSort_singleton]
    at assembled
  have ordered : ∀ s ∈ [Splice.ofEdit d e], s.start ≤ s.stop :=
    List.forall_mem_singleton.mpr (Splice.ofEdit_fits inside).ordered
  have spliced := Splice.foldlM_reverse_of_assemble? ordered assembled
  rw [applied, ← spliced]
  simp

/-- Of two edits, one before the other, the later one is spliced in first. -/
theorem applyEdits?_pair_eq_into? (e_inside : d.containsRange e.range)
    (f_inside : d.containsRange f.range) (before : e.range.stop < f.range.start) :
    d.applyEdits? [e, f] =
      (Splice.into? d.text (Splice.ofEdit d f)).bind (Splice.into? · (Splice.ofEdit d e)) := by
  have e_ordered := (Splice.ofEdit_fits e_inside).ordered
  have f_ordered := (Splice.ofEdit_fits f_inside).ordered
  obtain ⟨-, e_stop⟩ := Splice.exists_offsets e_inside
  obtain ⟨f_start, -⟩ := Splice.exists_offsets f_inside
  have first := (offset?_lt_iff e_stop f_start).mpr before
  have all_inside : ∀ g ∈ [e, f], d.containsRange g.range :=
    List.forall_mem_cons.mpr ⟨e_inside, List.forall_mem_singleton.mpr f_inside⟩
  have disjoint : Edit.Disjoint [e, f] := by
    refine List.pairwise_pair.mpr fun overlap => ?_
    have clash := (Splice.clash_ofEdit_iff e_inside f_inside).mpr overlap
    unfold Splice.Clash at clash
    omega
  have sorted : [Splice.ofEdit d e, Splice.ofEdit d f].Pairwise fun a b => Splice.le a b := by
    refine List.pairwise_pair.mpr (Splice.le_iff.mpr ?_)
    omega
  obtain ⟨text, applied⟩ := Option.isSome_iff_exists.mp
    (applyEdits?_isSome_iff.mpr ⟨all_inside, disjoint⟩)
  have assembled := applied
  rw [applyEdits?_eq_assemble? all_inside, List.map_cons, List.map_singleton,
    List.mergeSort_of_pairwise sorted] at assembled
  have ordered : ∀ s ∈ [Splice.ofEdit d e, Splice.ofEdit d f], s.start ≤ s.stop :=
    List.forall_mem_cons.mpr ⟨e_ordered, List.forall_mem_singleton.mpr f_ordered⟩
  have spliced := Splice.foldlM_reverse_of_assemble? ordered assembled
  rw [applied, ← spliced]
  simp

section FirstLines

variable {other : Document} {n : Nat} (kept : other.lines.take n = d.lines.take n)

include kept

theorem line?_eq_of_take_eq {i : Nat} (above : i < n) : other.line? i = d.line? i := by
  rw [line?, line?, ← List.getElem?_take_of_lt above, kept, List.getElem?_take_of_lt above]

/-- Places on the first lines are the same in documents that start with the same lines. -/
theorem offset?_eq_of_take_eq {p : Position} (above : p.line < n) :
    other.offset? p = d.offset? p := by
  have same_before : other.lines.take p.line = d.lines.take p.line := by
    have shorter := congrArg (List.take p.line) kept
    rwa [List.take_take, List.take_take, Nat.min_eq_left (Nat.le_of_lt above)] at shorter
  rw [offset?, offset?, line?_eq_of_take_eq kept above, lineStart, lineStart, same_before]

end FirstLines

/-- Of two edits on different lines, the lower one can be applied first. -/
theorem applyEdits?_pair {n : Nat} {mid : Text} (applied : d.applyEdits? [f] = some mid)
    (kept : (ofText mid).lines.take n = d.lines.take n) (e_inside : d.containsRange e.range)
    (above : e.range.stop.line < n) (below : n ≤ f.range.start.line) :
    d.applyEdits? [e, f] = (ofText mid).applyEdits? [e] := by
  have f_inside : d.containsRange f.range :=
    (applyEdits?_isSome_iff.mp (Option.isSome_of_eq_some applied)).1 f List.mem_cons_self
  have start_line_le : e.range.start.line ≤ e.range.stop.line := by
    have ordered := Position.le_iff.mp e.range.ordered
    omega
  have start_kept := offset?_eq_of_take_eq kept (Nat.lt_of_le_of_lt start_line_le above)
  have stop_kept := offset?_eq_of_take_eq kept above
  have still_inside : (ofText mid).containsRange e.range := by
    rwa [containsRange, start_kept, stop_kept]
  have same_splice : Splice.ofEdit (ofText mid) e = Splice.ofEdit d e := by
    rw [Splice.ofEdit, Splice.ofEdit, start_kept, stop_kept]
  have before : e.range.stop < f.range.start := .inl (Nat.lt_of_lt_of_le above below)
  rw [applyEdits?_singleton_eq_into? f_inside] at applied
  rw [applyEdits?_pair_eq_into? e_inside f_inside before, applied,
    applyEdits?_singleton_eq_into? still_inside, same_splice]
  rfl

variable {i j : Nat} {head text added : Text}

/-- Text put behind a line becomes part of it. -/
theorem exists_appended (found : d.line? i = some head) (fills : Line.Fills (head ++ text)) :
    ∃ result, d.applyEdits? [.insert (d.lineEnd i) text] = some result ∧
      (ofText result).texts = d.texts.set i (head ++ text) := by
  obtain ⟨line, line_found, rfl⟩ := Option.map_eq_some_iff.mp found
  have inside : i < d.lineCount := (List.getElem?_eq_some_iff.mp line_found).1
  have end_eq : d.lineEnd i = ⟨i, Text.byteSize line.text⟩ := by
    rw [lineEnd, lineLen_eq line_found]
  have text_eq : line.text = line.text ++ ([] ++ []) := by simp
  obtain ⟨result, applied, lines_eq⟩ := exists_edit_onLine line_found
    (e := .insert (d.lineEnd i) text) text_eq end_eq end_eq (List.forall_mem_nil _)
    (fills line.ending) rfl (by simp [Line.source, Edit.insert])
  refine ⟨result, applied, ?_⟩
  rw [texts_ofText lines_eq, List.set_eq_take_append_cons_drop, length_texts, if_pos inside]
  simp [texts, List.map_take, List.map_drop]

/-- Text is put behind a line and a new line behind one further below. -/
theorem exists_appended_inserted (unreturned : ∀ text ∈ d.texts, text.getLast? ≠ some '\r')
    (found : d.line? i = some head) (below : i < j) (inside : j < d.lineCount)
    (fills : Line.Fills (head ++ text)) (added_fills : Line.Fills added) :
    ∃ result, d.applyEdits?
        [.insert (d.lineEnd i) text, d.insertAfterLine j (added ++ "\n")] = some result ∧
      (ofText result).texts =
        (d.texts.take (j + 1) ++ added :: d.texts.drop (j + 1)).set i (head ++ text) := by
  obtain ⟨mid, inserted, mid_texts⟩ := exists_inserted unreturned inside (List.cons_ne_nil added [])
    (List.forall_mem_singleton.mpr added_fills)
  obtain ⟨lower, lower_found⟩ := exists_line inside
  obtain ⟨_, closed, ending, same, -, mid_lines⟩ :=
    exists_insertAfterLine lower_found (List.forall_mem_nil _) added_fills
  rw [List.flatMap_nil, List.nil_append] at same
  rw [List.flatMap_singleton] at inserted
  obtain rfl := Option.some.inj (inserted.symm.trans same)
  have kept : (ofText mid).lines.take (i + 1) = d.lines.take (i + 1) := by
    rw [mid_lines, List.take_append_of_le_length, List.take_take, Nat.min_eq_left below]
    rw [List.length_take_of_le (Nat.le_of_lt inside)]
    exact below
  have mid_found : (ofText mid).line? i = some head := by
    rw [← found, line?_eq_of_take_eq kept (Nat.lt_succ_self i)]
  have same_end : (ofText mid).lineEnd i = d.lineEnd i := by
    rw [lineEnd, lineEnd, lineLen, lineLen, mid_found, found]
  have e_inside : d.containsRange (Edit.insert (d.lineEnd i) text).range :=
    containsRange_empty.mpr (isAddressable_lineEnd (Nat.lt_trans below inside))
  have lower_start : i + 1 ≤ (d.insertAfterLine j (added ++ "\n")).range.start.line := by
    rw [insertAfterLine_range]
    split
    · exact Nat.le_succ_of_le below
    · exact below
  obtain ⟨result, appended, result_texts⟩ := exists_appended mid_found fills
  refine ⟨result, ?_, by rw [result_texts, mid_texts, List.singleton_append]⟩
  rw [applyEdits?_pair inserted kept e_inside (Nat.lt_succ_self i) lower_start, ← same_end,
    appended]

end Document

end LintRepair
