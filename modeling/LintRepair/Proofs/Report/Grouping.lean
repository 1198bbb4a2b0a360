import LintRepair.Report.Basic
import LintRepair.Proofs.Text.ByteOrder

/-!
# Entries by file

The entries of a report are put together by file name.  The names come in increasing order, each
once, so every entry is in the group of its name and in no other one.
-/

namespace LintRepair

namespace Report

variable {report : Report} {name other : Text} {names : List Text}

theorem mem_insertName : other ∈ insertName name names ↔ other = name ∨ other ∈ names := by
  induction names with
  | nil => simp [insertName]
  | cons n names ih =>
      rw [insertName]
      split
      · rename_i same
        simp [same]
      · split
        · exact List.mem_cons
        · rw [List.mem_cons, ih, List.mem_cons, or_left_comm]

/-- A name is put in front of the greater ones. -/
theorem sorted_insertName (sorted : names.Pairwise (· < ·)) :
    (insertName name names).Pairwise (· < ·) := by
  induction names with
  | nil => exact List.pairwise_singleton _ _
  | cons n names ih =>
      obtain ⟨n_least, names_sorted⟩ := List.pairwise_cons.mp sorted
      rw [insertName]
      split
      · exact sorted
      · rename_i differs
        split
        · rename_i before
          have name_lt : name < n := Text.precedes_iff_lt.mp before
          refine List.pairwise_cons.mpr ⟨List.forall_mem_cons.mpr ⟨name_lt, ?_⟩, sorted⟩
          exact fun m member => name_lt.trans (n_least m member)
        · rename_i not_before
          have n_lt : n < name :=
            lt_of_le_of_ne (not_lt.mp (mt Text.precedes_iff_lt.mpr not_before)) (Ne.symm differs)
          refine List.pairwise_cons.mpr ⟨fun m member => ?_, ih names_sorted⟩
          rcases mem_insertName.mp member with rfl | later
          · exact n_lt
          · exact n_least m later

theorem mem_filenames : name ∈ report.filenames ↔ ∃ e ∈ report.entries, e.filename = name := by
  have all (given : List Text) : name ∈ given.foldr insertName [] ↔ name ∈ given := by
    induction given with
    | nil => rfl
    | cons first given ih => rw [List.foldr_cons, mem_insertName, ih, List.mem_cons]
  rw [filenames, all, List.mem_map]

theorem sorted_filenames (report : Report) : report.filenames.Pairwise (· < ·) := by
  rw [filenames]
  induction report.entries.map (·.filename) with
  | nil => exact List.Pairwise.nil
  | cons first given ih => exact sorted_insertName ih

theorem map_fst_byFile (report : Report) : report.byFile.map (·.1) = report.filenames := by
  simp [byFile, Function.comp_def]

theorem mem_byFile {group : List Entry} :
    (name, group) ∈ report.byFile ↔
      name ∈ report.filenames ∧ group = report.entries.filter (·.filename = name) := by
  simp only [byFile, List.mem_map, Prod.mk.injEq]
  constructor
  · rintro ⟨_, member, rfl, rfl⟩
    exact ⟨member, rfl⟩
  · rintro ⟨member, rfl⟩
    exact ⟨name, member, rfl, rfl⟩

/-- Every entry is in the group of its file. -/
theorem exists_group {e : Entry} (member : e ∈ report.entries) :
    ∃ group, (e.filename, group) ∈ report.byFile ∧ e ∈ group :=
  ⟨_, mem_byFile.mpr ⟨mem_filenames.mpr ⟨e, member, rfl⟩, rfl⟩,
    List.mem_filter.mpr ⟨member, decide_eq_true rfl⟩⟩

/-- Of the groups of different names an entry is in one. -/
theorem flatMap_filter_perm {entries : List Entry} (distinct : names.Nodup)
    (covered : ∀ e ∈ entries, e.filename ∈ names) :
    (names.flatMap fun name => entries.filter (·.filename = name)).Perm entries := by
  induction entries with
  | nil => simp
  | cons e entries ih =>
      obtain ⟨e_covered, later_covered⟩ := List.forall_mem_cons.mp covered
      obtain ⟨before, after, rfl⟩ := List.append_of_mem e_covered
      have apart := (List.nodup_cons.mp (List.perm_middle.nodup_iff.mp distinct)).1
      have elsewhere (part : List Text) (absent : e.filename ∉ part) :
          (part.flatMap fun name => (e :: entries).filter (·.filename = name)) =
            part.flatMap fun name => entries.filter (·.filename = name) := by
        refine List.flatMap_congr fun name member => ?_
        have differs : e.filename ≠ name := fun same => absent (same ▸ member)
        simp [differs]
      have later := ih later_covered
      rw [List.mem_append, not_or] at apart
      rw [List.flatMap_append, List.flatMap_cons] at later ⊢
      rw [elsewhere before apart.1, elsewhere after apart.2, List.filter_cons_of_pos (by simp),
        List.cons_append]
      exact List.perm_middle.trans (later.cons e)

end Report

end LintRepair
