import LintRepair.Proofs.CommandLine.Overwrite
import LintRepair.Proofs.Report.Grouping

/-!
# All files or none

The command `fix` looks at everything before it writes anything.  If the settings or the report are
refused, or some file of the report cannot be read, it fails and writes nothing.  Otherwise it
writes the files with accepted fixes and no others, and in a preview none at all.
-/

namespace LintRepair

/-- A command fails with an error: the error is the last that it prints, and nothing is written. -/
structure Outcome.FailsWith (outcome : Outcome) (e : CommandError) : Prop where
  /-- The exit code tells of a failure. -/
  exit_eq : outcome.exit = 1
  /-- Nothing is printed on standard output. -/
  out_eq : outcome.console.out = []
  /-- The error is reported last. -/
  reported : e.report <:+ outcome.console.err
  /-- Nothing is to be written. -/
  writes_eq : outcome.writes = []

namespace Command

/-- What keeps the command from fixing the files of a report. -/
inductive Obstacle (env : Environment) (report : Text) (settings : Option Text) :
    CommandError → Prop
  /-- The settings or the report are refused. -/
  | refused {e : CommandError} (refused : prepared env report settings = .error e) :
      Obstacle env report settings e
  /-- A file that an entry names cannot be read. -/
  | unreadable {dispatcher : Dispatcher} {rep : Report} {entry : Report.Entry}
      (ready : prepared env report settings = .ok (dispatcher, rep)) (member : entry ∈ rep.entries)
      (unread : env.files.read? (Path.ofFilename entry.filename) = none) :
      Obstacle env report settings (.read (Path.ofFilename entry.filename))

section Steps

variable {env : Environment} {dispatcher : Dispatcher} {report : Text} {settings : Option Text}
  {e : CommandError}

/-- A file fails to be fixed only if it cannot be read. -/
theorem fixFile_eq_error {file : Text × List Report.Entry}
    (failed : fixFile env dispatcher file = .error e) :
    env.files.read? (Path.ofFilename file.1) = none ∧ e = .read (Path.ofFilename file.1) := by
  cases read : env.files.read? (Path.ofFilename file.1) with
  | none =>
      simp only [fixFile, document?, read, Option.map_none] at failed
      exact ⟨rfl, (Except.error.inj failed).symm⟩
  | some text =>
      simp only [fixFile, document?, read, Option.map_some, fixDocument_eq_ok] at failed
      contradiction

/-- The error of a run over files is the error of one of them. -/
theorem exists_of_mapM_fixFile_eq_error {groups : List (Text × List Report.Entry)}
    (failed : groups.mapM (fixFile env dispatcher) = .error e) :
    ∃ file ∈ groups, fixFile env dispatcher file = .error e := by
  induction groups with
  | nil => contradiction
  | cons file groups ih =>
      rw [List.mapM_cons] at failed
      cases first : fixFile env dispatcher file with
      | error e' =>
          rw [first] at failed
          obtain rfl : e' = e := Except.error.inj failed
          exact ⟨file, List.mem_cons_self, first⟩
      | ok fixed =>
          cases rest : groups.mapM (fixFile env dispatcher) with
          | error e' =>
              rw [first, rest] at failed
              obtain rfl : e' = e := Except.error.inj failed
              obtain ⟨later, member, later_failed⟩ := ih rest
              exact ⟨later, List.mem_cons_of_mem file member, later_failed⟩
          | ok others =>
              rw [first, rest] at failed
              contradiction

theorem fixedFiles_of_ready {rep : Report}
    (ready : prepared env report settings = .ok (dispatcher, rep)) :
    fixedFiles env report settings = rep.byFile.mapM (fixFile env dispatcher) := by
  rw [fixedFiles, ready]
  rfl

theorem obstacle_of_fixedFiles_eq_error (failed : fixedFiles env report settings = .error e) :
    Obstacle env report settings e := by
  cases ready : prepared env report settings with
  | error e' =>
      rw [fixedFiles, ready] at failed
      obtain rfl : e' = e := Except.error.inj failed
      exact .refused ready
  | ok work =>
      obtain ⟨dispatcher, rep⟩ := work
      rw [fixedFiles_of_ready ready] at failed
      obtain ⟨⟨name, group⟩, member, file_failed⟩ := exists_of_mapM_fixFile_eq_error failed
      obtain ⟨unread, rfl⟩ := fixFile_eq_error file_failed
      obtain ⟨entry, entry_member, rfl⟩ := Report.mem_filenames.mp (Report.mem_byFile.mp member).1
      exact .unreadable ready entry_member unread

/-- Where everything is fixed, every file of the report was read, and what is written is decided
file by file. -/
theorem exists_ready_of_fixedFiles_eq_ok {files : List FixedFile}
    (fixed : fixedFiles env report settings = .ok files) :
    ∃ dispatcher rep, prepared env report settings = .ok (dispatcher, rep) ∧
      (∀ file ∈ rep.byFile, (env.files.read? (Path.ofFilename file.1)).isSome) ∧
      writesOf files = rep.byFile.filterMap (written? env.files dispatcher) := by
  cases ready : prepared env report settings with
  | error e =>
      rw [fixedFiles, ready] at fixed
      contradiction
  | ok work =>
      obtain ⟨dispatcher, rep⟩ := work
      rw [fixedFiles_of_ready ready] at fixed
      obtain ⟨readable, -, writes⟩ := fixed_by_name (forall₂_of_mapM_fixFile fixed)
      exact ⟨dispatcher, rep, rfl, readable, writes⟩

theorem not_obstacle_of_fixedFiles_eq_ok {files : List FixedFile}
    (fixed : fixedFiles env report settings = .ok files) : ¬ Obstacle env report settings e := by
  obtain ⟨dispatcher, rep, ready, readable, -⟩ := exists_ready_of_fixedFiles_eq_ok fixed
  rintro (refused | ⟨ready', member, unread⟩)
  · rw [ready] at refused
    contradiction
  · obtain ⟨rfl, rfl⟩ := Prod.mk.inj (Except.ok.inj (ready.symm.trans ready'))
    obtain ⟨group, group_member, -⟩ := Report.exists_group member
    have read := readable _ group_member
    rw [unread] at read
    contradiction

end Steps

/-- The paths written for file names are those of the names with accepted fixes. -/
theorem map_fst_filterMap_written? {files : Files} {dispatcher : Dispatcher}
    {groups : List (Text × List Report.Entry)}
    (readable : ∀ file ∈ groups, (files.read? (Path.ofFilename file.1)).isSome) :
    (groups.filterMap (written? files dispatcher)).map (·.1) =
      (groups.filter fun file => fixesFor files dispatcher file ≠ []).map fun file =>
        Path.ofFilename file.1 := by
  induction groups with
  | nil => rfl
  | cons file groups ih =>
      obtain ⟨first_readable, later_readable⟩ := List.forall_mem_cons.mp readable
      have later := ih later_readable
      by_cases idle : fixesFor files dispatcher file = []
      · have unwritten : written? files dispatcher file = none := if_pos idle
        rw [List.filterMap_cons_none unwritten, List.filter_cons_of_neg (by simp [idle]), later]
      · obtain ⟨text, read⟩ := Option.isSome_iff_exists.mp first_readable
        obtain ⟨new, edited⟩ := Option.isSome_iff_exists.mp
          (edited?_fixesFor_isSome dispatcher read)
        have written : written? files dispatcher file = some (Path.ofFilename file.1, new) := by
          simp [written?, idle, read, edited]
        rw [List.filterMap_cons_some written, List.filter_cons_of_pos (by simp [idle]),
          List.map_cons, List.map_cons, later]

/-- If anything stands in the way, the command fails with one of the obstacles, and without any it
succeeds and writes exactly the files for which fixes were accepted.  A failing command and a
preview change no file, and a file that is not written is never changed. -/
theorem repair_is_all_or_nothing (env : Environment) (report : Text) (settings : Option Text)
    (preview : Bool) :
    let outcome := run env (.repair report settings preview)
    ((∃ e, Obstacle env report settings e) →
      ∃ e, Obstacle env report settings e ∧ outcome.FailsWith e) ∧
    ((∀ e, ¬ Obstacle env report settings e) →
      ∃ dispatcher rep, prepared env report settings = .ok (dispatcher, rep) ∧
        outcome.exit = 0 ∧
        outcome.writes.map (·.1) = if preview then [] else
          (rep.byFile.filter fun file => fixesFor env.files dispatcher file ≠ []).map fun file =>
            Path.ofFilename file.1) ∧
    (preview → outcome.writes = []) ∧
    ∀ w : Workspace, env.files = w.files → ∀ path,
      (preview ∨ (∃ e, Obstacle env report settings e) ∨
        ∀ written ∈ outcome.writes, w.resolve? written.1 ≠ w.resolve? path) →
      (w.writeAll outcome.writes).read? path = w.read? path := by
  intro outcome
  cases fixed : fixedFiles env report settings with
  | error e =>
      have obstacle := obstacle_of_fixedFiles_eq_error fixed
      obtain ⟨err, ran⟩ := run_repair_of_error fixed preview
      have fails : outcome.FailsWith e := by
        simp only [outcome, ran]
        exact ⟨rfl, rfl, List.suffix_append _ _, rfl⟩
      refine ⟨fun _ => ⟨e, obstacle, fails⟩, fun free => absurd obstacle (free e),
        fun _ => fails.writes_eq, fun w _ path _ => ?_⟩
      rw [fails.writes_eq]
      rfl
  | ok files =>
      have free (e : CommandError) := not_obstacle_of_fixedFiles_eq_ok (e := e) fixed
      obtain ⟨dispatcher, rep, ready, readable, writes⟩ := exists_ready_of_fixedFiles_eq_ok fixed
      obtain ⟨err, ran⟩ := run_repair_of_ok fixed preview
      have writes_eq : outcome.writes = if preview then [] else writesOf files := by
        simp only [outcome, ran]
      refine ⟨fun ⟨e, obstacle⟩ => absurd obstacle (free e), fun _ => ?_, ?_, ?_⟩
      · refine ⟨dispatcher, rep, ready, by simp only [outcome, ran], ?_⟩
        rw [writes_eq]
        split
        · rfl
        · rw [writes, map_fst_filterMap_written? readable]
      · intro previewed
        rw [writes_eq, if_pos previewed]
      · rintro w - path (previewed | ⟨e, obstacle⟩ | elsewhere)
        · rw [writes_eq, if_pos previewed]
          rfl
        · exact absurd obstacle (free e)
        · exact Workspace.read?_writeAll_of_elsewhere elsewhere

/-- A report about a file that can be fixed, and behind it about one that is missing. -/
def oneMissing : Text :=
  ("\x7b\"diagnostics\":[[[[1,0],[1,3]],\"a.ts\",\"\",\"no-var\"]," : Text) ++
    "[[[1,0],[1,3]],\"b.ts\",\"\",\"no-var\"]]\x7d"

theorem repair_stops_at_missing_file :
    let outcome := run ⟨declarations.files, oneMissing, []⟩ (.repair "-" none false)
    Obstacle ⟨declarations.files, oneMissing, []⟩ "-" none (.read "b.ts") ∧
      (∃ e, Obstacle ⟨declarations.files, oneMissing, []⟩ "-" none e ∧ outcome.FailsWith e) ∧
      ∀ path, (declarations.writeAll outcome.writes).read? path = declarations.read? path := by
  have named : (Report.parse? oneMissing).map (·.entries.map (·.filename)) =
      some (["a.ts", "b.ts"] : List Text) := by decide +kernel
  obtain ⟨rep, parsed, names⟩ := Option.map_eq_some_iff.mp named
  have no_settings : settingsFile? ⟨declarations.files, oneMissing, []⟩ none = none := by
    decide +kernel
  have unread : declarations.files.read? (Path.ofFilename "b.ts") = none := by decide +kernel
  obtain ⟨entry, member, filename_eq⟩ : ∃ entry ∈ rep.entries, entry.filename = "b.ts" := by
    rw [← List.mem_map, names]
    exact List.mem_cons_of_mem _ List.mem_cons_self
  have obstacle : Obstacle ⟨declarations.files, oneMissing, []⟩ "-" none (.read "b.ts") := by
    have missing := Obstacle.unreadable (prepared_of_input no_settings parsed) member
    rw [filename_eq] at missing
    exact missing unread
  obtain ⟨fails, -, -, unchanged⟩ :=
    repair_is_all_or_nothing ⟨declarations.files, oneMissing, []⟩ "-" none false
  exact ⟨obstacle, fails ⟨_, obstacle⟩, fun path =>
    unchanged declarations rfl path (.inr (.inl ⟨_, obstacle⟩))⟩

end Command

end LintRepair
