import LintRepair.Proofs.CommandLine.Fixing
import LintRepair.Proofs.CommandLine.Workspace

/-!
# File names that lead to one file

The diagnostics of a report are put together by file name, and every name is fixed on its own,
beginning with the content before the command.  Names that lead to one file are written to it one
after another, so the file is left with the fixes of the last of them.
-/

namespace LintRepair

namespace Command

/-- The fixes accepted for the diagnostics of one file name. -/
def fixesFor (files : Files) (dispatcher : Dispatcher) (file : Text × List Report.Entry) :
    List Fix :=
  match files.read? (Path.ofFilename file.1) with
  | none => []
  | some text =>
      let document := Document.ofText text
      (Accepted.decided dispatcher document (convert dispatcher document file.2)).reduceOption

/-- A text with the edits of fixes. -/
def edited? (text : Text) (fixes : List Fix) : Option Text :=
  (Document.ofText text).applyEdits? (fixes.flatMap (·.edits))

/-- What is written for one file name: the path and the content. -/
def written? (files : Files) (dispatcher : Dispatcher) (file : Text × List Report.Entry) :
    Option (Text × Text) :=
  let path := Path.ofFilename file.1
  let fixes := fixesFor files dispatcher file
  if fixes = [] then none else ((files.read? path).bind (edited? · fixes)).map (path, ·)

/-- The fixes accepted for each of the file names that lead to the same place as a path, in the
order of the names; a name without any is left out. -/
def fixesAt (w : Workspace) (dispatcher : Dispatcher) (report : Report) (path : Text) :
    List (List Fix) :=
  ((report.byFile.filter fun file =>
    w.resolve? (Path.ofFilename file.1) = w.resolve? path).map
      (fixesFor w.files dispatcher)).filter (· ≠ [])

@[simp]
theorem edited?_nil (text : Text) : edited? text [] = some text := by
  simp [edited?, Document.applyEdits?, Splice.assemble?, Document.ofText]

theorem edited?_fixesFor_isSome {files : Files} (dispatcher : Dispatcher)
    {file : Text × List Report.Entry} {text : Text}
    (read : files.read? (Path.ofFilename file.1) = some text) :
    (edited? text (fixesFor files dispatcher file)).isSome := by
  rw [fixesFor, read]
  exact Accepted.applyEdits?_decided_isSome _ _ _

private theorem fixFile_spec {env : Environment} {dispatcher : Dispatcher}
    {file : Text × List Report.Entry} {fixed : FixedFile}
    (ok : fixFile env dispatcher file = .ok fixed) :
    (env.files.read? (Path.ofFilename file.1)).isSome ∧
      fixed.path = Path.ofFilename file.1 ∧
      fixed.applied = (fixesFor env.files dispatcher file).length ∧
      fixed.new.map (fixed.path, ·) = written? env.files dispatcher file := by
  unfold fixFile document? at ok
  cases read : env.files.read? (Path.ofFilename file.1) with
  | none => simp [read] at ok
  | some text =>
      simp only [read, Option.map_some] at ok
      rw [fixDocument_eq_ok, Except.ok.injEq] at ok
      subst ok
      refine ⟨rfl, rfl, ?_, ?_⟩
      · rw [fixesFor, read]
      · simp only [written?, fixesFor, read]
        split
        · rfl
        · simp [edited?, Accepted.editsOf]

theorem forall₂_of_mapM_fixFile {env : Environment} {dispatcher : Dispatcher}
    {groups : List (Text × List Report.Entry)} {files : List FixedFile}
    (ok : groups.mapM (fixFile env dispatcher) = .ok files) :
    List.Forall₂ (fun file fixed => fixFile env dispatcher file = .ok fixed) groups files := by
  induction groups generalizing files with
  | nil =>
      obtain rfl : [] = files := by simpa [pure, Except.pure] using ok
      exact .nil
  | cons file groups ih =>
      rw [List.mapM_cons] at ok
      cases first : fixFile env dispatcher file with
      | error e => simp [first, bind, Except.bind] at ok
      | ok fixed =>
          cases rest : groups.mapM (fixFile env dispatcher) with
          | error e => simp [first, rest, bind, Except.bind] at ok
          | ok others =>
              obtain rfl : fixed :: others = files := by
                simpa [first, rest, bind, Except.bind, pure, Except.pure] using ok
              exact .cons first (ih rest)

/-- Every file name is fixed on its own: what is counted and written for it does not depend on the
other names. -/
theorem fixed_by_name {env : Environment} {dispatcher : Dispatcher}
    {groups : List (Text × List Report.Entry)} {files : List FixedFile}
    (ok : List.Forall₂ (fun file fixed => fixFile env dispatcher file = .ok fixed) groups files) :
    (∀ file ∈ groups, (env.files.read? (Path.ofFilename file.1)).isSome) ∧
      files.map (fun fixed => (fixed.path, fixed.applied)) = groups.map (fun file =>
        (Path.ofFilename file.1, (fixesFor env.files dispatcher file).length)) ∧
      writesOf files = groups.filterMap (written? env.files dispatcher) := by
  induction ok with
  | nil => exact ⟨by simp, rfl, rfl⟩
  | cons first _ ih =>
      obtain ⟨readable, path, applied, written⟩ := fixFile_spec first
      obtain ⟨all_readable, counted, writes⟩ := ih
      refine ⟨?_, ?_, ?_⟩
      · simpa using ⟨readable, by simpa using all_readable⟩
      · rw [List.map_cons, List.map_cons, counted, path, applied]
      · rw [writesOf, List.filterMap_cons, written, ← writesOf, writes, List.filterMap_cons]

/-- What is written to the place of a file are its text with the fixes of one name, and then with
those of the next. -/
theorem writes_at {w : Workspace} (dispatcher : Dispatcher)
    (groups : List (Text × List Report.Entry)) {path text : Text}
    (read : w.read? path = some text) :
    ((groups.filterMap (written? w.files dispatcher)).filter fun written =>
        w.resolve? written.1 = w.resolve? path).map (fun written => some written.2) =
      (((groups.filter fun file => w.resolve? (Path.ofFilename file.1) = w.resolve? path).map
        (fixesFor w.files dispatcher)).filter (· ≠ [])).map (edited? text) := by
  induction groups with
  | nil => rfl
  | cons file groups ih =>
      by_cases same : w.resolve? (Path.ofFilename file.1) = w.resolve? path
      · have read_file : w.files.read? (Path.ofFilename file.1) = some text := by
          rw [← read]
          simp only [Workspace.files, Workspace.read?, same]
        obtain ⟨new, edited⟩ := Option.isSome_iff_exists.mp
          (edited?_fixesFor_isSome dispatcher read_file)
        by_cases idle : fixesFor w.files dispatcher file = []
        · simpa [List.filterMap_cons, written?, idle, same] using ih
        · simpa [List.filterMap_cons, written?, idle, same, read_file, edited] using ih
      · have elsewhere : ∀ written, written? w.files dispatcher file = some written →
            w.resolve? written.1 ≠ w.resolve? path := by
          intro written some_written
          simp only [written?] at some_written
          split at some_written
          · contradiction
          · obtain ⟨new, -, rfl⟩ := Option.map_eq_some_iff.mp some_written
            exact same
        cases change : written? w.files dispatcher file with
        | none => simpa [List.filterMap_cons, change, same] using ih
        | some written =>
            simpa [List.filterMap_cons, change, same, elsewhere written change] using ih

/-- After everything for a report is written, a file has its text with the fixes of the last of its
names that has any. -/
theorem read?_after_report (w : Workspace) (dispatcher : Dispatcher) (report : Report)
    (path : Text) :
    (w.writeAll (report.byFile.filterMap (written? w.files dispatcher))).read? path =
      (w.read? path).bind
        (edited? · ((fixesAt w dispatcher report path).getLast?.getD [])) := by
  rw [Workspace.read?_writeAll]
  cases read : w.read? path with
  | none => rfl
  | some text =>
      have written := congrArg List.getLast? (writes_at dispatcher report.byFile read)
      rw [List.getLast?_map, List.getLast?_map, ← fixesAt] at written
      cases fixes_last : (fixesAt w dispatcher report path).getLast? with
      | none =>
          rw [fixes_last, Option.map_none, Option.map_eq_none_iff] at written
          simp [written]
      | some fixes =>
          rw [fixes_last, Option.map_some, Option.map_eq_some_iff] at written
          obtain ⟨change, change_last, edited⟩ := written
          simp [change_last, ← edited]

/-- Names that lead to one file are each fixed on their own, beginning with the content before the
command, and all accepted fixes are counted, but the file is left with the fixes of the last name
that has any.  These are all counted fixes when no other name has any. -/
theorem last_file_name_wins (w : Workspace) (input directory report : Text)
    (settings : Option Text)
    (succeeds : (run ⟨w.files, input, directory⟩ (.repair report settings false)).exit = 0) :
    ∃ (dispatcher : Dispatcher) (rep : Report) (files : List FixedFile),
      let outcome := run ⟨w.files, input, directory⟩ (.repair report settings false)
      let after := w.writeAll outcome.writes
      prepared ⟨w.files, input, directory⟩ report settings = .ok (dispatcher, rep) ∧
      files.map (fun fixed => (fixed.path, fixed.applied)) = rep.byFile.map (fun file =>
        (Path.ofFilename file.1, (fixesFor w.files dispatcher file).length)) ∧
      outcome.console.out = summary false files ∧
      ∀ path,
        let accepted := fixesAt w dispatcher rep path
        let edited (fixes : List Fix) := (w.read? path).bind (edited? · fixes)
        after.read? path = edited (accepted.getLast?.getD []) ∧
        (accepted.length ≤ 1 → after.read? path = edited accepted.flatten) := by
  obtain ⟨files, fixed⟩ := run_repair_exit_eq_zero_iff.mp succeeds
  obtain ⟨err, ran⟩ := run_repair_of_ok fixed false
  unfold fixedFiles at fixed
  cases ready : prepared ⟨w.files, input, directory⟩ report settings with
  | error e => simp [ready, bind, Except.bind] at fixed
  | ok work =>
      obtain ⟨dispatcher, rep⟩ := work
      rw [ready] at fixed
      obtain ⟨-, counted, writes⟩ := fixed_by_name (forall₂_of_mapM_fixFile fixed)
      have last (path : Text) : (w.writeAll (writesOf files)).read? path =
          (w.read? path).bind
            (edited? · ((fixesAt w dispatcher rep path).getLast?.getD [])) := by
        rw [writes, read?_after_report]
      refine ⟨dispatcher, rep, files, rfl, counted, ?_, ?_⟩
      · rw [ran]
        simp [shownChange]
      · intro path
        rw [ran]
        refine ⟨last path, fun single => (last path).trans ?_⟩
        match accepted : fixesAt w dispatcher rep path, single with
        | [], _ => rfl
        | [fixes], _ => simp

/-- A file with two declarations. -/
def declarations : Workspace := .ofList [("a.ts", "var x;\nvar y;")]

/-- A report that has a diagnostic for each of two declarations, under two names of one file. -/
def twoNames : Text :=
  ("\x7b\"diagnostics\":[[[[1,0],[1,3]],\"a.ts\",\"\",\"no-var\"]," : Text) ++
    "[[[2,0],[2,3]],\"file://a.ts\",\"\",\"no-var\"]]\x7d"

private theorem exit_of_twoNames :
    (run ⟨declarations.files, twoNames, []⟩ (.repair "-" none false)).exit = 0 := by
  decide +kernel

theorem last_file_name_wins_of_two :
    ∃ (dispatcher : Dispatcher) (rep : Report) (files : List FixedFile),
      let outcome := run ⟨declarations.files, twoNames, []⟩ (.repair "-" none false)
      let after := declarations.writeAll outcome.writes
      prepared ⟨declarations.files, twoNames, []⟩ "-" none = .ok (dispatcher, rep) ∧
      files.map (fun fixed => (fixed.path, fixed.applied)) = rep.byFile.map (fun file =>
        (Path.ofFilename file.1, (fixesFor declarations.files dispatcher file).length)) ∧
      outcome.console.out = summary false files ∧
      ∀ path,
        let accepted := fixesAt declarations dispatcher rep path
        let edited (fixes : List Fix) := (declarations.read? path).bind (edited? · fixes)
        after.read? path = edited (accepted.getLast?.getD []) ∧
        (accepted.length ≤ 1 → after.read? path = edited accepted.flatten) :=
  last_file_name_wins declarations twoNames [] "-" none exit_of_twoNames

/-- The fix counted for the first of two names is not in the file. -/
theorem counted_fix_overwritten :
    ¬ ∀ (w : Workspace) (input directory report : Text) (settings : Option Text)
        (dispatcher : Dispatcher) (rep : Report),
      let outcome := run ⟨w.files, input, directory⟩ (.repair report settings false)
      outcome.exit = 0 →
      prepared ⟨w.files, input, directory⟩ report settings = .ok (dispatcher, rep) →
      ∀ path, (w.writeAll outcome.writes).read? path =
        (w.read? path).bind (edited? · (fixesAt w dispatcher rep path).flatten) := by
  intro kept
  have counted : (Report.parse? twoNames).map (fun rep =>
      (fixesAt declarations ⟨.builtin, .standard⟩ rep "a.ts").flatten.flatMap (·.edits)) =
        some [⟨⟨⟨0, 0⟩, ⟨0, 6⟩, by decide⟩, "let x;"⟩,
          ⟨⟨⟨1, 0⟩, ⟨1, 6⟩, by decide⟩, "let y;"⟩] := by
    decide +kernel
  obtain ⟨rep, parsed, edits⟩ := Option.map_eq_some_iff.mp counted
  have no_settings : settingsFile? ⟨declarations.files, twoNames, []⟩ none = none := by
    decide +kernel
  have ready : prepared ⟨declarations.files, twoNames, []⟩ "-" none =
      .ok (⟨.builtin, .standard⟩, rep) := prepared_of_input no_settings parsed
  have read : declarations.read? "a.ts" = some ("var x;\nvar y;" : Text) := by decide +kernel
  have with_both : edited? "var x;\nvar y;"
      (fixesAt declarations ⟨.builtin, .standard⟩ rep "a.ts").flatten =
        some ("let x;\nlet y;" : Text) := by
    rw [edited?, edits, Document.applyEdits?_eq_assemble? (by decide +kernel),
      List.mergeSort_of_pairwise (by decide +kernel)]
    decide +kernel
  have without_first : (declarations.writeAll (run ⟨declarations.files, twoNames, []⟩
      (.repair "-" none false)).writes).read? "a.ts" = some ("var x;\nlet y;" : Text) := by
    decide +kernel
  have all := kept declarations twoNames [] "-" none _ _ exit_of_twoNames ready "a.ts"
  rw [read, Option.bind_some, with_both, without_first] at all
  exact absurd all (by decide)

end Command

end LintRepair
