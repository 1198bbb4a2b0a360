import LintRepair.Proofs.CommandLine.Accepted
import LintRepair.Proofs.CommandLine.Job
import Mathlib.Data.List.Forall2

/-!
# What applying fixes comes to

The command `fix` first collects what becomes of all files, which may fail but neither prints on
standard output nor writes.  Then it settles them one by one, which does not fail: it writes each
changed file or previews it, and prints a count at the end.
-/

namespace LintRepair

namespace Command

/-- All files of a report, fixed. -/
def fixedFiles (env : Environment) (report : Text) (settings : Option Text) :
    Except CommandError (List FixedFile) := do
  let (dispatcher, report) ← prepared env report settings
  report.byFile.mapM (fixFile env dispatcher)

/-- What is printed on standard output about one file. -/
def shownChange (preview : Bool) (file : FixedFile) : Text :=
  if preview then (file.new.map fun new => Hunk.preview file.path file.old new).getD [] else []

/-- The count at the end. -/
def summary (preview : Bool) (files : List FixedFile) : Text :=
  let applied := files.foldr (·.applied + ·) 0
  let count (done : Text) : Text :=
    "\n" ++ Text.decimal applied ++ " fix(es) " ++ done ++ " in "
      ++ Text.decimal (writesOf files).length ++ " file(s)"
  (if preview then count "available" else if applied > 0 then count "applied"
    else "No fixes to apply") ++ "\n"

/-- What is written about one file. -/
def changeOf (preview : Bool) (file : FixedFile) : List (Text × Text) :=
  if preview then [] else (file.new.map (file.path, ·)).toList

/-- Settling a file does not fail. -/
theorem ends_settleFile (preview : Bool) (file : FixedFile) :
    Job.Ends (settleFile preview file) (.ok ()) (shownChange preview file)
      (changeOf preview file) := by
  unfold settleFile shownChange changeOf
  cases changed : file.new with
  | none => cases preview <;> exact Job.computes_pure ()
  | some new =>
      cases preview with
      | false => exact (Job.ends_write _ _).bind_last (Job.computes_warn _)
      | true => exact Job.ends_print _

theorem flatMap_changeOf (preview : Bool) (files : List FixedFile) :
    files.flatMap (changeOf preview) = if preview then [] else writesOf files := by
  cases preview with
  | true => simp [changeOf]
  | false =>
      rw [writesOf, List.filterMap_eq_flatMap_toList]
      rfl

private theorem ends_count (line : Text) (unfixable : Nat) :
    Job.Ends (do
      say line
      if unfixable > 0 then
        warn (Text.decimal unfixable ++ " diagnostic(s) could not be fixed automatically"))
      (.ok ()) (line ++ "\n") [] := by
  refine (Job.ends_print (line ++ "\n")).bind_last ?_
  split
  · exact Job.computes_warn _
  · exact Job.computes_pure ()

/-- Everything is read and fixed before anything is printed on standard output or written. -/
theorem computes_collectFiles (env : Environment) (report : Text) (settings : Option Text) :
    Job.Computes (collectFiles env report settings) (fixedFiles env report settings) :=
  (computes_prepare env report settings).bind fun (dispatcher, report) =>
    Job.computes_silent (report.byFile.mapM (fixFile env dispatcher))

theorem ends_fixAll_of_ok {env : Environment} {report : Text} {settings : Option Text}
    {files : List FixedFile} (fixed : fixedFiles env report settings = .ok files)
    (preview : Bool) :
    Job.Ends (fixAll env report settings preview) (.ok ())
      (files.flatMap (shownChange preview) ++ summary preview files)
      (if preview then [] else writesOf files) := by
  have collecting := computes_collectFiles env report settings
  rw [fixed] at collecting
  have settled := Job.ends_forIn files fun file => ends_settleFile preview file
  rw [flatMap_changeOf] at settled
  rw [← List.append_nil (if preview then [] else writesOf files)]
  refine collecting.bind_ends (settled.bind ?_)
  simp only [summary]
  cases preview with
  | true => exact ends_count _ _
  | false =>
      simp only [Bool.false_eq_true, if_false]
      split
      · exact ends_count _ _
      · exact ends_count _ _

theorem ends_fixAll_of_error {env : Environment} {report : Text} {settings : Option Text}
    {e : CommandError} (failed : fixedFiles env report settings = .error e) (preview : Bool) :
    Job.Computes (fixAll env report settings preview) (.error e) := by
  have collecting := computes_collectFiles env report settings
  rw [failed] at collecting
  exact Job.Ends.bind_error collecting _

theorem run_repair_of_ok {env : Environment} {report : Text} {settings : Option Text}
    {files : List FixedFile} (fixed : fixedFiles env report settings = .ok files)
    (preview : Bool) :
    ∃ err, run env (.repair report settings preview) =
      ⟨0, ⟨files.flatMap (shownChange preview) ++ summary preview files, err⟩,
        if preview then [] else writesOf files⟩ :=
  run_of_ends_ok ((ends_fixAll_of_ok fixed preview).bind_last (Job.computes_pure _))

theorem run_repair_of_error {env : Environment} {report : Text} {settings : Option Text}
    {e : CommandError} (failed : fixedFiles env report settings = .error e) (preview : Bool) :
    ∃ err, run env (.repair report settings preview) = ⟨1, ⟨[], err ++ e.report⟩, []⟩ :=
  run_of_ends_error (Job.Ends.bind_error (ends_fixAll_of_error failed preview) _)

/-- The command succeeds exactly if everything is read and fixed. -/
theorem run_repair_exit_eq_zero_iff {env : Environment} {report : Text} {settings : Option Text}
    {preview : Bool} :
    (run env (.repair report settings preview)).exit = 0 ↔
      ∃ files, fixedFiles env report settings = .ok files := by
  cases fixed : fixedFiles env report settings with
  | error e =>
      obtain ⟨err, ran⟩ := run_repair_of_error fixed preview
      simp [ran]
  | ok files =>
      obtain ⟨err, ran⟩ := run_repair_of_ok fixed preview
      simp [ran]

end Command

end LintRepair
