import LintRepair.Proofs.CommandLine.Job

/-!
# Commands that change no file

Printing the diagnostics and listing what is offered write nothing, whether they succeed or fail.
-/

namespace LintRepair

namespace Command

namespace Job

/-- A job writes nothing, however it ends. -/
def Spares (job : Job α) : Prop := ∀ done, (job.run.run done).2.writes = done.writes

theorem Computes.spares {job : Job α} {result : Except CommandError α}
    (computes : Computes job result) : Spares job := by
  intro done
  obtain ⟨err, ran⟩ := computes done
  rw [ran]
  exact List.append_nil _

theorem spares_ite {c : Prop} [Decidable c] {job other : Job α} (spares : Spares job)
    (other_spares : Spares other) : Spares (if c then job else other) := by
  split
  · exact spares
  · exact other_spares

theorem spares_say (line : Text) : Spares (say line) := fun _ => rfl

theorem Spares.bind {job : Job α} {next : α → Job β} (spares : Spares job)
    (goes_on : ∀ a, Spares (next a)) : Spares (job >>= next) := by
  intro done
  have first : (job.run.run done).2.writes = done.writes := spares done
  rw [ExceptT.run_bind, StateT.run_bind]
  generalize job.run.run done = ended at first
  obtain ⟨result, after⟩ := ended
  cases result with
  | error e => exact first
  | ok a => exact (goes_on a after).trans first

theorem spares_forIn (items : List β) {body : β → PUnit → Job (ForInStep PUnit)}
    (bodies : ∀ item, Spares (body item PUnit.unit)) : Spares (forIn items PUnit.unit body) := by
  induction items with
  | nil => exact (computes_pure PUnit.unit).spares
  | cons item items ih =>
      rw [List.forIn_cons]
      refine (bodies item).bind fun next => ?_
      cases next with
      | done _ => exact (computes_pure _).spares
      | yield _ => exact ih

theorem spares_mapM {items : List β} {step : β → Job γ} (steps : ∀ item, Spares (step item)) :
    Spares (items.mapM step) := by
  induction items with
  | nil => exact (computes_pure []).spares
  | cons item items ih =>
      rw [List.mapM_cons]
      exact (steps item).bind fun _ => ih.bind fun _ => (computes_pure _).spares

end Job

theorem spares_checkFile (env : Environment) (dispatcher : Dispatcher)
    (file : Text × List Report.Entry) : Job.Spares (checkFile env dispatcher file) :=
  (Job.computes_required _ _).spares.bind fun _ =>
    (Job.spares_forIn _ fun _ => (Job.spares_say _).bind fun _ => (Job.computes_pure _).spares).bind
      fun _ => (Job.computes_pure _).spares

theorem spares_printDiagnostics (env : Environment) (report : Text) (settings : Option Text) :
    Job.Spares (printDiagnostics env report settings) := by
  refine (computes_prepare env report settings).spares.bind fun _ => ?_
  refine (Job.spares_mapM fun file => spares_checkFile env _ file).bind fun _ => ?_
  refine Job.spares_ite ?_ ?_
  · exact (Job.spares_say _).bind fun _ => (Job.computes_pure 0).spares
  · exact (Job.spares_say _).bind fun _ => (Job.computes_pure 1).spares

theorem spares_printFixes (env : Environment) (report : Text) (settings : Option Text)
    (file : Text) (selection : Range) (json : Bool) :
    Job.Spares (printFixes env report settings file selection json) := by
  refine (computes_prepare env report settings).spares.bind fun _ => ?_
  refine (Job.computes_required _ _).spares.bind fun _ => ?_
  refine Job.spares_ite (Job.spares_say _) (Job.spares_ite (Job.spares_say _) ?_)
  refine (Job.spares_forIn _ fun (fix, index) => ?_).bind fun _ => (Job.computes_pure ()).spares
  refine (Job.spares_forIn _ fun line => ?_).bind fun _ => (Job.computes_pure _).spares
  exact (Job.spares_say line).bind fun _ => (Job.computes_pure _).spares

theorem writes_run_of_spares {env : Environment} {command : Command}
    (spares : Job.Spares (command.job env)) : (run env command).writes = [] := by
  have unwritten := spares ⟨⟨[], []⟩, []⟩
  unfold run
  generalize (command.job env).run.run ⟨⟨[], []⟩, []⟩ = ended at unwritten
  obtain ⟨result, done⟩ := ended
  cases result <;> exact unwritten

/-- Only the command that applies fixes writes. -/
theorem writes_run_eq_nil {env : Environment} {command : Command}
    (keeps : ∀ report settings preview, command ≠ .repair report settings preview) :
    (run env command).writes = [] := by
  apply writes_run_of_spares
  cases command with
  | check report settings => exact spares_printDiagnostics env report settings
  | list report settings file selection json =>
      exact (spares_printFixes env report settings file selection json).bind fun _ =>
        (Job.computes_pure 0).spares
  | repair report settings preview => exact absurd rfl (keeps report settings preview)

end Command

end LintRepair
