import LintRepair.CommandLine.Run

/-!
# How jobs end

A job ends with a result, with text printed on standard output and with contents written, all the
same whatever has been done before.  The parts of a job that only prints, only writes or only
computes are put together here, and preparing a command is reduced to a computation that neither
prints on standard output nor writes.
-/

namespace LintRepair

namespace Command

namespace Job

/-- A job comes to a result, prints a text on standard output and writes contents, whatever was done
before. -/
def Ends (job : Job α) (result : Except CommandError α) (out : Text)
    (writes : List (Text × Text)) : Prop :=
  ∀ done, ∃ err,
    job.run.run done = (result, ⟨⟨done.console.out ++ out, err⟩, done.writes ++ writes⟩)

/-- A job only comes to a result; it may still print on standard error. -/
def Computes (job : Job α) (result : Except CommandError α) : Prop := Ends job result [] []

theorem computes_pure (a : α) : Computes (pure a) (.ok a) := by
  intro done
  exact ⟨done.console.err, by simp; rfl⟩

theorem computes_throw (e : CommandError) : Computes (throw e : Job α) (.error e) := by
  intro done
  exact ⟨done.console.err, by simp; rfl⟩

theorem computes_silent (result : Except CommandError α) : Computes (silent result) result := by
  intro done
  exact ⟨done.console.err, by simp [silent]; rfl⟩

theorem computes_warn (line : Text) : Computes (warn line) (.ok ()) := by
  intro done
  exact ⟨done.console.err ++ line ++ "\n", by simp [warn]; rfl⟩

theorem ends_print (text : Text) : Ends (print text) (.ok ()) text [] := by
  intro done
  exact ⟨done.console.err, by simp [print]; rfl⟩

theorem ends_write (path content : Text) :
    Ends (write path content) (.ok ()) [] [(path, content)] := by
  intro done
  exact ⟨done.console.err, by simp [write]; rfl⟩

theorem Ends.bind {job : Job α} {next : α → Job β} {a : α} {result : Except CommandError β}
    {first second : Text} {written later : List (Text × Text)}
    (ends : Ends job (.ok a) first written) (goes_on : Ends (next a) result second later) :
    Ends (job >>= next) result (first ++ second) (written ++ later) := by
  intro done
  obtain ⟨err, ran⟩ := ends done
  obtain ⟨final_err, went_on⟩ :=
    goes_on ⟨⟨done.console.out ++ first, err⟩, done.writes ++ written⟩
  refine ⟨final_err, ?_⟩
  rw [ExceptT.run_bind, StateT.run_bind, ran]
  change (next a).run.run ⟨⟨done.console.out ++ first, err⟩, done.writes ++ written⟩ = _
  rw [went_on, List.append_assoc, List.append_assoc]

theorem Ends.bind_error {job : Job α} {e : CommandError} {out : Text}
    {writes : List (Text × Text)} (ends : Ends job (.error e) out writes) (next : α → Job β) :
    Ends (job >>= next) (.error e) out writes := by
  intro done
  obtain ⟨err, ran⟩ := ends done
  refine ⟨err, ?_⟩
  rw [ExceptT.run_bind, StateT.run_bind, ran]
  rfl

theorem Ends.bind_last {job : Job α} {next : α → Job β} {a : α} {result : Except CommandError β}
    {out : Text} {writes : List (Text × Text)} (ends : Ends job (.ok a) out writes)
    (goes_on : Computes (next a) result) : Ends (job >>= next) result out writes := by
  have joined := Ends.bind ends goes_on
  rwa [List.append_nil, List.append_nil] at joined

/-- What is only computed first adds nothing to what comes behind it. -/
theorem Computes.bind_ends {job : Job α} {next : α → Job β} {a : α}
    {result : Except CommandError β} {out : Text} {writes : List (Text × Text)}
    (computes : Computes job (.ok a)) (goes_on : Ends (next a) result out writes) :
    Ends (job >>= next) result out writes := Ends.bind computes goes_on

/-- Computations one after the other are one computation. -/
theorem Computes.bind {job : Job α} {next : α → Job β} {result : Except CommandError α}
    {results : α → Except CommandError β} (computes : Computes job result)
    (goes_on : ∀ a, Computes (next a) (results a)) :
    Computes (job >>= next) (result >>= results) := by
  cases result with
  | error e => exact Ends.bind_error computes next
  | ok a => exact computes.bind_ends (goes_on a)

theorem computes_required (e : CommandError) (value : Option α) :
    Computes (required e value) (value.elim (.error e) .ok) := by
  cases value with
  | none => exact computes_throw e
  | some a => exact computes_pure a

/-- A loop whose steps do not fail prints what its steps print and writes what they write. -/
theorem ends_forIn (items : List β) {step : β → Job Unit} {shown : β → Text}
    {written : β → List (Text × Text)}
    (steps : ∀ item, Ends (step item) (.ok ()) (shown item) (written item)) :
    Ends (forIn items PUnit.unit fun item _ => do step item; pure (ForInStep.yield PUnit.unit))
      (.ok PUnit.unit) (items.flatMap shown) (items.flatMap written) := by
  induction items with
  | nil => exact computes_pure PUnit.unit
  | cons item items ih =>
      have first : Ends (step item >>= fun _ => pure (ForInStep.yield PUnit.unit))
          (.ok (ForInStep.yield PUnit.unit)) (shown item) (written item) :=
        (steps item).bind_last (computes_pure _)
      rw [List.forIn_cons, List.flatMap_cons, List.flatMap_cons]
      exact first.bind ih

end Job

/-- The settings that a command works with. -/
def settingsFor (env : Environment) (settings : Option Text) : Except CommandError Settings :=
  match settingsFile? env settings with
  | none => .ok .standard
  | some (path, shown) => (settingsOf? env path).elim (.error (.load shown)) .ok

/-- The report that a command works with. -/
def reportAt (env : Environment) (path : Text) : Except CommandError Report := do
  let text ← (reportText? env path).elim (.error (.read path)) .ok
  (Report.parse? text).elim (.error (.parse path)) .ok

/-- What a command works with. -/
def prepared (env : Environment) (report : Text) (settings : Option Text) :
    Except CommandError (Dispatcher × Report) := do
  let settings ← settingsFor env settings
  return (⟨.builtin, settings⟩, ← reportAt env report)

/-- Without a settings file, a report on standard input is taken with the standard settings. -/
theorem prepared_of_input {env : Environment} {rep : Report}
    (no_settings : settingsFile? env none = none) (parsed : Report.parse? env.input = some rep) :
    prepared env "-" none = .ok (⟨.builtin, .standard⟩, rep) := by
  have from_input : isInput "-" := by decide +kernel
  have settings_eq : settingsFor env none = .ok .standard := by rw [settingsFor, no_settings]
  have report_eq : reportAt env "-" = .ok rep := by
    rw [reportAt, reportText?, if_pos from_input]
    simp only [Option.elim_some, bind, Except.bind, parsed]
  rw [prepared, settings_eq, report_eq]
  rfl

theorem computes_loadSettings (env : Environment) (settings : Option Text) :
    Job.Computes (loadSettings env settings) (settingsFor env settings) := by
  unfold loadSettings settingsFor
  cases settingsFile? env settings with
  | none => exact Job.computes_pure _
  | some file =>
      obtain ⟨path, shown⟩ := file
      have told (settings : Settings) : Job.Computes (do
          warn ("Loaded config from: " ++ shown)
          return settings) (pure settings) :=
        (Job.computes_warn _).bind fun _ => Job.computes_pure settings
      have loaded := (Job.computes_required (.load shown) (settingsOf? env path)).bind told
      rwa [bind_pure] at loaded

theorem computes_readReport (env : Environment) (path : Text) :
    Job.Computes (readReport env path) (reportAt env path) := by
  refine (Job.computes_required _ _).bind fun text => ?_
  have warned (report : Report) : Job.Computes (do
      for failure in report.failures do
        warn ("Warning: " ++ failure.path ++ ": " ++ failure.message)
      return report) (pure report) := by
    have quiet := Job.ends_forIn report.failures fun failure =>
      Job.computes_warn ("Warning: " ++ failure.path ++ ": " ++ failure.message)
    have nothing (α : Type) : report.failures.flatMap (fun _ => ([] : List α)) = [] := by simp
    rw [nothing, nothing] at quiet
    exact quiet.bind (Job.computes_pure report)
  have read := (Job.computes_required (.parse path) (Report.parse? text)).bind warned
  rwa [bind_pure] at read

theorem computes_prepare (env : Environment) (report : Text) (settings : Option Text) :
    Job.Computes (prepare env report settings) (prepared env report settings) :=
  (computes_loadSettings env settings).bind fun _ =>
    (computes_readReport env report).bind fun _ => Job.computes_pure _

theorem run_of_ends_ok {env : Environment} {command : Command} {exit : Nat}
    {writes : List (Text × Text)} {out : Text}
    (ends : Job.Ends (command.job env) (.ok exit) out writes) :
    ∃ err, run env command = ⟨exit, ⟨out, err⟩, writes⟩ := by
  obtain ⟨err, ran⟩ := ends ⟨⟨[], []⟩, []⟩
  refine ⟨err, ?_⟩
  unfold run
  rw [ran]
  rfl

theorem run_of_ends_error {env : Environment} {command : Command} {e : CommandError} {out : Text}
    {writes : List (Text × Text)} (ends : Job.Ends (command.job env) (.error e) out writes) :
    ∃ err, run env command = ⟨1, ⟨out, err ++ e.report⟩, writes⟩ := by
  obtain ⟨err, ran⟩ := ends ⟨⟨[], []⟩, []⟩
  refine ⟨err, ?_⟩
  unfold run
  rw [ran]
  rfl

end Command

end LintRepair
