import LintRepair.Proofs.Dispatcher
import LintRepair.Session

/-!
# Runs of a session

A step changes one part of a session and keeps the others; the registry is never changed.  Over a
whole run the text is the one at the start with the accepted edits, one set after another.  What was
listed can be applied as long as the text has not changed since, and a fix that no longer applies
is refused without a change.
-/

namespace LintRepair

namespace Session

variable {s next : Session} {steps : List Step}

theorem step_eq_of_step? {step : Step} (taken : s.step? step = some next) : s.step step = next := by
  rw [Session.step, taken, Option.getD_some]

/-- A step that fails changes nothing. -/
theorem step_eq_self {step : Step} (failed : s.step? step = none) : s.step step = s := by
  rw [Session.step, failed, Option.getD_none]

@[simp]
theorem run_nil (s : Session) : s.run [] = s := rfl

@[simp]
theorem run_cons (s : Session) (step : Step) (steps : List Step) :
    s.run (step :: steps) = (s.step step).run steps := rfl

theorem run_append (s : Session) (front back : List Step) :
    s.run (front ++ back) = (s.run front).run back := List.foldl_append

/-- What holds at the start and is kept by every step holds after a run. -/
theorem run_induction {motive : Session → Prop} (start : motive s)
    (kept : ∀ t, motive t → ∀ step ∈ steps, motive (t.step step)) : motive (s.run steps) := by
  induction steps generalizing s with
  | nil => exact start
  | cons step steps ih =>
      have first : motive (s.step step) := kept s start step List.mem_cons_self
      exact ih first fun t holds later member => kept t holds later (List.mem_cons_of_mem _ member)

section Kinds

/-- The edits that a step asks for, if it asks for any. -/
def edits? (s : Session) : Step → Option (List Edit)
  | .choose number => s.listing[number]?.map (·.edits)
  | .edit edits => some edits
  | _ => none

/-- A step leaves the text alone. -/
def Step.IsReading : Step → Prop
  | .choose _ | .edit _ => False
  | _ => True

/-- Choosing a fix and giving its edits is the same. -/
theorem step?_of_edits? {step : Step} {edits : List Edit} (asked : s.edits? step = some edits) :
    s.step? step = s.edit? edits := by
  cases step with
  | choose number =>
      obtain ⟨fix, found, rfl⟩ := Option.map_eq_some_iff.mp asked
      simp only [step?, found, Option.bind_eq_bind, Option.bind_some]
      rfl
  | edit edits' =>
      obtain rfl := Option.some.inj asked
      rfl
  | lint _ | diagnose _ | configure _ | list _ => contradiction

theorem document_of_edits?_eq_none {step : Step} (unasked : s.edits? step = none) :
    (s.step step).document = s.document := by
  cases step with
  | choose number =>
      have missing : s.listing[number]? = none := Option.map_eq_none_iff.mp unasked
      rw [step_eq_self]
      simp [step?, missing]
  | edit edits => contradiction
  | lint _ | diagnose _ | configure _ | list _ => rfl

end Kinds

/-- What a step keeps of a session. -/
structure Keeps (s : Session) (step : Step) (next : Session) : Prop where
  registry : next.dispatcher.registry = s.dispatcher.registry
  settings : (∀ settings, step ≠ .configure settings) →
    next.dispatcher.settings = s.dispatcher.settings
  document : step.IsReading → next.document = s.document
  diagnostics : (∀ report, step ≠ .lint report) → (∀ given, step ≠ .diagnose given) →
    next.diagnostics = s.diagnostics
  listing : (∀ requested, step ≠ .list requested) → next.listing = s.listing

theorem Keeps.refl (s : Session) (step : Step) : s.Keeps step s :=
  ⟨rfl, fun _ => rfl, fun _ => rfl, fun _ _ => rfl, fun _ => rfl⟩

/-- Another text is all that edits bring. -/
theorem keeps_of_edit? {step : Step} (writes : ¬ step.IsReading) {edits : List Edit}
    (edited : s.edit? edits = some next) : s.Keeps step next := by
  obtain ⟨text, -, rfl⟩ := Option.map_eq_some_iff.mp edited
  exact ⟨rfl, fun _ => rfl, fun reads => absurd reads writes, fun _ _ => rfl, fun _ => rfl⟩

theorem keeps_step (s : Session) (step : Step) : s.Keeps step (s.step step) := by
  cases taken : s.step? step with
  | none =>
      rw [step_eq_self taken]
      exact .refl s step
  | some next =>
      rw [step_eq_of_step? taken]
      cases step with
      | lint report =>
          obtain rfl := Option.some.inj taken
          exact ⟨rfl, fun _ => rfl, fun _ => rfl, fun other => absurd rfl (other report),
            fun _ => rfl⟩
      | diagnose given =>
          obtain rfl := Option.some.inj taken
          exact ⟨rfl, fun _ => rfl, fun _ => rfl, fun _ other => absurd rfl (other given),
            fun _ => rfl⟩
      | configure settings =>
          obtain rfl := Option.some.inj taken
          exact ⟨rfl, fun other => absurd rfl (other settings), fun _ => rfl, fun _ _ => rfl,
            fun _ => rfl⟩
      | list requested =>
          obtain rfl := Option.some.inj taken
          exact ⟨rfl, fun _ => rfl, fun _ => rfl, fun _ _ => rfl,
            fun other => absurd rfl (other requested)⟩
      | choose number =>
          obtain ⟨fix, -, chosen⟩ := Option.bind_eq_some_iff.mp taken
          exact keeps_of_edit? id chosen
      | edit edits => exact keeps_of_edit? id taken

theorem registry_run (s : Session) (steps : List Step) :
    (s.run steps).dispatcher.registry = s.dispatcher.registry :=
  run_induction (motive := fun t => t.dispatcher.registry = s.dispatcher.registry) rfl
    fun t same step _ => (keeps_step t step).registry.trans same

theorem document_run (read : ∀ step ∈ steps, step.IsReading) :
    (s.run steps).document = s.document :=
  run_induction (motive := fun t => t.document = s.document) rfl
    fun t same step member => ((keeps_step t step).document (read step member)).trans same

/-- The listing stays until the next one. -/
theorem listing_run (others : ∀ step ∈ steps, ∀ requested, step ≠ .list requested) :
    (s.run steps).listing = s.listing :=
  run_induction (motive := fun t => t.listing = s.listing) rfl
    fun t same step member => ((keeps_step t step).listing (others step member)).trans same

section Text

/-- The edits that a step brings to the text, if it asks for any that can be applied. -/
def accepted? (s : Session) (step : Step) : Option (List Edit) :=
  (s.edits? step).filter fun edits => (s.document.applyEdits? edits).isSome

/-- A step fails only if it asks for a fix that is not listed or for edits that do not apply. -/
theorem isSome_step?_iff {step : Step} :
    (s.step? step).isSome ↔ step.IsReading ∨ (s.accepted? step).isSome := by
  cases step with
  | choose number =>
      cases found : s.listing[number]? with
      | none => simp [step?, accepted?, edits?, Step.IsReading, found]
      | some fix =>
          simp [step?, accepted?, edits?, Step.IsReading, found, choose?, Fix.applied?]
  | edit edits => simp [step?, accepted?, edits?, Step.IsReading, edit?]
  | lint _ | diagnose _ | configure _ | list _ => simp [step?, Step.IsReading]

/-- The sets of edits that steps bring to the text, one after another. -/
def accepted (s : Session) : List Step → List (List Edit)
  | [] => []
  | step :: steps => (s.accepted? step).toList ++ accepted (s.step step) steps

/-- The document after sets of edits, one after another. -/
def edited? (d : Document) (sets : List (List Edit)) : Option Document :=
  sets.foldlM (fun d edits => (d.applyEdits? edits).map Document.ofText) d

theorem edited?_append (d : Document) (front back : List (List Edit)) :
    edited? d (front ++ back) = (edited? d front).bind (edited? · back) := List.foldlM_append

theorem edited?_step (s : Session) (step : Step) :
    edited? s.document (s.accepted? step).toList = some (s.step step).document := by
  cases asked : s.edits? step with
  | none =>
      rw [document_of_edits?_eq_none asked, accepted?, asked]
      rfl
  | some edits =>
      have taken : s.step? step = (s.document.applyEdits? edits).map s.retext :=
        step?_of_edits? asked
      cases applied : s.document.applyEdits? edits with
      | none =>
          rw [applied, Option.map_none] at taken
          simp [step_eq_self taken, accepted?, asked, Option.filter, applied, edited?]
      | some text =>
          rw [applied, Option.map_some] at taken
          simp [step_eq_of_step? taken, accepted?, asked, Option.filter, applied, edited?, retext]

/-- After a run the text is the one at the start with the accepted edits. -/
theorem edited?_run (s : Session) (steps : List Step) :
    edited? s.document (s.accepted steps) = some (s.run steps).document := by
  induction steps generalizing s with
  | nil => rfl
  | cons step steps ih =>
      rw [accepted, edited?_append, edited?_step, Option.bind_some, ih, run_cons]

end Text

section Current

/-- Everything listed can be applied to the text as it is. -/
def IsCurrent (s : Session) : Prop := ∀ fix ∈ s.listing, fix.isUsable s.document

theorem isCurrent_start (document : Document) (dispatcher : Dispatcher) :
    (start document dispatcher).IsCurrent := nofun

theorem isCurrent_list (s : Session) (requested : Range) : (s.list requested).IsCurrent := by
  intro fix member
  exact Dispatcher.isUsable_of_mem_listFixes member

theorem IsCurrent.step (current : s.IsCurrent) {step : Step} (reads : step.IsReading) :
    (s.step step).IsCurrent := by
  cases step with
  | list requested => exact isCurrent_list s requested
  | lint _ | diagnose _ | configure _ => exact current
  | choose _ | edit _ => exact reads.elim

theorem IsCurrent.run (current : s.IsCurrent) (read : ∀ step ∈ steps, step.IsReading) :
    (s.run steps).IsCurrent :=
  run_induction current fun _ holds step member => holds.step (read step member)

/-- What is listed can be chosen as long as the text has not changed since, and brings the text the
edits that it was listed with. -/
theorem document_run_choose (s : Session) (requested : Range)
    (read : ∀ step ∈ steps, step.IsReading) {number : Nat} {fix : Fix}
    (listed : ((s.list requested).run steps).listing[number]? = some fix) :
    ∃ text, fix.applied? s.document = some text ∧
      ((s.list requested).run (steps ++ [.choose number])).document = .ofText text := by
  have same : ((s.list requested).run steps).document = s.document := document_run read
  have usable := (isCurrent_list s requested).run read fix (List.mem_of_getElem? listed)
  rw [Fix.isUsable_eq_isSome_applied?, same] at usable
  obtain ⟨text, applied⟩ := Option.isSome_iff_exists.mp usable
  have taken : ((s.list requested).run steps).step? (.choose number) =
      some (((s.list requested).run steps).retext text) := by
    simp [step?, listed, choose?, same, applied]
  refine ⟨text, applied, ?_⟩
  rw [run_append, run_cons, run_nil, step_eq_of_step? taken]
  rfl

end Current

end Session

end LintRepair
