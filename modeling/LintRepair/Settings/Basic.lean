import LintRepair.Diagnostic

/-!
# Settings

The settings say how diagnostics are converted and what is offered for them: the severity and the
documentation base given to every diagnostic, a mode for each rule, and when the actions that
silence a rule are offered.
-/

namespace LintRepair

/-- What is offered for the diagnostics of a rule. -/
inductive RuleMode where
  /-- Fixes, and the actions that silence the rule. -/
  | fix
  /-- Only the actions that silence the rule. -/
  | disableOnly
  /-- Nothing. -/
  | off
  deriving DecidableEq, Repr

namespace RuleMode

/-- The name under which a mode is written. -/
def name : RuleMode → Text
  | fix => "fix"
  | disableOnly => "disable-only"
  | off => "off"

/-- The mode of a name in any case. -/
def ofName? (s : Text) : Option RuleMode :=
  let s := Text.lower s
  if s = "fix" then some fix
  else if s = "disable-only" ∨ s = "disable_only" then some disableOnly
  else if s = "off" ∨ s = "disabled" ∨ s = "disable" then some off
  else none

/-- What is said about a name that is no mode. -/
def complaint (s : Text) : Text :=
  "Invalid rule mode: " ++ s ++ ". Expected fix, disable-only, or off"

end RuleMode

/-- For which diagnostics the actions that silence a rule are offered. -/
inductive DisablePolicy where
  /-- For those that are errors. -/
  | errorsOnly
  /-- For all. -/
  | always
  /-- For none. -/
  | never
  deriving DecidableEq, Repr

namespace DisablePolicy

/-- The name under which a policy is written. -/
def name : DisablePolicy → Text
  | errorsOnly => "errors-only"
  | always => "always"
  | never => "never"

/-- The policy of a name in any case. -/
def ofName? (s : Text) : Option DisablePolicy :=
  let s := Text.lower s
  if s = "errors-only" ∨ s = "errors_only" ∨ s = "error" then some errorsOnly
  else if s = "always" then some always
  else if s = "never" then some never
  else none

/-- What is said about a name that is no policy. -/
def complaint (s : Text) : Text :=
  "Invalid disable-rule-actions value: " ++ s ++ ". Expected errors-only, always, or never"

/-- Whether a diagnostic of some severity gets the actions that silence its rule. -/
def offers (policy : DisablePolicy) (severity : Severity) : Bool :=
  match policy with
  | errorsOnly => severity = .error
  | always => true
  | never => false

end DisablePolicy

/-- What the user has chosen. -/
structure Settings where
  /-- Severity of every converted diagnostic. -/
  severity : Severity
  /-- When rules may be silenced. -/
  disablePolicy : DisablePolicy
  /-- Address below which the rules are documented. -/
  docsBase : Text
  /-- Modes of single rules by their codes, no code twice. -/
  rules : List (Text × RuleMode)
  deriving DecidableEq, Repr

namespace Settings

/-- The documentation base when none is chosen. -/
def defaultDocsBase : Text := "https://docs.deno.com/lint/rules/"

/-- The settings when nothing is chosen. -/
def standard : Settings := ⟨.error, .errorsOnly, defaultDocsBase, []⟩

instance : Inhabited Settings := ⟨standard⟩

/-- The mode of a rule. -/
def ruleMode (settings : Settings) (code : Text) : RuleMode :=
  (settings.rules.lookup code).getD .fix

/-- The modes of single rules in the order of their codes. -/
def sortedRules (settings : Settings) : List (Text × RuleMode) :=
  settings.rules.mergeSort fun a b => !Text.precedes b.1 a.1

/-- Whether a diagnostic of some severity gets the actions that silence its rule. -/
def offersDisabling (settings : Settings) (severity : Severity) : Bool :=
  settings.disablePolicy.offers severity

end Settings

end LintRepair
