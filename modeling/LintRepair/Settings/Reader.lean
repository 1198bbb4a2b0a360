import LintRepair.Settings.Basic
import LintRepair.Toml.Reader

/-!
# Reading settings

Settings are a TOML document with a table `linter` and a table `rules`.  Unknown keys do not
matter, keys that are not given keep their standard values, and tables are read in the order of
their keys.
-/

namespace LintRepair

/-- Why settings are refused. -/
inductive SettingsError where
  /-- The text is no TOML, or a value is of the wrong type. -/
  | malformed
  /-- A severity has an unknown name. -/
  | severity (name : Text)
  /-- A rule mode has an unknown name. -/
  | mode (name : Text)
  /-- A policy for silencing rules has an unknown name. -/
  | policy (name : Text)
  deriving DecidableEq, Repr

namespace SettingsError

/-- What is said about refused settings, where these rules and not those of TOML refuse them. -/
def message? : SettingsError → Option Text
  | malformed => none
  | severity name => some (Severity.complaint name)
  | mode name => some (RuleMode.complaint name)
  | policy name => some (DisablePolicy.complaint name)

end SettingsError

namespace Settings

/-- The text of a string value. -/
def text : Toml → Except SettingsError Text
  | .string s => .ok s
  | _ => .error .malformed

/-- The value named by a string, or a complaint about the name. -/
def named (ofName? : Text → Option α) (complain : Text → SettingsError) (value : Toml) :
    Except SettingsError α := do
  let name ← text value
  match ofName? name with
  | some a => return a
  | none => throw (complain name)

/-- The reading of an optional value, with a standard value when it is not given. -/
def orStandard (standard : α) (read : Toml → Except SettingsError α) :
    Option Toml → Except SettingsError α
  | none => .ok standard
  | some value => read value

/-- The severity of an optional value. -/
def readSeverity : Option Toml → Except SettingsError Severity :=
  orStandard .error (named Severity.ofName? SettingsError.severity)

/-- The policy of an optional value. -/
def readPolicy : Option Toml → Except SettingsError DisablePolicy :=
  orStandard .errorsOnly (named DisablePolicy.ofName? SettingsError.policy)

/-- The documentation base of an optional value. -/
def readDocsBase : Option Toml → Except SettingsError Text := orStandard defaultDocsBase text

/-- The settings of the value of `linter`: a table, or an array of severity, policy and base. -/
def linter : Option Toml → Except SettingsError Settings
  | none => .ok standard
  | some (.table _ members) => do
      let disablePolicy ← readPolicy (Toml.get? "disable-rule-actions" members)
      let docsBase ← readDocsBase (Toml.get? "docs-url" members)
      let severity ← readSeverity (Toml.get? "severity" members)
      return ⟨severity, disablePolicy, docsBase, []⟩
  | some (.array items) => do
      let severity ← readSeverity items[0]?
      let disablePolicy ← readPolicy items[1]?
      let docsBase ← readDocsBase items[2]?
      return ⟨severity, disablePolicy, docsBase, []⟩
  | some _ => .error .malformed

/-- The modes of the value of `rules`. -/
def ruleModes : Option Toml → Except SettingsError (List (Text × RuleMode))
  | none => .ok []
  | some (.table _ members) =>
      (members.mergeSort fun a b => !Text.precedes b.1 a.1).mapM fun (code, value) =>
        (named RuleMode.ofName? SettingsError.mode value).map (code, ·)
  | some _ => .error .malformed

/-- The settings of a text. -/
def parse (s : Text) : Except SettingsError Settings := do
  match Toml.parse? s with
  | none => throw .malformed
  | some members =>
      let settings ← linter (Toml.get? "linter" members)
      return { settings with rules := ← ruleModes (Toml.get? "rules" members) }

end Settings

end LintRepair
