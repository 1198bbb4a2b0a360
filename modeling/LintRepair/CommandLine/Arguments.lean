import LintRepair.CommandLine.Run
import LintRepair.CommandLine.Selection

/-!
# Arguments

The first argument names a command and the second one a report; options may stand anywhere.  The
value of an option follows it or an equals sign.
-/

namespace LintRepair

/-- What is written on the command line. -/
structure Arguments where
  /-- Name of the command. -/
  command : Text
  /-- Path of the report. -/
  report : Text
  /-- Path of the settings. -/
  settings : Option Text
  /-- Path of the file that is asked about. -/
  file : Option Text
  /-- Selection in that file. -/
  selection : Option Text
  /-- Whether JSON is wanted. -/
  json : Bool
  /-- Whether only a preview is wanted. -/
  diff : Bool
  deriving DecidableEq, Repr

/-- Why arguments are refused. -/
inductive ArgumentError where
  /-- There is no such command. -/
  | unknownCommand (name : Text)
  /-- An argument has no meaning. -/
  | unexpected (argument : Text)
  /-- An option has no value. -/
  | noValue (option : Text)
  /-- An argument is required. -/
  | missing (what : Text)
  /-- A selection is refused. -/
  | selection (argument : Text) (cause : Selection.Error)
  deriving DecidableEq, Repr

namespace ArgumentError

/-- The line that tells why arguments are refused. -/
def message : ArgumentError → Text
  | unknownCommand name => "error: unrecognized subcommand '" ++ name ++ "'"
  | unexpected argument => "error: unexpected argument '" ++ argument ++ "' found"
  | noValue option => "error: a value is required for '" ++ option ++ "' but none was supplied"
  | missing what => "error: the argument '" ++ what ++ "' was not provided"
  | selection argument cause => Selection.Error.complaint argument cause

/-- The outcome of refused arguments. -/
def outcome (e : ArgumentError) : Outcome :=
  ⟨2, ⟨[], e.message ++ "\n\nFor more information, try '--help'.\n"⟩, []⟩

end ArgumentError

namespace Arguments

/-- A word of the command line. -/
inductive Item where
  /-- A word that is no option. -/
  | word (text : Text)
  /-- An option with its value. -/
  | valued (option value : Text)
  /-- An option without a value. -/
  | flag (option : Text)
  deriving DecidableEq, Repr

/-- The options that have a value. -/
def valuedOptions : List Text := ["--config", "-c", "--file", "--at"]

/-- The options that have none. -/
def flags : List Text := ["--json", "--diff"]

/-- What one argument is, if the arguments behind it do not matter. -/
def Item.ofWord? (argument : Text) : Option Item :=
  match Text.splitFirst? "=" argument with
  | some (option, value) =>
      if option ∈ valuedOptions then some (.valued option value)
      else if argument.head? = some '-' then none
      else some (.word argument)
  | none =>
      if argument ∈ flags then some (.flag argument)
      else if argument ≠ ['-'] ∧ argument.head? = some '-' then none
      else some (.word argument)

/-- The items of the command line. -/
def items : List Text → Except ArgumentError (List Item)
  | [] => .ok []
  | argument :: rest =>
      if argument ∈ valuedOptions then
        match rest with
        | [] => .error (.noValue argument)
        | value :: rest => return .valued argument value :: (← items rest)
      else
        match Item.ofWord? argument with
        | some item => return item :: (← items rest)
        | none => .error (.unexpected argument)

/-- The value of an option that is given under one of its names. -/
def value? (names : List Text) (items : List Item) : Option Text :=
  items.findSome? fun
    | .valued option value => if option ∈ names then some value else none
    | _ => none

/-- The arguments that words of the command line make up. -/
def ofWords (words : List Text) : Except ArgumentError Arguments := do
  let items ← items words
  let plain := items.filterMap fun
    | .word text => some text
    | _ => none
  match plain with
  | [] => .error (.missing "<COMMAND>")
  | [_] => .error (.missing "<REPORT>")
  | [command, report] =>
      return {
        command, report
        settings := value? ["--config", "-c"] items
        file := value? ["--file"] items
        selection := value? ["--at"] items
        json := items.contains (.flag "--json")
        diff := items.contains (.flag "--diff") }
  | _ :: _ :: extra :: _ => .error (.unexpected extra)

/-- An argument that has to be given. -/
def required (what : Text) : Option α → Except ArgumentError α
  | some a => .ok a
  | none => .error (.missing what)

/-- The command that arguments ask for. -/
def toCommand (a : Arguments) : Except ArgumentError Command :=
  if a.command = "check" then .ok (.check a.report a.settings)
  else if a.command = "fixes" then do
    let argument ← required "--at <AT>" a.selection
    match Selection.parse argument with
    | .ok selection =>
        return .list a.report a.settings (← required "--file <FILE>" a.file) selection a.json
    | .error cause => .error (.selection argument cause)
  else if a.command = "fix" then .ok (.repair a.report a.settings a.diff)
  else .error (.unknownCommand a.command)

/-- The paths that may be looked at before the report is read. -/
def paths (a : Arguments) : List Text :=
  a.report :: a.file.toList ++ a.settings.toList ++ Command.settingsNames

/-- Runs what arguments ask for.  Refused arguments leave everything as it was. -/
def run (env : Environment) (a : Arguments) : Outcome :=
  match a.toCommand with
  | .ok command => command.run env
  | .error e => e.outcome

end Arguments

end LintRepair
