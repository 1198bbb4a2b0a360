import LintRepair.CommandLine.Arguments

/-!
# The program

The program looks at the files that a command may ask for, runs the command, carries out what the
command has logged as written, and prints.
-/

namespace LintRepair

/-- What is seen at the end of a path, if it leads anywhere. -/
def look (path : Text) : IO (Option (Text × Files.Sight)) := do
  let name := String.ofList path
  try
    let canonical ← IO.FS.realPath name
    let kind := (← canonical.metadata).type
    let content ← try pure (some (← IO.FS.readFile name).toList) catch _ => pure none
    return some (path, {
      isFile := match kind with
        | .file => true
        | _ => false
      content
      canonical := canonical.toString.toList })
  catch _ => return none

/-- What is seen at the ends of paths. -/
def lookAt (paths : List Text) : IO (List (Text × Files.Sight)) := paths.filterMapM look

/-- What a command with given arguments has to work with. -/
def surroundings (arguments : Arguments) : IO Environment := do
  let input ← if Command.isInput arguments.report then (← IO.getStdin).readToEnd else pure ""
  let directory := (← IO.currentDir).toString.toList
  let known ← lookAt arguments.paths
  let env : Environment := ⟨.ofSights known, input.toList, directory⟩
  let report := (Command.reportText? env arguments.report >>= Report.parse?).getD .empty
  let reported ← lookAt (Command.reportedPaths report)
  return { env with files := .ofSights (known ++ reported) }

/-- The first path of a list of writes that cannot be carried out. -/
def writeAll (writes : List (Text × Text)) : IO (Option Text) :=
  writes.findSomeM? fun (path, content) => do
    try
      IO.FS.writeFile (String.ofList path) (String.ofList content)
      return none
    catch _ => return some path

/-- Writes and prints what a command leaves behind. -/
def finish (outcome : Outcome) : IO UInt32 := do
  match ← writeAll outcome.writes with
  | some path =>
      IO.eprint (String.ofList (CommandError.write path).report)
      return 1
  | none =>
      IO.eprint (String.ofList outcome.console.err)
      IO.print (String.ofList outcome.console.out)
      return outcome.exit.toUInt32

end LintRepair

/-- Runs what the command line asks for. -/
def main (words : List String) : IO UInt32 :=
  match LintRepair.Arguments.ofWords (words.map String.toList) with
  | .ok arguments => do LintRepair.finish (arguments.run (← LintRepair.surroundings arguments))
  | .error e => LintRepair.finish e.outcome
