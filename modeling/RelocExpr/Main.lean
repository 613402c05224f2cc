import RelocExpr.Command

/-!
# The program

It reads the file with the settings and the environment, runs the command of its
arguments, prints what that says and ends with its exit code.
-/

open RelocExpr Command

/-- The text of a file, if it can be read. -/
def readFile? (path : String) : IO (Option String) := do
  try
    return some (← IO.FS.readFile path)
  catch _ =>
    return none

def main (arguments : List String) : IO UInt32 := do
  let path? :=
    match Request.ofArguments? arguments with
    | some (.run _ options) => options.configPath?
    | _ => none
  let file? ←
    match path? with
    | some path => readFile? path
    | none => pure none
  let names := ["NO_COLOR", "CLICOLOR_FORCE", "CLICOLOR"]
  let settings ← names.mapM fun name => return (name, ← IO.getEnv name)
  let errors ← IO.getStderr
  let environment : Environment := {
    file? := fun _ => file?
    setting? := fun name => (settings.lookup name).join
    terminal := ← errors.isTty }
  let outcome := Command.run environment arguments
  IO.print outcome.output
  errors.putStr outcome.errors
  return outcome.code.toUInt32
