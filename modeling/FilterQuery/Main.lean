import FilterQuery.CommandLine.Report

/-!
# The program

Reads the environment and the file of models, and prints the report of the
command. Everything else is `Invocation.report`.
-/

namespace FilterQuery.CommandLine

/-- The directory of configurations, which the user may have moved. -/
def configDirectory : IO (Option String) := do
  match ← IO.getEnv "XDG_CONFIG_HOME" with
  | some d => if d.startsWith "/" then return some d else home
  | none => home
where
  /-- The directory below the home of the user. -/
  home : IO (Option String) := do
    return (← IO.getEnv "HOME").map fun h => h ++ "/.config"

/-- The file of models that an invocation reads, if it reads one. -/
def Invocation.file? : Invocation → Option String
  | run _ file => file
  | _ => none

/-- The text of a file, or the reason why there is none. -/
def readText (path : String) : IO (Except String String) := do
  try
    return .ok (← IO.FS.readFile path)
  catch
    | .noFileOrDirectory .. => return .error "No such file or directory (os error 2)"
    | .permissionDenied .. => return .error "Permission denied (os error 13)"
    | e => return .error (toString e)

end FilterQuery.CommandLine

open FilterQuery.CommandLine in
/-- Runs the program. -/
def main (args : List String) : IO UInt32 := do
  let env : Environment :=
    { modelsVariable := ← IO.getEnv "CRMQL_MODELS", configDirectory := ← configDirectory }
  let invocation := Invocation.ofArguments env args
  let text ← match invocation.file? with
    | some path => readText path
    | none => pure (.ok "")
  let report := invocation.report fun _ => text
  IO.print report.stdout
  IO.eprint report.stderr
  return UInt32.ofNat report.code
