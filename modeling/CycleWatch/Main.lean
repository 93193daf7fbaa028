import CycleWatch.Cli
/-!
# The program

Reads the environment, runs the command and prints what it leaves behind.
-/

/-- The variables that are set, out of those that the command reads. -/
def readVars : IO (CycleWatch.Dict String) := do
  let mut vars : CycleWatch.Dict String := CycleWatch.Dict.empty
  for var in CycleWatch.Config.overrideVars do
    if let some value ← IO.getEnv var then
      vars := vars.insert var value
  return vars

def main : IO UInt32 := do
  let outcome := CycleWatch.Cli.run (← readVars)
  IO.print outcome.stdout
  IO.eprint outcome.stderr
  return outcome.exit.toUInt32
