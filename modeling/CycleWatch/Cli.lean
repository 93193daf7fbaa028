import CycleWatch.Config.Source
/-!
# The command

The command prints the configuration in force, the defaults overridden by the environment, as JSON. A
variable that is refused is reported by its message alone, everything else by the whole fault.
-/
namespace CycleWatch.Cli

/-- What the command leaves behind. -/
structure Outcome where
  /-- The exit status. -/
  exit : UInt8
  /-- What it prints. -/
  stdout : String
  /-- What it complains about. -/
  stderr : String
deriving DecidableEq, Repr

/-- The outcome of a run that fails. -/
def failed (message : String) : Outcome :=
  ⟨1, "", "error: " ++ message ++ "\n"⟩

/-- Runs the command in an environment. -/
def run (vars : Dict String) : Outcome :=
  match Config.Overrides.ofVars vars with
  | .error e => failed e.message
  | .ok o =>
    match Config.load none o with
    | .error fault => failed fault.text
    | .ok a => ⟨0, a.config.toJsonText, ""⟩

end CycleWatch.Cli
