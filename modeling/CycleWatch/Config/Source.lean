import CycleWatch.Config.Format
import CycleWatch.Config.Overrides
import CycleWatch.Files
/-!
# Loading the configuration

The configuration comes from a text, or from the defaults where there is none; then the environment
overrides its settings, and only the outcome has to be admitted. A text in a file has the format that
the extension of the path tells, which is looked at once the file has been read.
-/
namespace CycleWatch.Config

/-- Loads the configuration from a text, if there is one. -/
def load (source : Option (Format × String)) (o : Overrides) : Except Fault Admitted := do
  match source with
  | none => o.apply default
  | some (format, text) => o.apply (← Fault.annotate "source" "config" (format.parse text))

/-- The format that the extension of a path tells: JSON unless there is another one. -/
def Format.ofPath (path : String) : Except Fault Format :=
  match (Files.extension? path).map fun e => String.ofList (Text.lowerChars e.toList) with
  | none | some "json" => .ok .json
  | some "toml" => .ok .toml
  | some extension =>
    .error <|
      (Fault.expected (.config "unsupported_format")
        "unsupported config format; use .json or .toml").withContext "extension" extension

/-- The code of a file that cannot be read. -/
def fileCode : IoKind → Fault.Code
  | .notFound => .config "config_file_not_found"
  | .permissionDenied => .config "config_file_permission_denied"
  | _ => .config "config_file_io"

/-- The fault of a file that cannot be read. -/
def fileFault (path : String) (e : IoFailure) : Fault :=
  (Fault.expected (fileCode e.kind) ("failed to read config file: " ++ e.text)).withContext
    "path" path

/-- Loads the configuration from the file at a path, if one is given. -/
def loadFile (read : String → Except IoFailure String) (path : Option String) (o : Overrides) :
    Except Fault Admitted := do
  match path with
  | none => load none o
  | some path =>
    let text ← (read path).mapError (fileFault path)
    let format ← Format.ofPath path
    load (some (format, text)) o

/-- The overrides of an environment, a variable that is refused being a fault. -/
def overridesOf (vars : Dict String) : Except Fault Overrides :=
  (Overrides.ofVars vars).mapError VarFault.toFault

/-- Refuses an environment that does not go with the defaults. -/
def checkVars (vars : Dict String) : Except Fault Unit := do
  let _ ← load none (← overridesOf vars)

/-- The configuration in force as JSON text. -/
def effectiveText (read : String → Except IoFailure String) (path : Option String)
    (vars : Dict String) : Except Fault String := do
  return (← loadFile read path (← overridesOf vars)).config.toJsonText

end CycleWatch.Config
