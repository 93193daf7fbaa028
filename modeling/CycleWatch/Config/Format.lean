import CycleWatch.Config.Admission
import CycleWatch.Config.Form
import CycleWatch.Json.Reader
import CycleWatch.Json.Writer
import CycleWatch.Toml.Reader
import CycleWatch.Toml.Writer
import CycleWatch.Wire
/-!
# The configuration as text

A configuration is written and read in two formats. Both hold the same data: what was written reads
back as the same configuration.
-/
namespace CycleWatch.Config

/-- A format of configuration texts. -/
inductive Format where
  | json | toml
deriving DecidableEq, Repr

/-- In TOML the payload of a word that stands as a key is an empty table or an empty array. -/
def isEmptyCollection : Tree → Bool
  | .table [] => true
  | .list [] => true
  | _ => false

/-- How a format gives names and records. Only JSON refuses the items of a list beyond the settings
of a part. -/
def Format.dialect : Format → Tree.Dialect
  | .json => ⟨Tree.isNull, false⟩
  | .toml => ⟨isEmptyCollection, true⟩

/-- The data in a text, if the text is well formed. -/
def Format.tree? : Format → String → Option Tree
  | .json => Json.read?
  | .toml => Toml.read?

/-- The configuration in a text, if the text is well formed and fits. -/
def Format.read? (format : Format) (text : String) : Option Config :=
  (format.tree? text).bind (ofTree? format.dialect)

/-- The fault of a text that is malformed or does not fit. -/
def Format.refused : Format → Fault
  | .json =>
    Fault.expected (.config "invalid_json") "invalid config JSON: the text holds no configuration"
  | .toml =>
    Fault.expected (.config "invalid_toml") "invalid config TOML: the text holds no configuration"

/-- The configuration in a text, or the fault of the text. -/
def Format.parse (format : Format) (text : String) : Except Fault Config :=
  match format.read? text with
  | some c => .ok c
  | none => .error format.refused

/-- The configuration in a text, if it is admitted. -/
def Format.parseAdmitted (format : Format) (text : String) : Except Fault Admitted := do
  (toAdmitted (← format.parse text)).mapError Defect.toFault

/-- The configuration as JSON text. -/
def toJsonText (c : Config) : String :=
  c.toJson.toPrettyText

/-- The configuration as TOML text. -/
def toTomlText (c : Config) : String :=
  String.ofList <| Toml.writeDocument
    [("version", .nat c.version.toNat)]
    [("tailer",
        [("sinkFile", .text c.tailer.sinkFile),
          ("pollIntervalMs", .nat c.tailer.pollIntervalMs.toNat)]),
      ("waiter",
        [("maxAttempts", .nat c.waiter.maxAttempts.toNat), ("delayMs", .nat c.waiter.delayMs.toNat)]),
      ("metrics",
        [("prefix", .text c.metrics.family), ("expectedKeys", .texts c.metrics.expectedKeys),
          ("skipStaleFirst", .bool c.metrics.skipStaleFirst)]),
      ("logging", [("level", .text c.logging.level.word)])]

end CycleWatch.Config
