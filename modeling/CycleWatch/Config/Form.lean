import CycleWatch.Config.Basic
import CycleWatch.Json
import CycleWatch.Tree
import CycleWatch.Word
/-!
# The configuration as structured data

A configuration is a table of five parts, and each part one of its settings. A part or setting that is
missing has its default; one that is not known is refused. A list gives the parts or settings by place,
and what it holds beyond them is a matter of the format.
-/
namespace CycleWatch.Config

/-- A level by its exact word. The payload of a word that stands as a key has to be empty. -/
def levelOfTree? (isEmptyPayload : Tree → Bool) (t : Tree) : Option Log.Level :=
  (t.name? isEmptyPayload (Log.Level.all.map Log.Level.word)).bind fun word =>
    Log.Level.all.find? fun level => level.word == word

/-- A setting read by `read`, or its default when it is missing. -/
def orDefault {α : Type} (default : α) (read : Tree → Option α) : Option Tree → Option α
  | none => some default
  | some t => read t

/-- The settings of the tailer. -/
def Tailing.ofTree? (dialect : Tree.Dialect) (t : Tree) : Option Tailing := do
  match ← t.fields? ["sinkFile", "pollIntervalMs"] false dialect.passesItems with
  | [sinkFile, pollIntervalMs] =>
    return ⟨← orDefault Tailing.default.sinkFile Tree.text? sinkFile,
      ← orDefault Tailing.default.pollIntervalMs (·.int?.bind Word.uint64?) pollIntervalMs⟩
  | _ => none

/-- The settings of the waits. -/
def Waiting.ofTree? (dialect : Tree.Dialect) (t : Tree) : Option Waiting := do
  match ← t.fields? ["maxAttempts", "delayMs"] false dialect.passesItems with
  | [maxAttempts, delayMs] =>
    return ⟨← orDefault Waiting.default.maxAttempts (·.int?.bind Word.uint32?) maxAttempts,
      ← orDefault Waiting.default.delayMs (·.int?.bind Word.uint64?) delayMs⟩
  | _ => none

/-- The settings of the metrics. -/
def Metrics.ofTree? (dialect : Tree.Dialect) (t : Tree) : Option Metrics := do
  match ← t.fields? ["prefix", "expectedKeys", "skipStaleFirst"] false dialect.passesItems with
  | [family, expectedKeys, skipStaleFirst] =>
    return ⟨← orDefault Metrics.default.family Tree.text? family,
      ← orDefault Metrics.default.expectedKeys Tree.texts? expectedKeys,
      ← orDefault Metrics.default.skipStaleFirst Tree.bool? skipStaleFirst⟩
  | _ => none

/-- The settings of the log. -/
def Logging.ofTree? (dialect : Tree.Dialect) (t : Tree) : Option Logging := do
  match ← t.fields? ["level"] false dialect.passesItems with
  | [level] =>
    return ⟨← orDefault Logging.default.level (levelOfTree? dialect.isEmptyPayload) level⟩
  | _ => none

/-- The configuration. -/
def ofTree? (dialect : Tree.Dialect) (t : Tree) : Option Config := do
  match ← t.fields? ["version", "tailer", "waiter", "metrics", "logging"] false
      dialect.passesItems with
  | [version, tailer, waiter, metrics, logging] =>
    return ⟨← orDefault currentVersion (·.int?.bind Word.uint32?) version,
      ← orDefault Tailing.default (Tailing.ofTree? dialect) tailer,
      ← orDefault Waiting.default (Waiting.ofTree? dialect) waiter,
      ← orDefault Metrics.default (Metrics.ofTree? dialect) metrics,
      ← orDefault Logging.default (Logging.ofTree? dialect) logging⟩
  | _ => none

/-- The settings of the tailer as JSON. -/
def Tailing.toJson (c : Tailing) : Json :=
  .obj [("sinkFile", .str c.sinkFile), ("pollIntervalMs", .int c.pollIntervalMs.toNat)]

/-- The settings of the waits as JSON. -/
def Waiting.toJson (c : Waiting) : Json :=
  .obj [("maxAttempts", .int c.maxAttempts.toNat), ("delayMs", .int c.delayMs.toNat)]

/-- The settings of the metrics as JSON. -/
def Metrics.toJson (c : Metrics) : Json :=
  .obj [("prefix", .str c.family), ("expectedKeys", .arr (c.expectedKeys.map .str)),
    ("skipStaleFirst", .bool c.skipStaleFirst)]

/-- The settings of the log as JSON. -/
def Logging.toJson (c : Logging) : Json :=
  .obj [("level", .str c.level.word)]

/-- The configuration as JSON. -/
def toJson (c : Config) : Json :=
  .obj [("version", .int c.version.toNat), ("tailer", c.tailer.toJson),
    ("waiter", c.waiter.toJson), ("metrics", c.metrics.toJson), ("logging", c.logging.toJson)]

end CycleWatch.Config
