import CycleWatch.Config.Form
/-!
# The schema of the configuration

A JSON schema, draft 2020-12, of the configuration as structured data, for editors and other tools.
-/
namespace CycleWatch.Config.Schema

/-- A setting with its description and default, and what else the schema says of it. -/
def setting (name description : String) (default : Json) (rest : List (String × Json)) :
    String × Json :=
  (name, .obj ([("description", .str description), ("default", default)] ++ rest))

/-- What the schema says of a text. -/
def ofText : List (String × Json) :=
  [("type", .str "string")]

/-- What the schema says of a truth value. -/
def ofBool : List (String × Json) :=
  [("type", .str "boolean")]

/-- What the schema says of a list of texts. -/
def ofTexts : List (String × Json) :=
  [("type", .str "array"), ("items", .obj ofText)]

/-- What the schema says of an unsigned number of a width. -/
def ofNat (width : String) : List (String × Json) :=
  [("type", .str "integer"), ("format", .str width), ("minimum", .int 0)]

/-- A reference to the definition of a name. -/
def ofDefinition (name : String) : List (String × Json) :=
  [("$ref", .str ("#/$defs/" ++ name))]

/-- What the schema says of a table with no other members than those given. -/
def ofTable (description : String) (members : List (String × Json)) : List (String × Json) :=
  [("description", .str description), ("type", .str "object"),
    ("additionalProperties", .bool false), ("properties", .obj members)]

/-- The settings of the tailer. -/
def tailing : Json :=
  .obj <| ofTable "Background tailer configuration."
    [setting "sinkFile" "Metrics sink file the harness observes."
        (.str Tailing.default.sinkFile) ofText,
      setting "pollIntervalMs" "Delay between two reads of the sink file (ms)."
        (.int Tailing.default.pollIntervalMs.toNat) (ofNat "uint64")]

/-- The settings of the waits. -/
def waiting : Json :=
  .obj <| ofTable "Update waiter configuration."
    [setting "maxAttempts" "Maximum number of polls before giving up."
        (.int Waiting.default.maxAttempts.toNat) (ofNat "uint32"),
      setting "delayMs" "Delay after each unsuccessful poll (ms)."
        (.int Waiting.default.delayMs.toNat) (ofNat "uint64")]

/-- The settings of the metrics. -/
def metrics : Json :=
  .obj <| ofTable "Metric line configuration."
    [setting "prefix" "Prefix selecting the metric family on a line."
        (.str Metrics.default.family) ofText,
      setting "expectedKeys" "Metric names every sample must carry."
        (.arr (Metrics.default.expectedKeys.map .str)) ofTexts,
      setting "skipStaleFirst"
        "Discard the first observed line (it may come from a previous run)."
        (.bool Metrics.default.skipStaleFirst) ofBool]

/-- The settings of the log. -/
def logging : Json :=
  .obj <| ofTable "Logging configuration."
    [setting "level" "Minimum level emitted." (.str Logging.default.level.word)
      (ofDefinition "LogLevelSetting")]

/-- What a level lets through. -/
def describe : Log.Level → String
  | .debug => "Everything, including per-poll diagnostics."
  | .info => "Lifecycle events."
  | .warn => "Timeouts and failures."
  | .error => "Failures only."

/-- The levels. -/
def level : Json :=
  .obj
    [("description", .str "Configured minimum log level."),
      ("oneOf", .arr (Log.Level.all.map fun l =>
        .obj [("description", .str (describe l)), ("type", .str "string"),
          ("const", .str l.word)]))]

/-- The schema of the configuration. -/
def root : Json :=
  .obj <|
    [("$schema", .str "https://json-schema.org/draft/2020-12/schema"),
      ("title", .str "HarnessConfig")] ++
    ofTable "Top-level harness configuration."
      [setting "version" "Schema version for forward-compatible migrations."
          (.int currentVersion.toNat) (ofNat "uint32"),
        setting "tailer" "Background tailer settings." Tailing.default.toJson
          (ofDefinition "TailerConfig"),
        setting "waiter" "Update waiter settings." Waiting.default.toJson
          (ofDefinition "WaiterConfig"),
        setting "metrics" "Metric line settings." Metrics.default.toJson
          (ofDefinition "MetricsConfig"),
        setting "logging" "Structured logging settings." Logging.default.toJson
          (ofDefinition "LoggingConfig")] ++
    [("$defs", .obj
      [("TailerConfig", tailing), ("WaiterConfig", waiting), ("MetricsConfig", metrics),
        ("LoggingConfig", logging), ("LogLevelSetting", level)])]

end CycleWatch.Config.Schema
