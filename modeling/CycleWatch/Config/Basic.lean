import CycleWatch.Log.Event
import CycleWatch.Metric.Name
/-!
# The configuration

What to tail, how long to wait, which metrics to expect, and how much to log. Every setting has a
default, so the empty configuration is complete.
-/
namespace CycleWatch

namespace Config

/-- The settings of the tailer. -/
structure Tailing where
  /-- The path of the sink. -/
  sinkFile : String
  /-- The time in milliseconds between two readings. -/
  pollIntervalMs : UInt64
deriving DecidableEq, Repr

/-- The settings of the waits. -/
structure Waiting where
  /-- How many snapshots to look at. -/
  maxAttempts : UInt32
  /-- The delay in milliseconds after each one without news. -/
  delayMs : UInt64
deriving DecidableEq, Repr

/-- The settings of the metrics. -/
structure Metrics where
  /-- The text that the names of the metrics start with. -/
  family : String
  /-- The metrics that a report has to contain. -/
  expectedKeys : List String
  /-- Whether the first report is passed over. -/
  skipStaleFirst : Bool
deriving DecidableEq, Repr

/-- The settings of the log. -/
structure Logging where
  /-- The least level logged. -/
  level : Log.Level
deriving DecidableEq, Repr

end Config

/-- A configuration. -/
structure Config where
  /-- The version of its form. -/
  version : UInt32
  /-- The settings of the tailer. -/
  tailer : Config.Tailing
  /-- The settings of the waits. -/
  waiter : Config.Waiting
  /-- The settings of the metrics. -/
  metrics : Config.Metrics
  /-- The settings of the log. -/
  logging : Config.Logging
deriving DecidableEq, Repr

namespace Config

/-- The one version that is supported. -/
def currentVersion : UInt32 := 1

/-- The path of the sink, unless another one is set. -/
def defaultSinkFile : String := "metrics/gc.metrics.log"

/-- How many metrics can be expected at most. -/
def expectedKeysMax : Nat := 256

/-- The default settings of the tailer. -/
def Tailing.default : Tailing := ⟨defaultSinkFile, 1000⟩

/-- The default settings of the waits. -/
def Waiting.default : Waiting := ⟨20, 5000⟩

/-- The default settings of the metrics: the collector's own. -/
def Metrics.default : Metrics := ⟨Metric.collectorFamily, Metric.collectorNames, true⟩

/-- The default settings of the log. -/
def Logging.default : Logging := ⟨.info⟩

/-- The default configuration. -/
def default : Config := ⟨currentVersion, .default, .default, .default, .default⟩

instance : Inhabited Config := ⟨default⟩

end Config

end CycleWatch
