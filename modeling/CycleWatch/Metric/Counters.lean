import CycleWatch.Metric.Line
import CycleWatch.Metric.Name
/-!
# Lines as the collector writes them

A full report: a token of another program first, then the fourteen metrics by ascending name.
-/
namespace CycleWatch.Metric

/-- The counters of a report that differ from cycle to cycle. -/
structure Counters where
  /-- The start of the primary pass. -/
  started : Int64
  /-- The end of the primary pass. -/
  finished : Int64
  /-- The start of the log pass. -/
  walStarted : Int64
  /-- The end of the log pass. -/
  walFinished : Int64
  /-- The number of cycles completed. -/
  runCycleCount : Int64
deriving DecidableEq, Repr

/-- Counters of a cycle whose log pass keeps the times of the primary pass. -/
def Counters.ofPrimary (started finished runCycleCount : Int64) : Counters :=
  ⟨started, finished, started, finished, runCycleCount⟩

/-- The fourteen metrics with their values. -/
def Counters.bindings (c : Counters) : List (String × Int64) :=
  [(candidates, 12), (deleted, 4), (errors, 0), (Metric.finished, c.finished), (inUse, 8),
    (postOpDuration, 17), (Metric.runCycleCount, c.runCycleCount), (Metric.started, c.started),
    (walCandidates, 3), (walDeleted, 1), (walErrors, 0), (Metric.walFinished, c.walFinished),
    (walInUse, 2), (Metric.walStarted, c.walStarted)]

/-- A metric as a token of a line. -/
def writeToken (key : String) (value : Int64) : String :=
  key ++ "=" ++ Text.intText value.toInt

/-- The line that reports the counters. -/
def Counters.line (c : Counters) : String :=
  c.bindings.foldl (fun line b => line ++ ", " ++ writeToken b.1 b.2) "TabletServerUptime=99"

end CycleWatch.Metric
