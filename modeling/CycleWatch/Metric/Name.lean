/-!
# The garbage collector's metrics

The collector reports fourteen metrics, seven for its primary pass and the cycle as a whole and seven
for the pass over the write-ahead log. Their names share the start `AccGc`.
-/
namespace CycleWatch.Metric

/-- The text every name of the collector's metrics starts with. -/
def collectorFamily : String := "AccGc"

/-- Candidates found by the primary pass. -/
def candidates : String := "AccGcCandidates"

/-- Entries deleted by the primary pass. -/
def deleted : String := "AccGcDeleted"

/-- Errors of the primary pass. -/
def errors : String := "AccGcErrors"

/-- The time in milliseconds at which the primary pass last finished. -/
def finished : String := "AccGcFinished"

/-- Candidates left alone because they were in use. -/
def inUse : String := "AccGcInUse"

/-- The duration of the step after the passes. -/
def postOpDuration : String := "AccGcPostOpDuration"

/-- The number of cycles completed. -/
def runCycleCount : String := "AccGcRunCycleCount"

/-- The time in milliseconds at which the primary pass last started. -/
def started : String := "AccGcStarted"

/-- Candidates found by the log pass. -/
def walCandidates : String := "AccGcWalCandidates"

/-- Entries deleted by the log pass. -/
def walDeleted : String := "AccGcWalDeleted"

/-- Errors of the log pass. -/
def walErrors : String := "AccGcWalErrors"

/-- The time in milliseconds at which the log pass last finished. -/
def walFinished : String := "AccGcWalFinished"

/-- Logs left alone because they were in use. -/
def walInUse : String := "AccGcWalInUse"

/-- The time in milliseconds at which the log pass last started. -/
def walStarted : String := "AccGcWalStarted"

/-- The fourteen names that every report carries, ascending. -/
def collectorNames : List String :=
  [candidates, deleted, errors, finished, inUse, postOpDuration, runCycleCount, started,
    walCandidates, walDeleted, walErrors, walFinished, walInUse, walStarted]

end CycleWatch.Metric
