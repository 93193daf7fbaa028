import CycleWatch.Metric.Violation
import CycleWatch.Wait.Poll
/-!
# The check of two cycles

The check waits for two reports, one after the other, and maybe for one before them that it passes
over as stale. Each of the two has to be readable, complete and sound, and the second has to come from
a later cycle than the first. The earliest thing that is wrong is the result, marked with the cycle it
belongs to.
-/
namespace CycleWatch.Cycle

/-- What to check. -/
structure Settings where
  /-- How long to wait for each report. -/
  policy : Wait.Policy
  /-- The text that the names of the metrics start with. -/
  family : String
  /-- The metrics that a report has to contain. -/
  expectedKeys : KeySet
  /-- Whether the first report is passed over. -/
  skipStaleFirst : Bool
deriving DecidableEq

/-- The settings for the collector's own metrics. -/
def Settings.standard : Settings :=
  ⟨.standard, Metric.collectorFamily, .collector, true⟩

/-- One report that was found in order. -/
structure Observation where
  /-- The line as it was published. -/
  snapshot : Snapshot
  /-- The metrics on it. -/
  sample : Sample
deriving DecidableEq

/-- What a check that passed has seen. -/
structure Report where
  /-- The time in milliseconds at which the check started. -/
  testStartMs : UInt64
  /-- The report passed over as stale. -/
  skipped : Option Snapshot
  /-- The first cycle. -/
  first : Observation
  /-- The cycle after it. -/
  next : Observation
deriving DecidableEq

/-- The places of the reports in the check. -/
inductive Stage where
  | stale | first | next
deriving DecidableEq, Repr

/-- The word for a stage. -/
def Stage.word : Stage → String
  | .stale => "stale"
  | .first => "first"
  | .next => "next"

/-- The sample of a published line, if it is readable, complete and sound. -/
def examine (settings : Settings) (testStartMs : UInt64) (snapshot : Snapshot) :
    Except Fault Sample := do
  let sample ← (Metric.readLine settings.family snapshot.line).mapError LineFault.toFault
  (Metric.requireKeys sample settings.expectedKeys).mapError Violation.toFault
  (Metric.checkTimes sample testStartMs).mapError Violation.toFault
  return sample

/-- Waits for the report of a stage. -/
def awaitReport (settings : Settings) (stage : Stage) (baseline : Baseline) :
    Routine (Except Fault Snapshot) :=
  (Wait.await ⟨baseline, settings.policy⟩).bind fun r =>
    .done (Fault.annotate "cycle" stage.word r)

/-- Waits for the report of a stage and examines it. -/
def observe (settings : Settings) (testStartMs : UInt64) (stage : Stage) (baseline : Baseline) :
    Routine (Except Fault Observation) :=
  (awaitReport settings stage baseline).bind fun
  | .error fault => .done (.error fault)
  | .ok snapshot =>
    match Fault.annotate "version" snapshot.version.text
        (Fault.annotate "cycle" stage.word (examine settings testStartMs snapshot)) with
    | .error fault => .done (.error fault)
    | .ok sample => .done (.ok ⟨snapshot, sample⟩)

/-- Waits for the report that is passed over, if one is to be. -/
def skipStale (settings : Settings) : Routine (Except Fault (Option Snapshot)) :=
  if settings.skipStaleFirst then
    (awaitReport settings .stale .none).bind fun r => .done (r.map some)
  else .done (.ok none)

/-- The baseline of the first cycle. -/
def openingBaseline : Option Snapshot → Baseline
  | none => .none
  | some stale => .after stale

/-- The reports one after the other. -/
def runStages (settings : Settings) (testStartMs : UInt64) : Routine (Except Fault Report) :=
  (skipStale settings).bind fun
  | .error fault => .done (.error fault)
  | .ok skipped =>
    (observe settings testStartMs .first (openingBaseline skipped)).bind fun
    | .error fault => .done (.error fault)
    | .ok first =>
      (observe settings testStartMs .next (.after first.snapshot)).bind fun
      | .error fault => .done (.error fault)
      | .ok next =>
        match Fault.annotate "cycle" Stage.next.word
            ((Metric.checkGrowth first.sample next.sample).mapError Violation.toFault) with
        | .error fault => .done (.error fault)
        | .ok () => .done (.ok ⟨testStartMs, skipped, first, next⟩)

/-- The event of the start. -/
def startEvent (settings : Settings) (testStartMs : UInt64) : Log.Event :=
  .plain .info "scenario.gcCycles.start" "GC cycle check started" <| some <| Dict.ofList
    [("testStartMs", Log.number testStartMs), ("prefix", .str settings.family),
      ("expectedKeys", .int settings.expectedKeys.size),
      ("maxAttempts", .int settings.policy.maxAttempts.toNat),
      ("delayMs", Log.number settings.policy.delayMs),
      ("skipStaleFirst", .bool settings.skipStaleFirst)]

/-- The event of a check that passed. -/
def completedEvent (durationMs : UInt64) (report : Report) : Log.Event :=
  .plain .info "scenario.gcCycles.completed" "GC cycle check completed" <| some <| Dict.ofList
    [("durationMs", Log.number durationMs),
      ("firstVersion", Log.number report.first.snapshot.version.number),
      ("nextVersion", Log.number report.next.snapshot.version.number)]

/-- The event of a check that was called off. -/
def abortedEvent (durationMs : UInt64) : Log.Event :=
  .plain .info "scenario.gcCycles.aborted" "GC cycle check aborted" <| some <| Dict.ofList
    [("durationMs", Log.number durationMs)]

/-- The event of a check that failed; it names the cycle if the fault does. -/
def failedEvent (durationMs : UInt64) (fault : Fault) : Log.Event :=
  let fields := Dict.ofList
    [("durationMs", Log.number durationMs), ("errorCode", .str fault.code.text),
      ("error", .str fault.text)]
  .plain .error "scenario.gcCycles.failed" "GC cycle check failed" <| some <|
    match fault.context.get? "cycle" with
    | some cycle => fields.insert "cycle" (.str cycle)
    | none => fields

/-- The event of the end. -/
def endEvent (durationMs : UInt64) : Except Fault Report → Log.Event
  | .ok report => completedEvent durationMs report
  | .error fault =>
    if fault.isCancelled then abortedEvent durationMs else failedEvent durationMs fault

/-- Checks two cycles. -/
def check (settings : Settings) : Routine (Except Fault Report) :=
  .readClock fun startMs =>
    .emit (startEvent settings startMs) <|
      (runStages settings startMs).bind fun result =>
        .readClock fun endMs =>
          .emit (endEvent (Word.elapsed startMs endMs) result) (.done result)

end CycleWatch.Cycle
