import CycleWatch.Config.Admission
import CycleWatch.CorrelationId
import CycleWatch.Log.Journal
import CycleWatch.Tailer.Machine
/-!
# A session

A session puts together what an admitted configuration asks for: which sink to tail, what to check,
and a log whose every line carries the id of the run and the path of the sink.
-/
namespace CycleWatch

/-- The version of the program. -/
def programVersion : String := "0.1.0"

namespace Session

open Config (Admitted)

/-- What to tail. -/
def tailerOptions (a : Admitted) : Tailer.Options :=
  ⟨a.config.tailer.sinkFile, a.limits.pollInterval⟩

/-- The fields that every event of a run carries. -/
def baseFields (a : Admitted) (id : CorrelationId) : Log.Fields :=
  Dict.ofList [("correlationId", .str id.text), ("sinkFile", .str a.config.tailer.sinkFile)]

/-- The logger of a run, if the runtime has one: it is the next of a family of so many loggers. -/
def runLogger (made : Nat) (runtime : Option Nat) : Option Nat :=
  runtime.map fun _ => made

/-- A run makes its logger, a child of that of the runtime. -/
def makeLogger (a : Admitted) (id : CorrelationId) (runtime : Option Nat) : List Log.Journal.Call :=
  runtime.toList.map fun i => .child i (baseFields a id)

/-- An event is logged, if there is a logger. -/
def logThrough (logger : Option Nat) (timeMs : UInt64) (event : Log.Event) : List Log.Journal.Call :=
  logger.toList.map fun i => .log timeMs i event

/-- What a run does with a family of so many loggers when it logs these events, each at its time. -/
def loggerCalls (a : Admitted) (id : CorrelationId) (made : Nat) (runtime : Option Nat)
    (events : List (UInt64 × Log.Event)) : List Log.Journal.Call :=
  makeLogger a id runtime ++
    events.flatMap fun (timeMs, event) => logThrough (runLogger made runtime) timeMs event

/-- The lines that the events of a run leave in a journal at the configured level. The logger of the
runtime is the root, which has no fields. -/
def journalLines (a : Admitted) (id : CorrelationId) (events : List (UInt64 × Log.Event)) :
    List String :=
  let journal := Log.Journal.start a.config.logging.level Dict.empty
  (journal.run (loggerCalls a id journal.loggers.length (some 0) events)).2.take.1

end Session

end CycleWatch
