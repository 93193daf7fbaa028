import CycleWatch.Duration
import CycleWatch.Fault
import CycleWatch.Log.Event
import CycleWatch.Snapshot
import CycleWatch.Tailer.LastLine
/-!
# The tailer

The tailer reads the sink, publishes its last line when that is another one than before, and sleeps
until the next reading. It is a machine that moves on when a reading is answered or a sleep ends, so
that every interleaving of its moves with anything else is a sequence of such signals. It ends when it
is called off, when a sleep fails, or when a reading fails with a cancellation; any other failure of a
reading is logged and survived.
-/
namespace CycleWatch

/-- What to tail, and how often. -/
structure Tailer.Options where
  /-- The path of the sink. -/
  path : String
  /-- The time between two readings. -/
  pollInterval : Duration
deriving DecidableEq, Repr

/-- What a reading of the sink comes to: its contents, no file, or a failure. -/
abbrev Tailer.Reading := Except Fault (Option String)

/-- What the tailer is about. -/
inductive Tailer.Phase where
  /-- A reading has been asked for. -/
  | reading
  /-- It sleeps. -/
  | sleeping
  /-- It has ended. -/
  | stopped
deriving DecidableEq, Repr

/-- What the tailer waits for. -/
inductive Tailer.Signal where
  /-- The answer to a reading, and the time at which it came. -/
  | answered (reading : Tailer.Reading) (nowMs : UInt64)
  /-- How a sleep ended, and whether the tailer is called off by then. -/
  | woken (slept : Except Fault Unit) (cancelled : Bool)

/-- The tailer between two moves. -/
structure Tailer where
  /-- What to tail. -/
  options : Tailer.Options
  /-- The snapshot published last. -/
  published : Snapshot
  /-- What it is about. -/
  phase : Tailer.Phase
deriving DecidableEq, Repr

namespace Tailer

/-- The event of the start. -/
def startedEvent (o : Options) : Log.Event :=
  .plain .info "tailer.started" "Metrics tailer started" <| some <| Dict.ofList
    [("path", .str o.path), ("pollIntervalMs", Log.number o.pollInterval.millis)]

/-- The event of the end. -/
def stoppedEvent (t : Tailer) : Log.Event :=
  .plain .info "tailer.stopped" "Metrics tailer stopped" <| some <| Dict.ofList
    [("path", .str t.options.path), ("version", Log.number t.published.version.number)]

/-- The event of a publication. -/
def publishedEvent (version : Version) (line : String) : Log.Event :=
  .plain .debug "tailer.published" "Metrics line published" <| some <| Dict.ofList
    [("version", Log.number version.number), ("lineLength", .int line.utf8ByteSize)]

/-- The event of a reading that failed. -/
def readFailedEvent (o : Options) (fault : Fault) : Log.Event :=
  .plain .debug "tailer.read_failed" "Metrics sink not readable yet" <| some <| Dict.ofList
    [("path", .str o.path), ("error", .str fault.text)]

/-- The tailer ends. -/
def stop (t : Tailer) : Tailer × List Log.Event :=
  ({ t with phase := .stopped }, [t.stoppedEvent])

/-- The tailer asks for a reading, unless it is called off. -/
def turn (t : Tailer) (cancelled : Bool) : Tailer × List Log.Event :=
  if cancelled then t.stop else ({ t with phase := .reading }, [])

/-- A tailer that starts. -/
def start (o : Options) (cancelled : Bool) : Tailer × List Log.Event :=
  let (t, events) := turn ⟨o, .empty, .sleeping⟩ cancelled
  (t, startedEvent o :: events)

/-- Publishes a line, if it is another one than before. -/
def publish (t : Tailer) (line : String) (nowMs : UInt64) : Tailer × List Log.Event :=
  if t.published.line = some line then (t, [])
  else
    let version := t.published.version.next
    ({ t with published := ⟨version, some line, nowMs⟩ }, [publishedEvent version line])

/-- Takes in what a reading came to. -/
def absorb (t : Tailer) (nowMs : UInt64) : Reading → Tailer × List Log.Event
  | .ok (some contents) =>
    match lastLine contents with
    | some line =>
      let (t, events) := t.publish line nowMs
      ({ t with phase := .sleeping }, events)
    | none => ({ t with phase := .sleeping }, [])
  | .ok none => ({ t with phase := .sleeping }, [])
  | .error fault =>
    if fault.isCancelled then t.stop
    else ({ t with phase := .sleeping }, [readFailedEvent t.options fault])

/-- The tailer after a signal, and the events it logs; a signal it does not wait for is passed over. -/
def step (t : Tailer) (signal : Signal) : Tailer × List Log.Event :=
  match t.phase, signal with
  | .reading, .answered reading nowMs => t.absorb nowMs reading
  | .sleeping, .woken (.ok ()) cancelled => t.turn cancelled
  | .sleeping, .woken (.error _) _ => t.stop
  | _, _ => (t, [])

/-- The tailer after a sequence of signals, and the events it logs on the way. -/
def run (t : Tailer) : List Signal → Tailer × List Log.Event
  | [] => (t, [])
  | signal :: rest =>
    let (t, events) := t.step signal
    let (t, later) := t.run rest
    (t, events ++ later)

end Tailer

end CycleWatch
