import CycleWatch.Clock
import CycleWatch.Rehearsal.Sink
/-!
# A stand for the tailer

On the stand the tailer meets a sink in memory and a clock whose sleeps end only on a tick. After
every act the tailer goes as far as it can.
-/
namespace CycleWatch.Rehearsal

/-- The stand between two acts. -/
structure Stand where
  /-- The tailer. -/
  tailer : Tailer
  /-- The sink. -/
  sink : Sink
  /-- The time in milliseconds. -/
  nowMs : UInt64
  /-- How many sleeps have ended on a tick. -/
  sleeps : Nat
  /-- Whether the tailer is called off. -/
  cancelled : Bool
  /-- Whether the tailer has been given up by its owner. -/
  released : Bool
  /-- Whether the sleep going on is to fail. -/
  failSleep : Bool
  /-- The events logged so far. -/
  events : List Log.Event

/-- Something done on the stand. -/
inductive Stand.Act where
  /-- The sleep going on ends. -/
  | tick
  /-- Something is done to the sink. -/
  | sink (act : Sink.Act)
  /-- Something is done to another file. -/
  | elsewhere
  /-- Time goes by. -/
  | advance (ms : UInt64)
  /-- The tailer is called off from outside. -/
  | cancel
  /-- Its owner stops the tailer and waits for its end. -/
  | stop
  /-- Its owner lets the tailer go. -/
  | drop
  /-- The next reading is to fail. -/
  | failRead (fault : Fault)
  /-- The sleep going on is to fail. -/
  | failSleep
deriving DecidableEq

namespace Stand

/-- Answers a reading that has been asked for. -/
def answer (s : Stand) : Stand :=
  match s.tailer.phase with
  | .reading =>
    let (reading, sink) := s.sink.read
    let (tailer, events) := s.tailer.step (.answered reading s.nowMs)
    { s with tailer, sink, events := s.events ++ events }
  | _ => s

/-- Ends the sleep going on, if there is one, and goes on from there. -/
def wake (s : Stand) (slept : Except Fault Unit) : Stand :=
  let (tailer, events) := s.tailer.step (.woken slept s.cancelled)
  answer { s with tailer, failSleep := false, events := s.events ++ events }

/-- The fault of a sleep that was made to fail. -/
def sleepFault : Fault :=
  .unexpected .io "sleep failed" .nonRetriable

/-- A stand on which the tailer has started and gone as far as it can. -/
def start (o : Tailer.Options) (contents : Option String) (startMs : UInt64) (cancelled : Bool) :
    Stand :=
  let (tailer, events) := Tailer.start o cancelled
  answer ⟨tailer, .of o.path contents, startMs, 0, cancelled, false, false, events⟩

/-- Calls the tailer off: a sleep going on fails. -/
def callOff (s : Stand) : Stand :=
  wake { s with cancelled := true } (.error Clock.refused)

/-- The stand after an act. -/
def act (s : Stand) : Act → Stand
  | .tick =>
    if s.tailer.phase = .sleeping then
      if s.failSleep then s.wake (.error sleepFault)
      else
        wake { s with nowMs := s.nowMs + s.tailer.options.pollInterval.millis, sleeps := s.sleeps + 1 }
          (.ok ())
    else s
  | .sink a => { s with sink := s.sink.apply a }
  | .elsewhere => s
  | .advance ms => { s with nowMs := s.nowMs + ms }
  | .cancel => s.callOff
  | .stop | .drop => if s.released then s else callOff { s with released := true }
  | .failRead fault => { s with sink := { s.sink with failures := s.sink.failures ++ [fault] } }
  | .failSleep => { s with failSleep := s.tailer.phase = .sleeping }

end Stand

end CycleWatch.Rehearsal
