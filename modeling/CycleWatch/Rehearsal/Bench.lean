import CycleWatch.Clock
import CycleWatch.Routine
/-!
# A bench for waits and checks

On the bench a routine meets a script: the snapshots it will be given one by one, a clock that moves
only when it sleeps, and what is to go wrong at which sleep or snapshot.
-/
namespace CycleWatch.Rehearsal

/-- What goes wrong with a sleep. -/
inductive Mishap where
  /-- The task is called off just before it sleeps. -/
  | cancelBefore
  /-- The task is called off while it sleeps. -/
  | cancelDuring
  /-- The task is called off just after it has slept. -/
  | cancelAfter
  /-- The sleep fails at once. -/
  | fail (code : Fault.Code)
deriving DecidableEq, Repr

/-- The bench between two requests. -/
structure Bench where
  /-- The snapshots given one by one; the last one is given again and again. -/
  script : List Snapshot
  /-- How many snapshots have been given. -/
  polls : Nat
  /-- The time in milliseconds. -/
  nowMs : UInt64
  /-- The sleeps so far, latest first. -/
  sleeps : List Duration
  /-- How many sleeps have been asked for. -/
  sleepCalls : Nat
  /-- Whether the task is called off. -/
  cancelled : Bool
  /-- The number of the snapshot with which the task is called off. -/
  cancelOnPoll : Option Nat
  /-- What goes wrong with the sleeps of these numbers, counted from one. -/
  mishaps : List (Nat × Mishap)
  /-- The events logged so far, latest first. -/
  events : List Log.Event

namespace Bench

/-- A script that publishes lines in order, each for a number of polls and at least for one; the
versions count up from one and stand for the times as well. -/
def publishing (lines : List String) (pollsPerLine : Nat) : List Snapshot :=
  (lines.foldl (fun (script, version) line =>
    let version := Version.next version
    (script ++ List.replicate (max pollsPerLine 1) ⟨version, some line, version.number⟩, version))
    (([] : List Snapshot), Version.none)).1

/-- The snapshot that the script gives at a poll. -/
def scripted (script : List Snapshot) (poll : Nat) : Snapshot :=
  (script[poll]?).getD (script.getLast?.getD Snapshot.empty)

/-- Gives the next snapshot. -/
def give (b : Bench) : Snapshot × Bench :=
  (scripted b.script b.polls,
    { b with
      polls := b.polls + 1
      cancelled := b.cancelled || b.cancelOnPoll == some (b.polls + 1) })

/-- Sleeps without a mishap: a task that is called off does not sleep at all. -/
def doze (b : Bench) (duration : Duration) : Except Fault Unit × Bench :=
  if b.cancelled then (.error (Clock.refused), b)
  else (.ok (), { b with nowMs := b.nowMs + duration.millis, sleeps := duration :: b.sleeps })

/-- Sleeps, with what goes wrong at this sleep. -/
def sleep (b : Bench) (duration : Duration) : Except Fault Unit × Bench :=
  let b := { b with sleepCalls := b.sleepCalls + 1 }
  match b.mishaps.lookup b.sleepCalls with
  | none => b.doze duration
  | some .cancelBefore => ({ b with cancelled := true }).doze duration
  | some .cancelDuring =>
    match b.doze duration with
    | (.ok (), b) => (.error (Clock.refused), { b with cancelled := true })
    | failed => failed
  | some .cancelAfter =>
    match b.doze duration with
    | (.ok (), b) => (.ok (), { b with cancelled := true })
    | failed => failed
  | some (.fail code) => (.error (Fault.expected code "sleep failed"), b)

/-- The bench as the surroundings of a routine. -/
def surroundings : Surroundings Bench where
  clock b := (b.nowMs, b)
  cancelled b := (b.cancelled, b)
  snapshot := give
  sleep duration b := b.sleep duration
  emit event b := { b with events := event :: b.events }

/-- The whole milliseconds slept altogether. -/
def sleptMs (b : Bench) : Nat :=
  Duration.totalNanos b.sleeps / 1000000

end Bench

end CycleWatch.Rehearsal
