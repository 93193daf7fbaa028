import CycleWatch.Files
import CycleWatch.Rehearsal.Play
import CycleWatch.Session
/-!
# Rehearsing a session

A whole session in simulated time: on a sink in memory that changes as a timeline has it, or on files
that do not change.
-/
namespace CycleWatch.Rehearsal

open Config (Admitted)

/-- What a session comes to on a sink in memory. -/
structure Outcome where
  /-- The result of the check. -/
  result : Except Fault Cycle.Report
  /-- The time at the end in milliseconds. -/
  nowMs : UInt64
  /-- How many readings the sink has served. -/
  reads : Nat
  /-- The events logged, the earliest first. -/
  events : List Log.Event

/-- Readings of a sink in memory. -/
def Sink.access : SinkAccess Sink :=
  ⟨Sink.read, fun act sink => sink.apply act⟩

/-- A session on a sink in memory that has no file at the start; the entries of the timeline have the
times at which they happen. -/
def rehearse (a : Admitted) (startMs : UInt64) (timeline : List (Nat × Cue)) : Outcome :=
  let options := Session.tailerOptions a
  let opening :=
    Play.opening Sink.access (.of options.path none) options startMs.toNat timeline false
  let (result, p) := opening.perform Sink.access a.checkSettings
  ⟨result, p.clock, p.sink.reads, p.events.reverse⟩

/-- Readings of a sink among files that do not change. -/
def filesAccess (path : String) : SinkAccess Files :=
  ⟨fun files => (files.readSink false none path, files), fun _ files => files⟩

/-- The result of a session on files that do not change. -/
def rehearseOnFiles (a : Admitted) (files : Files) (startMs : UInt64) (cancelled : Bool) :
    Except Fault Cycle.Report :=
  let options := Session.tailerOptions a
  let opening :=
    Play.opening (filesAccess options.path) files options startMs.toNat [] cancelled
  (opening.perform (filesAccess options.path) a.checkSettings).1

/-- What the tailer has published after its first reading of a file that does not change. -/
def firstPublished (a : Admitted) (files : Files) (nowMs : UInt64) : Snapshot :=
  let options := Session.tailerOptions a
  let started := (Tailer.start options false).1
  (started.step (.answered (files.readSink false none options.path) nowMs)).1.published

end CycleWatch.Rehearsal
