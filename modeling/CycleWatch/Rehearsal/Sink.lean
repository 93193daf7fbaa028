import CycleWatch.Tailer.Machine
/-!
# A sink kept in memory

The sink of a rehearsal holds its contents, or no file. It can be made unreadable, and it can be told
how its next readings fail. It counts the readings that it serves.
-/
namespace CycleWatch.Rehearsal

/-- A sink in memory. -/
structure Sink where
  /-- The path under which it is read. -/
  path : String
  /-- The contents of the file, if there is one. -/
  contents : Option String
  /-- Whether every reading is refused. -/
  unreadable : Bool
  /-- How the next readings fail, the very next one first. -/
  failures : List Fault
  /-- The number of readings served. -/
  reads : Nat

/-- Something done to a sink from outside. -/
inductive Sink.Act where
  /-- The file gets these contents. -/
  | write (contents : String)
  /-- The file gets one more line. -/
  | append (line : String)
  /-- The file goes away. -/
  | remove
  /-- Readings are refused from now on, or served again. -/
  | setUnreadable (unreadable : Bool)
deriving DecidableEq, Repr

namespace Sink

/-- A readable sink that has served no reading. -/
def of (path : String) (contents : Option String) : Sink :=
  ⟨path, contents, false, [], 0⟩

/-- The sink after an act. -/
def apply (s : Sink) : Act → Sink
  | .write contents => { s with contents := some contents }
  | .append line => { s with contents := some (s.contents.getD "" ++ line ++ "\n") }
  | .remove => { s with contents := none }
  | .setUnreadable unreadable => { s with unreadable }

/-- The fault of an unreadable sink. -/
def unreadableFault (path : String) : Fault :=
  (Fault.expected .permissionDenied "file is unreadable").withContext "path" path

/-- Reads the sink. A failure that was asked for comes first and does not count as served. -/
def read (s : Sink) : Tailer.Reading × Sink :=
  match s.failures with
  | fault :: rest => (.error fault, { s with failures := rest })
  | [] =>
    let s := { s with reads := s.reads + 1 }
    if s.unreadable then (.error (unreadableFault s.path), s) else (.ok s.contents, s)

end Sink

end CycleWatch.Rehearsal
