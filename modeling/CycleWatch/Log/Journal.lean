import CycleWatch.Json.Writer
import CycleWatch.Log.Redaction
/-!
# Loggers

A logger adds its base fields to every event; where an event has a field of the same name, the
event's own counts. A child logger has its parent's base fields and its own on top of them. A family
of loggers, a root and its descendants, shares one place where the events go: a journal of JSON
lines, which leaves out the events below its least level and conceals secrets, or a record of the
events themselves.
-/
namespace CycleWatch.Log

/-- The members of a journal line by ascending key; the time of writing comes last. -/
def lineMembers (timeMs : UInt64) (event : Event) (fields : Fields) : List (String × Json) :=
  (match event.error with
    | some e => [("error", redact e)]
    | none => []) ++
  [("event", .str event.name)] ++
  (if fields.isEmpty then [] else [("fields", .obj (redactFields fields).toList)]) ++
  [("level", .str event.level.word), ("message", .str event.message),
    ("timestampMs", number timeMs)]

/-- The fields of an event logged with base fields. -/
def mergedFields (base : Fields) (event : Event) : Fields :=
  base.merge (event.fields.getD Dict.empty)

/-- An event as a line of the journal. -/
def line (timeMs : UInt64) (base : Fields) (event : Event) : String :=
  String.ofList
    (Json.compact (.obj (lineMembers timeMs event (mergedFields base event))) ++ ['\n'])

/-- A family of loggers that writes a journal. -/
structure Journal where
  /-- The least level written. -/
  minLevel : Level
  /-- The base fields of the loggers; the root comes first. -/
  loggers : List Fields
  /-- The lines not yet taken out. -/
  lines : List String

namespace Journal

/-- A family of one logger. -/
def start (minLevel : Level) (base : Fields) : Journal :=
  ⟨minLevel, [base], []⟩

/-- Adds a child of the logger `i`. -/
def addChild (j : Journal) (i : Nat) (fields : Fields) : Journal :=
  match j.loggers[i]? with
  | some base => { j with loggers := j.loggers ++ [base.merge fields] }
  | none => j

/-- Logs an event through the logger `i`. -/
def log (j : Journal) (timeMs : UInt64) (i : Nat) (event : Event) : Journal :=
  match j.loggers[i]? with
  | some base =>
    if event.level.rank < j.minLevel.rank then j
    else { j with lines := j.lines ++ [line timeMs base event] }
  | none => j

/-- The lines written so far, and the journal without them. -/
def take (j : Journal) : List String × Journal :=
  (j.lines, { j with lines := [] })

/-- Something that is done with a family of loggers. -/
inductive Call where
  /-- A child of the logger `i` is made. -/
  | child (i : Nat) (fields : Fields)
  /-- An event is logged through the logger `i`. -/
  | log (timeMs : UInt64) (i : Nat) (event : Event)
  /-- The lines written so far are taken out. -/
  | take

/-- The lines that a call takes out, and the journal after it. -/
def perform (j : Journal) : Call → List String × Journal
  | .child i fields => ([], j.addChild i fields)
  | .log timeMs i event => ([], j.log timeMs i event)
  | .take => j.take

/-- The lines that the calls take out, in their order, and the journal after them. -/
def run (j : Journal) : List Call → List String × Journal
  | [] => ([], j)
  | call :: calls =>
    let rest := (j.perform call).2.run calls
    ((j.perform call).1 ++ rest.1, rest.2)

end Journal

/-- A family of loggers that keeps the events. -/
structure Record where
  /-- The base fields of the loggers; the root comes first. -/
  loggers : List Fields
  /-- The events logged so far, each with the fields of its logger. -/
  events : List Event

namespace Record

/-- A family of one logger without base fields. -/
def start : Record :=
  ⟨[Dict.empty], []⟩

/-- Adds a child of the logger `i`. -/
def addChild (r : Record) (i : Nat) (fields : Fields) : Record :=
  match r.loggers[i]? with
  | some base => { r with loggers := r.loggers ++ [base.merge fields] }
  | none => r

/-- The event with the base fields of its logger, if that has any. -/
def complete (base : Fields) (event : Event) : Event :=
  if base.isEmpty then event else { event with fields := some (mergedFields base event) }

/-- Logs an event through the logger `i`. -/
def log (r : Record) (i : Nat) (event : Event) : Record :=
  match r.loggers[i]? with
  | some base => { r with events := r.events ++ [complete base event] }
  | none => r

/-- The first event of a name. -/
def find? (r : Record) (name : String) : Option Event :=
  r.events.find? (·.name == name)

/-- The number of events at a level. -/
def countAt (r : Record) (level : Level) : Nat :=
  r.events.countP (·.level = level)

end Record

end CycleWatch.Log
