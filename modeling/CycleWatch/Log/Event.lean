import CycleWatch.Dict
import CycleWatch.Json
/-!
# Log events

An event has a stable name, a level, a message, and maybe named fields and an error.
-/
namespace CycleWatch.Log

/-- How much an event matters, least first. -/
inductive Level where
  | debug | info | warn | error
deriving DecidableEq, Repr

namespace Level

/-- The word for a level. -/
def word : Level → String
  | .debug => "debug"
  | .info => "info"
  | .warn => "warn"
  | .error => "error"

/-- The place of a level among the four. -/
def rank : Level → Nat
  | .debug => 0
  | .info => 1
  | .warn => 2
  | .error => 3

/-- All four levels, least first. -/
def all : List Level := [.debug, .info, .warn, .error]

end Level

/-- Named values that belong to an event. -/
abbrev Fields := Dict Json

/-- Something that happened. -/
structure Event where
  /-- Its stable name. -/
  name : String
  /-- How much it matters. -/
  level : Level
  /-- What happened, for people. -/
  message : String
  /-- What is known about it. -/
  fields : Option Fields
  /-- The error that goes with it. -/
  error : Option Json

/-- An event without an error. -/
def Event.plain (level : Level) (name message : String) (fields : Option Fields) : Event :=
  ⟨name, level, message, fields, none⟩

/-- A 64-bit number as a field. -/
def number (n : UInt64) : Json :=
  .int n.toNat

end CycleWatch.Log
