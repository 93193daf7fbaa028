import CycleWatch.Fault
/-!
# Sleeping until called off

A sleep that is called off before it begins is refused; one that is called off before its time is
over is interrupted.
-/
namespace CycleWatch.Clock

/-- The name of a sleep in the context of its faults. -/
def operation : String := "clock.sleep"

/-- The fault of a sleep that was called off before it began. -/
def refused : Fault :=
  Fault.calledOff operation

/-- The fault of a sleep that was called off while it went on. -/
def interrupted : Fault :=
  (Fault.cancelled "sleep cancelled").withContext "operation" operation

/-- How a sleep of so many milliseconds ends, when it was called off beforehand or is called off after
some milliseconds. -/
def sleep (durationMs : Nat) (calledOffBefore : Bool) (calledOffAfterMs : Option Nat) :
    Except Fault Unit :=
  if calledOffBefore then .error refused
  else
    match calledOffAfterMs with
    | none => .ok ()
    | some ms => if ms < durationMs then .error interrupted else .ok ()

end CycleWatch.Clock
