import CycleWatch.Snapshot
import CycleWatch.Wait.Policy
/-!
# The state of a wait

A wait polls until it sees news, runs out of attempts or is called off. Looking at a snapshot is a
step of its own, so that the count of attempts does not depend on any clock.
-/
namespace CycleWatch.Wait

/-- The state of one wait. -/
inductive State where
  /-- About to look at the snapshot of this number, counted from one. -/
  | polling (attempt : UInt32)
  /-- News has been seen. -/
  | succeeded (snapshot : Snapshot)
  /-- So many attempts were made without news. -/
  | timedOut (attempts : UInt32)
  /-- The wait was called off during this attempt. -/
  | cancelled (attempt : UInt32)
deriving DecidableEq, Repr

namespace State

/-- The first attempt is about to be made. -/
def start : State := .polling 1

/-- Whether a snapshot has a line that is new to the baseline. -/
def isNews (baseline : Baseline) (s : Snapshot) : Bool :=
  s.hasLine && baseline.accepts s.version

/-- Looks at a snapshot: news ends the wait with success, and the last attempt without news ends it
with a timeout. A wait that has ended stays as it is. -/
def observe (baseline : Baseline) (policy : Policy) (snapshot : Snapshot) : State → State
  | .polling attempt =>
    if isNews baseline snapshot then .succeeded snapshot
    else if policy.maxAttempts ≤ attempt then .timedOut attempt
    else .polling (attempt + 1)
  | s => s

/-- Calls the wait off during an attempt. Success and an earlier cancellation stay as they are. -/
def cancel (attempt : UInt32) : State → State
  | .polling _ | .timedOut _ => .cancelled attempt
  | s => s

/-- Whether the wait has ended. -/
def isTerminal : State → Bool
  | .polling _ => false
  | _ => true

end State

end CycleWatch.Wait
