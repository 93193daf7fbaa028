import CycleWatch.Duration
/-!
# How long to wait

A policy allows a number of attempts, at least one, with a delay after each that fails. The longest
wait it allows is their product, or the longest time there is when the product is longer still.
-/
namespace CycleWatch

/-- How many snapshots to look at, and how long to sleep after each one without news. -/
structure Wait.Policy where
  /-- The number of snapshots. -/
  maxAttempts : UInt32
  /-- The delay. -/
  delay : Duration
  /-- There is at least one attempt. -/
  attempts_pos : 1 ≤ maxAttempts.toNat
deriving DecidableEq, Repr

namespace Wait.Policy

/-- A policy; no attempt at all counts as one. -/
def of (maxAttempts : UInt32) (delay : Duration) : Wait.Policy :=
  if h : 1 ≤ maxAttempts.toNat then ⟨maxAttempts, delay, h⟩ else ⟨1, delay, by decide⟩

/-- Twenty attempts, five seconds apart. -/
def standard : Wait.Policy := of 20 (5000 : UInt64)

/-- The delay in milliseconds. -/
def delayMs (p : Wait.Policy) : UInt64 :=
  p.delay.millis

/-- The longest wait. -/
def budget (p : Wait.Policy) : Duration :=
  p.delay.times p.maxAttempts.toNat

end Wait.Policy

end CycleWatch
