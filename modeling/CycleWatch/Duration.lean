import CycleWatch.Binary64
/-!
# Spans of time

A span of time is a whole number of nanoseconds. Clocks and logs show its whole milliseconds, in a word
of 64 bits, which is full when there are more.
-/
namespace CycleWatch

/-- The nanoseconds of the longest span of time, a nanosecond short of 2 ^ 64 seconds. -/
def Duration.longestNanos : Nat := UInt64.size * 1000000000 - 1

/-- A span of time in nanoseconds. -/
structure Duration where
  /-- The nanoseconds. -/
  nanos : Nat
  /-- It is no longer than the longest span. -/
  le_longest : nanos ≤ Duration.longestNanos
deriving DecidableEq, Repr

namespace Duration

/-- A span of whole milliseconds. -/
def ofMillis (ms : UInt64) : Duration :=
  ⟨ms.toNat * 1000000, by
    have := UInt64.toNat_lt ms
    unfold longestNanos UInt64.size
    omega⟩

/-- A number where a span is asked for counts milliseconds. -/
instance : Coe UInt64 Duration := ⟨ofMillis⟩

/-- The whole milliseconds, or the last number of its width when there are more. -/
def millis (d : Duration) : UInt64 :=
  UInt64.ofNat (min (d.nanos / 1000000) (UInt64.size - 1))

/-- The span `n` times over, or the longest span when that is longer. -/
def times (n : Nat) (d : Duration) : Duration :=
  ⟨min (n * d.nanos) longestNanos, Nat.min_le_right _ _⟩

/-- The whole seconds. -/
def seconds (d : Duration) : Nat :=
  d.nanos / 1000000000

/-- The nanoseconds beyond the whole seconds. -/
def subsecondNanos (d : Duration) : Nat :=
  d.nanos % 1000000000

/-- The seconds with their fraction, in double precision: the whole seconds and the fraction are
rounded first, and then their sum. -/
def inSeconds (d : Duration) : Binary64 :=
  (Binary64.ofRatio d.seconds 1).add (Binary64.ofRatio d.subsecondNanos 1000000000)

/-- The exact length of spans altogether, in nanoseconds. -/
def totalNanos (ds : List Duration) : Nat :=
  ds.foldr (fun d total => d.nanos + total) 0

theorem toNat_millis (d : Duration) :
    d.millis.toNat = min (d.nanos / 1000000) (UInt64.size - 1) :=
  UInt64.toNat_ofNat_of_lt' (by unfold UInt64.size; omega)

@[simp] theorem millis_ofMillis (ms : UInt64) : (ofMillis ms).millis = ms := by
  have hlt := UInt64.toNat_lt ms
  apply UInt64.toNat_inj.mp
  rw [toNat_millis, ofMillis, Nat.mul_div_cancel _ (by decide)]
  exact Nat.min_eq_left (by unfold UInt64.size; omega)

theorem totalNanos_replicate (n : Nat) (d : Duration) :
    totalNanos (List.replicate n d) = n * d.nanos := by
  induction n with
  | zero => rw [Nat.zero_mul]; rfl
  | succ n ih =>
      have hfirst : totalNanos (List.replicate (n + 1) d) =
          d.nanos + totalNanos (List.replicate n d) := rfl
      rw [hfirst, ih, Nat.succ_mul, Nat.add_comm]

end Duration

end CycleWatch
