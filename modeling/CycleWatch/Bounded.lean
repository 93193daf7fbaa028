import CycleWatch.Text.Decimal
/-!
# Numbers kept within a range

A `Bounded lo hi` is a number known to lie between `lo` and `hi`, both included. `Bounded.of` admits
exactly those numbers and names the range to the others.
-/
namespace CycleWatch

/-- A number from `lo` to `hi`. -/
structure Bounded (lo hi : Nat) where
  /-- The number itself. -/
  val : Nat
  /-- It is not below the range. -/
  lo_le : lo ≤ val
  /-- It is not above the range. -/
  le_hi : val ≤ hi
deriving DecidableEq

/-- A number outside the range it has to lie in. -/
structure OutOfRange where
  /-- The number. -/
  value : Nat
  /-- The least number of the range. -/
  least : Nat
  /-- The greatest number of the range. -/
  greatest : Nat
deriving DecidableEq

/-- The number and the range it misses, in words. -/
def OutOfRange.message (e : OutOfRange) : String :=
  "value " ++ Text.natText e.value ++ " is outside [" ++ Text.natText e.least ++ ", " ++
    Text.natText e.greatest ++ "]"

/-- The number as one of the range, or how it misses the range. -/
def Bounded.of (lo hi n : Nat) : Except OutOfRange (Bounded lo hi) :=
  if h : lo ≤ n ∧ n ≤ hi then .ok ⟨n, h.1, h.2⟩ else .error ⟨n, lo, hi⟩

theorem Bounded.of_eq_ok_iff {lo hi n : Nat} {b : Bounded lo hi} :
    Bounded.of lo hi n = .ok b ↔ b.val = n := by
  unfold Bounded.of
  constructor
  · intro h
    split at h
    · cases h; rfl
    · cases h
  · rintro rfl
    rw [dif_pos ⟨b.lo_le, b.le_hi⟩]

theorem Bounded.of_eq_error_iff {lo hi n : Nat} {e : OutOfRange} :
    Bounded.of lo hi n = .error e ↔ e = ⟨n, lo, hi⟩ ∧ ¬(lo ≤ n ∧ n ≤ hi) := by
  unfold Bounded.of
  split
  case isTrue h => simp [h]
  case isFalse h => simp [h, eq_comm]

end CycleWatch
