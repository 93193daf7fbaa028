/-!
# Numbers of a fixed width

Metric values are signed numbers of 64 bits; versions and times are unsigned ones of 64 bits and
attempts of 32. A whole number outside a width has no counterpart in it: it is never wrapped or cut.
-/
namespace CycleWatch.Word

/-- The signed 64-bit number equal to `n`, if there is one. -/
def int64? (n : Int) : Option Int64 :=
  if Int64.minValue.toInt ≤ n ∧ n ≤ Int64.maxValue.toInt then some (Int64.ofInt n) else none

/-- The unsigned 64-bit number equal to `n`, if there is one. -/
def uint64? (n : Int) : Option UInt64 :=
  if 0 ≤ n ∧ n < UInt64.size then some (UInt64.ofNat n.toNat) else none

/-- The unsigned 32-bit number equal to `n`, if there is one. -/
def uint32? (n : Int) : Option UInt32 :=
  if 0 ≤ n ∧ n < UInt32.size then some (UInt32.ofNat n.toNat) else none

/-- The number after `n`, or `n` itself when it is the last one of its width. -/
def succ64 (n : UInt64) : UInt64 :=
  if n.toNat + 1 < UInt64.size then n + 1 else n

/-- The time from `start` to `now`, nothing when `now` is the earlier one. -/
def elapsed (start now : UInt64) : UInt64 :=
  if start ≤ now then now - start else 0

theorem minValue_toInt : Int64.minValue.toInt = -9223372036854775808 := by decide

theorem maxValue_toInt : Int64.maxValue.toInt = 9223372036854775807 := by decide

theorem int64?_toInt (n : Int64) : int64? n.toInt = some n := by
  have hlo := Int64.le_toInt n
  have hhi := Int64.toInt_lt n
  rw [int64?, minValue_toInt, maxValue_toInt, if_pos (by omega)]
  simp

theorem toInt_of_int64? {n : Int} {w : Int64} (h : int64? n = some w) : w.toInt = n := by
  rw [int64?, minValue_toInt, maxValue_toInt] at h
  split at h
  case isTrue hn =>
    cases h
    exact Int64.toInt_ofInt_of_le (by omega) (by omega)
  case isFalse => cases h

theorem uint64?_toNat (n : UInt64) : uint64? n.toNat = some n := by
  have hhi := UInt64.toNat_lt n
  rw [uint64?, if_pos ⟨by omega, by unfold UInt64.size; omega⟩]
  simp

theorem uint64?_of_lt {n : Nat} (h : n < UInt64.size) : uint64? n = some (UInt64.ofNat n) := by
  rw [uint64?, if_pos ⟨by omega, by omega⟩, Int.toNat_natCast]

theorem uint64?_of_le {n : Nat} (h : UInt64.size ≤ n) : uint64? n = none := by
  rw [uint64?, if_neg (by omega)]

theorem toNat_of_uint64? {n : Nat} {w : UInt64} (h : uint64? n = some w) : w.toNat = n := by
  rw [uint64?] at h
  split at h
  case isTrue hn =>
    cases h
    exact UInt64.toNat_ofNat_of_lt' (by omega)
  case isFalse => cases h

theorem toNat_of_uint32? {n : Nat} {w : UInt32} (h : uint32? n = some w) : w.toNat = n := by
  rw [uint32?] at h
  split at h
  case isTrue hn =>
    cases h
    exact UInt32.toNat_ofNat_of_lt' (by omega)
  case isFalse => cases h

theorem uint32?_toNat (n : UInt32) : uint32? n.toNat = some n := by
  have hhi := UInt32.toNat_lt n
  rw [uint32?, if_pos ⟨by omega, by unfold UInt32.size; omega⟩]
  simp

theorem toNat_elapsed (start now : UInt64) :
    (elapsed start now).toNat = now.toNat - start.toNat := by
  unfold elapsed
  split
  case isTrue h => exact UInt64.toNat_sub_of_le _ _ h
  case isFalse h =>
    have hlt : now.toNat < start.toNat := by simpa [UInt64.le_iff_toNat_le] using h
    simp
    omega

theorem toNat_succ64 (n : UInt64) : (succ64 n).toNat = min (n.toNat + 1) (UInt64.size - 1) := by
  have hhi := UInt64.toNat_lt n
  unfold succ64 UInt64.size
  split
  case isTrue h =>
    rw [UInt64.toNat_add]
    simp
    omega
  case isFalse h => omega

end CycleWatch.Word
