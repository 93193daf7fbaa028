import CycleWatch.Duration
import CycleWatch.Word
/-!
# Spans of time in words

A span is kept in two words, its whole seconds and the nanoseconds beyond them (`nanos_inWords`). A
multiple worked out on the words, the nanoseconds first and their whole seconds carried over, is the
exact multiple, and no word overflows but for a multiple that is longer than the longest span
(`times?_inWords`).
-/
namespace CycleWatch

namespace Duration

/-- A span in words: the whole seconds and the nanoseconds beyond them. -/
structure Words where
  /-- The whole seconds. -/
  seconds : UInt64
  /-- The nanoseconds beyond them. -/
  nanos : UInt32
deriving DecidableEq, Repr

/-- The span in words. -/
def inWords (d : Duration) : Words :=
  ⟨UInt64.ofNat d.seconds, UInt32.ofNat d.subsecondNanos⟩

/-- The words of the span `n` times over, unless the seconds overflow. -/
def Words.times? (n : UInt32) (w : Words) : Option Words :=
  let nanos := w.nanos.toUInt64 * n.toUInt64
  (Word.uint64? (w.seconds.toNat * n.toNat : Nat)).bind fun seconds =>
    (Word.uint64? (seconds.toNat + (nanos / 1000000000).toNat : Nat)).map fun seconds =>
      ⟨seconds, (nanos % 1000000000).toUInt32⟩

variable (d : Duration)

theorem toNat_seconds_inWords : d.inWords.seconds.toNat = d.nanos / 1000000000 := by
  have hle := d.le_longest
  unfold longestNanos UInt64.size at hle
  exact UInt64.toNat_ofNat_of_lt' (by unfold seconds UInt64.size; omega)

theorem toNat_nanos_inWords : d.inWords.nanos.toNat = d.nanos % 1000000000 :=
  UInt32.toNat_ofNat_of_lt' (by unfold subsecondNanos UInt32.size; omega)

/-- The words are those of the span and of no other. -/
theorem nanos_inWords :
    d.nanos = d.inWords.seconds.toNat * 1000000000 + d.inWords.nanos.toNat := by
  rw [toNat_seconds_inWords, toNat_nanos_inWords, Nat.div_add_mod']

/-- The product of two half words fits into a word. -/
theorem toNat_mul_toUInt64 (m n : UInt32) :
    (m.toUInt64 * n.toUInt64).toNat = m.toNat * n.toNat := by
  have hm : m.toNat ≤ UInt32.size - 1 := Nat.le_sub_one_of_lt (UInt32.toNat_lt m)
  have hn : n.toNat ≤ UInt32.size - 1 := Nat.le_sub_one_of_lt (UInt32.toNat_lt n)
  have hlt : m.toNat * n.toNat < UInt64.size :=
    Nat.lt_of_le_of_lt (Nat.mul_le_mul hm hn) (by decide)
  rw [UInt64.toNat_mul, UInt32.toNat_toUInt64, UInt32.toNat_toUInt64]
  exact Nat.mod_eq_of_lt hlt

/-- So many seconds and nanoseconds, be the latter more than a second, are no longer than the longest
span exactly if the whole seconds fit into their word. -/
theorem le_longestNanos_iff {seconds nanos : Nat} :
    seconds * 1000000000 + nanos ≤ longestNanos ↔
      seconds + nanos / 1000000000 < UInt64.size := by
  unfold longestNanos UInt64.size
  omega

theorem mul_nanos_eq (n : Nat) :
    n * d.nanos =
      d.inWords.seconds.toNat * n * 1000000000 + d.inWords.nanos.toNat * n := by
  calc n * d.nanos
      = (d.inWords.seconds.toNat * 1000000000 + d.inWords.nanos.toNat) * n := by
        rw [← nanos_inWords, Nat.mul_comm]
    _ = d.inWords.seconds.toNat * n * 1000000000 + d.inWords.nanos.toNat * n := by
        rw [Nat.add_mul, Nat.mul_right_comm]

theorem times?_inWords (n : UInt32) :
    d.inWords.times? n =
      if n.toNat * d.nanos ≤ longestNanos then some (d.times n.toNat).inWords else none := by
  have hproduct := d.mul_nanos_eq n.toNat
  have hcarry := toNat_mul_toUInt64 d.inWords.nanos n
  have hbillion : (1000000000 : UInt64).toNat = 1000000000 := rfl
  simp only [Words.times?, UInt64.toNat_div, hcarry, hbillion]
  generalize d.inWords.seconds.toNat * n.toNat = seconds at *
  generalize d.inWords.nanos.toNat * n.toNat = nanos at *
  by_cases hfits : seconds + nanos / 1000000000 < UInt64.size
  case neg =>
    rw [if_neg (by rwa [hproduct, le_longestNanos_iff])]
    by_cases hseconds : seconds < UInt64.size
    · rw [Word.uint64?_of_lt hseconds, Option.bind_some, UInt64.toNat_ofNat_of_lt' hseconds,
        Word.uint64?_of_le (Nat.not_lt.mp hfits), Option.map_none]
    · rw [Word.uint64?_of_le (Nat.not_lt.mp hseconds), Option.bind_none]
  have hseconds : seconds < UInt64.size := Nat.lt_of_le_of_lt (Nat.le_add_right _ _) hfits
  have hle : n.toNat * d.nanos ≤ longestNanos := by rwa [hproduct, le_longestNanos_iff]
  have htimes : (d.times n.toNat).nanos = seconds * 1000000000 + nanos :=
    (Nat.min_eq_left hle).trans hproduct
  rw [if_pos hle, Word.uint64?_of_lt hseconds, Option.bind_some, UInt64.toNat_ofNat_of_lt' hseconds,
    Word.uint64?_of_lt hfits, Option.map_some, Option.some_inj, Words.mk.injEq]
  refine ⟨UInt64.toNat_inj.mp ?_, UInt32.toNat_inj.mp ?_⟩
  · rw [UInt64.toNat_ofNat_of_lt' hfits, toNat_seconds_inWords, htimes]
    omega
  · rw [UInt64.toNat_toUInt32, UInt64.toNat_mod, hcarry, hbillion, toNat_nanos_inWords, htimes]
    omega

end Duration

end CycleWatch
