import CycleWatch.Text.Decimal
/-!
# Quantities in double precision and their shortest decimal text

A positive quantity is rounded to a mantissa of 53 bits times a power of two, a half going to the even
mantissa. It is written in the fewest decimal digits that still round to it, those nearest to it if
there is a choice; the text is positional, without an exponent and without a fraction that is zero.
-/
namespace CycleWatch

/-- The least mantissa of 53 bits. -/
def Binary64.leastMantissa : Nat := 1 <<< 52

/-- A quantity `mantissa · 2 ^ exponent` of at most 53 bits. -/
structure Binary64 where
  /-- Zero, or a number from 2 ^ 52 to 2 ^ 53 - 1. -/
  mantissa : Nat
  /-- The power of two that it counts. -/
  exponent : Int
deriving DecidableEq, Repr

namespace Binary64

/-- The quotient rounded to the nearest whole number, a half going to the even one. -/
def roundQuotient (num den : Nat) : Nat :=
  let q := num / den
  let r := num % den
  if 2 * r < den then q
  else if den < 2 * r then q + 1
  else if q % 2 = 0 then q else q + 1

/-- Numerator and denominator of `num / den` counted in units of `2 ^ q`. -/
def inUnits (num den : Nat) (q : Int) : Nat × Nat :=
  match q with
  | .ofNat n => (num, den <<< n)
  | .negSucc n => (num <<< (n + 1), den)

/-- The quantity nearest to `num / den`. -/
def ofRatio (num den : Nat) : Binary64 :=
  if num = 0 then ⟨0, 0⟩
  else
    let low : Int := (Nat.log2 num : Int) - Nat.log2 den - 53
    let q :=
      if 2 * leastMantissa ≤ (inUnits num den low).1 / (inUnits num den low).2 then low + 1 else low
    let m := roundQuotient (inUnits num den q).1 (inUnits num den q).2
    if m = 2 * leastMantissa then ⟨leastMantissa, q + 1⟩ else ⟨m, q⟩

/-- Numerator and denominator of the quantity `m · 2 ^ q`. -/
def ratio (m : Nat) (q : Int) : Nat × Nat :=
  match q with
  | .ofNat n => (m <<< n, 1)
  | .negSucc n => (m, 1 <<< (n + 1))

/-- The quantity nearest to the sum. -/
def add (a b : Binary64) : Binary64 :=
  let (n, d) := ratio a.mantissa a.exponent
  let (n', d') := ratio b.mantissa b.exponent
  ofRatio (n * d' + n' * d) (d * d')

/-- Whether `num / den` rounds to the quantity. The quantities next to it are one unit away, but the
one below a power of two only half a unit; the points half-way belong to an even mantissa. -/
def roundsTo (a : Binary64) (num den : Nat) : Bool :=
  let (n, d) := ratio 1 (a.exponent - 2)
  let low := if a.mantissa = leastMantissa then 4 * a.mantissa - 1 else 4 * a.mantissa - 2
  let high := 4 * a.mantissa + 2
  if a.mantissa % 2 = 0 then low * n * den ≤ num * d && num * d ≤ high * n * den
  else low * n * den < num * d && num * d < high * n * den

/-- The least `j` for which `num * 10 ^ j` is not below `den`. -/
def leadingShift (num den : Nat) : Nat :=
  if 0 < num ∧ num < den then leadingShift (num * 10) den + 1 else 0
termination_by den - num
decreasing_by omega

/-- The place of the first digit of `num / den`, zero for the units. -/
def leadingPlace (num den : Nat) : Int :=
  if den ≤ num then ((Text.writeNat (num / den)).length : Int) - 1
  else -(leadingShift num den : Int)

/-- Numerator and denominator of `d · 10 ^ k`. -/
def decimalRatio (d : Nat) (k : Int) : Nat × Nat :=
  match k with
  | .ofNat n => (d * Nat.pow 10 n, 1)
  | .negSucc n => (d, Nat.pow 10 (n + 1))

/-- The decimal of `count` digits that rounds to the quantity, if there is one: its digits and the
place of the last one. Of the two next to the quantity the nearer one counts, and the greater one
when they are equally near. -/
def decimalOf (a : Binary64) (count : Nat) : Option (Nat × Int) :=
  let (n, d) := ratio a.mantissa a.exponent
  let k := leadingPlace n d - count + 1
  let (n', d') := match k with
    | .ofNat j => (n, d * Nat.pow 10 j)
    | .negSucc j => (n * Nat.pow 10 (j + 1), d)
  let below := n' / d'
  let hits (x : Nat) : Bool := roundsTo a (decimalRatio x k).1 (decimalRatio x k).2
  match hits below, hits (below + 1) with
  | true, true => if 2 * (n' % d') < d' then some (below, k) else some (below + 1, k)
  | true, false => some (below, k)
  | false, true => some (below + 1, k)
  | false, false => none

/-- The digits of a decimal and the place of the last one, in the fewest digits. Seventeen digits
always suffice. -/
def shortest (a : Binary64) : Nat × Int :=
  if a.mantissa = 0 then (0, 0)
  else ((List.range 17).findSome? fun i => decimalOf a (i + 1)).getD (0, 0)

/-- The decimal `d · 10 ^ k` in positional notation. -/
def positional (d : Nat) (k : Int) : List Char :=
  match k with
  | .ofNat n => Text.writeNat d ++ (if d = 0 then [] else List.replicate n '0')
  | .negSucc n =>
    let digits := Text.writeNat d
    let padded := List.replicate (n + 2 - digits.length) '0' ++ digits
    padded.take (padded.length - (n + 1)) ++ '.' :: padded.drop (padded.length - (n + 1))

/-- The shortest decimal text of the quantity. -/
def text (a : Binary64) : String :=
  let (d, k) := shortest a
  String.ofList (positional d k)

end Binary64

end CycleWatch
