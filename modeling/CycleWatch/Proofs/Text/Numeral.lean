import CycleWatch.Text.Decimal
import Mathlib.Data.List.Induction
import Mathlib.Data.Nat.Digits.Defs

/-!
# The language of numerals

A numeral is an optional sign and then decimal digits, at least one; its digits, the last one first, are
those of its number in base ten. A text reads as a number exactly if it is a numeral for that number
(`readInt_eq_some_iff`); where no minus sign is allowed, if it is one without that sign
(`readNat_eq_some_iff`).
-/

namespace CycleWatch.Text

/-- The number that decimal digits stand for. -/
def digitsValue (ds : List Char) : Nat :=
  Nat.ofDigits 10 (ds.reverse.map fun d => d.toNat - '0'.toNat)

/-- The text is a numeral for the number. -/
inductive Numeral : List Char → Int → Prop
  | plain {ds : List Char} : ds ≠ [] → (∀ d ∈ ds, d.isDigit = true) → Numeral ds (digitsValue ds)
  | plus {ds : List Char} : ds ≠ [] → (∀ d ∈ ds, d.isDigit = true) →
      Numeral ('+' :: ds) (digitsValue ds)
  | minus {ds : List Char} : ds ≠ [] → (∀ d ∈ ds, d.isDigit = true) →
      Numeral ('-' :: ds) (-(digitsValue ds : Int))

/-- The text is a numeral without a minus sign for the number. -/
inductive Unsigned : List Char → Nat → Prop
  | plain {ds : List Char} : ds ≠ [] → (∀ d ∈ ds, d.isDigit = true) → Unsigned ds (digitsValue ds)
  | plus {ds : List Char} : ds ≠ [] → (∀ d ∈ ds, d.isDigit = true) →
      Unsigned ('+' :: ds) (digitsValue ds)

variable {ds cs : List Char} {c : Char}

/-! ## Digits -/

theorem digitValue?_of_isDigit (h : c.isDigit = true) : digitValue? c = some (c.toNat - '0'.toNat) := by
  have hrange : '0' ≤ c ∧ c ≤ '9' := by
    simpa [Char.isDigit, Char.le_def] using h
  rw [digitValue?, if_pos hrange]
  rfl

theorem digitValue?_of_not_isDigit (h : c.isDigit = false) : digitValue? c = none := by
  have hrange : ¬('0' ≤ c ∧ c ≤ '9') := by
    rintro ⟨hlow, hhigh⟩
    have hdigit : c.isDigit = true := by
      simpa [Char.isDigit, Char.le_def] using And.intro hlow hhigh
    simp [h] at hdigit
  rw [digitValue?, if_neg hrange]

theorem digitsValue_concat (ds : List Char) (d : Char) :
    digitsValue (ds ++ [d]) = 10 * digitsValue ds + (d.toNat - '0'.toNat) := by
  simp only [digitsValue, List.reverse_append, List.reverse_singleton, List.cons_append,
    List.nil_append, List.map_cons, Nat.ofDigits_cons]
  omega

theorem readDigitsFrom_eq (ds : List Char) :
    readDigitsFrom 0 ds = if ds.all Char.isDigit then some (digitsValue ds) else none := by
  -- The last digit has the least weight, so the digits are taken off at their end.
  induction ds using List.reverseRecOn with
  | nil => rfl
  | append_singleton ds d ih =>
      rw [readDigitsFrom_append, ih]
      by_cases hds : ds.all Char.isDigit = true
      · cases hd : d.isDigit with
        | true => simp [readDigitsFrom, digitValue?_of_isDigit hd, digitsValue_concat, hds, hd]
        | false => simp [readDigitsFrom, digitValue?_of_not_isDigit hd, hds, hd]
      · simp [hds]

theorem readDigits_eq_some_iff {n : Nat} :
    readDigits ds = some n ↔ ds ≠ [] ∧ (∀ d ∈ ds, d.isDigit = true) ∧ n = digitsValue ds := by
  cases ds with
  | nil => simp [readDigits]
  | cons d rest =>
      rw [readDigits, readDigitsFrom_eq]
      by_cases h : (d :: rest).all Char.isDigit = true
      · have hall := List.all_eq_true.mp h
        simp only [h, if_true, Option.some.injEq, ne_eq, reduceCtorEq, not_false_eq_true, true_and]
        exact ⟨fun hn => ⟨hall, hn.symm⟩, fun hn => hn.2.symm⟩
      · have hnone := fun hall => h (List.all_eq_true.mpr hall)
        simp only [h]
        simp only [Bool.false_eq_true, if_false, reduceCtorEq, false_iff]
        exact fun hn => hnone hn.2.1

/-! ## Signs -/

theorem readNat_of_unsigned (h : ∀ rest, cs ≠ '+' :: rest) : readNat cs = readDigits cs := by
  rw [readNat]
  exact h

theorem readInt_of_unsigned (h : ∀ rest, cs ≠ '-' :: rest) :
    readInt cs = (readNat cs).map Int.ofNat := by
  rw [readInt]
  exact h

theorem readInt_minus (cs : List Char) :
    readInt ('-' :: cs) = (readDigits cs).map fun n : Nat => -(n : Int) := by
  rw [readInt]
  cases readDigits cs <;> rfl

theorem ne_sign_of_isDigit (h : ∀ d ∈ ds, d.isDigit = true) (hc : c.isDigit = false) :
    ∀ rest, ds ≠ c :: rest := by
  rintro rest rfl
  simp [hc] at h

theorem readInt_of_numeral {n : Int} (h : Numeral cs n) : readInt cs = some n := by
  cases h with
  | plain hne hdigits =>
      have hread := readDigits_eq_some_iff.mpr ⟨hne, hdigits, rfl⟩
      rw [readInt_of_unsigned (ne_sign_of_isDigit hdigits (by decide)),
        readNat_of_unsigned (ne_sign_of_isDigit hdigits (by decide)), hread]
      rfl
  | plus hne hdigits =>
      have hread := readDigits_eq_some_iff.mpr ⟨hne, hdigits, rfl⟩
      rw [readInt_of_unsigned (by simp), readNat, hread]
      rfl
  | minus hne hdigits =>
      have hread := readDigits_eq_some_iff.mpr ⟨hne, hdigits, rfl⟩
      rw [readInt_minus, hread, Option.map_some]

theorem unsigned_of_readNat {n : Nat} (h : readNat cs = some n) : Unsigned cs n := by
  unfold readNat at h
  split at h
  · obtain ⟨hne, hdigits, rfl⟩ := readDigits_eq_some_iff.mp h
    exact .plus hne hdigits
  · obtain ⟨hne, hdigits, rfl⟩ := readDigits_eq_some_iff.mp h
    exact .plain hne hdigits

theorem Unsigned.readNat_eq {n : Nat} (h : Unsigned cs n) : readNat cs = some n := by
  cases h with
  | plain hne hdigits =>
      rw [readNat_of_unsigned (ne_sign_of_isDigit hdigits (by decide))]
      exact readDigits_eq_some_iff.mpr ⟨hne, hdigits, rfl⟩
  | plus hne hdigits =>
      rw [readNat]
      exact readDigits_eq_some_iff.mpr ⟨hne, hdigits, rfl⟩

theorem readNat_eq_some_iff {n : Nat} : readNat cs = some n ↔ Unsigned cs n :=
  ⟨unsigned_of_readNat, Unsigned.readNat_eq⟩

theorem Unsigned.numeral {n : Nat} (h : Unsigned cs n) : Numeral cs n := by
  cases h with
  | plain hne hdigits => exact .plain hne hdigits
  | plus hne hdigits => exact .plus hne hdigits

theorem numeral_of_readInt {n : Int} (h : readInt cs = some n) : Numeral cs n := by
  by_cases hminus : ∃ rest, cs = '-' :: rest
  · obtain ⟨rest, rfl⟩ := hminus
    rw [readInt_minus] at h
    obtain ⟨m, hm, rfl⟩ := Option.map_eq_some_iff.mp h
    obtain ⟨hne, hdigits, rfl⟩ := readDigits_eq_some_iff.mp hm
    exact .minus hne hdigits
  · rw [readInt_of_unsigned fun rest hrest => hminus ⟨rest, hrest⟩] at h
    obtain ⟨m, hm, rfl⟩ := Option.map_eq_some_iff.mp h
    exact (unsigned_of_readNat hm).numeral

theorem readInt_eq_some_iff {n : Int} : readInt cs = some n ↔ Numeral cs n :=
  ⟨numeral_of_readInt, readInt_of_numeral⟩

end CycleWatch.Text
