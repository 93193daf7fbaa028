/-!
# Whole numbers as decimal text

A numeral is an optional sign and then decimal digits, at least one; leading zeros are allowed and
nothing else is. Writing uses the fewest digits and no plus sign, and what is written reads back
(`readNat_writeNat`, `readInt_writeInt`).
-/
namespace CycleWatch.Text

/-- The value of a decimal digit. -/
def digitValue? (c : Char) : Option Nat :=
  if '0' ≤ c ∧ c ≤ '9' then some (c.toNat - 48) else none

/-- Reads digits on from the value `acc` of those before them. -/
def readDigitsFrom (acc : Nat) : List Char → Option Nat
  | [] => some acc
  | c :: rest =>
    match digitValue? c with
    | some d => readDigitsFrom (10 * acc + d) rest
    | none => none

/-- The value of a text of one or more decimal digits. -/
def readDigits : List Char → Option Nat
  | [] => none
  | c :: rest => readDigitsFrom 0 (c :: rest)

/-- A numeral without a minus sign. -/
def readNat : List Char → Option Nat
  | '+' :: rest => readDigits rest
  | cs => readDigits cs

/-- A numeral with or without a sign. -/
def readInt : List Char → Option Int
  | '-' :: rest => (readDigits rest).map fun n => -(n : Int)
  | cs => (readNat cs).map Int.ofNat

/-- The digit of value `d`, for `d` below ten. -/
def digitChar (d : Nat) : Char :=
  Char.ofNat (48 + d)

/-- A natural number in the fewest decimal digits. -/
def writeNat (n : Nat) : List Char :=
  if n < 10 then [digitChar n] else writeNat (n / 10) ++ [digitChar (n % 10)]
termination_by n

/-- An integer in the fewest decimal digits, with a minus sign if it is negative. -/
def writeInt : Int → List Char
  | .ofNat n => writeNat n
  | .negSucc n => '-' :: writeNat (n + 1)

/-- `writeNat` as a string. -/
def natText (n : Nat) : String :=
  String.ofList (writeNat n)

/-- `writeInt` as a string. -/
def intText (n : Int) : String :=
  String.ofList (writeInt n)

theorem digitValue?_digitChar {d : Nat} (h : d < 10) : digitValue? (digitChar d) = some d := by
  revert d
  decide

theorem readDigitsFrom_append (acc : Nat) (xs ys : List Char) :
    readDigitsFrom acc (xs ++ ys) = (readDigitsFrom acc xs).bind (readDigitsFrom · ys) := by
  induction xs generalizing acc with
  | nil => rfl
  | cons c rest ih =>
    simp only [List.cons_append, readDigitsFrom]
    cases digitValue? c with
    | none => rfl
    | some d => exact ih _

theorem writeNat_ne_nil (n : Nat) : writeNat n ≠ [] := by
  rw [writeNat]
  split <;> simp

theorem readDigitsFrom_writeNat (n : Nat) : readDigitsFrom 0 (writeNat n) = some n := by
  induction n using Nat.strongRecOn with
  | ind n ih =>
    rw [writeNat]
    split
    case isTrue h => simp [readDigitsFrom, digitValue?_digitChar h]
    case isFalse h =>
      rw [readDigitsFrom_append, ih (n / 10) (by omega)]
      simp only [Option.bind_some, readDigitsFrom, digitValue?_digitChar (Nat.mod_lt n (by omega))]
      congr 1
      omega

theorem readDigits_writeNat (n : Nat) : readDigits (writeNat n) = some n := by
  cases hw : writeNat n with
  | nil => exact absurd hw (writeNat_ne_nil n)
  | cons c rest => rw [readDigits, ← hw, readDigitsFrom_writeNat]

theorem writeNat_eq_cons (n : Nat) : ∃ d rest, d < 10 ∧ writeNat n = digitChar d :: rest := by
  induction n using Nat.strongRecOn with
  | ind n ih =>
    rw [writeNat]
    split
    case isTrue h => exact ⟨n, [], h, rfl⟩
    case isFalse h =>
      obtain ⟨d, rest, hd, hw⟩ := ih (n / 10) (by omega)
      exact ⟨d, rest ++ [digitChar (n % 10)], hd, by rw [hw]; rfl⟩

theorem mem_writeNat {n : Nat} {c : Char} (h : c ∈ writeNat n) : ∃ d < 10, c = digitChar d := by
  induction n using Nat.strongRecOn with
  | ind n ih =>
    rw [writeNat] at h
    split at h
    case isTrue hlt => exact ⟨n, hlt, List.mem_singleton.mp h⟩
    case isFalse hge =>
      rcases List.mem_append.mp h with h | h
      · exact ih (n / 10) (by omega) h
      · exact ⟨n % 10, by omega, List.mem_singleton.mp h⟩

theorem writeInt_ne_nil (n : Int) : writeInt n ≠ [] := by
  cases n with
  | ofNat n => exact writeNat_ne_nil n
  | negSucc n => exact List.cons_ne_nil _ _

/-- Only digits and the minus sign stand in what is written. -/
theorem mem_writeInt {n : Int} {c : Char} (h : c ∈ writeInt n) :
    c = '-' ∨ ∃ d < 10, c = digitChar d := by
  cases n with
  | ofNat n => exact .inr (mem_writeNat h)
  | negSucc n =>
    rcases List.mem_cons.mp h with rfl | h
    · exact .inl rfl
    · exact .inr (mem_writeNat h)

theorem digitChar_ne_sign {d : Nat} (h : d < 10) : digitChar d ≠ '+' ∧ digitChar d ≠ '-' := by
  revert d
  decide

theorem readNat_writeNat (n : Nat) : readNat (writeNat n) = some n := by
  obtain ⟨d, rest, hd, hw⟩ := writeNat_eq_cons n
  have hread := readDigits_writeNat n
  rw [hw] at hread ⊢
  rw [readNat]
  · exact hread
  · intro _ hc
    exact (digitChar_ne_sign hd).1 (List.cons.inj hc).1

theorem readInt_writeInt (n : Int) : readInt (writeInt n) = some n := by
  cases n with
  | ofNat n =>
    obtain ⟨d, rest, hd, hw⟩ := writeNat_eq_cons n
    have hread := readNat_writeNat n
    simp only [writeInt]
    rw [hw] at hread ⊢
    rw [readInt, hread]
    · rfl
    · intro _ hc
      exact (digitChar_ne_sign hd).2 (List.cons.inj hc).1
  | negSucc n =>
    simp only [writeInt, readInt, readDigits_writeNat]
    rfl

end CycleWatch.Text
