import CycleWatch.Json.Reader
import CycleWatch.Json.Writer
import CycleWatch.Proofs.Text.Pieces
/-!
# Numbers and texts read back

A number that was written reads back when nothing follows that would go on with it, a whole one as
itself (`readNumber_writeInt`, `readNumber_writeDecimal`), and a text whatever follows it
(`readText_writeText`).
-/
namespace CycleWatch.Json

/-! ## Numbers -/

/-- What follows a number does not go on with it. -/
def EndsNumber (rest : List Char) : Prop :=
  ∀ c ∈ rest.head?, isDigit c = false ∧ c ≠ '.' ∧ c ≠ 'e' ∧ c ≠ 'E'

variable {rest : List Char}

theorem isDigit_digitChar {d : Nat} (h : d < 10) : isDigit (Text.digitChar d) = true := by
  rw [isDigit, Text.digitValue?_digitChar h]
  rfl

theorem isDigit_of_mem_writeNat {n : Nat} {c : Char} (h : c ∈ Text.writeNat n) :
    isDigit c = true := by
  obtain ⟨d, hd, rfl⟩ := Text.mem_writeNat h
  exact isDigit_digitChar hd

/-- Only zero is written with a zero in front. -/
theorem head_writeNat {n : Nat} (hn : n ≠ 0) :
    ∃ d tail, d < 10 ∧ Text.digitChar d ≠ '0' ∧ Text.writeNat n = Text.digitChar d :: tail := by
  induction n using Nat.strongRecOn with
  | ind n ih =>
    rw [Text.writeNat]
    split
    case isTrue hlt =>
      have hne : ∀ d < 10, d ≠ 0 → Text.digitChar d ≠ '0' := by decide
      exact ⟨n, [], hlt, hne n hlt hn, rfl⟩
    case isFalse hge =>
      obtain ⟨d, tail, hd, hzero, hw⟩ := ih (n / 10) (by omega) (by omega)
      exact ⟨d, tail ++ [Text.digitChar (n % 10)], hd, hzero, by rw [hw]; rfl⟩

/-- What follows digits does not go on with them. -/
def EndsDigits (rest : List Char) : Prop :=
  ∀ c ∈ rest.head?, isDigit c = false

theorem takeDigits_append {digits : List Char} (hdigits : ∀ c ∈ digits, isDigit c = true)
    (h : EndsDigits rest) : takeDigits (digits ++ rest) = (digits, rest) := by
  have hcut := Text.takeWhile_dropWhile_append hdigits h
  rw [takeDigits, hcut.1, hcut.2]

theorem takeDigits_writeNat (n : Nat) (h : EndsDigits rest) :
    takeDigits (Text.writeNat n ++ rest) = (Text.writeNat n, rest) :=
  takeDigits_append (fun _ => isDigit_of_mem_writeNat) h

theorem readWhole_writeNat (n : Nat) (h : EndsDigits rest) :
    readWhole (Text.writeNat n ++ rest) = some (Text.writeNat n, rest) := by
  by_cases hn : n = 0
  · subst hn
    have hw : Text.writeNat 0 = ['0'] := by simp [Text.writeNat, Text.digitChar]
    rw [hw]
    rfl
  · obtain ⟨d, tail, -, hne, hw⟩ := head_writeNat hn
    have htake := takeDigits_writeNat n h
    rw [hw, List.cons_append] at htake ⊢
    rw [readWhole]
    · rw [htake]
    · intro other heq
      exact hne (List.cons.inj heq).1

theorem EndsNumber.endsDigits (h : EndsNumber rest) : EndsDigits rest :=
  fun c hc => (h c hc).1

/-- After an exponent, or in its place, a fraction could not go on. -/
theorem endsFraction_writeExponent (e : Option Int) (h : EndsNumber rest) :
    ∀ c ∈ (writeExponent e ++ rest).head?, isDigit c = false ∧ c ≠ '.' := by
  cases e with
  | none => exact fun c hc => ⟨(h c hc).1, (h c hc).2.1⟩
  | some n =>
    rintro c ⟨⟩
    decide

theorem endsDigits_writeFraction (ds : List (Fin 10)) (e : Option Int) (h : EndsNumber rest) :
    EndsDigits (writeFraction ds ++ (writeExponent e ++ rest)) := by
  cases ds with
  | nil => exact fun c hc => (endsFraction_writeExponent e h c hc).1
  | cons d ds =>
    rintro c ⟨⟩
    decide

theorem skipFraction_writeFraction (ds : List (Fin 10))
    (h : ∀ c ∈ rest.head?, isDigit c = false ∧ c ≠ '.') :
    skipFraction (writeFraction ds ++ rest) = some (!ds.isEmpty, rest) := by
  cases ds with
  | nil =>
    cases rest with
    | nil => rfl
    | cons c rest =>
      rw [writeFraction, List.nil_append, skipFraction]
      · rfl
      · intro other heq
        exact (h c rfl).2 (List.cons.inj heq).1
  | cons d ds =>
    have hdigits : ∀ c ∈ (d :: ds).map fun d => Text.digitChar d.val, isDigit c = true := by
      intro c hc
      obtain ⟨d, -, rfl⟩ := List.mem_map.mp hc
      exact isDigit_digitChar d.isLt
    rw [writeFraction, List.cons_append, skipFraction,
      takeDigits_append hdigits fun c hc => (h c hc).1]
    rfl

theorem skipSign_writeInt (n : Int) :
    skipSign (Text.writeInt n ++ rest) = Text.writeNat n.natAbs ++ rest := by
  cases n with
  | negSucc n => rfl
  | ofNat n =>
    obtain ⟨d, tail, hd, hw⟩ := Text.writeNat_eq_cons n
    have hsign := Text.digitChar_ne_sign hd
    rw [Text.writeInt, Int.natAbs_ofNat', hw, List.cons_append, skipSign]
    · exact fun other heq => hsign.1 (List.cons.inj heq).1
    · exact fun other heq => hsign.2 (List.cons.inj heq).1

theorem skipExponent_writeExponent (e : Option Int) (h : EndsNumber rest) :
    skipExponent (writeExponent e ++ rest) = some (e.isSome, rest) := by
  cases e with
  | none =>
    cases rest with
    | nil => rfl
    | cons c rest =>
      obtain ⟨-, -, hlower, hupper⟩ := h c rfl
      rw [writeExponent, List.nil_append, skipExponent, if_neg (not_or.mpr ⟨hlower, hupper⟩)]
      rfl
  | some n =>
    obtain ⟨d, tail, -, hw⟩ := Text.writeNat_eq_cons n.natAbs
    have htake := takeDigits_writeNat n.natAbs h.endsDigits
    rw [writeExponent, List.cons_append, skipExponent, if_pos (.inl rfl), skipSign_writeInt, htake, hw]
    rfl

theorem readMagnitude_written (negative : Bool) (n : Nat) (ds : List (Fin 10)) (e : Option Int)
    (h : EndsNumber rest) :
    readMagnitude negative (Text.writeNat n ++ (writeFraction ds ++ (writeExponent e ++ rest))) =
      if !ds.isEmpty || e.isSome || (negative && n == 0) then some (.other, rest)
      else some (.int (if negative then -(n : Int) else n), rest) := by
  simp only [readMagnitude, readWhole_writeNat n (endsDigits_writeFraction ds e h),
    skipFraction_writeFraction ds (endsFraction_writeExponent e h), skipExponent_writeExponent e h,
    Text.readDigits_writeNat, Option.bind_eq_bind, Option.bind_some]

theorem readMagnitude_writeNat {negative : Bool} {n : Nat} (h : EndsNumber rest)
    (hzero : (negative && n == 0) = false) :
    readMagnitude negative (Text.writeNat n ++ rest) =
      some (.int (if negative then -(n : Int) else n), rest) := by
  have hread := readMagnitude_written negative n [] none h
  rwa [hzero] at hread

theorem readNumber_writeInt (n : Int) (h : EndsNumber rest) :
    readNumber (Text.writeInt n ++ rest) = some (.int n, rest) := by
  cases n with
  | ofNat n =>
    obtain ⟨d, tail, hd, hw⟩ := Text.writeNat_eq_cons n
    have hread : readMagnitude false (Text.writeNat n ++ rest) = some (.int n, rest) :=
      readMagnitude_writeNat h rfl
    simp only [Text.writeInt]
    rw [hw, List.cons_append] at hread ⊢
    rw [readNumber]
    · exact hread
    · intro other heq
      exact (Text.digitChar_ne_sign hd).2 (List.cons.inj heq).1
  | negSucc n =>
    have hread : readMagnitude true (Text.writeNat (n + 1) ++ rest) = some (.int (.negSucc n), rest) :=
      readMagnitude_writeNat h rfl
    simp only [Text.writeInt, List.cons_append, readNumber]
    exact hread

/-- What has a fraction or an exponent is no whole number. -/
theorem readNumber_writeDecimal (d : Decimal) (h : EndsNumber rest) :
    readNumber (writeNumber (.decimal d) ++ rest) = some (.other, rest) := by
  have hmarked : (!d.fraction.isEmpty || d.exponent.isSome) = true := by
    rcases d.marked with hfraction | hexponent
    · simp [hfraction]
    · simp [Option.isSome_iff_ne_none.mpr hexponent]
  have hread (negative : Bool) : readMagnitude negative (Text.writeNat d.whole ++
      (writeFraction d.fraction ++ (writeExponent d.exponent ++ rest))) = some (.other, rest) := by
    rw [readMagnitude_written negative d.whole d.fraction d.exponent h, hmarked]
    rfl
  rw [writeNumber, List.append_assoc, List.append_assoc, List.append_assoc]
  cases d.negative with
  | true => exact hread true
  | false =>
    have hplain := hread false
    obtain ⟨digit, tail, hdigit, hw⟩ := Text.writeNat_eq_cons d.whole
    rw [hw] at hplain
    rw [hw, if_neg Bool.false_ne_true, List.nil_append, List.cons_append, readNumber]
    · exact hplain
    · intro other heq
      exact (Text.digitChar_ne_sign hdigit).2 (List.cons.inj heq).1

/-- A number starts with a digit or with a minus sign. -/
theorem writeNumber_eq_cons (n : Number) :
    ∃ c tail, writeNumber n = c :: tail ∧ (c = '-' ∨ ∃ d < 10, c = Text.digitChar d) := by
  cases n with
  | whole n =>
    obtain ⟨c, tail, hw⟩ := List.exists_cons_of_ne_nil (Text.writeInt_ne_nil n)
    exact ⟨c, tail, hw, Text.mem_writeInt (hw ▸ List.mem_cons_self)⟩
  | decimal d =>
    rw [writeNumber]
    cases d.negative with
    | true => exact ⟨'-', _, rfl, .inl rfl⟩
    | false =>
      obtain ⟨digit, tail, hdigit, hw⟩ := Text.writeNat_eq_cons d.whole
      exact ⟨_, _, by rw [hw]; rfl, .inr ⟨digit, hdigit, rfl⟩⟩

/-! ## Texts -/

/-- The part of a written text that stands for a character. -/
def pieceOf (c : Char) : Piece :=
  if shortEscape? c = none ∧ c.toNat < 0x20 then .unit c.toNat else .char c

theorem eq_ofNat_of_toNat_eq {c : Char} {n : Nat} (h : c.toNat = n) : c = Char.ofNat n := by
  rw [← h, Char.ofNat_toNat]

theorem shortEscaped?_of_shortEscape? {c letter : Char} (h : shortEscape? c = some letter) :
    letter ≠ 'u' ∧ shortEscaped? letter = some c := by
  rw [shortEscape?] at h
  split at h
  all_goals first
    | cases h; rename_i hc; rw [eq_ofNat_of_toNat_eq hc]; decide
    | cases h

theorem fourHex?_hexDigit {n : Nat} (h : n < 0x20) :
    fourHex? '0' '0' (hexDigit (n / 16)) (hexDigit (n % 16)) = some n := by
  revert n
  decide

/-- A character that is neither escaped nor a quote stands for itself. -/
theorem readPieces_cons {c : Char} (hescape : shortEscape? c = none) (hge : ¬c.toNat < 0x20) :
    readPieces (c :: rest) = (readPieces rest).map fun (ps, rest) => (.char c :: ps, rest) := by
  have hquote : c ≠ '"' := by
    rintro rfl
    cases hescape
  have hslash : c ≠ '\\' := by
    rintro rfl
    cases hescape
  rw [readPieces]
  · rw [if_neg (not_or.mpr ⟨hge, hslash⟩)]
  all_goals
    intros
    simp_all

theorem readPieces_writeChar (c : Char) :
    readPieces (writeChar c ++ rest) =
      (readPieces rest).map fun (ps, rest) => (pieceOf c :: ps, rest) := by
  cases hescape : shortEscape? c with
  | some letter =>
    obtain ⟨hu, hc⟩ := shortEscaped?_of_shortEscape? hescape
    have hpiece : pieceOf c = .char c := by simp [pieceOf, hescape]
    rw [writeChar, hescape, hpiece]
    simp only [List.cons_append, List.nil_append]
    rw [readPieces]
    · rw [hc]
    · exact fun _ _ _ _ _ heq _ => hu heq
  | none =>
    by_cases hlt : c.toNat < 0x20
    · have hpiece : pieceOf c = .unit c.toNat := by simp [pieceOf, hescape, hlt]
      rw [writeChar, hescape, hpiece]
      simp only [hlt, if_true, List.cons_append, List.nil_append, readPieces,
        fourHex?_hexDigit hlt]
    · have hpiece : pieceOf c = .char c := by simp [pieceOf, hlt]
      rw [writeChar, hescape, hpiece]
      simp only [hlt, if_false, List.cons_append, List.nil_append]
      exact readPieces_cons hescape hlt

theorem readPieces_writeChars (cs : List Char) :
    readPieces (cs.flatMap writeChar ++ '"' :: rest) = some (cs.map pieceOf, rest) := by
  induction cs with
  | nil => simp [readPieces]
  | cons c cs ih =>
    rw [List.flatMap_cons, List.append_assoc, readPieces_writeChar, ih]
    rfl

theorem joinPieces_pieceOf (c : Char) (ps : List Piece) :
    joinPieces (pieceOf c :: ps) = (joinPieces ps).map (c :: ·) := by
  rw [pieceOf]
  split
  case isFalse => rfl
  case isTrue h =>
    have hlow : ¬(0xD800 ≤ c.toNat ∧ c.toNat < 0xE000) := by omega
    cases ps with
    | nil => simp only [joinPieces, hlow, if_false, Char.ofNat_toNat]
    | cons p ps =>
      cases p with
      | char d => simp only [joinPieces, hlow, if_false, Char.ofNat_toNat]
      | unit low =>
        have hpair : ¬(0xD800 ≤ c.toNat ∧ c.toNat < 0xDC00 ∧ 0xDC00 ≤ low ∧ low < 0xE000) := by
          omega
        rw [joinPieces, if_neg hpair, if_neg hlow, Char.ofNat_toNat]

theorem joinPieces_map_pieceOf (cs : List Char) : joinPieces (cs.map pieceOf) = some cs := by
  induction cs with
  | nil => rfl
  | cons c cs ih => rw [List.map_cons, joinPieces_pieceOf, ih]; rfl

theorem readText_writeText (s : String) :
    readText (s.toList.flatMap writeChar ++ '"' :: rest) = some (some s, rest) := by
  simp only [readText, readPieces_writeChars, Option.map_some, joinPieces_map_pieceOf,
    String.ofList_toList]

end CycleWatch.Json
