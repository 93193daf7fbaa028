import CycleWatch.Proofs.Json.Spelling
/-!
# Values on one line

What is written without any space is a spelling of the value (`spells_compact`), so the value reads back
(`read?_toCompactText`). It stands on one line, whatever its keys and texts hold: a new line inside a
text is escaped (`newline_not_mem_compact`).
-/
namespace CycleWatch.Json

/-! ## A spelling -/

theorem allSpace_nil : AllSpace [] := by
  intro c hc
  cases hc

mutual

theorem spells_compact : (j : Json) → Spells j.toTree (compact j)
  | .null => .null
  | .bool true => .yes
  | .bool false => .no
  | .num n => spells_writeNumber n
  | .str s => .text s
  | .arr [] => .noItems
  | .arr (x :: xs) => .items allSpace_nil (spells_compact x) (spellsItems_compactItems xs)
  | .obj [] => .noMembers
  | .obj ((k, x) :: ms) => by
    simp only [compact, List.cons_append, List.append_assoc]
    exact .members allSpace_nil allSpace_nil (spells_compact x) (spellsMembers_compactMembers ms)

theorem spellsItems_compactItems : (items : List Json) → SpellsItems (itemTrees items) (compactItems items)
  | [] => .nil allSpace_nil
  | x :: xs => .cons allSpace_nil (spells_compact x) (spellsItems_compactItems xs)

theorem spellsMembers_compactMembers :
    (members : List (String × Json)) → SpellsMembers (memberTrees members) (compactMembers members)
  | [] => .nil allSpace_nil
  | (k, x) :: ms => by
    simp only [compactMembers, List.cons_append, List.append_assoc]
    exact .cons allSpace_nil allSpace_nil (spells_compact x) (spellsMembers_compactMembers ms)

end

theorem read?_toCompactText (j : Json) : read? j.toCompactText = some j.toTree := by
  have hread := read?_of_spells (spells_compact j) allSpace_nil
  rwa [List.append_nil] at hread

/-! ## One line -/

theorem newline_not_mem_writeChar (c : Char) : '\n' ∉ writeChar c := by
  rw [writeChar]
  split
  case h_1 letter hescape =>
    -- No escape has a new line for its letter, as none is read from one.
    rintro hmem
    obtain rfl : '\n' = letter := by simpa using hmem
    cases (shortEscaped?_of_shortEscape? hescape).2
  case h_2 hescape =>
    split
    case isTrue hlt =>
      have hdigit : ∀ d < 16, hexDigit d ≠ '\n' := by decide
      have hhigh := hdigit (c.toNat / 16) (by omega)
      have hlow := hdigit (c.toNat % 16) (by omega)
      simp [hhigh.symm, hlow.symm]
    case isFalse =>
      intro hmem
      rw [← List.mem_singleton.mp hmem] at hescape
      cases hescape

theorem newline_not_mem_writeText (s : String) : '\n' ∉ writeText s := by
  simp [writeText, newline_not_mem_writeChar]

theorem newline_ne_digitChar {d : Nat} (h : d < 10) : '\n' ≠ Text.digitChar d := by
  revert d
  decide

theorem newline_not_mem_writeNat (n : Nat) : '\n' ∉ Text.writeNat n := by
  intro hmem
  obtain ⟨d, hd, heq⟩ := Text.mem_writeNat hmem
  exact newline_ne_digitChar hd heq

theorem newline_not_mem_writeInt (n : Int) : '\n' ∉ Text.writeInt n := by
  intro hmem
  rcases Text.mem_writeInt hmem with hsign | ⟨d, hd, heq⟩
  · cases hsign
  · exact newline_ne_digitChar hd heq

theorem newline_not_mem_writeNumber (n : Number) : '\n' ∉ writeNumber n := by
  cases n with
  | whole n => exact newline_not_mem_writeInt n
  | decimal d =>
    have hsign : '\n' ∉ (if d.negative then ['-'] else []) := by split <;> decide
    have hfraction : '\n' ∉ writeFraction d.fraction := by
      cases d.fraction with
      | nil => decide
      | cons digit digits =>
        simp [writeFraction, (newline_ne_digitChar digit.isLt),
          fun x : Fin 10 => (newline_ne_digitChar x.isLt).symm]
    have hexponent : '\n' ∉ writeExponent d.exponent := by
      cases d.exponent with
      | none => decide
      | some n => simp [writeExponent, newline_not_mem_writeInt]
    simp [writeNumber, hsign, newline_not_mem_writeNat, hfraction, hexponent]

mutual

theorem newline_not_mem_compact : (j : Json) → '\n' ∉ compact j
  | .null => by decide
  | .bool true => by decide
  | .bool false => by decide
  | .num n => newline_not_mem_writeNumber n
  | .str s => newline_not_mem_writeText s
  | .arr [] => by decide
  | .arr (x :: xs) => by
    simp [compact, newline_not_mem_compact x, newline_not_mem_compactItems xs]
  | .obj [] => by decide
  | .obj ((k, x) :: ms) => by
    simp [compact, newline_not_mem_writeText k, newline_not_mem_compact x,
      newline_not_mem_compactMembers ms]

theorem newline_not_mem_compactItems : (items : List Json) → '\n' ∉ compactItems items
  | [] => by decide
  | x :: xs => by
    simp [compactItems, newline_not_mem_compact x, newline_not_mem_compactItems xs]

theorem newline_not_mem_compactMembers :
    (members : List (String × Json)) → '\n' ∉ compactMembers members
  | [] => by decide
  | (k, x) :: ms => by
    simp [compactMembers, newline_not_mem_writeText k, newline_not_mem_compact x,
      newline_not_mem_compactMembers ms]

end

end CycleWatch.Json
