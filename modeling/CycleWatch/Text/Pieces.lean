/-!
# Cutting a text at a separator

`pieces` cuts at every occurrence of a separator, `cutAtFirst` at the first one. Joining the pieces
with the separator gives the text back (`join_pieces`).
-/
namespace CycleWatch.Text

/-- The parts of a text between the occurrences of `sep`: always one more than there are of them. -/
def pieces (sep : Char) : List Char → List (List Char)
  | [] => [[]]
  | c :: rest =>
    if c = sep then [] :: pieces sep rest
    else
      match pieces sep rest with
      | [] => [[c]]
      | p :: ps => (c :: p) :: ps

/-- The texts one after the other, with `sep` between neighbours. -/
def join (sep : Char) : List (List Char) → List Char
  | [] => []
  | [p] => p
  | p :: q :: ps => p ++ sep :: join sep (q :: ps)

/-- The parts before and after the first occurrence of `sep`, if there is one. -/
def cutAtFirst (sep : Char) : List Char → Option (List Char × List Char)
  | [] => none
  | c :: rest =>
    if c = sep then some ([], rest)
    else (cutAtFirst sep rest).map fun (before, after) => (c :: before, after)

/-- The parts before and after the last occurrence of `sep`, if there is one. -/
def cutAtLast (sep : Char) (cs : List Char) : Option (List Char × List Char) :=
  (cutAtFirst sep cs.reverse).map fun (after, before) => (before.reverse, after.reverse)

theorem pieces_ne_nil (sep : Char) (cs : List Char) : pieces sep cs ≠ [] := by
  cases cs with
  | nil => simp [pieces]
  | cons c rest =>
    simp only [pieces]
    split
    · simp
    · split <;> simp

theorem join_pieces (sep : Char) (cs : List Char) : join sep (pieces sep cs) = cs := by
  induction cs with
  | nil => rfl
  | cons c rest ih =>
    cases hp : pieces sep rest with
    | nil => exact absurd hp (pieces_ne_nil sep rest)
    | cons p ps =>
      rw [hp] at ih
      by_cases hc : c = sep
      · simp [pieces, hc, hp, join, ih]
      · cases ps with
        | nil => simp [pieces, hc, hp, join] at ih ⊢; exact ih
        | cons q qs => simp [pieces, hc, hp, join] at ih ⊢; exact ih

end CycleWatch.Text
