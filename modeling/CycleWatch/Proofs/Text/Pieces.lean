import CycleWatch.Text.Pieces
/-!
# Cutting undoes joining

No piece holds the separator (`not_mem_of_mem_pieces`), and texts without the separator are the pieces
of the text that joins them (`pieces_join`). So is what stands before the first separator
(`cutAtFirst_append`, `eq_of_cutAtFirst`) and what follows the last one (`cutAtLast_append`). A
separator between two texts keeps their pieces apart (`pieces_append_sep`); what is put to an end of a
text goes to the piece at that end (`pieces_append_left`, `pieces_append_right`). Characters of a kind
up to the first one of another kind are cut off as they stand (`takeWhile_dropWhile_append`).
-/
namespace CycleWatch.Text

variable {sep : Char} {cs : List Char}

theorem not_mem_of_mem_pieces {p : List Char} (h : p ∈ pieces sep cs) : sep ∉ p := by
  induction cs generalizing p with
  | nil =>
    cases List.mem_singleton.mp h
    exact List.not_mem_nil
  | cons c rest ih =>
    rw [pieces] at h
    split at h
    · rcases List.mem_cons.mp h with rfl | hp
      · exact List.not_mem_nil
      · exact ih hp
    case isFalse hc =>
      split at h
      case h_1 hnil => exact absurd hnil (pieces_ne_nil sep rest)
      case h_2 q qs hcons =>
        rw [hcons] at ih
        rcases List.mem_cons.mp h with rfl | hp
        · exact List.not_mem_cons_of_ne_of_not_mem (Ne.symm hc) (ih List.mem_cons_self)
        · exact ih (List.mem_cons_of_mem _ hp)

theorem pieces_of_not_mem (h : sep ∉ cs) : pieces sep cs = [cs] := by
  induction cs with
  | nil => rfl
  | cons c rest ih =>
    obtain ⟨hc, hrest⟩ := List.ne_and_not_mem_of_not_mem_cons h
    rw [pieces, if_neg (Ne.symm hc), ih hrest]

/-- The first piece ends at the first separator. -/
theorem pieces_append {p rest : List Char} (h : sep ∉ p) :
    pieces sep (p ++ sep :: rest) = p :: pieces sep rest := by
  induction p with
  | nil => simp [pieces]
  | cons c p ih =>
    obtain ⟨hc, hp⟩ := List.ne_and_not_mem_of_not_mem_cons h
    rw [List.cons_append, pieces, if_neg (Ne.symm hc), ih hp]

theorem pieces_append_sep (sep : Char) (cs ds : List Char) :
    pieces sep (cs ++ sep :: ds) = pieces sep cs ++ pieces sep ds := by
  induction cs with
  | nil => simp [pieces]
  | cons c rest ih =>
    by_cases hc : c = sep
    · simp [pieces, hc, ih]
    · cases hp : pieces sep rest with
      | nil => exact absurd hp (pieces_ne_nil sep rest)
      | cons p ps => simp [pieces, hc, ih, hp]

theorem pieces_append_left {before : List Char} (h : sep ∉ before) (cs : List Char) :
    ∃ p ps, pieces sep cs = p :: ps ∧ pieces sep (before ++ cs) = (before ++ p) :: ps := by
  obtain ⟨p, ps, hp⟩ := List.exists_cons_of_ne_nil (pieces_ne_nil sep cs)
  refine ⟨p, ps, hp, ?_⟩
  induction before with
  | nil => exact hp
  | cons c before ih =>
    obtain ⟨hc, hbefore⟩ := List.ne_and_not_mem_of_not_mem_cons h
    simp [pieces, Ne.symm hc, ih hbefore]

theorem pieces_append_right {after : List Char} (h : sep ∉ after) (cs : List Char) :
    ∃ ps p, pieces sep cs = ps ++ [p] ∧ pieces sep (cs ++ after) = ps ++ [p ++ after] := by
  induction cs with
  | nil => exact ⟨[], [], rfl, pieces_of_not_mem h⟩
  | cons c rest ih =>
    obtain ⟨ps, p, hrest, happend⟩ := ih
    rw [List.cons_append, pieces, pieces, hrest, happend]
    by_cases hc : c = sep
    · exact ⟨[] :: ps, p, by simp [hc], by simp [hc]⟩
    · cases ps with
      | nil => exact ⟨[], c :: p, by simp [hc], by simp [hc]⟩
      | cons q qs => exact ⟨(c :: q) :: qs, p, by simp [hc], by simp [hc]⟩

/-- Two texts with the separator between them are joined already. -/
theorem join_append_cons (sep : Char) (p q : List Char) (ps : List (List Char)) :
    join sep ((p ++ sep :: q) :: ps) = join sep (p :: q :: ps) := by
  cases ps with
  | nil => rfl
  | cons r rs => simp [join]

theorem pieces_join {ps : List (List Char)} (hne : ps ≠ []) (h : ∀ p ∈ ps, sep ∉ p) :
    pieces sep (join sep ps) = ps := by
  induction ps with
  | nil => exact absurd rfl hne
  | cons p ps ih =>
    obtain ⟨hp, hps⟩ := List.forall_mem_cons.mp h
    cases ps with
    | nil => exact pieces_of_not_mem hp
    | cons q qs =>
      have hstep : join sep (p :: q :: qs) = p ++ sep :: join sep (q :: qs) := rfl
      rw [hstep, pieces_append hp, ih (List.cons_ne_nil q qs) hps]

theorem mem_join_of_mem {p : List Char} {ps : List (List Char)} {c : Char} (h : p ∈ ps)
    (hc : c ∈ p) : c ∈ join sep ps := by
  induction ps using join.induct with
  | case1 => cases h
  | case2 q => rwa [join, ← List.mem_singleton.mp h]
  | case3 q r rest ih =>
    rw [join]
    rcases List.mem_cons.mp h with rfl | h
    · exact List.mem_append_left _ hc
    · exact List.mem_append_right _ (List.mem_cons_of_mem _ (ih h))

theorem mem_of_mem_join {ps : List (List Char)} {c : Char} (hc : c ∈ join sep ps) :
    c = sep ∨ ∃ p ∈ ps, c ∈ p := by
  induction ps using join.induct with
  | case1 => cases hc
  | case2 q => exact .inr ⟨q, List.mem_singleton_self q, hc⟩
  | case3 q r rest ih =>
    rw [join] at hc
    rcases List.mem_append.mp hc with hc | hc
    · exact .inr ⟨q, List.mem_cons_self, hc⟩
    · rcases List.mem_cons.mp hc with rfl | hc
      · exact .inl rfl
      · rcases ih hc with heq | ⟨p, hp, hc⟩
        · exact .inl heq
        · exact .inr ⟨p, List.mem_cons_of_mem q hp, hc⟩

theorem mem_of_mem_pieces {p : List Char} {c : Char} (h : p ∈ pieces sep cs) (hc : c ∈ p) :
    c ∈ cs := by
  rw [← join_pieces sep cs]
  exact mem_join_of_mem h hc

theorem intercalate_eq_join (sep : Char) (ps : List (List Char)) :
    [sep].intercalate ps = join sep ps := by
  induction ps with
  | nil => rfl
  | cons p ps ih =>
    cases ps with
    | nil => simp [List.intercalate, join]
    | cons q qs => simpa [List.intercalate, join] using ih

theorem ne_of_kind {p : Char → Bool} {c d : Char} (hc : p c = true) (hd : p d = false) : c ≠ d := by
  rintro rfl
  simp [hc] at hd

theorem takeWhile_dropWhile_append {p : Char → Bool} {before after : List Char}
    (hbefore : ∀ c ∈ before, p c = true) (hafter : ∀ c ∈ after.head?, p c = false) :
    (before ++ after).takeWhile p = before ∧ (before ++ after).dropWhile p = after := by
  rw [List.takeWhile_append_of_pos hbefore, List.dropWhile_append_of_pos hbefore]
  cases after with
  | nil => simp
  | cons c after => simp [hafter c rfl]

theorem cutAtFirst_append {before after : List Char} (h : sep ∉ before) :
    cutAtFirst sep (before ++ sep :: after) = some (before, after) := by
  induction before with
  | nil => simp [cutAtFirst]
  | cons c before ih =>
    obtain ⟨hc, hbefore⟩ := List.ne_and_not_mem_of_not_mem_cons h
    rw [List.cons_append, cutAtFirst, if_neg (Ne.symm hc), ih hbefore]
    rfl

theorem eq_of_cutAtFirst {before after : List Char}
    (h : cutAtFirst sep cs = some (before, after)) :
    cs = before ++ sep :: after ∧ sep ∉ before := by
  induction cs generalizing before with
  | nil => cases h
  | cons c rest ih =>
    rw [cutAtFirst] at h
    split at h
    case isTrue hc =>
      cases h
      exact ⟨by rw [hc]; rfl, List.not_mem_nil⟩
    case isFalse hc =>
      obtain ⟨cut, hcut, heq⟩ := Option.map_eq_some_iff.mp h
      cases heq
      obtain ⟨hrest, hbefore⟩ := ih hcut
      exact ⟨congrArg (c :: ·) hrest,
        List.not_mem_cons_of_ne_of_not_mem (Ne.symm hc) hbefore⟩

theorem cutAtFirst_of_not_mem (h : sep ∉ cs) : cutAtFirst sep cs = none := by
  cases hcut : cutAtFirst sep cs with
  | none => rfl
  | some parts =>
    obtain ⟨before, after⟩ := parts
    obtain ⟨rfl, -⟩ := eq_of_cutAtFirst hcut
    simp at h

/-- A separator that a text holds has a last occurrence, the first one from behind. -/
theorem exists_eq_append_of_mem (h : sep ∈ cs) :
    ∃ before after, cs = before ++ sep :: after ∧ sep ∉ after := by
  obtain ⟨after, before, hreverse, hafter⟩ := List.eq_append_cons_of_mem (List.mem_reverse.mpr h)
  refine ⟨before.reverse, after.reverse, ?_, by rwa [List.mem_reverse]⟩
  rw [← List.reverse_reverse cs, hreverse]
  simp

theorem cutAtLast_append {before after : List Char} (h : sep ∉ after) :
    cutAtLast sep (before ++ sep :: after) = some (before, after) := by
  have hreverse : sep ∉ after.reverse := by rwa [List.mem_reverse]
  have hcut : cutAtFirst sep (after.reverse ++ sep :: before.reverse) =
      some (after.reverse, before.reverse) := cutAtFirst_append hreverse
  simp [cutAtLast, hcut]

theorem cutAtLast_of_not_mem (h : sep ∉ cs) : cutAtLast sep cs = none := by
  have hreverse : sep ∉ cs.reverse := by rwa [List.mem_reverse]
  rw [cutAtLast, cutAtFirst_of_not_mem hreverse, Option.map_none]

end CycleWatch.Text
