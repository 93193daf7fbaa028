import CycleWatch.Text.Blank
/-!
# Trimmed texts

A text is trimmed when no blank stands at either end of it. Trimming makes a text trimmed
(`trimmed_trimChars`) and leaves a trimmed one as it is (`Trimmed.trimChars_eq`), so trimming twice is
trimming once. Blanks put before and after a text are trimmed away again (`trimChars_blanks_append`,
`trimChars_append_blanks`), and nothing else is trimmed away (`exists_blanks_trimEndChars`).
-/
namespace CycleWatch.Text

/-- No blank stands at either end. -/
structure Trimmed (cs : List Char) : Prop where
  head : ∀ c ∈ cs.head?, isBlank c = false
  last : ∀ c ∈ cs.getLast?, isBlank c = false

variable {cs : List Char}

theorem trimmed_of_forall (h : ∀ c ∈ cs, isBlank c = false) : Trimmed cs :=
  ⟨fun c hc => h c (List.mem_of_mem_head? hc), fun c hc => h c (List.mem_of_mem_getLast? hc)⟩

/-- What stands between two trimmed texts does not matter. -/
theorem Trimmed.append {start stop : List Char} (hstart : Trimmed start) (hstop : Trimmed stop)
    (hne : start ≠ []) (hne' : stop ≠ []) (between : List Char) :
    Trimmed (start ++ between ++ stop) where
  head c hc := by
    obtain ⟨first, rest, rfl⟩ := List.exists_cons_of_ne_nil hne
    exact hstart.head c hc
  last c hc := by
    have hlast := List.getLast?_eq_some_getLast hne'
    rw [List.getLast?_append, hlast] at hc
    exact hstop.last c (hlast ▸ hc)

theorem isBlank_head?_dropWhile {c : Char} (h : c ∈ (cs.dropWhile isBlank).head?) :
    isBlank c = false := by
  have hnot := List.head?_dropWhile_not isBlank cs
  rw [Option.mem_def] at h
  simpa [h] using hnot

theorem isBlank_getLast?_trimEndChars {c : Char} (h : c ∈ (trimEndChars cs).getLast?) :
    isBlank c = false := by
  rw [trimEndChars, List.getLast?_reverse] at h
  exact isBlank_head?_dropWhile h

theorem prefix_trimEndChars (cs : List Char) : trimEndChars cs <+: cs := by
  rw [← List.reverse_suffix, trimEndChars, List.reverse_reverse]
  exact List.dropWhile_suffix isBlank

theorem trimmed_trimChars (cs : List Char) : Trimmed (trimChars cs) where
  head c hc := by
    obtain ⟨rest, hrest⟩ := prefix_trimEndChars (trimStartChars cs)
    have hstart : c ∈ (trimStartChars cs).head? := by
      rw [trimChars, Option.mem_def] at hc
      rw [← hrest, List.head?_append, hc]
      rfl
    exact isBlank_head?_dropWhile hstart
  last _ hc := isBlank_getLast?_trimEndChars hc

theorem mem_of_mem_trimChars {c : Char} (h : c ∈ trimChars cs) : c ∈ cs :=
  (List.dropWhile_suffix isBlank).subset ((prefix_trimEndChars _).subset h)

theorem dropWhile_eq_self (h : ∀ c ∈ cs.head?, isBlank c = false) : cs.dropWhile isBlank = cs := by
  cases cs with
  | nil => rfl
  | cons c rest => rw [List.dropWhile_cons_of_neg (by simp [h c rfl])]

theorem Trimmed.trimEndChars_eq (h : Trimmed cs) : trimEndChars cs = cs := by
  have hlast : ∀ c ∈ cs.reverse.head?, isBlank c = false := by
    rw [List.head?_reverse]
    exact h.last
  rw [trimEndChars, dropWhile_eq_self hlast, List.reverse_reverse]

theorem Trimmed.trimChars_eq (h : Trimmed cs) : trimChars cs = cs := by
  rw [trimChars, trimStartChars, dropWhile_eq_self h.head, h.trimEndChars_eq]

/-- Every character is blank. -/
def AllBlank (cs : List Char) : Prop :=
  ∀ c ∈ cs, isBlank c = true

instance (cs : List Char) : Decidable (AllBlank cs) :=
  List.decidableBAll (fun c => isBlank c = true) cs

theorem not_mem_of_allBlank {c : Char} (hc : isBlank c = false) (h : AllBlank cs) : c ∉ cs := by
  intro hmem
  rw [h c hmem] at hc
  cases hc

theorem trimChars_blanks_append {before : List Char} (h : AllBlank before) (cs : List Char) :
    trimChars (before ++ cs) = trimChars cs := by
  rw [trimChars, trimStartChars, List.dropWhile_append_of_pos h, ← trimStartChars, ← trimChars]

theorem trimEndChars_append_blanks {after : List Char} (h : AllBlank after) (cs : List Char) :
    trimEndChars (cs ++ after) = trimEndChars cs := by
  rw [trimEndChars, List.reverse_append,
    List.dropWhile_append_of_pos fun c hc => h c (List.mem_reverse.mp hc), ← trimEndChars]

theorem dropWhile_eq_nil_of_allBlank (h : AllBlank cs) : cs.dropWhile isBlank = [] := by
  have hdrop : (cs ++ []).dropWhile isBlank = [].dropWhile isBlank := List.dropWhile_append_of_pos h
  simpa using hdrop

theorem trimChars_append_blanks {after : List Char} (h : AllBlank after) (cs : List Char) :
    trimChars (cs ++ after) = trimChars cs := by
  simp only [trimChars, trimStartChars, List.dropWhile_append]
  cases hstart : cs.dropWhile isBlank with
  | nil => simp [dropWhile_eq_nil_of_allBlank h]
  | cons c rest => simpa using trimEndChars_append_blanks h (c :: rest)

theorem allBlank_takeWhile (cs : List Char) : AllBlank (cs.takeWhile isBlank) :=
  List.all_eq_true.mp List.all_takeWhile

theorem exists_blanks_trimStartChars (cs : List Char) :
    ∃ before, AllBlank before ∧ cs = before ++ trimStartChars cs :=
  ⟨_, allBlank_takeWhile cs, List.takeWhile_append_dropWhile.symm⟩

theorem exists_blanks_trimEndChars (cs : List Char) :
    ∃ after, AllBlank after ∧ cs = trimEndChars cs ++ after := by
  refine ⟨(cs.reverse.takeWhile isBlank).reverse, fun c hc => ?_, ?_⟩
  · exact allBlank_takeWhile cs.reverse c (List.mem_reverse.mp hc)
  · rw [trimEndChars, ← List.reverse_append, List.takeWhile_append_dropWhile, List.reverse_reverse]

theorem trimEndChars_eq_nil_iff : trimEndChars cs = [] ↔ AllBlank cs := by
  constructor
  · intro hnil
    obtain ⟨after, hafter, hcs⟩ := exists_blanks_trimEndChars cs
    rw [hnil, List.nil_append] at hcs
    rwa [hcs]
  · intro h
    exact trimEndChars_append_blanks h []

theorem Trimmed.trimChars_append_blanks {after : List Char} (h : Trimmed cs)
    (hafter : AllBlank after) : trimChars (cs ++ after) = cs :=
  (Text.trimChars_append_blanks hafter cs).trans h.trimChars_eq

/-- Trimming keeps the trimmed text that stands first. -/
theorem Trimmed.trimEndChars_append {start : List Char} (h : Trimmed start) (rest : List Char) :
    trimEndChars (start ++ rest) = start ++ trimEndChars rest := by
  simp only [trimEndChars, List.reverse_append, List.dropWhile_append]
  split
  case isTrue hempty =>
    rw [List.isEmpty_iff.mp hempty, List.reverse_nil, List.append_nil]
    exact h.trimEndChars_eq
  case isFalse => simp

theorem Trimmed.prefix_trimChars {start : List Char} (h : Trimmed start) (hbegins : start <+: cs) :
    start <+: trimChars cs := by
  obtain ⟨rest, rfl⟩ := hbegins
  cases start with
  | nil => exact List.nil_prefix
  | cons c start =>
    have hhead : trimStartChars (c :: start ++ rest) = c :: start ++ rest :=
      dropWhile_eq_self fun d hd => h.head d hd
    rw [trimChars, hhead, h.trimEndChars_append]
    exact List.prefix_append _ _

theorem trimChars_trimChars (cs : List Char) : trimChars (trimChars cs) = trimChars cs :=
  (trimmed_trimChars cs).trimChars_eq

@[simp] theorem trim_trim (s : String) : trim (trim s) = trim s := by
  rw [trim, toList_trim, trimChars_trimChars, trim]

theorem Trimmed.trim_eq {s : String} (h : Trimmed s.toList) : trim s = s := by
  rw [trim, h.trimChars_eq, String.ofList_toList]

theorem trimmed_of_trim_eq {s : String} (h : trim s = s) : Trimmed s.toList := by
  rw [← h, toList_trim]
  exact trimmed_trimChars _

end CycleWatch.Text
