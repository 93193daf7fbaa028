import CycleWatch.Metric.KeySet
import CycleWatch.Proofs.Text.Trim
import Mathlib.Data.List.Destutter
/-!
# Metric names in normal form

The normal form of a list of texts is the one ascending list whose members are the trimmed texts that
are not blank (`mem_normalKeys`, `eq_of_ascending`). So a list in normal form is its own normal form.
It does not matter that names are put in at their places one after the other: sorting them all and then
leaving out those that repeat the one before gives the same list (`normalKeys_eq_destutter_mergeSort`).
-/
namespace CycleWatch.Metric

variable {k : String} {keys texts : List String}

theorem mem_normalKeys : k ∈ normalKeys texts ↔ k ≠ "" ∧ ∃ t ∈ texts, Text.trim t = k := by
  rw [normalKeys, mem_distinctAscending, List.mem_filter, List.mem_map, decide_eq_true_eq]
  exact and_comm

theorem trim_of_mem_normalKeys (h : k ∈ normalKeys texts) : Text.trim k = k := by
  obtain ⟨-, t, -, rfl⟩ := mem_normalKeys.mp h
  exact Text.trim_trim t

/-- Ascending lists with the same members are equal. -/
theorem eq_of_ascending {keys' : List String} (h : keys.Pairwise (· < ·))
    (h' : keys'.Pairwise (· < ·)) (hmem : ∀ k, k ∈ keys ↔ k ∈ keys') : keys = keys' := by
  have hne : ∀ {i j : String}, i < j → i ≠ j := fun hlt heq => String.lt_irrefl _ (heq ▸ hlt)
  have hperm : keys.Perm keys' :=
    (List.perm_ext_iff_of_nodup (h.imp hne) (h'.imp hne)).mpr hmem
  exact hperm.eq_of_pairwise (fun i j _ _ hij hji => absurd hji (String.lt_asymm hij)) h h'

theorem normalKeys_normalKeys (texts : List String) :
    normalKeys (normalKeys texts) = normalKeys texts := by
  refine eq_of_ascending (pairwise_normalKeys _) (pairwise_normalKeys _) fun k => ?_
  constructor
  · intro hk
    obtain ⟨-, t, ht, rfl⟩ := mem_normalKeys.mp hk
    rwa [trim_of_mem_normalKeys ht]
  · intro hk
    exact mem_normalKeys.mpr ⟨(mem_normalKeys.mp hk).1, k, hk, trim_of_mem_normalKeys hk⟩

/-- The first name of an ascending list with a property is the least one. -/
theorem find?_eq_some_iff_least (h : keys.Pairwise (· < ·)) {p : String → Bool} :
    keys.find? p = some k ↔ k ∈ keys ∧ p k = true ∧ ∀ j ∈ keys, p j = true → k ≤ j := by
  induction keys with
  | nil => simp
  | cons i rest ih =>
    have hi := List.pairwise_cons.mp h
    cases hp : p i with
    | true =>
      rw [List.find?_cons_of_pos hp]
      constructor
      · rintro ⟨⟩
        refine ⟨List.mem_cons_self, hp, fun j hj _ => ?_⟩
        rcases List.mem_cons.mp hj with rfl | hj
        · exact String.le_refl j
        · exact String.not_lt.mp (String.lt_asymm (hi.1 j hj))
      · rintro ⟨hk, -, hleast⟩
        rcases List.mem_cons.mp hk with rfl | hk
        · rfl
        · exact absurd (hi.1 k hk) (String.not_lt.mpr (hleast i List.mem_cons_self hp))
    | false =>
      rw [List.find?_cons_of_neg (by simp [hp]), ih hi.2]
      simp only [List.mem_cons, forall_eq_or_imp, hp, Bool.false_eq_true, false_implies, true_and]
      constructor
      · rintro ⟨hk, hpk, hleast⟩
        exact ⟨.inr hk, hpk, hleast⟩
      · rintro ⟨rfl | hk, hpk, hleast⟩
        · rw [hp] at hpk
          cases hpk
        · exact ⟨hk, hpk, hleast⟩

/-! ## Sorting and leaving out repetitions -/

/-- Where equal texts stand side by side, nothing but repetitions is left out. -/
theorem ascending_destutter' {t : String} (h : (t :: texts).Pairwise (· ≤ ·)) :
    (texts.destutter' (· ≠ ·) t).Pairwise (· < ·) ∧
      ∀ k, k ∈ texts.destutter' (· ≠ ·) t ↔ k ∈ t :: texts := by
  induction texts generalizing t with
  | nil => simp
  | cons s rest ih =>
    obtain ⟨hleast, hrest⟩ := List.pairwise_cons.mp h
    obtain ⟨hascending, hmem⟩ := ih hrest
    by_cases heq : t = s
    · subst heq
      rw [List.destutter'_cons_neg rest (not_not_intro rfl)]
      exact ⟨hascending, fun k => by simp [hmem]⟩
    · rw [List.destutter'_cons_pos (R := (· ≠ ·)) rest heq]
      refine ⟨List.pairwise_cons.mpr ⟨fun k hk => ?_, hascending⟩, fun k => by simp [hmem]⟩
      -- The next text that is kept is not less than `s`, which differs from `t`.
      have hsk : s ≤ k := by
        rcases List.mem_cons.mp ((hmem k).mp hk) with rfl | hk
        · exact String.le_refl k
        · exact (List.pairwise_cons.mp hrest).1 k hk
      have hts : t ≤ s := hleast s List.mem_cons_self
      refine String.not_le.mp fun hkt => heq ?_
      exact String.le_antisymm hts (String.le_trans hsk hkt)

theorem pairwise_mergeSort (texts : List String) :
    (texts.mergeSort (· ≤ ·)).Pairwise (· ≤ ·) := by
  have h : (texts.mergeSort (· ≤ ·)).Pairwise fun j k => decide (j ≤ k) = true := by
    refine List.pairwise_mergeSort (fun i j k hij hjk => ?_) (fun j k => ?_) texts
    · exact decide_eq_true (String.le_trans (of_decide_eq_true hij) (of_decide_eq_true hjk))
    · simpa using String.le_total j k
  exact h.imp of_decide_eq_true

/-- The distinct texts come also of sorting them and leaving out each that repeats the one before. -/
theorem distinctAscending_eq_destutter_mergeSort (texts : List String) :
    distinctAscending texts = (texts.mergeSort (· ≤ ·)).destutter (· ≠ ·) := by
  have hsorted := pairwise_mergeSort texts
  have hmem : ∀ k, k ∈ texts.mergeSort (· ≤ ·) ↔ k ∈ texts := fun k => List.mem_mergeSort
  cases hcases : texts.mergeSort (· ≤ ·) with
  | nil =>
    simp only [hcases, List.not_mem_nil, false_iff] at hmem
    rw [List.eq_nil_iff_forall_not_mem.mpr hmem]
    rfl
  | cons t rest =>
    rw [hcases] at hsorted
    simp only [hcases] at hmem
    obtain ⟨hascending, hkept⟩ := ascending_destutter' hsorted
    refine eq_of_ascending (pairwise_distinctAscending texts) hascending fun k => ?_
    rw [mem_distinctAscending, ← hmem, ← hkept, List.destutter_cons']

theorem normalKeys_eq_destutter_mergeSort (texts : List String) :
    normalKeys texts =
      (((texts.map Text.trim).filter (· ≠ "")).mergeSort (· ≤ ·)).destutter (· ≠ ·) :=
  distinctAscending_eq_destutter_mergeSort _

end CycleWatch.Metric
