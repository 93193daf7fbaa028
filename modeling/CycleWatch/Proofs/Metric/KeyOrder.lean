import CycleWatch.Metric.Violation
import CycleWatch.Proofs.Wire.RoundTrip
/-!
# What a key set owes to its order

The search by halving finds nothing but members, and in an ascending list it finds each of them
(`halvingSearch_eq_true_iff`). A set made from texts is ascending, so its look-ups are right and the names
it misses ascend. A set read from JSON is in the order of the text, and its look-ups and reports are
right in every case exactly if that order is ascending (`lawful_iff_ascending`).
-/
namespace CycleWatch

namespace Metric

variable {k : String} {keys : List String}

theorem mem_of_halvingSearch (h : halvingSearch k keys = true) : k ∈ keys := by
  fun_induction halvingSearch k keys with
  | case1 => cases h
  | case2 j => simpa [eq_comm] using h
  | case3 i j rest half hnone => cases h
  | case4 i j rest half middle tail hdrop hlt ih => exact List.mem_of_mem_take (ih h)
  | case5 i j rest half middle tail hdrop hlt ih => exact List.mem_of_mem_drop (ih h)

/-- Of two parts of an ascending list, the names of the first are less than those of the second, which
are not less than its head. -/
theorem lt_head_iff_of_append {before after : List String} {middle : String}
    (h : (before ++ middle :: after).Pairwise (· < ·)) :
    (∀ k ∈ before, k < middle) ∧ ∀ k ∈ middle :: after, ¬k < middle := by
  obtain ⟨-, hafter, hcross⟩ := List.pairwise_append.mp h
  refine ⟨fun k hk => hcross k hk middle List.mem_cons_self, fun k hk => ?_⟩
  rcases List.mem_cons.mp hk with rfl | hk
  · exact String.lt_irrefl k
  · exact String.lt_asymm ((List.pairwise_cons.mp hafter).1 k hk)

theorem halvingSearch_of_mem (hkeys : keys.Pairwise (· < ·)) (h : k ∈ keys) :
    halvingSearch k keys = true := by
  fun_induction halvingSearch k keys with
  | case1 => cases h
  | case2 j => simpa [eq_comm] using h
  | case3 i j rest half hnone =>
    have hlength := congrArg List.length hnone
    simp only [half, List.length_drop, List.length_cons, List.length_nil] at hlength
    omega
  | case4 i j rest half middle after hdrop hlt ih =>
    have hparts := List.take_append_drop half (i :: j :: rest)
    rw [hdrop] at hparts
    refine ih (hkeys.sublist (List.take_sublist _ _)) ?_
    rw [← hparts] at h hkeys
    rcases List.mem_append.mp h with hbefore | hafter
    · -- What is kept may be one name longer than what comes before the middle one.
      have hhalf : half ≤ (i :: j :: rest).length - half := by omega
      exact (List.take_prefix_take_left hhalf).subset hbefore
    · exact absurd hlt ((lt_head_iff_of_append hkeys).2 k hafter)
  | case5 i j rest half middle after hdrop hlt ih =>
    have hparts := List.take_append_drop half (i :: j :: rest)
    rw [hdrop] at hparts
    refine ih (hkeys.sublist (List.drop_sublist _ _)) ?_
    rw [← hparts] at h hkeys
    rcases List.mem_append.mp h with hbefore | hafter
    · exact absurd ((lt_head_iff_of_append hkeys).1 k hbefore) hlt
    · rwa [hdrop]

theorem halvingSearch_eq_true_iff (hkeys : keys.Pairwise (· < ·)) :
    halvingSearch k keys = true ↔ k ∈ keys :=
  ⟨mem_of_halvingSearch, halvingSearch_of_mem hkeys⟩

theorem eq_missingKeys_of_error {sample : Sample} {expected : KeySet}
    (h : requireKeys sample expected = .error (.missingKeys keys)) :
    keys = missingKeys sample expected :=
  Violation.missingKeys.inj (requireKeys_eq_error_iff.mp h).2

/-- A sample without names misses the whole set. -/
theorem requireKeys_empty {expected : KeySet} (h : expected.keys ≠ []) :
    requireKeys Dict.empty expected = .error (.missingKeys expected.keys) := by
  have hmissing : missingKeys Dict.empty expected = expected.keys := by
    simp [missingKeys, Dict.contains]
  rw [requireKeys_eq_error_iff, hmissing]
  exact ⟨h, rfl⟩

end Metric

namespace KeySet

/-- The look-ups of the set agree with its list, and what it misses in a sample is strictly ascending. -/
structure Lawful (s : KeySet) : Prop where
  finds : ∀ k, s.contains k = true ↔ k ∈ s.keys
  ascends : ∀ sample keys, Metric.requireKeys sample s = .error (.missingKeys keys) →
    keys.Pairwise (· < ·)

variable {s : KeySet}

theorem Lawful.of_ascending (h : s.keys.Pairwise (· < ·)) : s.Lawful := by
  refine ⟨fun k => Metric.halvingSearch_eq_true_iff h, fun sample keys herror => ?_⟩
  rw [Metric.eq_missingKeys_of_error herror]
  exact h.sublist List.filter_sublist

theorem Lawful.ascending (h : s.Lawful) : s.keys.Pairwise (· < ·) := by
  by_cases hkeys : s.keys = []
  · rw [hkeys]
    exact .nil
  · exact h.ascends Dict.empty s.keys (Metric.requireKeys_empty hkeys)

theorem lawful_iff_ascending : s.Lawful ↔ s.keys.Pairwise (· < ·) :=
  ⟨Lawful.ascending, .of_ascending⟩

/-- A set made from texts is in order. A set read from JSON has the texts of the list that was read, in
their order and as often as they stand there; so it is in order, its look-ups right and its reports
ascending, exactly if the list was strictly ascending. -/
theorem decoded_lawful_iff {text : String} {s : KeySet} (h : Wire.decode? ofTree? text = some s) :
    (∀ texts, (ofTexts texts).Lawful) ∧
      (∃ t, Json.read? text = some t ∧ t.texts? = some s.keys) ∧
      (s.Lawful ↔ s.keys.Pairwise (· < ·)) := by
  refine ⟨fun texts => .of_ascending (Metric.pairwise_normalKeys texts), ?_, lawful_iff_ascending⟩
  obtain ⟨t, hread, hset⟩ := Option.bind_eq_some_iff.mp h
  obtain ⟨keys, hkeys, rfl⟩ := Option.map_eq_some_iff.mp hset
  exact ⟨t, hread, hkeys⟩

theorem decoded_lawful_iff_two :
    Wire.decode? ofTree? (KeySet.toJson ⟨["a", "b"]⟩).toCompactText = some ⟨["a", "b"]⟩ ∧
      (⟨["a", "b"]⟩ : KeySet).Lawful := by
  have hdecode : Wire.decode? ofTree? (KeySet.toJson ⟨["a", "b"]⟩).toCompactText =
      some ⟨["a", "b"]⟩ := by
    rw [Wire.decode?, Json.read?_toCompactText, Option.bind_some, ofTree?_toJson]
  exact ⟨hdecode, (decoded_lawful_iff hdecode).2.2.mpr (by decide)⟩

/-- A list out of order: the set has a name that its look-up does not find, and what it misses does not
ascend. -/
theorem decoded_not_lawful :
    ∃ s, Wire.decode? ofTree? "[\"b\",\"a\"]" = some s ∧ "b" ∈ s.keys ∧ s.contains "b" = false ∧
      Metric.requireKeys Dict.empty s = .error (.missingKeys ["b", "a"]) ∧
      ¬["b", "a"].Pairwise (· < ·) := by
  refine ⟨⟨["b", "a"]⟩, ?_, by decide, ?_, ?_, by decide⟩
  · have htext : "[\"b\",\"a\"]" = (KeySet.toJson ⟨["b", "a"]⟩).toCompactText := by decide
    rw [htext, Wire.decode?, Json.read?_toCompactText, Option.bind_some, ofTree?_toJson]
  · have hlt : ¬"b" < "a" := by decide
    simp [contains, Metric.halvingSearch, hlt]
  · exact Metric.requireKeys_empty (by decide)

end KeySet

end CycleWatch
