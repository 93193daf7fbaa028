import CycleWatch.Metric.Violation
/-!
# Whether the expected names are there

The three checks for the names of a set ask the same question, and what they report as missing is
exactly what the sample lacks (`missingKeys_eq_iff`, `requireKeys_eq_error_iff_lacks`). A name put into
the sample leaves the missing ones and changes nothing else about them (`missingKeys_insert`); a name
taken out of a complete sample is all that is missing then (`missingKeys_erase`).
-/
namespace CycleWatch.Metric

/-- Every name of the set is in the sample. -/
def Covers (sample : Sample) (expected : KeySet) : Prop :=
  ∀ k ∈ expected.keys, sample.contains k = true

/-- The names of the set that are not in the sample, in the order of the set and each as often as it
stands there. -/
structure Lacks (sample : Sample) (expected : KeySet) (names : List String) : Prop where
  order : names.Sublist expected.keys
  absent : ∀ k ∈ names, sample.contains k = false
  count : ∀ k, sample.contains k = false → names.count k = expected.keys.count k

variable {sample : Sample} {expected : KeySet} {names : List String} {k : String} {v : Violation}

/-! ## One question -/

theorem hasKeys_iff : hasKeys sample expected = true ↔ Covers sample expected :=
  List.all_eq_true

theorem lacks_missingKeys (sample : Sample) (expected : KeySet) :
    Lacks sample expected (missingKeys sample expected) where
  order := List.filter_sublist
  absent k hk := by simpa using (List.mem_filter.mp hk).2
  count k hk := List.count_filter (by simp [hk])

/-- Nothing else is what the sample lacks. -/
theorem Lacks.eq_missingKeys (h : Lacks sample expected names) :
    names = missingKeys sample expected := by
  have hmissing := lacks_missingKeys sample expected
  have hfilter : names.filter (fun k => !sample.contains k) = names :=
    List.filter_eq_self.mpr fun k hk => by simp [h.absent k hk]
  have hsub : names.Sublist (missingKeys sample expected) :=
    hfilter ▸ h.order.filter fun k => !sample.contains k
  -- A name in the sample is in neither list, any other one equally often in both.
  have hperm : names.Perm (missingKeys sample expected) := by
    refine List.perm_iff_count.mpr fun k => ?_
    cases hk : sample.contains k with
    | false => rw [h.count k hk, hmissing.count k hk]
    | true =>
        have hnames : k ∉ names := fun hmem => by simp [h.absent k hmem] at hk
        have hrest : k ∉ missingKeys sample expected := fun hmem => hnames <| by
          simp [hmissing.absent k hmem] at hk
        rw [List.count_eq_zero.mpr hnames, List.count_eq_zero.mpr hrest]
  exact hsub.eq_of_length hperm.length_eq

theorem missingKeys_eq_iff : missingKeys sample expected = names ↔ Lacks sample expected names :=
  ⟨fun h => h ▸ lacks_missingKeys sample expected, fun h => h.eq_missingKeys.symm⟩

theorem requireKeys_eq_error_iff_lacks :
    requireKeys sample expected = .error v ↔
      ∃ names, v = .missingKeys names ∧ names ≠ [] ∧ Lacks sample expected names := by
  simp only [← missingKeys_eq_iff]
  rw [requireKeys_eq_error_iff]
  constructor
  · rintro ⟨hne, rfl⟩
    exact ⟨_, rfl, hne, rfl⟩
  · rintro ⟨_, rfl, hne, rfl⟩
    exact ⟨hne, rfl⟩

/-! ## Names put in and taken out -/

theorem missingKeys_insert (sample : Sample) (expected : KeySet) (k : String) (value : Int64) :
    missingKeys (sample.insert k value) expected =
      (missingKeys sample expected).filter (· ≠ k) := by
  rw [missingKeys, missingKeys, List.filter_filter]
  refine List.filter_congr fun j _ => Bool.eq_iff_iff.mpr ?_
  have hinsert := Dict.contains_insert (d := sample) (k := k) (j := j) (v := value)
  simp [← Bool.not_eq_true, hinsert]

theorem Covers.insert (h : Covers sample expected) (k : String) (value : Int64) :
    Covers (sample.insert k value) expected := by
  intro j hj
  exact Dict.contains_insert.mpr (.inr (h j hj))

/-- Of a complete sample without one name, that name is missing, as often as it is asked for. -/
theorem missingKeys_erase (h : Covers sample expected) (k : String) :
    missingKeys (sample.erase k) expected = List.replicate (expected.keys.count k) k := by
  rw [missingKeys, ← List.filter_eq]
  refine List.filter_congr fun j hj => Bool.eq_iff_iff.mpr ?_
  have herase := Dict.contains_erase (d := sample) (k := k) (j := j)
  simp [← Bool.not_eq_true, herase, h j hj]

/-- The three checks agree: all of them accept a sample that has every name of the set and no other
sample, and what is missing is listed in the order of the set, each name as often as it stands there,
whether the set is in normal form or not. A name put into the sample is missing no more, and the others
are missing as before, so that a complete sample stays complete. Without one of its names a complete
sample fails all three checks, and that name alone is missing. -/
theorem key_checks_agree :
    (∀ sample expected,
      (hasKeys sample expected = true ↔ Covers sample expected) ∧
      (missingKeys sample expected = [] ↔ Covers sample expected) ∧
      (requireKeys sample expected = .ok () ↔ Covers sample expected) ∧
      (∀ names, missingKeys sample expected = names ↔ Lacks sample expected names) ∧
      ∀ v, requireKeys sample expected = .error v ↔
        ∃ names, v = .missingKeys names ∧ names ≠ [] ∧ Lacks sample expected names) ∧
    (∀ sample expected k value,
      missingKeys (sample.insert k value) expected =
        (missingKeys sample expected).filter (· ≠ k) ∧
      (Covers sample expected → Covers (sample.insert k value) expected)) ∧
    ∀ sample expected, Covers sample expected → ∀ k ∈ expected.keys,
      (∀ j, (sample.erase k).get? j = if j = k then none else sample.get? j) ∧
      hasKeys (sample.erase k) expected = false ∧
      missingKeys (sample.erase k) expected = List.replicate (expected.keys.count k) k ∧
      requireKeys (sample.erase k) expected =
        .error (.missingKeys (List.replicate (expected.keys.count k) k)) := by
  refine ⟨fun sample expected => ⟨hasKeys_iff, missingKeys_eq_nil_iff, requireKeys_eq_ok_iff,
    fun names => missingKeys_eq_iff, fun v => requireKeys_eq_error_iff_lacks⟩,
    fun sample expected k value => ⟨missingKeys_insert sample expected k value,
      fun h => h.insert k value⟩, ?_⟩
  intro sample expected hcovers k hk
  have hmissing := missingKeys_erase hcovers k
  have hsome : List.replicate (expected.keys.count k) k ≠ [] := by
    simpa [List.replicate_eq_nil_iff, List.count_eq_zero] using hk
  have hopen : ¬ Covers (sample.erase k) expected := fun h =>
    hsome (hmissing.symm.trans (missingKeys_eq_nil_iff.mpr h))
  refine ⟨Dict.get?_erase sample k, ?_, hmissing, ?_⟩
  · rw [← Bool.not_eq_true, hasKeys_iff]
    exact hopen
  · rw [requireKeys_eq_error_iff, hmissing]
    exact ⟨hsome, rfl⟩

/-- A set with a repeated name, out of order. -/
theorem key_checks_agree_repeated :
    let sample : Sample := .ofList [("a", 1), ("b", -2), ("extra", 0)]
    let expected : KeySet := ⟨["b", "a", "b"]⟩
    Covers sample expected ∧ Covers (sample.insert "c" 3) expected ∧ "b" ∈ expected.keys ∧
      requireKeys (sample.erase "b") expected = .error (.missingKeys ["b", "b"]) := by
  intro sample expected
  have hcovers : Covers sample expected := by
    show ∀ k ∈ ["b", "a", "b"], sample.contains k = true
    decide
  obtain ⟨-, hinsert, herase⟩ := key_checks_agree
  obtain ⟨-, -, -, hrequire⟩ := herase sample expected hcovers "b" (by decide)
  exact ⟨hcovers, (hinsert sample expected "c" 3).2 hcovers, by decide, hrequire⟩

end CycleWatch.Metric
