import CycleWatch.Proofs.Config.Admission
import CycleWatch.Proofs.Metric.Composition
import CycleWatch.Proofs.Metric.Report
import CycleWatch.Proofs.Tailer.Segments
/-!
# Which configurations a line can satisfy

A configuration is admitted whatever characters stand in the names of the expected metrics, while a
line is cut at commas and at `=`. So an admitted configuration can be satisfied by a line exactly when
neither of the two stands in a name (`satisfiable_iff_separatorFree`). The line may be any text there;
one that is published from the sink holds no new line, and neither may the names then
(`satisfiableFromSink_iff`).
-/
namespace CycleWatch.Config

/-- Some line, which may be any text, is read as a sample with all expected metrics. -/
def Admitted.Satisfiable (a : Admitted) : Prop :=
  ∃ line sample, Metric.readLine a.config.metrics.family line = .ok sample ∧
    Metric.requireKeys sample a.expectedKeys = .ok ()

/-- Some contents of the sink have a last line that is read as a sample with all expected metrics. -/
def Admitted.SatisfiableFromSink (a : Admitted) : Prop :=
  ∃ contents line sample, Tailer.lastLine contents = some line ∧
    Metric.readLine a.config.metrics.family (some line) = .ok sample ∧
    Metric.requireKeys sample a.expectedKeys = .ok ()

variable {c : Config} {a : Admitted}

theorem separatorFree_of_satisfiable (h : a.Satisfiable) :
    ∀ k ∈ a.expectedKeys.keys, Metric.SeparatorFree k := by
  obtain ⟨line, sample, hread, hkeys⟩ := h
  exact Metric.separatorFree_of_line hread hkeys

/-- The expected metrics of an admitted configuration are trimmed and of the family. -/
theorem carriable_of_toAdmitted (h : toAdmitted c = .ok a) {k : String}
    (hk : k ∈ a.expectedKeys.keys) (hfree : Metric.SeparatorFree k) :
    Metric.Carriable a.config.metrics.family k := by
  have hfamily := (enforces_toAdmitted c).ok_iff.mp ⟨a, h⟩
    (.family (Metric.normalKeys c.metrics.expectedKeys) (Text.trim c.metrics.family))
    (by simp [requirements, Requirement.expectedKeys])
  rw [keys_expectedKeys h, (eq_of_toAdmitted h).1] at hk
  rw [(eq_of_toAdmitted h).1]
  exact
    { nonempty := (Metric.mem_normalKeys.mp hk).1
      trimmed := Text.trimmed_of_trim_eq (Metric.trim_of_mem_normalKeys hk)
      ofFamily := hfamily k hk
      separatorFree := hfree }

theorem satisfiable_of_separatorFree (h : toAdmitted c = .ok a)
    (hfree : ∀ k ∈ a.expectedKeys.keys, Metric.SeparatorFree k) : a.Satisfiable := by
  obtain ⟨sample, hread, hkeys⟩ :=
    Metric.readLine_keysLine fun k hk => carriable_of_toAdmitted h hk (hfree k hk)
  exact ⟨some (Metric.keysLine a.expectedKeys), sample, hread, hkeys⟩

/-- For an admitted configuration there is a line that is read as a sample with all expected metrics
exactly when neither of the separators of a line stands in the name of an expected metric. -/
theorem satisfiable_iff_separatorFree (h : toAdmitted c = .ok a) :
    a.Satisfiable ↔ ∀ k ∈ a.expectedKeys.keys, Metric.SeparatorFree k :=
  ⟨separatorFree_of_satisfiable, satisfiable_of_separatorFree h⟩

/-- Names and a family with blanks around them, and with blanks and other characters in them. -/
def spacedNames : Config :=
  { default with
    metrics := ⟨" AccGc\t", ["AccGc π ", "\u00a0AccGc\"Done\"", "AccGc π", " "], false⟩ }

theorem satisfiable_spacedNames :
    ∃ a, toAdmitted spacedNames = .ok a ∧
      a.config.metrics = ⟨"AccGc", ["AccGc π", "AccGc\"Done\""], false⟩ ∧ a.Satisfiable := by
  obtain ⟨a, ha⟩ : ∃ a, toAdmitted spacedNames = .ok a := ⟨_, rfl⟩
  have hmetrics : a.config.metrics = ⟨"AccGc", ["AccGc π", "AccGc\"Done\""], false⟩ := by
    rw [(eq_of_toAdmitted ha).1]
    decide
  refine ⟨a, ha, hmetrics, (satisfiable_iff_separatorFree ha).mpr ?_⟩
  rw [keys_expectedKeys ha, hmetrics]
  decide

/-- The default configuration, but with a comma in the name of the one metric it expects. -/
def commaInName : Config :=
  { default with metrics := { Metrics.default with expectedKeys := ["AccGc,x"] } }

/-- A comma in a name is no defect, and no line satisfies the configuration. -/
theorem admitted_not_satisfiable : ∃ a, toAdmitted commaInName = .ok a ∧ ¬a.Satisfiable := by
  refine ⟨_, rfl, fun h => ?_⟩
  have hfree := separatorFree_of_satisfiable h "AccGc,x" (by decide)
  exact hfree.1 (by decide)

/-! ## Lines from the sink -/

theorem expectedKeys_ne_nil (h : toAdmitted c = .ok a) : a.expectedKeys.keys ≠ [] := by
  have hmet := (enforces_toAdmitted c).ok_iff.mp ⟨a, h⟩
    ⟨Metric.normalKeys c.metrics.expectedKeys ≠ [], (· = .emptyValue "metrics" "expectedKeys")⟩
    (by simp [requirements, Requirement.expectedKeys])
  rw [keys_expectedKeys h, (eq_of_toAdmitted h).1]
  exact hmet

/-- A line from the sink can satisfy an admitted configuration exactly when no name of an expected
metric holds one of the separators or a new line. -/
theorem satisfiableFromSink_iff (h : toAdmitted c = .ok a) :
    a.SatisfiableFromSink ↔
      ∀ k ∈ a.expectedKeys.keys, Metric.SeparatorFree k ∧ '\n' ∉ k.toList := by
  constructor
  · rintro ⟨contents, line, sample, hlast, hread, hkeys⟩ k hk
    refine ⟨Metric.separatorFree_of_line hread hkeys k hk, fun hnewline => ?_⟩
    have hcontains := Metric.requireKeys_eq_ok_iff.mp hkeys k hk
    exact (Tailer.lastLine_trimmed hlast).2.1 (Metric.mem_of_readLine hread k hcontains _ hnewline)
  · intro hfree
    obtain ⟨sample, hread, hkeys⟩ :=
      Metric.readLine_keysLine fun k hk => carriable_of_toAdmitted h hk (hfree k hk).1
    have hsingle : '\n' ∉ (Metric.keysLine a.expectedKeys).toList := by
      intro hnewline
      rcases Metric.mem_of_mem_keysLine hnewline with hother | ⟨k, hk, hnewline⟩
      · exact absurd hother (by decide)
      · exact (hfree k hk).2 hnewline
    have hne : ¬Text.AllBlank (Metric.keysLine a.expectedKeys).toList := fun hblank =>
      absurd (hblank _ (Metric.equals_mem_keysLine (expectedKeys_ne_nil h))) (by decide)
    refine ⟨_, _, sample, Tailer.lastLine_line hsingle hne, ?_, hkeys⟩
    rw [Metric.readLine_trimEnd, hread]

end CycleWatch.Config
