import CycleWatch.Proofs.Config.Admission
import CycleWatch.Proofs.Metric.Language
import CycleWatch.Proofs.Metric.Report

/-!
# The family and the names of a sample

A family is compared with whole tokens, and the name of a token ends at its first `=`. So every name in a
sample starts with the family, as long as there is no `=` in the family; if there is one, the sample has
no other name than what stands before it, and that is outside the family (`names_start_with_family`).
-/

namespace CycleWatch

namespace Metric

variable {family token name before after : String} {value : Int64} {line : Option String}
  {sample : Sample}

/-! ## One token -/

/-- What has no separator in it ends before the first one. -/
theorem prefix_of_prefix_append {sep : Char} {start cs ds : List Char} (hsep : sep ∉ start)
    (h : start <+: cs ++ sep :: ds) : start <+: cs := by
  rcases List.prefix_or_prefix_of_prefix h (List.prefix_append cs (sep :: ds)) with hcs | hcs
  · exact hcs
  · obtain ⟨rest, rfl⟩ := hcs
    rw [List.prefix_append_right_inj] at h
    cases rest with
    | nil => simp
    | cons c rest =>
        obtain rfl : c = sep := (List.cons_prefix_cons.mp h).1
        simp at hsep

theorem CutAtEquals.unique {before' after' : String} (h : CutAtEquals token before after)
    (h' : CutAtEquals token before' after') : before = before' ∧ after = after' := by
  have hcut := h.cutAtFirst.symm.trans h'.cutAtFirst
  simpa [String.toList_inj] using hcut

/-- A token that continues a text with `=` is cut at the first `=` of that text. -/
theorem CutAtEquals.of_prefix {start : String} (h : CutAtEquals start before after)
    (hbegins : start.toList <+: token.toList) : ∃ after', CutAtEquals token before after' := by
  obtain ⟨rest, hrest⟩ := hbegins
  refine ⟨after ++ String.ofList rest, ?_, h.first⟩
  rw [← String.toList_inj, ← hrest, h.joined]
  simp

/-- Without `=` in it, the family of a token is that of its name. -/
theorem Binds.family_prefix (h : Binds token name value) (hfamily : family.toList <+: token.toList)
    (htrim : Text.Trimmed family.toList) (hequals : '=' ∉ family.toList) :
    family.toList <+: name.toList := by
  obtain @⟨before, after, _, hcut, -, -⟩ := h
  have hchars : token.toList = before.toList ++ '=' :: after.toList := by
    simp [hcut.joined]
  have hbefore : family.toList <+: before.toList :=
    prefix_of_prefix_append hequals (hchars ▸ hfamily)
  rw [Text.toList_trim]
  exact htrim.prefix_trimChars hbefore

/-- With `=` in it, the family of a token tells its name. -/
theorem Binds.name_of_family (h : Binds token name value) (hfamily : family.toList <+: token.toList)
    (hcut : CutAtEquals family before after) : name = Text.trim before := by
  obtain ⟨hcut', -, -⟩ := h
  obtain ⟨after', htoken⟩ := hcut.of_prefix hfamily
  rw [(hcut'.unique htoken).1]

/-! ## A line -/

theorem exists_binds_of_readLine (h : readLine family line = .ok sample)
    (hname : sample.contains name = true) :
    ∃ token value, family.toList <+: token.toList ∧ Binds token name value := by
  cases line with
  | none =>
      cases h
      cases hname
  | some line =>
      have hdenotes := (readLine_eq_ok_iff (cutAtCommas_pieces line)).mp h
      obtain ⟨token, htoken, value, hbinds⟩ := (hdenotes.name_iff name).mp hname
      have hconsidered : Considered family token := by
        simpa using (List.mem_filter.mp htoken).2
      exact ⟨token, value, hconsidered.2, hbinds⟩

end Metric

namespace Config

open CycleWatch.Metric

variable {family : String} {line : Option String} {sample : Sample}

/-- An admitted configuration can have this family. -/
def CanHaveFamily (family : String) : Prop :=
  ∃ given a, toAdmitted given = .ok a ∧ a.config.metrics.family = family

/-- A configuration that expects the one metric with the name of its family is admitted. -/
theorem canHaveFamily_iff : CanHaveFamily family ↔ family ≠ "" ∧ Text.trim family = family := by
  constructor
  · rintro ⟨given, a, ha, rfl⟩
    have hmet := (enforces_toAdmitted given).ok_iff.mp ⟨a, ha⟩
    obtain ⟨-, -, -, -, -, hfamily, -⟩ : _ := by
      simpa only [requirements, List.forall_mem_cons] using hmet
    rw [(eq_of_toAdmitted ha).1]
    exact ⟨hfamily, Text.trim_trim _⟩
  · rintro ⟨hne, htrim⟩
    let given : Config := { default with metrics := ⟨family, [family], true⟩ }
    have hkeys : normalKeys [family] = [family] := by
      simp [normalKeys, htrim, hne, distinctAscending, insertKey]
    have hmet : ∀ r ∈ requirements given, r.met := by
      simp only [requirements, Requirement.expectedKeys, Requirement.text, Requirement.range,
        Requirement.family, given, hkeys, htrim, List.forall_mem_cons, List.not_mem_nil,
        false_implies, implies_true, and_true]
      exact ⟨rfl, by decide, by decide, by decide, by decide, hne, by simp,
        by simp [expectedKeysMax], List.prefix_rfl⟩
    obtain ⟨a, ha⟩ := (enforces_toAdmitted given).ok_iff.mpr hmet
    exact ⟨given, a, ha, by rw [(eq_of_toAdmitted ha).1]; exact htrim⟩

/-- An admitted configuration can have any family that is trimmed and not empty, and no other. What is
read with it has only names that start with the family if there is no `=` in it; if there is one, what
stands before the first `=` is the only name, which does not start with the family. -/
theorem names_start_with_family :
    (∀ family, CanHaveFamily family ↔ family ≠ "" ∧ Text.trim family = family) ∧
    ∀ (family : String) (line : Option String) (sample : Sample), CanHaveFamily family →
      readLine family line = .ok sample →
      ('=' ∉ family.toList → ∀ name, sample.contains name = true → family.toList <+: name.toList) ∧
        ∀ before after, CutAtEquals family before after → ∀ name, sample.contains name = true →
          name = Text.trim before ∧ ¬ family.toList <+: name.toList := by
  refine ⟨fun _ => canHaveFamily_iff, fun family line sample hfamily hread => ?_⟩
  have htrim := Text.trimmed_of_trim_eq (canHaveFamily_iff.mp hfamily).2
  constructor
  · intro hequals name hname
    obtain ⟨token, value, hbegins, hbinds⟩ := exists_binds_of_readLine hread hname
    exact hbinds.family_prefix hbegins htrim hequals
  · intro before after hcut name hname
    obtain ⟨token, value, hbegins, hbinds⟩ := exists_binds_of_readLine hread hname
    refine ⟨hbinds.name_of_family hbegins hcut, fun hstart => ?_⟩
    have hequals : '=' ∈ family.toList := by simp [hcut.joined]
    exact (separatorFree_of_readLine hread name hname).2 (hstart.subset hequals)

theorem names_start_with_family_inner_blank :
    CanHaveFamily "Acc Gc" ∧
      readLine "Acc Gc" (some "up=1, Acc Gc =5,Acc GcX = 6") =
        .ok (.ofList [("Acc Gc", 5), ("Acc GcX", 6)]) ∧
      ∀ name, (Dict.ofList [("Acc Gc", (5 : Int64)), ("Acc GcX", 6)]).contains name = true →
        "Acc Gc".toList <+: name.toList := by
  obtain ⟨hcan, hnames⟩ := names_start_with_family
  have hfamily : CanHaveFamily "Acc Gc" := (hcan _).mpr ⟨by decide, by decide⟩
  have hread : readLine "Acc Gc" (some "up=1, Acc Gc =5,Acc GcX = 6") =
      .ok (.ofList [("Acc Gc", 5), ("Acc GcX", 6)]) := rfl
  exact ⟨hfamily, hread, (hnames _ _ _ hfamily hread).1 (by decide)⟩

/-- The family ends with the separator of names and values: the name that is read is not of the family. -/
theorem name_outside_family :
    CanHaveFamily "A=" ∧ ∃ sample, readLine "A=" (some "A=1") = .ok sample ∧
      sample.contains "A" = true ∧ ¬ "A=".toList <+: "A".toList :=
  ⟨canHaveFamily_iff.mpr ⟨by decide, by decide⟩, .ofList [("A", 1)], rfl, rfl, by decide⟩

end Config

end CycleWatch
