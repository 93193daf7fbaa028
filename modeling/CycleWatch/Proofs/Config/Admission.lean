import CycleWatch.Config.Admission
import CycleWatch.Proofs.Metric.NormalKeys
/-!
# Which configurations are admitted

The requirements on a configuration stand in the order in which they are looked at. A configuration is
admitted exactly when it meets all of them, and a defect reports the first one that it does not
(`enforces_validate`). What is admitted is in normal form, and is admitted again as it is
(`admission_is_exact`).
-/
namespace CycleWatch.Config

/-- A condition on a configuration, and the defects that report that it is not met. -/
structure Requirement where
  /-- The condition. -/
  met : Prop
  /-- What reports that the condition is not met. -/
  reportedBy : Defect → Prop

namespace Requirement

/-- A text is not blank. -/
def text (part field value : String) : Requirement :=
  ⟨value ≠ "", (· = .emptyValue part field)⟩

/-- A number lies in its range. -/
def range (refuse : OutOfRange → Defect) (least greatest value : Nat) : Requirement :=
  ⟨least ≤ value ∧ value ≤ greatest, (· = refuse ⟨value, least, greatest⟩)⟩

/-- All expected metrics are of the family; of those that are not, the least one is reported. -/
def family (keys : List String) (family : String) : Requirement :=
  ⟨∀ key ∈ keys, family.toList <+: key.toList,
    fun d => ∃ key ∈ keys, ¬family.toList <+: key.toList ∧
      (∀ other ∈ keys, ¬family.toList <+: other.toList → key ≤ other) ∧
      d = .keyOutsideFamily key family⟩

/-- There is an expected metric, there are not too many, and all are of the family. -/
def expectedKeys (keys : List String) (family : String) : List Requirement :=
  [⟨keys ≠ [], (· = .emptyValue "metrics" "expectedKeys")⟩,
    ⟨keys.length ≤ expectedKeysMax,
      (· = .listTooLarge "metrics" "expectedKeys" keys.length expectedKeysMax)⟩,
    .family keys family]

end Requirement

/-- What is required of a configuration, in the order in which it is looked at. -/
def requirements (c : Config) : List Requirement :=
  ⟨c.version = currentVersion, (· = .unsupportedVersion c.version currentVersion)⟩ ::
    .text "tailer" "sinkFile" (Text.trim c.tailer.sinkFile) ::
    .range (.timeOutOfRange "tailer" "pollIntervalMs") 10 60000 c.tailer.pollIntervalMs.toNat ::
    .range (.limitOutOfRange "waiter" "maxAttempts") 1 1000 c.waiter.maxAttempts.toNat ::
    .range (.timeOutOfRange "waiter" "delayMs") 1 600000 c.waiter.delayMs.toNat ::
    .text "metrics" "prefix" (Text.trim c.metrics.family) ::
    Requirement.expectedKeys (Metric.normalKeys c.metrics.expectedKeys)
      (Text.trim c.metrics.family)

/-- The defect reports the first of the requirements that is not met. -/
def ReportsFirst : List Requirement → Defect → Prop
  | [], _ => False
  | r :: rs, d => (¬r.met ∧ r.reportedBy d) ∨ (r.met ∧ ReportsFirst rs d)

/-- The outcome is a success exactly when all requirements are met, and otherwise a defect that reports
the first one that is not. -/
structure Enforces {α : Type} (rs : List Requirement) (outcome : Except Defect α) : Prop where
  ok_iff : (∃ a, outcome = .ok a) ↔ ∀ r ∈ rs, r.met
  error_iff : ∀ d, outcome = .error d ↔ ReportsFirst rs d

/-! ## Checks one after the other -/

section

variable {α β : Type} {rs rs' : List Requirement} {d : Defect}

theorem not_reportsFirst_of_met (h : ∀ r ∈ rs, r.met) : ¬ReportsFirst rs d := by
  induction rs with
  | nil => exact id
  | cons r rs ih =>
    have hr := h r List.mem_cons_self
    rintro (⟨hunmet, -⟩ | ⟨-, hd⟩)
    · exact hunmet hr
    · exact ih (fun q hq => h q (List.mem_cons_of_mem _ hq)) hd

theorem exists_unmet_of_reportsFirst (h : ReportsFirst rs d) :
    ∃ r ∈ rs, ¬r.met ∧ r.reportedBy d := by
  induction rs with
  | nil => cases h
  | cons r rs ih =>
    rcases h with hr | ⟨-, h⟩
    · exact ⟨r, List.mem_cons_self, hr⟩
    · obtain ⟨q, hq, hunmet⟩ := ih h
      exact ⟨q, List.mem_cons_of_mem _ hq, hunmet⟩

theorem reportsFirst_append :
    ReportsFirst (rs ++ rs') d ↔
      ReportsFirst rs d ∨ ((∀ r ∈ rs, r.met) ∧ ReportsFirst rs' d) := by
  induction rs with
  | nil => simp [ReportsFirst]
  | cons r rs ih =>
    simp only [List.cons_append, ReportsFirst, ih, List.forall_mem_cons]
    grind

theorem Enforces.ok (a : α) : Enforces [] (.ok a : Except Defect α) :=
  ⟨by simp, by simp [ReportsFirst]⟩

theorem Enforces.unmet {r : Requirement} {e : Defect} (hunmet : ¬r.met)
    (hreport : ∀ d, r.reportedBy d ↔ d = e) :
    Enforces (r :: rs) (.error e : Except Defect α) := by
  refine ⟨?_, fun d => ?_⟩
  · simp only [List.forall_mem_cons, hunmet, false_and, reduceCtorEq, exists_false]
  · simp only [ReportsFirst, hunmet, not_false_eq_true, true_and, false_and, or_false, hreport,
      Except.error.injEq, eq_comm]

theorem Enforces.met {r : Requirement} {outcome : Except Defect α} (hmet : r.met)
    (h : Enforces rs outcome) : Enforces (r :: rs) outcome := by
  refine ⟨?_, fun d => ?_⟩
  · rw [h.ok_iff, List.forall_mem_cons, and_iff_right hmet]
  · simp only [h.error_iff, ReportsFirst, hmet, not_true_eq_false, false_and, true_and, false_or]

/-- A refusal comes before what is looked at afterwards. -/
theorem Enforces.refuse {r : Requirement} {p : Prop} [Decidable p] {e : Defect}
    {outcome : Except Defect α} (hmet : r.met ↔ ¬p) (hreport : ∀ d, r.reportedBy d ↔ d = e)
    (h : Enforces rs outcome) : Enforces (r :: rs) (if p then .error e else outcome) := by
  by_cases hp : p
  · rw [if_pos hp]
    exact .unmet (fun hr => hmet.mp hr hp) hreport
  · rw [if_neg hp]
    exact .met (hmet.mpr hp) h

theorem Enforces.bind {outcome : Except Defect α} {next : α → Except Defect β}
    (h : Enforces rs outcome) (hnext : ∀ a, outcome = .ok a → Enforces rs' (next a)) :
    Enforces (rs ++ rs') (outcome >>= next) := by
  cases outcome with
  | error e =>
    have hunmet : ¬∀ r ∈ rs, r.met :=
      fun hmet => not_reportsFirst_of_met hmet ((h.error_iff e).mp rfl)
    have hfail : (Except.error e >>= next) = .error e := rfl
    refine ⟨?_, fun d => ?_⟩
    · rw [hfail, List.forall_mem_append]
      simp only [hunmet, false_and, reduceCtorEq, exists_false]
    · rw [hfail, reportsFirst_append, ← h.error_iff d]
      simp only [hunmet, false_and, or_false, Except.error.injEq]
  | ok a =>
    have hmet : ∀ r ∈ rs, r.met := h.ok_iff.mp ⟨a, rfl⟩
    have hgoes : (Except.ok a >>= next) = next a := rfl
    refine ⟨?_, fun d => ?_⟩
    · rw [hgoes, (hnext a rfl).ok_iff, List.forall_mem_append]
      exact (and_iff_right hmet).symm
    · rw [hgoes, (hnext a rfl).error_iff, reportsFirst_append, and_iff_right hmet]
      exact (or_iff_right (not_reportsFirst_of_met hmet)).symm

/-- What cannot fail requires nothing. -/
theorem Enforces.bind_ok {outcome : Except Defect α} {next : α → Except Defect β}
    (h : Enforces rs outcome) (hnext : ∀ a, outcome = .ok a → ∃ b, next a = .ok b) :
    Enforces rs (outcome >>= next) := by
  rw [← List.append_nil rs]
  refine h.bind fun a ha => ?_
  obtain ⟨b, hb⟩ := hnext a ha
  exact ⟨by simp [hb], by simp [hb, ReportsFirst]⟩

end

/-! ## The single checks -/

theorem startsWith_iff {s start : String} :
    Text.startsWith s start = true ↔ start.toList <+: s.toList :=
  List.isPrefixOf_iff_prefix

theorem enforces_checkVersion (c : Config) :
    Enforces [⟨c.version = currentVersion, (· = .unsupportedVersion c.version currentVersion)⟩]
      (checkVersion c) := by
  rw [checkVersion, ← ite_not]
  exact .refuse Decidable.not_not.symm (fun _ => Iff.rfl) (.ok ())

theorem enforces_checkText (part field value : String) :
    Enforces [.text part field value] (checkText part field value) :=
  .refuse Iff.rfl (fun _ => Iff.rfl) (.ok ())

theorem enforces_checkRange (refuse : OutOfRange → Defect) (least greatest value : Nat) :
    Enforces [.range refuse least greatest value] (checkRange refuse least greatest value) := by
  refine .refuse ?_ (fun _ => Iff.rfl) (.ok ())
  simp only [Requirement.range]
  omega

/-- The first metric outside the family is the least one, as the metrics ascend. -/
theorem enforces_family {keys : List String} (h : keys.Pairwise (· < ·)) (family : String) :
    Enforces [.family keys family]
      (match keys.find? fun key => !Text.startsWith key family with
        | some key => Except.error (.keyOutsideFamily key family)
        | none => .ok ()) := by
  have houtside : ∀ key, (!Text.startsWith key family) = true ↔ ¬family.toList <+: key.toList := by
    simp [← startsWith_iff]
  cases hfind : keys.find? fun key => !Text.startsWith key family with
  | none =>
    refine .met (fun key hkey => ?_) (.ok ())
    simpa [houtside] using List.find?_eq_none.mp hfind key hkey
  | some key =>
    simp only [Metric.find?_eq_some_iff_least h, houtside] at hfind
    obtain ⟨hkey, hout, hleast⟩ := hfind
    refine .unmet (fun hall => hout (hall key hkey)) fun d => ⟨?_, ?_⟩
    · rintro ⟨other, hother, hout', hleast', rfl⟩
      rw [String.le_antisymm (hleast' key hkey hout) (hleast other hother hout')]
    · rintro rfl
      exact ⟨key, hkey, hout, hleast, rfl⟩

theorem enforces_checkKeys {m : Metrics} (h : m.expectedKeys.Pairwise (· < ·)) :
    Enforces (Requirement.expectedKeys m.expectedKeys m.family) (checkKeys m) := by
  refine .refuse Iff.rfl (fun _ => Iff.rfl) (.refuse ?_ (fun _ => Iff.rfl) ?_)
  · exact Nat.not_lt.symm
  · exact enforces_family h m.family

/-! ## The checks together -/

@[simp] theorem normalize_normalize (c : Config) : normalize (normalize c) = normalize c := by
  simp only [normalize, Text.trim_trim, Metric.normalKeys_normalKeys]

theorem enforces_validate (c : Config) : Enforces (requirements c) (validate c) := by
  have hascending : (normalize c).metrics.expectedKeys.Pairwise (· < ·) :=
    Metric.pairwise_normalKeys _
  refine (enforces_checkVersion c).bind fun _ _ => ?_
  refine (enforces_checkText _ _ _).bind fun _ _ => ?_
  refine (enforces_checkRange _ _ _ _).bind fun _ _ => ?_
  refine (enforces_checkRange _ _ _ _).bind fun _ _ => ?_
  refine (enforces_checkRange _ _ _ _).bind fun _ _ => ?_
  refine (enforces_checkText _ _ _).bind fun _ _ => ?_
  exact (enforces_checkKeys hascending).bind_ok fun _ _ => ⟨_, rfl⟩

theorem ok_of_bind {ε α β : Type} {check : Except ε α} {next : α → Except ε β} {b : β}
    (h : (check >>= next) = .ok b) : ∃ a, check = .ok a ∧ next a = .ok b := by
  cases check with
  | error e => cases h
  | ok a => exact ⟨a, rfl, h⟩

/-- What is let pass is the configuration in normal form. -/
theorem eq_normalize_of_validate {c valid : Config} (h : validate c = .ok valid) :
    valid = normalize c := by
  iterate 7 obtain ⟨_, -, h⟩ := ok_of_bind h
  exact (Except.ok.inj h).symm

theorem bounded_of_range {least greatest n : Nat} (h : least ≤ n ∧ n ≤ greatest)
    (refuse : OutOfRange → Defect) :
    (Bounded.of least greatest n).mapError refuse = .ok ⟨n, h.1, h.2⟩ := by
  have hbounded : Bounded.of least greatest n = .ok ⟨n, h.1, h.2⟩ := Bounded.of_eq_ok_iff.mpr rfl
  rw [hbounded, mapError_ok]

/-- A setting is refused for its range exactly when the number for the limits is, and for the same
reason. -/
theorem checkRange_eq_bounded (refuse : OutOfRange → Defect) (least greatest n : Nat) :
    checkRange refuse least greatest n =
      ((Bounded.of least greatest n).mapError refuse).map fun _ => () := by
  by_cases h : least ≤ n ∧ n ≤ greatest
  · rw [bounded_of_range h, checkRange, if_neg (by omega)]
    rfl
  · rw [Bounded.of_eq_error_iff.mpr ⟨rfl, h⟩, checkRange, if_pos (by omega)]
    rfl

/-- The numbers of a configuration that was let pass are in their ranges. -/
theorem limits_of_validate {c valid : Config} (h : validate c = .ok valid) :
    ∃ limits, Limits.of valid = .ok limits ∧
      limits.pollIntervalMs.val = c.tailer.pollIntervalMs.toNat ∧
      limits.maxAttempts.val = c.waiter.maxAttempts.toNat ∧
      limits.delayMs.val = c.waiter.delayMs.toNat := by
  have hmet := (enforces_validate c).ok_iff.mp ⟨valid, h⟩
  obtain ⟨-, -, hpoll, hattempts, hdelay, -⟩ : _ := by
    simpa only [requirements, List.forall_mem_cons] using hmet
  rw [eq_normalize_of_validate h]
  refine ⟨⟨⟨_, hpoll.1, hpoll.2⟩, ⟨_, hattempts.1, hattempts.2⟩, ⟨_, hdelay.1, hdelay.2⟩⟩, ?_, rfl,
    rfl, rfl⟩
  simp only [Limits.of, normalize, bounded_of_range hpoll, bounded_of_range hattempts,
    bounded_of_range hdelay]
  rfl

theorem enforces_toAdmitted (c : Config) : Enforces (requirements c) (toAdmitted c) := by
  refine (enforces_validate c).bind_ok fun valid hvalid => ?_
  obtain ⟨limits, hlimits, -⟩ := limits_of_validate hvalid
  exact ⟨⟨valid, limits⟩, by rw [hlimits]; rfl⟩

/-- An admitted configuration is in normal form, and its numbers are those given. -/
theorem eq_of_toAdmitted {c : Config} {a : Admitted} (h : toAdmitted c = .ok a) :
    a.config = normalize c ∧
      a.limits.pollIntervalMs.val = c.tailer.pollIntervalMs.toNat ∧
      a.limits.maxAttempts.val = c.waiter.maxAttempts.toNat ∧
      a.limits.delayMs.val = c.waiter.delayMs.toNat := by
  obtain ⟨valid, hvalid, h⟩ := ok_of_bind h
  obtain ⟨limits, hlimits, hvals⟩ := limits_of_validate hvalid
  rw [hlimits] at h
  cases h
  exact ⟨eq_normalize_of_validate hvalid, hvals⟩

/-- A configuration and its normal form are admitted or refused alike. -/
theorem toAdmitted_normalize (c : Config) : toAdmitted (normalize c) = toAdmitted c := by
  have hvalidate : validate (normalize c) = validate c := by
    simp only [validate, normalize_normalize]
    rfl
  rw [toAdmitted, toAdmitted, hvalidate]

theorem toAdmitted_config {c : Config} {a : Admitted} (h : toAdmitted c = .ok a) :
    toAdmitted a.config = .ok a := by
  rw [(eq_of_toAdmitted h).1, toAdmitted_normalize, h]

/-! ## What is derived from an admitted configuration -/

theorem keys_expectedKeys {c : Config} {a : Admitted} (h : toAdmitted c = .ok a) :
    a.expectedKeys.keys = a.config.metrics.expectedKeys := by
  rw [Admitted.expectedKeys, (eq_of_toAdmitted h).1]
  exact Metric.normalKeys_normalKeys _

theorem waiter_config {c : Config} {a : Admitted} (h : toAdmitted c = .ok a) :
    a.config.waiter = c.waiter := by
  rw [(eq_of_toAdmitted h).1]
  rfl

/-- The policy of the check has the numbers of the configuration as they are. -/
theorem policy_checkSettings {c : Config} {a : Admitted} (h : toAdmitted c = .ok a) :
    a.checkSettings.policy.maxAttempts = a.config.waiter.maxAttempts ∧
      a.checkSettings.policy.delay = .ofMillis a.config.waiter.delayMs := by
  obtain ⟨-, -, hattempts, hdelay⟩ := eq_of_toAdmitted h
  rw [← waiter_config h] at hattempts hdelay
  have hpos : 1 ≤ a.config.waiter.maxAttempts.toNat := hattempts ▸ a.limits.maxAttempts.lo_le
  rw [Admitted.checkSettings, Wait.Policy.of, dif_pos hpos, Limits.waiterDelay, hdelay,
    UInt64.ofNat_toNat]
  exact ⟨rfl, rfl⟩

/-- A configuration is admitted exactly when it meets every requirement, and otherwise the first one
that it does not meet is reported; of the metrics outside the family, the least one. Once the settings
have passed, their numbers fit their ranges. What is admitted has the texts trimmed, the expected
metrics trimmed, ascending and without blanks, and everything else as it was; its numbers, its key set
and the settings of the check are those of the configuration, and it is admitted again as it is. -/
theorem admission_is_exact (c : Config) :
    ((∃ a, toAdmitted c = .ok a) ↔ ∀ r ∈ requirements c, r.met) ∧
    (∀ d, toAdmitted c = .error d ↔ ReportsFirst (requirements c) d) ∧
    (∀ texts, (Metric.normalKeys texts).Pairwise (· < ·) ∧
      ∀ k, k ∈ Metric.normalKeys texts ↔ k ≠ "" ∧ ∃ t ∈ texts, Text.trim t = k) ∧
    (∀ valid, validate c = .ok valid → ∃ limits, Limits.of valid = .ok limits) ∧
    ∀ a, toAdmitted c = .ok a →
      a.config =
        { version := c.version
          tailer := ⟨Text.trim c.tailer.sinkFile, c.tailer.pollIntervalMs⟩
          waiter := c.waiter
          metrics := ⟨Text.trim c.metrics.family, Metric.normalKeys c.metrics.expectedKeys,
            c.metrics.skipStaleFirst⟩
          logging := c.logging } ∧
      a.limits.pollIntervalMs.val = c.tailer.pollIntervalMs.toNat ∧
      a.limits.maxAttempts.val = c.waiter.maxAttempts.toNat ∧
      a.limits.delayMs.val = c.waiter.delayMs.toNat ∧
      a.expectedKeys.keys = a.config.metrics.expectedKeys ∧
      a.checkSettings.policy.maxAttempts = a.config.waiter.maxAttempts ∧
      a.checkSettings.policy.delay = .ofMillis a.config.waiter.delayMs ∧
      a.checkSettings.family = a.config.metrics.family ∧
      a.checkSettings.expectedKeys.keys = a.config.metrics.expectedKeys ∧
      a.checkSettings.skipStaleFirst = a.config.metrics.skipStaleFirst ∧
      toAdmitted a.config = .ok a := by
  refine ⟨(enforces_toAdmitted c).ok_iff, (enforces_toAdmitted c).error_iff, fun texts => ?_,
    fun valid hvalid => ?_, fun a ha => ?_⟩
  · exact ⟨Metric.pairwise_normalKeys texts, fun k => Metric.mem_normalKeys⟩
  · obtain ⟨limits, hlimits, -⟩ := limits_of_validate hvalid
    exact ⟨limits, hlimits⟩
  · obtain ⟨hconfig, hpoll, hattempts, hdelay⟩ := eq_of_toAdmitted ha
    obtain ⟨hpolicy, hpause⟩ := policy_checkSettings ha
    have hkeys := keys_expectedKeys ha
    exact ⟨hconfig, hpoll, hattempts, hdelay, hkeys, hpolicy, hpause, rfl, hkeys, rfl,
      toAdmitted_config ha⟩

end CycleWatch.Config
