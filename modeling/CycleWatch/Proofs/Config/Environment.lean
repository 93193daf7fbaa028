import CycleWatch.Config.Overrides
import CycleWatch.Proofs.Config.Admission
/-!
# What an environment can spoil

The environment and the configuration are cleaned by the same measure: what is read from the environment
is in normal form and within the limit of the list (`inNormalForm_of_ofVars`). So an admitted
configuration that is overridden is admitted as it stands, or refused for a number that the environment
sets, or for the family where the environment sets one side of it (`override_of_admitted`).
-/
namespace CycleWatch.Config

/-- The texts and metrics that are set are in normal form, not empty, and not too many. -/
structure Overrides.InNormalForm (o : Overrides) : Prop where
  sinkFile : ∀ s, o.sinkFile = some s → Text.trim s = s ∧ s ≠ ""
  family : ∀ s, o.family = some s → Text.trim s = s ∧ s ≠ ""
  expectedKeys : ∀ keys, o.expectedKeys = some keys →
    Metric.normalKeys keys = keys ∧ keys ≠ [] ∧ keys.length ≤ expectedKeysMax

/-- The defect is that of a number that is set, or of the family where it or the metrics are set. -/
inductive Overrides.Spoils (o : Overrides) (c : Config) : Defect → Prop where
  | pollIntervalMs {n : UInt64} (set : o.pollIntervalMs = some n)
      (out : ¬(10 ≤ n.toNat ∧ n.toNat ≤ 60000)) :
      Spoils o c (.timeOutOfRange "tailer" "pollIntervalMs" ⟨n.toNat, 10, 60000⟩)
  | maxAttempts {n : UInt32} (set : o.maxAttempts = some n)
      (out : ¬(1 ≤ n.toNat ∧ n.toNat ≤ 1000)) :
      Spoils o c (.limitOutOfRange "waiter" "maxAttempts" ⟨n.toNat, 1, 1000⟩)
  | delayMs {n : UInt64} (set : o.delayMs = some n) (out : ¬(1 ≤ n.toNat ∧ n.toNat ≤ 600000)) :
      Spoils o c (.timeOutOfRange "waiter" "delayMs" ⟨n.toNat, 1, 600000⟩)
  | family {key : String} (set : o.family.isSome ∨ o.expectedKeys.isSome)
      (expected : key ∈ (o.override c).metrics.expectedKeys)
      (out : ¬(o.override c).metrics.family.toList <+: key.toList) :
      Spoils o c (.keyOutsideFamily key (o.override c).metrics.family)

variable {vars : Dict String} {var : String} {o : Overrides} {c : Config}

/-! ## What is read from the environment -/

theorem trimmed_of_value? {raw trimmed : String} (h : value? vars var = .ok (some (raw, trimmed))) :
    Text.trim trimmed = trimmed ∧ trimmed ≠ "" := by
  rw [value?] at h
  cases hget : vars.get? var with
  | none => rw [hget] at h; cases h
  | some given =>
    simp only [hget] at h
    split at h
    case isTrue => cases h
    case isFalse hne =>
      cases h
      exact ⟨Text.trim_trim _, hne⟩

theorem trimmed_of_text? {s : String} (h : text? vars var = .ok (some s)) :
    Text.trim s = s ∧ s ≠ "" := by
  obtain ⟨given, hgiven, h⟩ := ok_of_bind h
  cases given with
  | none => cases h
  | some pair =>
    cases h
    exact trimmed_of_value? hgiven

theorem normal_of_keys? {keys : List String} (h : keys? vars var = .ok (some keys)) :
    Metric.normalKeys keys = keys ∧ keys ≠ [] ∧ keys.length ≤ expectedKeysMax := by
  obtain ⟨given, hgiven, h⟩ := ok_of_bind h
  cases given with
  | none => cases h
  | some pair =>
    simp only at h
    split at h
    case isTrue => cases h
    case isFalse hne =>
      split at h
      case isTrue => cases h
      case isFalse hsize =>
        cases h
        exact ⟨Metric.normalKeys_normalKeys _, hne, Nat.not_lt.mp hsize⟩

/-- What was read from the environment is in normal form. -/
theorem inNormalForm_of_ofVars (h : Overrides.ofVars vars = .ok o) : o.InNormalForm := by
  obtain ⟨sinkFile, hsinkFile, h⟩ := ok_of_bind h
  iterate 3 obtain ⟨_, -, h⟩ := ok_of_bind h
  obtain ⟨family, hfamily, h⟩ := ok_of_bind h
  obtain ⟨expectedKeys, hexpectedKeys, h⟩ := ok_of_bind h
  iterate 2 obtain ⟨_, -, h⟩ := ok_of_bind h
  cases h
  exact
    { sinkFile := fun s hs => trimmed_of_text? (hsinkFile.trans (congrArg _ hs))
      family := fun s hs => trimmed_of_text? (hfamily.trans (congrArg _ hs))
      expectedKeys := fun keys hkeys =>
        normal_of_keys? (hexpectedKeys.trans (congrArg _ hkeys)) }

/-! ## What the configuration becomes -/

section

variable {α : Type} {overridden : Option α} {v : α} {p : α → Prop}

theorem getD_of_forall (hset : ∀ w, overridden = some w → p w) (hv : p v) :
    p (overridden.getD v) := by
  cases overridden with
  | some w => exact hset w rfl
  | none => exact hv

theorem exists_set_of_not_getD (hv : p v) (h : ¬p (overridden.getD v)) :
    ∃ w, overridden = some w ∧ overridden.getD v = w ∧ ¬p w := by
  cases overridden with
  | some w => exact ⟨w, rfl, rfl, h⟩
  | none => exact absurd hv h

end

theorem settings_of_normalize_eq (h : normalize c = c) :
    Text.trim c.tailer.sinkFile = c.tailer.sinkFile ∧
      Text.trim c.metrics.family = c.metrics.family ∧
      Metric.normalKeys c.metrics.expectedKeys = c.metrics.expectedKeys :=
  ⟨congrArg (·.tailer.sinkFile) h, congrArg (·.metrics.family) h,
    congrArg (·.metrics.expectedKeys) h⟩

/-- Overriding a configuration in normal form leaves nothing to clean. -/
theorem normalize_override (ho : o.InNormalForm) (hc : normalize c = c) :
    normalize (o.override c) = o.override c := by
  obtain ⟨hsinkFile, hfamily, hkeys⟩ := settings_of_normalize_eq hc
  simp only [normalize, Overrides.override,
    getD_of_forall (p := fun s => Text.trim s = s) (fun s hs => (ho.sinkFile s hs).1) hsinkFile,
    getD_of_forall (p := fun s => Text.trim s = s) (fun s hs => (ho.family s hs).1) hfamily,
    getD_of_forall (p := fun keys => Metric.normalKeys keys = keys)
      (fun keys hk => (ho.expectedKeys keys hk).1) hkeys]

/-- What a configuration in normal form requires is that of its own texts and metrics. -/
theorem requirements_of_normalize_eq (h : normalize c = c) :
    requirements c =
      ⟨c.version = currentVersion, (· = .unsupportedVersion c.version currentVersion)⟩ ::
        .text "tailer" "sinkFile" c.tailer.sinkFile ::
        .range (.timeOutOfRange "tailer" "pollIntervalMs") 10 60000
          c.tailer.pollIntervalMs.toNat ::
        .range (.limitOutOfRange "waiter" "maxAttempts") 1 1000 c.waiter.maxAttempts.toNat ::
        .range (.timeOutOfRange "waiter" "delayMs") 1 600000 c.waiter.delayMs.toNat ::
        .text "metrics" "prefix" c.metrics.family ::
        Requirement.expectedKeys c.metrics.expectedKeys c.metrics.family := by
  obtain ⟨hsinkFile, hfamily, hkeys⟩ := settings_of_normalize_eq h
  rw [requirements, hsinkFile, hfamily, hkeys]

/-- What an overridden configuration does not meet, though it was met before, the override spoils. -/
theorem spoils_of_unmet (ho : o.InNormalForm) (hc : normalize c = c)
    (hmet : ∀ r ∈ requirements c, r.met) {r : Requirement}
    (hr : r ∈ requirements (o.override c)) (hunmet : ¬r.met) {d : Defect} (hd : r.reportedBy d) :
    o.Spoils c d := by
  simp only [requirements_of_normalize_eq hc, Requirement.expectedKeys, List.forall_mem_cons] at hmet
  obtain ⟨hversion, hsinkFile, hpoll, hattempts, hdelay, hfamily, hkeys, hsize, hall, -⟩ := hmet
  simp only [requirements_of_normalize_eq (normalize_override ho hc), Requirement.expectedKeys,
    List.mem_cons, List.not_mem_nil, or_false] at hr
  rcases hr with rfl | rfl | rfl | rfl | rfl | rfl | rfl | rfl | rfl
  · exact absurd hversion hunmet
  · exact absurd (getD_of_forall (p := (· ≠ "")) (fun s hs => (ho.sinkFile s hs).2) hsinkFile)
      hunmet
  · obtain ⟨n, hset, hn, hout⟩ := exists_set_of_not_getD
      (p := fun n : UInt64 => 10 ≤ n.toNat ∧ n.toNat ≤ 60000) hpoll hunmet
    obtain rfl : d = .timeOutOfRange "tailer" "pollIntervalMs" ⟨n.toNat, 10, 60000⟩ := hn ▸ hd
    exact .pollIntervalMs hset hout
  · obtain ⟨n, hset, hn, hout⟩ := exists_set_of_not_getD
      (p := fun n : UInt32 => 1 ≤ n.toNat ∧ n.toNat ≤ 1000) hattempts hunmet
    obtain rfl : d = .limitOutOfRange "waiter" "maxAttempts" ⟨n.toNat, 1, 1000⟩ := hn ▸ hd
    exact .maxAttempts hset hout
  · obtain ⟨n, hset, hn, hout⟩ := exists_set_of_not_getD
      (p := fun n : UInt64 => 1 ≤ n.toNat ∧ n.toNat ≤ 600000) hdelay hunmet
    obtain rfl : d = .timeOutOfRange "waiter" "delayMs" ⟨n.toNat, 1, 600000⟩ := hn ▸ hd
    exact .delayMs hset hout
  · exact absurd (getD_of_forall (p := (· ≠ "")) (fun s hs => (ho.family s hs).2) hfamily) hunmet
  · exact absurd (getD_of_forall (p := (· ≠ [])) (fun keys hk => (ho.expectedKeys keys hk).2.1)
      hkeys) hunmet
  · exact absurd (getD_of_forall (p := fun keys : List String => keys.length ≤ expectedKeysMax)
      (fun keys hk => (ho.expectedKeys keys hk).2.2) hsize) hunmet
  · obtain ⟨key, hkey, hout, -, rfl⟩ := hd
    refine .family ?_ hkey hout
    cases hf : o.family with
    | some _ => exact .inl rfl
    | none =>
      cases hk : o.expectedKeys with
      | some _ => exact .inr rfl
      | none =>
        -- Neither side is set: the metric was outside the family before.
        rw [Overrides.override, hf, hk] at hkey hout
        exact absurd (hall key hkey) hout

/-- What an override spoils is neither the version, nor the emptiness or the length of a setting. -/
theorem code_of_spoils {d : Defect} (h : o.Spoils c d) :
    d.code ≠ .config "unsupported_version" ∧ d.code ≠ .config "empty_value" ∧
      d.code ≠ .config "list_too_large" := by
  cases h <;>
    · simp only [Defect.code]
      decide

/-- An override read from an environment, over an admitted configuration, is admitted and stands in the
outcome as it was read; or it is refused, for a number that it sets and that is out of its range, or for
a metric outside the family where it sets one of the two. It is never refused for the version, for an
empty text or list, or for the length of the list. -/
theorem override_of_admitted {given : Config} {base : Admitted}
    (hvars : Overrides.ofVars vars = .ok o) (hbase : toAdmitted given = .ok base) :
    (∃ a, o.apply base.config = .ok a ∧ a.config = o.override base.config ∧
      (∀ s, o.sinkFile = some s → a.config.tailer.sinkFile = s) ∧
      (∀ s, o.family = some s → a.config.metrics.family = s) ∧
      ∀ keys, o.expectedKeys = some keys → a.config.metrics.expectedKeys = keys) ∨
    ∃ d, o.apply base.config = .error d.toFault ∧ o.Spoils base.config d ∧
      d.code ≠ .config "unsupported_version" ∧ d.code ≠ .config "empty_value" ∧
      d.code ≠ .config "list_too_large" := by
  have ho := inNormalForm_of_ofVars hvars
  have hnormal : normalize base.config = base.config := by
    rw [(eq_of_toAdmitted hbase).1, normalize_normalize]
  have hmet := (enforces_toAdmitted base.config).ok_iff.mp ⟨base, toAdmitted_config hbase⟩
  cases happly : toAdmitted (o.override base.config) with
  | ok a =>
    have hconfig : a.config = o.override base.config := by
      rw [(eq_of_toAdmitted happly).1, normalize_override ho hnormal]
    refine .inl ⟨a, by rw [Overrides.apply, happly, mapError_ok], hconfig, ?_, ?_, ?_⟩
    all_goals
      intro v hv
      rw [hconfig, Overrides.override, hv, Option.getD_some]
  | error d =>
    obtain ⟨r, hr, hunmet, hd⟩ := exists_unmet_of_reportsFirst <|
      ((enforces_toAdmitted (o.override base.config)).error_iff d).mp happly
    have hspoils := spoils_of_unmet ho hnormal hmet hr hunmet hd
    exact .inr ⟨d, by rw [Overrides.apply, happly, mapError_error], hspoils, code_of_spoils hspoils⟩

theorem override_of_admitted_two_keys :
    ∃ o base,
      Overrides.ofVars (.ofList [(familyVar, " Acc "), (expectedKeysVar, "AccB,, AccA,AccB")]) =
        .ok o ∧
      toAdmitted default = .ok base ∧
      ∃ a, o.apply base.config = .ok a ∧ a.config.metrics.family = "Acc" ∧
        a.config.metrics.expectedKeys = ["AccA", "AccB"] := by
  obtain ⟨base, hbase⟩ : ∃ base, toAdmitted default = .ok base := ⟨_, rfl⟩
  have hvars :
      Overrides.ofVars (.ofList [(familyVar, " Acc "), (expectedKeysVar, "AccB,, AccA,AccB")]) =
        .ok { Overrides.empty with family := some "Acc", expectedKeys := some ["AccA", "AccB"] } :=
    rfl
  refine ⟨_, base, hvars, hbase, ?_⟩
  rcases override_of_admitted hvars hbase with ⟨a, ha, -, -, hfamily, hkeys⟩ | ⟨d, -, hspoils, -⟩
  · exact ⟨a, ha, hfamily _ rfl, hkeys _ rfl⟩
  · have hall : ∀ key ∈ ["AccA", "AccB"], "Acc".toList <+: key.toList := by decide
    cases hspoils with
    | pollIntervalMs hset _ => cases hset
    | maxAttempts hset _ => cases hset
    | delayMs hset _ => cases hset
    | family _ hkey hout => exact absurd (hall _ hkey) hout

end CycleWatch.Config
