import CycleWatch.Config.Source
import CycleWatch.Proofs.Config.Layers
import CycleWatch.Proofs.Json.Fields
/-!
# The configuration as JSON text

A configuration that is written as JSON is read as the same configuration, whether it is admitted or not
(`read?_toJsonText`). So loading the text is admitting the configuration, and an admitted configuration
is loaded, and printed again, as it is (`json_text_loads_back`).
-/
namespace CycleWatch

namespace Config

variable {dialect : Tree.Dialect}

/-! ## The settings read back -/

theorem orDefault_of_read {α : Type} {default a : α} {read : Tree → Option α} {t : Tree}
    (h : read t = some a) : orDefault default read (some t) = some a :=
  h

theorem orDefault_uint64 (default n : UInt64) :
    orDefault default (·.int?.bind Word.uint64?) (some (Json.int n.toNat).toTree) = some n := by
  rw [orDefault, Json.uint64?_toTree]

theorem orDefault_uint32 (default n : UInt32) :
    orDefault default (·.int?.bind Word.uint32?) (some (Json.int n.toNat).toTree) = some n := by
  rw [orDefault, Json.toTree_int, Tree.int?, Option.bind_some, Word.uint32?_toNat]

theorem orDefault_texts (default texts : List String) :
    orDefault default Tree.texts? (some (Json.arr (texts.map .str)).toTree) = some texts :=
  Json.texts?_toTree texts

theorem orDefault_level (isEmptyPayload : Tree → Bool) (default level : Log.Level) :
    orDefault default (levelOfTree? isEmptyPayload) (some (Json.str level.word).toTree) =
      some level := by
  cases level <;> rfl

/-! ## The parts read back -/

section

variable {t : Tree}

theorem Tailing.ofTree?_of_fields? {sinkFile pollIntervalMs : Option Tree} {c : Tailing}
    (h : t.fields? ["sinkFile", "pollIntervalMs"] false dialect.passesItems =
      some [sinkFile, pollIntervalMs])
    (hsinkFile : orDefault Tailing.default.sinkFile Tree.text? sinkFile = some c.sinkFile)
    (hpollIntervalMs : orDefault Tailing.default.pollIntervalMs (·.int?.bind Word.uint64?)
      pollIntervalMs = some c.pollIntervalMs) :
    Tailing.ofTree? dialect t = some c := by
  simp only [Tailing.ofTree?, h, hsinkFile, hpollIntervalMs, Option.bind_eq_bind, Option.bind_some,
    Option.pure_def]

theorem Waiting.ofTree?_of_fields? {maxAttempts delayMs : Option Tree} {c : Waiting}
    (h : t.fields? ["maxAttempts", "delayMs"] false dialect.passesItems =
      some [maxAttempts, delayMs])
    (hmaxAttempts : orDefault Waiting.default.maxAttempts (·.int?.bind Word.uint32?) maxAttempts =
      some c.maxAttempts)
    (hdelayMs : orDefault Waiting.default.delayMs (·.int?.bind Word.uint64?) delayMs =
      some c.delayMs) :
    Waiting.ofTree? dialect t = some c := by
  simp only [Waiting.ofTree?, h, hmaxAttempts, hdelayMs, Option.bind_eq_bind, Option.bind_some,
    Option.pure_def]

theorem Metrics.ofTree?_of_fields? {family expectedKeys skipStaleFirst : Option Tree} {c : Metrics}
    (h : t.fields? ["prefix", "expectedKeys", "skipStaleFirst"] false dialect.passesItems =
      some [family, expectedKeys, skipStaleFirst])
    (hfamily : orDefault Metrics.default.family Tree.text? family = some c.family)
    (hexpectedKeys : orDefault Metrics.default.expectedKeys Tree.texts? expectedKeys =
      some c.expectedKeys)
    (hskipStaleFirst : orDefault Metrics.default.skipStaleFirst Tree.bool? skipStaleFirst =
      some c.skipStaleFirst) :
    Metrics.ofTree? dialect t = some c := by
  simp only [Metrics.ofTree?, h, hfamily, hexpectedKeys, hskipStaleFirst, Option.bind_eq_bind,
    Option.bind_some, Option.pure_def]

theorem Logging.ofTree?_of_fields? {level : Option Tree} {c : Logging}
    (h : t.fields? ["level"] false dialect.passesItems = some [level])
    (hlevel : orDefault Logging.default.level (levelOfTree? dialect.isEmptyPayload) level =
      some c.level) :
    Logging.ofTree? dialect t = some c := by
  simp only [Logging.ofTree?, h, hlevel, Option.bind_eq_bind, Option.bind_some, Option.pure_def]

theorem ofTree?_of_fields? {version tailer waiter metrics logging : Option Tree} {c : Config}
    (h : t.fields? ["version", "tailer", "waiter", "metrics", "logging"] false
      dialect.passesItems = some [version, tailer, waiter, metrics, logging])
    (hversion : orDefault currentVersion (·.int?.bind Word.uint32?) version = some c.version)
    (htailer : orDefault Tailing.default (Tailing.ofTree? dialect) tailer = some c.tailer)
    (hwaiter : orDefault Waiting.default (Waiting.ofTree? dialect) waiter = some c.waiter)
    (hmetrics : orDefault Metrics.default (Metrics.ofTree? dialect) metrics = some c.metrics)
    (hlogging : orDefault Logging.default (Logging.ofTree? dialect) logging = some c.logging) :
    ofTree? dialect t = some c := by
  simp only [ofTree?, h, hversion, htailer, hwaiter, hmetrics, hlogging, Option.bind_eq_bind,
    Option.bind_some, Option.pure_def]

end

theorem Tailing.ofTree?_toJson (c : Tailing) : Tailing.ofTree? dialect c.toJson.toTree = some c :=
  Tailing.ofTree?_of_fields? (Json.fields?_toTree (by rfl) (by decide)) rfl (orDefault_uint64 _ _)

theorem Waiting.ofTree?_toJson (c : Waiting) : Waiting.ofTree? dialect c.toJson.toTree = some c :=
  Waiting.ofTree?_of_fields? (Json.fields?_toTree (by rfl) (by decide)) (orDefault_uint32 _ _)
    (orDefault_uint64 _ _)

theorem Metrics.ofTree?_toJson (c : Metrics) : Metrics.ofTree? dialect c.toJson.toTree = some c :=
  Metrics.ofTree?_of_fields? (Json.fields?_toTree (by rfl) (by decide)) rfl (orDefault_texts _ _) rfl

theorem Logging.ofTree?_toJson (c : Logging) : Logging.ofTree? dialect c.toJson.toTree = some c :=
  Logging.ofTree?_of_fields? (Json.fields?_toTree (by rfl) (by decide)) (orDefault_level _ _ _)

theorem ofTree?_toJson (c : Config) : ofTree? dialect c.toJson.toTree = some c :=
  ofTree?_of_fields? (Json.fields?_toTree (by rfl) (by decide)) (orDefault_uint32 _ _)
    (orDefault_of_read (Tailing.ofTree?_toJson c.tailer))
    (orDefault_of_read (Waiting.ofTree?_toJson c.waiter))
    (orDefault_of_read (Metrics.ofTree?_toJson c.metrics))
    (orDefault_of_read (Logging.ofTree?_toJson c.logging))

/-! ## The text reads back -/

theorem read?_toJsonText (c : Config) : Format.json.read? c.toJsonText = some c := by
  rw [Format.read?, Format.tree?, toJsonText, Json.read?_toPrettyText, Option.bind_some,
    ofTree?_toJson]

theorem override_empty (c : Config) : Overrides.empty.override c = c := rfl

theorem load_toJsonText (c : Config) :
    load (some (.json, c.toJsonText)) .empty = (toAdmitted c).mapError Defect.toFault := by
  rw [load_of_read? (read?_toJsonText c), Overrides.apply, override_empty]

/-- What is admitted loads back from its own text. -/
theorem load_toJsonText_config {c : Config} {a : Admitted} (h : toAdmitted c = .ok a) :
    load (some (.json, a.config.toJsonText)) .empty = .ok a := by
  rw [load_toJsonText, toAdmitted_config h, mapError_ok]

/-- An environment without any of the variables overrides nothing. -/
theorem overridesOf_of_unset {vars : Dict String} (h : ∀ var ∈ overrideVars, vars.get? var = none) :
    overridesOf vars = .ok .empty := by
  have hunset : ∀ var ∈ overrideVars, value? vars var = .ok none := by
    intro var hvar
    rw [value?, h var hvar]
  obtain ⟨hsink, hpoll, hattempts, hdelay, hfamily, hkeys, hskip, hlevel, -⟩ : _ := by
    simpa only [overrideVars, List.forall_mem_cons] using hunset
  simp only [overridesOf, Overrides.ofVars, text?, setting?, keys?, hsink, hpoll, hattempts, hdelay,
    hfamily, hkeys, hskip, hlevel]
  rfl

theorem effectiveText_toJsonText {c : Config} {a : Admitted} (h : toAdmitted c = .ok a)
    {read : String → Except IoFailure String} {path : String} {vars : Dict String}
    (hread : read path = .ok a.config.toJsonText) (hformat : Format.ofPath path = .ok .json)
    (hvars : ∀ var ∈ overrideVars, vars.get? var = none) :
    effectiveText read (some path) vars = .ok a.config.toJsonText := by
  have hload : loadFile read (some path) .empty = .ok a := by
    rw [loadFile_of_read hread hformat, load_toJsonText_config h]
  simp only [effectiveText, overridesOf_of_unset hvars, hload, bind, Except.bind]
  rfl

/-- Loading the JSON text of a configuration, with nothing overridden, is admitting the configuration.
An admitted configuration is loaded back as it is; and where a file with JSON in it holds its text, the
configuration in force is that text again. -/
theorem json_text_loads_back (c : Config) :
    load (some (.json, c.toJsonText)) .empty = (toAdmitted c).mapError Defect.toFault ∧
    ∀ a, toAdmitted c = .ok a →
      load (some (.json, a.config.toJsonText)) .empty = .ok a ∧
      ∀ (read : String → Except IoFailure String) (path : String) (vars : Dict String),
        read path = .ok a.config.toJsonText → Format.ofPath path = .ok .json →
        (∀ var ∈ overrideVars, vars.get? var = none) →
        effectiveText read (some path) vars = .ok a.config.toJsonText :=
  ⟨load_toJsonText c, fun _ h =>
    ⟨load_toJsonText_config h, fun _ _ _ => effectiveText_toJsonText h⟩⟩

/-- A path with quotes of both kinds, a backslash and a new line in it, and names with blanks around
them, one of them twice. -/
def quotedSink : Config :=
  { default with
    tailer := ⟨" gc \"é\"\n'✓'\\.log", 1000⟩
    metrics := { Metrics.default with expectedKeys := [" AccGc\tπ ", "AccGc", "AccGc\tπ"] } }

theorem json_text_loads_back_quotedSink :
    ∃ a, toAdmitted quotedSink = .ok a ∧ a.config ≠ quotedSink ∧
      load (some (.json, quotedSink.toJsonText)) .empty = .ok a ∧
      load (some (.json, a.config.toJsonText)) .empty = .ok a ∧
      effectiveText (fun _ => .ok a.config.toJsonText) (some "conf.d/harness.JSON") .empty =
        .ok a.config.toJsonText := by
  obtain ⟨a, ha⟩ : ∃ a, toAdmitted quotedSink = .ok a := ⟨_, rfl⟩
  obtain ⟨hgiven, hadmitted⟩ := json_text_loads_back quotedSink
  obtain ⟨hload, hfile⟩ := hadmitted a ha
  have hread := hfile (fun _ => .ok a.config.toJsonText) "conf.d/harness.JSON" .empty rfl (by decide)
    fun var _ => Dict.get?_empty var
  refine ⟨a, ha, ?_, ?_, hload, hread⟩
  · rw [(eq_of_toAdmitted ha).1]
    decide
  · rw [hgiven, ha, mapError_ok]

end Config

end CycleWatch
