import CycleWatch.Config.Source
import CycleWatch.Proofs.Config.Admission
/-!
# Settings from three layers

A setting is taken from the environment, else from the text, else from the defaults, each setting for
itself, also where a part is given without some of its settings (`layers_of_ofTree?`). Only the outcome
is looked at when it is admitted, so what is overridden may be anything (`load_eq_of_agree`).
-/
namespace CycleWatch

/-- What a tree gives for a part or a setting: a table by its name, a list by its place. -/
def Tree.part? (name : String) (place : Nat) : Tree → Option Tree
  | .table members => members.lookup (some name)
  | .list items => items[place]?
  | _ => none

/-- What a tree gives for a setting of a part. -/
def Tree.setting? (part : String) (place : Nat) (name : String) (placeInPart : Nat) (t : Tree) :
    Option Tree :=
  (t.part? part place).bind (Tree.part? name placeInPart)

namespace Config

/-- The value is that of the override, else what is given reads as, else the default. -/
def Layered {α : Type} (overridden : Option α) (default : α) (read : Tree → Option α)
    (given : Option Tree) (value : α) : Prop :=
  match overridden, given with
  | some v, _ => value = v
  | none, some t => read t = some value
  | none, none => value = default

/-- Every setting of the configuration comes from its own three layers; the version has no override. -/
structure Layers (o : Overrides) (dialect : Tree.Dialect) (t : Tree) (c : Config) : Prop where
  version : Layered none currentVersion (·.int?.bind Word.uint32?) (t.part? "version" 0) c.version
  sinkFile : Layered o.sinkFile Tailing.default.sinkFile Tree.text?
    (t.setting? "tailer" 1 "sinkFile" 0) c.tailer.sinkFile
  pollIntervalMs : Layered o.pollIntervalMs Tailing.default.pollIntervalMs
    (·.int?.bind Word.uint64?) (t.setting? "tailer" 1 "pollIntervalMs" 1) c.tailer.pollIntervalMs
  maxAttempts : Layered o.maxAttempts Waiting.default.maxAttempts (·.int?.bind Word.uint32?)
    (t.setting? "waiter" 2 "maxAttempts" 0) c.waiter.maxAttempts
  delayMs : Layered o.delayMs Waiting.default.delayMs (·.int?.bind Word.uint64?)
    (t.setting? "waiter" 2 "delayMs" 1) c.waiter.delayMs
  family : Layered o.family Metrics.default.family Tree.text?
    (t.setting? "metrics" 3 "prefix" 0) c.metrics.family
  expectedKeys : Layered o.expectedKeys Metrics.default.expectedKeys Tree.texts?
    (t.setting? "metrics" 3 "expectedKeys" 1) c.metrics.expectedKeys
  skipStaleFirst : Layered o.skipStaleFirst Metrics.default.skipStaleFirst Tree.bool?
    (t.setting? "metrics" 3 "skipStaleFirst" 2) c.metrics.skipStaleFirst
  level : Layered o.level Logging.default.level (levelOfTree? dialect.isEmptyPayload)
    (t.setting? "logging" 4 "level" 0) c.logging.level

/-- The configurations have the same version and the same settings, those that are overridden aside. -/
structure AgreeBeside (o : Overrides) (c c' : Config) : Prop where
  version : c.version = c'.version
  sinkFile : o.sinkFile = none → c.tailer.sinkFile = c'.tailer.sinkFile
  pollIntervalMs : o.pollIntervalMs = none → c.tailer.pollIntervalMs = c'.tailer.pollIntervalMs
  maxAttempts : o.maxAttempts = none → c.waiter.maxAttempts = c'.waiter.maxAttempts
  delayMs : o.delayMs = none → c.waiter.delayMs = c'.waiter.delayMs
  family : o.family = none → c.metrics.family = c'.metrics.family
  expectedKeys : o.expectedKeys = none → c.metrics.expectedKeys = c'.metrics.expectedKeys
  skipStaleFirst : o.skipStaleFirst = none → c.metrics.skipStaleFirst = c'.metrics.skipStaleFirst
  level : o.level = none → c.logging.level = c'.logging.level

/-! ## What a tree gives -/

theorem lookup_of_members? {members : List (Option String × Tree)} {named : List (String × Tree)}
    (h : (Tree.table members).members? = some named) (name : String) :
    named.lookup name = members.lookup (some name) := by
  simp only [Tree.members?] at h
  induction members generalizing named with
  | nil =>
    cases h
    rfl
  | cons m rest ih =>
    rw [List.mapM_cons] at h
    obtain ⟨first, hfirst, h⟩ := Option.bind_eq_some_iff.mp h
    obtain ⟨others, hothers, h⟩ := Option.bind_eq_some_iff.mp h
    obtain ⟨key, hkey, rfl⟩ := Option.map_eq_some_iff.mp hfirst
    obtain ⟨k, t⟩ := m
    cases hkey
    cases h
    simp only [List.lookup_cons, ih hothers]
    rfl

/-- The items of a list are what it gives for the first places. -/
theorem map_some_take_append_replicate (items : List Tree) (names : List String) :
    (items.take names.length).map some ++ List.replicate (names.length - items.length) none =
      names.mapIdx fun place _ => items[place]? := by
  apply List.ext_getElem?
  intro place
  simp only [List.getElem?_append, List.getElem?_mapIdx, List.getElem?_map, List.getElem?_take,
    List.getElem?_replicate, List.length_map, List.length_take]
  grind

/-- The fields of a record are what the tree gives for each of them. -/
theorem fields?_eq {t : Tree} {names : List String} {passesKeys passesItems : Bool}
    {given : List (Option Tree)} (h : t.fields? names passesKeys passesItems = some given) :
    given = names.mapIdx fun place name => t.part? name place := by
  cases t with
  | table members =>
    simp only [Tree.fields?] at h
    split at h
    case h_1 => cases h
    case h_2 named hnamed =>
      split at h
      · cases h
      · split at h
        · cases h
        · -- Neither refused: each field is looked up by its name, and its place does not count.
          cases h
          apply List.ext_getElem?
          intro place
          simp only [List.getElem?_map, List.getElem?_mapIdx, Tree.part?,
            lookup_of_members? hnamed]
  | list items =>
    simp only [Tree.fields?] at h
    split at h
    · cases h
    · cases h
      exact map_some_take_append_replicate items names
  | _ => cases h

/-! ## What the parts are read as -/

section

variable {dialect : Tree.Dialect} {t : Tree}

theorem Tailing.settings_of_ofTree? {p : Tailing} (h : Tailing.ofTree? dialect t = some p) :
    orDefault Tailing.default.sinkFile Tree.text? (t.part? "sinkFile" 0) = some p.sinkFile ∧
      orDefault Tailing.default.pollIntervalMs (·.int?.bind Word.uint64?)
        (t.part? "pollIntervalMs" 1) = some p.pollIntervalMs := by
  obtain ⟨given, hgiven, h⟩ := Option.bind_eq_some_iff.mp h
  cases fields?_eq hgiven
  obtain ⟨sinkFile, hsinkFile, h⟩ := Option.bind_eq_some_iff.mp h
  obtain ⟨pollIntervalMs, hpollIntervalMs, h⟩ := Option.bind_eq_some_iff.mp h
  cases h
  exact ⟨hsinkFile, hpollIntervalMs⟩

theorem Waiting.settings_of_ofTree? {p : Waiting} (h : Waiting.ofTree? dialect t = some p) :
    orDefault Waiting.default.maxAttempts (·.int?.bind Word.uint32?) (t.part? "maxAttempts" 0) =
        some p.maxAttempts ∧
      orDefault Waiting.default.delayMs (·.int?.bind Word.uint64?) (t.part? "delayMs" 1) =
        some p.delayMs := by
  obtain ⟨given, hgiven, h⟩ := Option.bind_eq_some_iff.mp h
  cases fields?_eq hgiven
  obtain ⟨maxAttempts, hmaxAttempts, h⟩ := Option.bind_eq_some_iff.mp h
  obtain ⟨delayMs, hdelayMs, h⟩ := Option.bind_eq_some_iff.mp h
  cases h
  exact ⟨hmaxAttempts, hdelayMs⟩

theorem Metrics.settings_of_ofTree? {p : Metrics} (h : Metrics.ofTree? dialect t = some p) :
    orDefault Metrics.default.family Tree.text? (t.part? "prefix" 0) = some p.family ∧
      orDefault Metrics.default.expectedKeys Tree.texts? (t.part? "expectedKeys" 1) =
        some p.expectedKeys ∧
      orDefault Metrics.default.skipStaleFirst Tree.bool? (t.part? "skipStaleFirst" 2) =
        some p.skipStaleFirst := by
  obtain ⟨given, hgiven, h⟩ := Option.bind_eq_some_iff.mp h
  cases fields?_eq hgiven
  obtain ⟨family, hfamily, h⟩ := Option.bind_eq_some_iff.mp h
  obtain ⟨expectedKeys, hexpectedKeys, h⟩ := Option.bind_eq_some_iff.mp h
  obtain ⟨skipStaleFirst, hskipStaleFirst, h⟩ := Option.bind_eq_some_iff.mp h
  cases h
  exact ⟨hfamily, hexpectedKeys, hskipStaleFirst⟩

theorem Logging.settings_of_ofTree? {p : Logging} (h : Logging.ofTree? dialect t = some p) :
    orDefault Logging.default.level (levelOfTree? dialect.isEmptyPayload) (t.part? "level" 0) =
      some p.level := by
  obtain ⟨given, hgiven, h⟩ := Option.bind_eq_some_iff.mp h
  cases fields?_eq hgiven
  obtain ⟨level, hlevel, h⟩ := Option.bind_eq_some_iff.mp h
  cases h
  exact hlevel

theorem parts_of_ofTree? {c : Config} (h : ofTree? dialect t = some c) :
    orDefault currentVersion (·.int?.bind Word.uint32?) (t.part? "version" 0) = some c.version ∧
      orDefault Tailing.default (Tailing.ofTree? dialect) (t.part? "tailer" 1) = some c.tailer ∧
      orDefault Waiting.default (Waiting.ofTree? dialect) (t.part? "waiter" 2) = some c.waiter ∧
      orDefault Metrics.default (Metrics.ofTree? dialect) (t.part? "metrics" 3) = some c.metrics ∧
      orDefault Logging.default (Logging.ofTree? dialect) (t.part? "logging" 4) =
        some c.logging := by
  obtain ⟨given, hgiven, h⟩ := Option.bind_eq_some_iff.mp h
  cases fields?_eq hgiven
  obtain ⟨version, hversion, h⟩ := Option.bind_eq_some_iff.mp h
  obtain ⟨tailer, htailer, h⟩ := Option.bind_eq_some_iff.mp h
  obtain ⟨waiter, hwaiter, h⟩ := Option.bind_eq_some_iff.mp h
  obtain ⟨metrics, hmetrics, h⟩ := Option.bind_eq_some_iff.mp h
  obtain ⟨logging, hlogging, h⟩ := Option.bind_eq_some_iff.mp h
  cases h
  exact ⟨hversion, htailer, hwaiter, hmetrics, hlogging⟩

end

/-! ## One setting over the other -/

section

variable {α β : Type} {default : α} {read : Tree → Option α} {given : Option Tree} {value : α}

theorem layered_of_orDefault (overridden : Option α)
    (h : orDefault default read given = some value) :
    Layered overridden default read given (overridden.getD value) := by
  cases overridden with
  | some v => exact rfl
  | none =>
    cases given with
    | none => exact (Option.some.inj h).symm
    | some t => exact h

/-- A part that is missing has the defaults of all of its settings. -/
theorem orDefault_setting {get : α → β} {readSetting : Tree → Option β} {name : String}
    {place : Nat} (h : orDefault default read given = some value)
    (hread : ∀ t v, read t = some v →
      orDefault (get default) readSetting (t.part? name place) = some (get v)) :
    orDefault (get default) readSetting (given.bind (Tree.part? name place)) =
      some (get value) := by
  cases given with
  | none =>
    cases h
    rfl
  | some t => exact hread t value h

end

variable {o : Overrides}

theorem layers_of_ofTree? {dialect : Tree.Dialect} {t : Tree} {c : Config}
    (h : ofTree? dialect t = some c) : Layers o dialect t (o.override c) := by
  obtain ⟨hversion, htailer, hwaiter, hmetrics, hlogging⟩ := parts_of_ofTree? h
  exact
    { version := layered_of_orDefault none hversion
      sinkFile := layered_of_orDefault _ <|
        orDefault_setting htailer fun _ _ h => (Tailing.settings_of_ofTree? h).1
      pollIntervalMs := layered_of_orDefault _ <|
        orDefault_setting htailer fun _ _ h => (Tailing.settings_of_ofTree? h).2
      maxAttempts := layered_of_orDefault _ <|
        orDefault_setting hwaiter fun _ _ h => (Waiting.settings_of_ofTree? h).1
      delayMs := layered_of_orDefault _ <|
        orDefault_setting hwaiter fun _ _ h => (Waiting.settings_of_ofTree? h).2
      family := layered_of_orDefault _ <|
        orDefault_setting hmetrics fun _ _ h => (Metrics.settings_of_ofTree? h).1
      expectedKeys := layered_of_orDefault _ <|
        orDefault_setting hmetrics fun _ _ h => (Metrics.settings_of_ofTree? h).2.1
      skipStaleFirst := layered_of_orDefault _ <|
        orDefault_setting hmetrics fun _ _ h => (Metrics.settings_of_ofTree? h).2.2
      level := layered_of_orDefault _ <|
        orDefault_setting hlogging fun _ _ h => Logging.settings_of_ofTree? h }

/-- A part that is given without some of its settings keeps their defaults, and what is overridden may
be out of its range. -/
example (dialect : Tree.Dialect) :
    (ofTree? dialect (.table [(some "waiter", .table [(some "maxAttempts", .int 0)])])).map
      (fun c => (({ Overrides.empty with maxAttempts := some 5 } : Overrides).override c).waiter) =
      some ⟨5, 5000⟩ := by
  rfl

/-! ## What is overridden does not count -/

theorem getD_congr {α : Type} {overridden : Option α} {v w : α} (h : overridden = none → v = w) :
    overridden.getD v = overridden.getD w := by
  cases overridden with
  | some _ => rfl
  | none => exact h rfl

theorem override_eq_of_agree {c c' : Config} (h : AgreeBeside o c c') :
    o.override c = o.override c' := by
  simp only [Overrides.override, h.version, getD_congr h.sinkFile, getD_congr h.pollIntervalMs,
    getD_congr h.maxAttempts, getD_congr h.delayMs, getD_congr h.family,
    getD_congr h.expectedKeys, getD_congr h.skipStaleFirst, getD_congr h.level]

/-- A text that reads as a configuration is loaded by overriding that configuration. -/
theorem load_of_read? {format : Format} {text : String} {c : Config}
    (h : format.read? text = some c) : load (some (format, text)) o = o.apply c := by
  rw [load, Format.parse, h]
  rfl

theorem loadFile_of_read {read : String → Except IoFailure String} {path text : String}
    {format : Format} (hread : read path = .ok text) (hformat : Format.ofPath path = .ok format)
    (o : Overrides) : loadFile read (some path) o = load (some (format, text)) o := by
  simp only [loadFile, hread, mapError_ok, hformat, bind, Except.bind]

theorem load_eq_of_agree {format format' : Format} {text text' : String} {c c' : Config}
    (h : format.read? text = some c) (h' : format'.read? text' = some c')
    (hagree : AgreeBeside o c c') :
    load (some (format, text)) o = load (some (format', text')) o := by
  rw [load_of_read? h, load_of_read? h', Overrides.apply, Overrides.apply,
    override_eq_of_agree hagree]

/-- An override that is put over what came of it, brought into normal form, changes nothing more. -/
theorem getD_getD_normal {α : Type} {f : α → α} (hf : ∀ a, f (f a) = f a) (overridden : Option α)
    (v : α) : f (overridden.getD (f (overridden.getD v))) = f (overridden.getD v) := by
  cases overridden with
  | some _ => rfl
  | none => exact hf v

theorem normalize_override_normalize (o : Overrides) (c : Config) :
    normalize (o.override (normalize (o.override c))) = normalize (o.override c) := by
  have hkept {α : Type} (overridden : Option α) (v : α) :
      overridden.getD (overridden.getD v) = overridden.getD v :=
    getD_getD_normal (f := id) (fun _ => rfl) overridden v
  simp only [normalize, Overrides.override, getD_getD_normal Text.trim_trim,
    getD_getD_normal Metric.normalKeys_normalKeys, hkept]

/-- What was loaded comes of overriding some configuration. -/
theorem exists_apply_of_load {source : Option (Format × String)} {a : Admitted}
    (h : load source o = .ok a) : ∃ c, toAdmitted (o.override c) = .ok a := by
  have happly : ∀ {c}, o.apply c = .ok a → toAdmitted (o.override c) = .ok a := by
    intro c hc
    rw [Overrides.apply] at hc
    cases hadmitted : toAdmitted (o.override c) with
    | error d => rw [hadmitted] at hc; cases hc
    | ok a' => rw [hadmitted] at hc; cases hc; rfl
  cases source with
  | none => exact ⟨default, happly h⟩
  | some source =>
    obtain ⟨format, text⟩ := source
    rw [load, Format.parse] at h
    cases hread : format.read? text with
    | none => rw [hread] at h; cases h
    | some c => rw [hread] at h; exact ⟨c, happly h⟩

theorem apply_config_of_load {source : Option (Format × String)} {a : Admitted}
    (h : load source o = .ok a) : o.apply a.config = .ok a := by
  obtain ⟨c, hc⟩ := exists_apply_of_load h
  -- What was loaded is a normal form, and admission sees normal forms only.
  rw [Overrides.apply, (eq_of_toAdmitted hc).1, ← toAdmitted_normalize,
    normalize_override_normalize, toAdmitted_normalize, hc, mapError_ok]

/-- The empty table is the default configuration. -/
theorem ofTree?_empty (dialect : Tree.Dialect) : ofTree? dialect (.table []) = some default :=
  rfl

theorem load_none_eq {format : Format} {text : String} (h : format.tree? text = some (.table [])) :
    load none o = load (some (format, text)) o := by
  rw [load_of_read? (c := default) (by rw [Format.read?, h]; exact ofTree?_empty _)]
  rfl

/-- A text that reads as a configuration is loaded by admitting the merged configuration: each of its
settings, for itself, is that of the environment, else that of the text, else the default. So texts
that agree beside what is overridden are loaded alike, whatever they hold there; no text is the empty
table; and what was loaded stays as it is when it is overridden once more. -/
theorem loading_layers_settings (o : Overrides) :
    (∀ format text c, Format.read? format text = some c →
      ∃ tree merged, format.tree? text = some tree ∧ Layers o format.dialect tree merged ∧
        load (some (format, text)) o = (toAdmitted merged).mapError Defect.toFault) ∧
    (∀ format text c format' text' c', Format.read? format text = some c →
      Format.read? format' text' = some c' → AgreeBeside o c c' →
      load (some (format, text)) o = load (some (format', text')) o) ∧
    Json.read? "\x7b\x7d" = some (.table []) ∧
    (∀ format text, Format.tree? format text = some (.table []) →
      load none o = load (some (format, text)) o) ∧
    ∀ source a, load source o = .ok a → o.apply a.config = .ok a := by
  refine ⟨fun format text c hread => ?_, fun format text c format' text' c' hread hread' => ?_,
    rfl, fun format text => load_none_eq, fun source a => apply_config_of_load⟩
  · obtain ⟨tree, htree, hc⟩ := Option.bind_eq_some_iff.mp hread
    exact ⟨tree, o.override c, htree, layers_of_ofTree? hc, load_of_read? hread⟩
  · exact load_eq_of_agree hread hread'

end Config

end CycleWatch
