import CycleWatch.Proofs.Config.JsonText
import CycleWatch.Proofs.Toml.Document

/-!
# The configuration as TOML text

A configuration that is written as TOML is read as the same configuration (`read?_toTomlText`), since
the text holds the same tree as the configuration as JSON. So it does not matter in which of the two
formats a configuration was stored (`toml_text_loads_back`).
-/

namespace CycleWatch

namespace Config

/-! ## The tables of a configuration -/

/-- The assignments of the root. -/
def rootValues (c : Config) : List (String × Toml.Value) :=
  [("version", .nat c.version.toNat)]

/-- The assignments of the parts. -/
def partValues (c : Config) : List (String × List (String × Toml.Value)) :=
  [("tailer", [("sinkFile", .text c.tailer.sinkFile),
      ("pollIntervalMs", .nat c.tailer.pollIntervalMs.toNat)]),
    ("waiter", [("maxAttempts", .nat c.waiter.maxAttempts.toNat),
      ("delayMs", .nat c.waiter.delayMs.toNat)]),
    ("metrics", [("prefix", .text c.metrics.family), ("expectedKeys", .texts c.metrics.expectedKeys),
      ("skipStaleFirst", .bool c.metrics.skipStaleFirst)]),
    ("logging", [("level", .text c.logging.level.word)])]

theorem toTomlText_eq (c : Config) :
    c.toTomlText = String.ofList (Toml.writeDocument c.rootValues c.partValues) :=
  rfl

theorem bareKeys_rootValues (c : Config) :
    Toml.BareKeys (c.rootValues.map Prod.fst ++ c.partValues.map Prod.fst) := by
  simp only [rootValues, partValues, List.map_cons, List.map_nil]
  decide

theorem bareKeys_partValues (c : Config) :
    ∀ t ∈ c.partValues, Toml.BareKeys (t.2.map Prod.fst) := by
  simp only [partValues, List.forall_mem_cons, List.map_cons, List.map_nil]
  decide

/-- The document holds what the configuration as JSON holds. -/
theorem documentTree_eq_toTree (c : Config) :
    Toml.documentTree (.ofValues c.rootValues) (c.partValues.map fun t => (t.1, .ofValues t.2)) =
      c.toJson.toTree := by
  have hkeys : (Toml.Value.texts c.metrics.expectedKeys).toTree =
      (Json.arr (c.metrics.expectedKeys.map .str)).toTree := by
    rw [Json.toTree, Json.itemTrees_eq_map, List.map_map]
    rfl
  simp only [partValues, rootValues, Toml.documentTree, Toml.Bindings.toTree, Toml.Bindings.ofValues,
    List.map_cons, List.map_nil, List.cons_append, List.nil_append, hkeys]
  rfl

/-! ## The text reads back -/

theorem read?_toTomlText (c : Config) : Format.toml.read? c.toTomlText = some c := by
  have hread : Toml.read? c.toTomlText = some c.toJson.toTree := by
    rw [toTomlText_eq, Toml.read?_writeDocument (bareKeys_rootValues c) (bareKeys_partValues c),
      documentTree_eq_toTree]
  rw [Format.read?, Format.tree?, hread, Option.bind_some, ofTree?_toJson]

theorem parseAdmitted_toTomlText (c : Config) :
    Format.toml.parseAdmitted c.toTomlText = (toAdmitted c).mapError Defect.toFault := by
  rw [Format.parseAdmitted, Format.parse, read?_toTomlText]
  rfl

theorem parseAdmitted_toTomlText_config {c : Config} {a : Admitted} (h : toAdmitted c = .ok a) :
    Format.toml.parseAdmitted a.config.toTomlText = .ok a := by
  rw [parseAdmitted_toTomlText, toAdmitted_config h, mapError_ok]

/-- A text that holds the configuration in either format is loaded alike. -/
theorem load_toTomlText (c : Config) (o : Overrides) :
    load (some (.toml, c.toTomlText)) o = load (some (.json, c.toJsonText)) o := by
  rw [load_of_read? (read?_toTomlText c), load_of_read? (read?_toJsonText c)]

/-- The TOML text of a configuration is parsed as the configuration is admitted, so an admitted
configuration comes back as it is. And whatever is overridden, the TOML text is loaded as the JSON text
is, also from files with an extension that tells the format. -/
theorem toml_text_loads_back (c : Config) :
    Format.toml.parseAdmitted c.toTomlText = (toAdmitted c).mapError Defect.toFault ∧
    (∀ a, toAdmitted c = .ok a → Format.toml.parseAdmitted a.config.toTomlText = .ok a) ∧
    ∀ o : Overrides,
      load (some (.toml, c.toTomlText)) o = load (some (.json, c.toJsonText)) o ∧
      ∀ (read : String → Except IoFailure String) (tomlPath jsonPath : String),
        read tomlPath = .ok c.toTomlText → Format.ofPath tomlPath = .ok .toml →
        read jsonPath = .ok c.toJsonText → Format.ofPath jsonPath = .ok .json →
        loadFile read (some tomlPath) o = loadFile read (some jsonPath) o := by
  refine ⟨parseAdmitted_toTomlText c, fun a => parseAdmitted_toTomlText_config, fun o => ?_⟩
  refine ⟨load_toTomlText c o, fun read tomlPath jsonPath htoml htomlFormat hjson hjsonFormat => ?_⟩
  rw [loadFile_of_read htoml htomlFormat, loadFile_of_read hjson hjsonFormat, load_toTomlText]

theorem toml_text_loads_back_quotedSink :
    let read (path : String) : Except IoFailure String :=
      .ok (if path = "harness.toml" then quotedSink.toTomlText else quotedSink.toJsonText)
    ∃ a, toAdmitted quotedSink = .ok a ∧ Format.toml.parseAdmitted a.config.toTomlText = .ok a ∧
      loadFile read (some "harness.toml") .empty = .ok a ∧
      loadFile read (some "harness.json") .empty = .ok a := by
  intro read
  obtain ⟨a, ha⟩ : ∃ a, toAdmitted quotedSink = .ok a := ⟨_, rfl⟩
  obtain ⟨-, hparsed, hloaded⟩ := toml_text_loads_back quotedSink
  have hfiles := (hloaded .empty).2 read "harness.toml" "harness.json" rfl (by decide) rfl (by decide)
  have hjson : loadFile read (some "harness.json") .empty = .ok a := by
    have hread : read "harness.json" = .ok quotedSink.toJsonText := rfl
    have hformat : Format.ofPath "harness.json" = .ok .json := by decide
    rw [loadFile_of_read hread hformat, load_toJsonText, ha, mapError_ok]
  exact ⟨a, ha, hparsed a ha, hfiles.trans hjson, hjson⟩

end Config

end CycleWatch
