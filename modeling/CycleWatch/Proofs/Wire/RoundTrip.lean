import CycleWatch.Proofs.Json.Compact
import CycleWatch.Proofs.Json.Fields
import CycleWatch.Wire
/-!
# The data of the program, written and read

Samples, key sets, versions, baselines, snapshots, codes and faults are read from JSON as they were
written (`ofTree?_toJson` of each), in whatever spelling. So no two values are written alike, and to
read a text and write its value a second time changes nothing (`Wire.data_round_trips`).
-/
namespace CycleWatch

/-! ## Each kind of data read back -/

/-- The bindings of a dict whose values are each written so that they are read again. -/
theorem mapM_bindings {α : Type} (write : α → Json) (read : Tree → Option α)
    (h : ∀ a, read (write a).toTree = some a) (d : Dict α) :
    ((d.toList.map fun e => (e.1, write e.2)).map fun m => (m.1, m.2.toTree)).mapM
      (fun m => (read m.2).map fun a => (m.1, a)) = some d.toList := by
  rw [List.map_map, mapM_made id fun e => ?_, List.map_id]
  rw [Function.comp_apply, h, Option.map_some]
  rfl

theorem ofList_toList {α : Type} (d : Dict α) : Dict.ofList d.toList = d :=
  Dict.ext_toList (Dict.toList_ofList d.ascending)

theorem Sample.ofTree?_toJson (s : Sample) : Sample.ofTree? s.toJson.toTree = some s := by
  have hvalue (n : Int64) : (Json.int n.toInt).toTree.int?.bind Word.int64? = some n := by
    rw [Json.toTree_int, Tree.int?, Option.bind_some, Word.int64?_toInt]
  have hbindings := mapM_bindings (fun n => .int n.toInt) (·.int?.bind Word.int64?) hvalue s
  rw [Sample.toJson, Json.toTree, Sample.ofTree?, Json.members?_toTree, Option.bind_eq_bind,
    Option.bind_some, hbindings]
  exact congrArg some (ofList_toList s)

theorem KeySet.ofTree?_toJson (s : KeySet) : KeySet.ofTree? s.toJson.toTree = some s := by
  rw [KeySet.ofTree?, KeySet.toJson, Json.texts?_toTree]
  rfl

theorem Version.ofTree?_toJson (v : Version) : Version.ofTree? v.toJson.toTree = some v := by
  rw [Version.ofTree?, Version.toJson, Json.uint64?_toTree, Option.map_some]

section

variable {members : List (String × Json)}

theorem Baseline.ofTree?_of_fields? {kind : Tree} {seen : Option Tree} {name : String}
    {b : Baseline}
    (h : (Json.obj members).toTree.fields? ["kind", "version"] true false = some [some kind, seen])
    (hkind : kind.name? Tree.isNull ["none", "version"] = some name)
    (hseen : ofKind? name seen = some b) :
    Baseline.ofTree? (Json.obj members).toTree = some b := by
  rw [Json.toTree] at h ⊢
  simp only [ofTree?, h, hkind, hseen, Option.bind_eq_bind, Option.bind_some]

theorem Baseline.ofTree?_toJson (b : Baseline) : Baseline.ofTree? b.toJson.toTree = some b := by
  cases b with
  | none =>
    have hfields : (Json.obj [("kind", .str "none")]).toTree.fields? ["kind", "version"] true false =
        some [some (Json.str "none").toTree, .none] :=
      (Json.fields?_of_known (by simp) (by simp)).trans (by simp [List.lookup_cons])
    exact ofTree?_of_fields? hfields (by rfl) (by rfl)
  | version seen =>
    have hseen : ofKind? "version" (some seen.toJson.toTree) = some (.version seen) := by
      rw [ofKind?, if_pos rfl, Tree.required, Version.ofTree?_toJson, Option.map_some]
    exact ofTree?_of_fields? (Json.fields?_toTree (by rfl) (by decide)) (by rfl) hseen

theorem Snapshot.ofTree?_of_fields? {version line observedAtMs : Tree} {s : Snapshot}
    (h : (Json.obj members).toTree.fields? ["version", "line", "observedAtMs"] true false =
      some [some version, some line, some observedAtMs])
    (hversion : Version.ofTree? version = some s.version)
    (hline : lineOfTree? line = some s.line)
    (hobservedAtMs : observedAtMs.int?.bind Word.uint64? = some s.observedAtMs) :
    Snapshot.ofTree? (Json.obj members).toTree = some s := by
  rw [Json.toTree] at h ⊢
  simp only [ofTree?, h, hversion, hline, hobservedAtMs, Option.bind_eq_bind, Option.bind_some,
    Option.pure_def]

theorem Snapshot.lineOfTree?_toTree (line : Option String) :
    lineOfTree? (match line with | some line => Json.str line | none => .null).toTree =
      some line := by
  cases line <;> rfl

theorem Snapshot.ofTree?_toJson (s : Snapshot) : Snapshot.ofTree? s.toJson.toTree = some s :=
  ofTree?_of_fields? (Json.fields?_toTree (by rfl) (by decide)) (Version.ofTree?_toJson s.version)
    (lineOfTree?_toTree s.line) (Json.uint64?_toTree s.observedAtMs)

end

theorem Fault.Code.ofTree?_toJson (c : Fault.Code) : Fault.Code.ofTree? c.toJson.toTree = some c := by
  rw [Fault.Code.ofTree?, Fault.Code.toJson, Json.fields?_toTree (by rfl) (by decide)]
  rfl

namespace Fault

theorem Kind.ofTree?_word (k : Kind) : Kind.ofTree? (Json.str k.word).toTree = some k := by
  cases k <;> rfl

theorem Retry.ofTree?_tag (r : Retry) : Retry.ofTree? (Json.str r.tag).toTree = some r := by
  cases r <;> rfl

theorem contextOfTree?_toTree (context : Dict String) :
    contextOfTree? (Json.obj (context.toList.map fun e => (e.1, .str e.2))).toTree =
      some context := by
  have hbindings := mapM_bindings Json.str Tree.text? (fun _ => rfl) context
  rw [Json.toTree, contextOfTree?, Json.members?_toTree, Option.bind_eq_bind, Option.bind_some,
    hbindings]
  exact congrArg some (ofList_toList context)

theorem ofTree?_of_fields? {t kind retry code message : Tree} {context : Option Tree} {f : Fault}
    (h : t.fields? ["kind", "class", "code", "message", "metadata"] true false =
      some [some kind, some retry, some code, some message, context])
    (hkind : Kind.ofTree? kind = some f.kind) (hretry : Retry.ofTree? retry = some f.retry)
    (hcode : Code.ofTree? code = some f.code) (hmessage : message.text? = some f.message)
    (hcontext : context.elim (some Dict.empty) contextOfTree? = some f.context) :
    ofTree? t = some f := by
  cases context with
  | none =>
    have hempty : Dict.empty = f.context := by simpa using hcontext
    simp only [ofTree?, h, Tree.required, hkind, hretry, hcode, hmessage, hempty,
      Option.bind_eq_bind, Option.bind_some, Option.pure_def]
  | some t =>
    rw [Option.elim_some] at hcontext
    simp only [ofTree?, h, Tree.required, hkind, hretry, hcode, hmessage, hcontext,
      Option.bind_eq_bind, Option.bind_some, Option.pure_def]

/-- The fields of a fault: a context that was left out was empty. -/
theorem fields?_toJson (f : Fault) :
    ∃ context, f.toJson.toTree.fields? ["kind", "class", "code", "message", "metadata"] true false =
        some [some (Json.str f.kind.word).toTree, some (Json.str f.retry.tag).toTree,
          some f.code.toJson.toTree, some (Json.str f.message).toTree, context] ∧
      context.elim (some Dict.empty) contextOfTree? = some f.context := by
  cases hcontext : f.context.isEmpty with
  | true =>
    refine ⟨none, ?_, ?_⟩
    · rw [toJson, hcontext, if_pos rfl, Json.fields?_of_known (by simp) (by simp)]
      simp [List.lookup_cons]
    · have hempty : Dict.empty = f.context :=
        Dict.ext_toList (List.isEmpty_iff.mp hcontext).symm
      rw [Option.elim_none, hempty]
  | false =>
    have hread := contextOfTree?_toTree f.context
    refine ⟨some _, ?_, hread⟩
    rw [toJson, hcontext, if_neg Bool.false_ne_true, Json.fields?_toTree (by rfl) (by decide)]
    rfl

theorem ofTree?_toJson (f : Fault) : ofTree? f.toJson.toTree = some f := by
  obtain ⟨context, hfields, hcontext⟩ := f.fields?_toJson
  exact ofTree?_of_fields? hfields (Kind.ofTree?_word f.kind) (Retry.ofTree?_tag f.retry)
    (Code.ofTree?_toJson f.code) rfl hcontext

end Fault

/-! ## Texts -/

namespace Wire

/-- The value that a JSON text holds. -/
def decode? {α : Type} (ofTree? : Tree → Option α) (text : String) : Option α :=
  (Json.read? text).bind ofTree?

/-- A text with its value written anew, if it holds one. -/
def rewritten? {α : Type} (toJson : α → Json) (ofTree? : Tree → Option α) (text : String) :
    Option String :=
  (decode? ofTree? text).map fun a => (toJson a).toCompactText

/-- What is written is read as it was. -/
structure RoundTrips {α : Type} (toJson : α → Json) (ofTree? : Tree → Option α) : Prop where
  /-- The text of a value holds the value, on one line or on several. -/
  decodes : ∀ a, decode? ofTree? (toJson a).toCompactText = some a ∧
    decode? ofTree? (toJson a).toPrettyText = some a
  /-- So does every other spelling of it. -/
  spelled : ∀ a text, Json.Spells (toJson a).toTree text →
    decode? ofTree? (String.ofList text) = some a
  /-- No two values have one text. -/
  distinct : ∀ a b, (toJson a).toCompactText = (toJson b).toCompactText → a = b
  /-- A text that holds a value holds it still when the value was written anew, and writing it once
  more changes nothing. -/
  canonical : ∀ text a, decode? ofTree? text = some a →
    ∃ text', rewritten? toJson ofTree? text = some text' ∧ decode? ofTree? text' = some a ∧
      rewritten? toJson ofTree? text' = some text'

theorem RoundTrips.of_ofTree?_toJson {α : Type} {toJson : α → Json} {ofTree? : Tree → Option α}
    (h : ∀ a, ofTree? (toJson a).toTree = some a) : RoundTrips toJson ofTree? := by
  have hcompact (a : α) : decode? ofTree? (toJson a).toCompactText = some a := by
    rw [decode?, Json.read?_toCompactText, Option.bind_some, h]
  refine ⟨fun a => ⟨hcompact a, ?_⟩, ?_, ?_, ?_⟩
  · rw [decode?, Json.read?_toPrettyText, Option.bind_some, h]
  · intro a text hspells
    have hread := Json.read?_of_spells hspells Json.allSpace_nil
    rw [List.append_nil] at hread
    rw [decode?, hread, Option.bind_some, h]
  · intro a b htext
    have hb := hcompact b
    rw [← htext, hcompact] at hb
    exact Option.some.inj hb
  · intro text a hdecode
    refine ⟨(toJson a).toCompactText, ?_, hcompact a, ?_⟩
    · rw [rewritten?, hdecode, Option.map_some]
    · rw [rewritten?, hcompact, Option.map_some]

/-- Every sample, key set, version, baseline, snapshot, code and fault is read from its text, in any
spelling, as it was written, whatever its names, texts and numbers are; and to read a text of one of
them and write it anew once is to write it for good. -/
theorem data_round_trips :
    RoundTrips Sample.toJson Sample.ofTree? ∧ RoundTrips KeySet.toJson KeySet.ofTree? ∧
      RoundTrips Version.toJson Version.ofTree? ∧ RoundTrips Baseline.toJson Baseline.ofTree? ∧
      RoundTrips Snapshot.toJson Snapshot.ofTree? ∧
      RoundTrips Fault.Code.toJson Fault.Code.ofTree? ∧ RoundTrips Fault.toJson Fault.ofTree? :=
  ⟨.of_ofTree?_toJson Sample.ofTree?_toJson, .of_ofTree?_toJson KeySet.ofTree?_toJson,
    .of_ofTree?_toJson Version.ofTree?_toJson, .of_ofTree?_toJson Baseline.ofTree?_toJson,
    .of_ofTree?_toJson Snapshot.ofTree?_toJson, .of_ofTree?_toJson Fault.Code.ofTree?_toJson,
    .of_ofTree?_toJson Fault.ofTree?_toJson⟩

end Wire

end CycleWatch
