import CycleWatch.Json
import CycleWatch.Metric.KeySet
import CycleWatch.Metric.Line
import CycleWatch.Snapshot
import CycleWatch.Tree
/-!
# The data of the program as JSON

How samples, key sets, versions, baselines, snapshots and faults are written as JSON and taken from
what was read. Keys that are not known are passed over, and every field has to be there, except the
line of a snapshot and the context of a fault. A list gives the fields by place.
-/
namespace CycleWatch

/-- In JSON the payload of a word that stands as a key is `null`. -/
def Tree.isNull : Tree → Bool
  | .null => true
  | _ => false

/-- A field that has to be there. -/
def Tree.required {α : Type} (read : Tree → Option α) : Option Tree → Option α
  | none => none
  | some t => read t

namespace Sample

/-- A sample as an object from names to values. -/
def toJson (s : Sample) : Json :=
  .obj (s.toList.map fun e => (e.1, .int e.2.toInt))

/-- A sample from a table; of two values for a name the later one counts. -/
def ofTree? (t : Tree) : Option Sample := do
  let members ← t.members?
  let bindings ← members.mapM fun m => (m.2.int?.bind Word.int64?).map fun n => (m.1, n)
  return Dict.ofList bindings

end Sample

namespace KeySet

/-- A key set as a list. -/
def toJson (s : KeySet) : Json :=
  .arr (s.keys.map .str)

/-- A key set from a list, as it stands. -/
def ofTree? (t : Tree) : Option KeySet :=
  t.texts?.map KeySet.mk

end KeySet

namespace Version

/-- A version as a number. -/
def toJson (v : Version) : Json :=
  .int v.number.toNat

/-- A version from a number. -/
def ofTree? (t : Tree) : Option Version :=
  (t.int?.bind Word.uint64?).map Version.mk

end Version

namespace Baseline

/-- A baseline as an object that names its kind. -/
def toJson : Baseline → Json
  | .none => .obj [("kind", .str "none")]
  | .version seen => .obj [("kind", .str "version"), ("version", seen.toJson)]

/-- A baseline of a kind from what is given for its version: the kind `none` admits `null` only. -/
def ofKind? (kind : String) (seen : Option Tree) : Option Baseline :=
  if kind = "version" then (Tree.required Version.ofTree? seen).map .version
  else if seen.all Tree.isNull then some .none
  else .none

/-- A baseline from a table, or from a list of kind and version, both of them there. In a list the
kind is a plain text. -/
def ofTree? (t : Tree) : Option Baseline := do
  let kinds := ["none", "version"]
  match t, ← t.fields? ["kind", "version"] true false with
  | .list _, [some (.text (some kind)), some seen] =>
    if kinds.contains kind then ofKind? kind (some seen) else .none
  | .table _, [some kind, seen] => ofKind? (← kind.name? Tree.isNull kinds) seen
  | _, _ => .none

end Baseline

namespace Snapshot

/-- A snapshot as an object; without a line that is `null`. -/
def toJson (s : Snapshot) : Json :=
  .obj [("version", s.version.toJson),
    ("line", match s.line with
      | some line => .str line
      | none => .null),
    ("observedAtMs", .int s.observedAtMs.toNat)]

/-- A line, or `null` for none. -/
def lineOfTree? : Tree → Option (Option String)
  | .null => some none
  | t => t.text?.map some

/-- A snapshot from a table, which may leave out the line, or from a list, which may not. -/
def ofTree? (t : Tree) : Option Snapshot := do
  match t, ← t.fields? ["version", "line", "observedAtMs"] true false with
  | .list _, [some version, some line, some observedAtMs]
  | .table _, [some version, some line, some observedAtMs] =>
    return ⟨← Version.ofTree? version, ← lineOfTree? line, ← observedAtMs.int?.bind Word.uint64?⟩
  | .table _, [some version, none, some observedAtMs] =>
    return ⟨← Version.ofTree? version, none, ← observedAtMs.int?.bind Word.uint64?⟩
  | _, _ => none

end Snapshot

namespace Fault

/-- All kinds. -/
def Kind.all : List Kind := [.expected, .invariant, .unexpected]

/-- Both retry classes. -/
def Retry.all : List Retry := [.retriable, .nonRetriable]

/-- The name of a retry class in data. -/
def Retry.tag : Retry → String
  | .retriable => "retriable"
  | .nonRetriable => "nonRetriable"

/-- A kind from its word. -/
def Kind.ofTree? (t : Tree) : Option Kind :=
  (t.name? Tree.isNull (Kind.all.map Kind.word)).bind fun word =>
    Kind.all.find? fun kind => kind.word == word

/-- A retry class from its name in data. -/
def Retry.ofTree? (t : Tree) : Option Retry :=
  (t.name? Tree.isNull (Retry.all.map Retry.tag)).bind fun tag =>
    Retry.all.find? fun retry => retry.tag == tag

/-- A code as an object. -/
def Code.toJson (c : Code) : Json :=
  .obj [("namespace", .str c.space), ("code", .str c.name)]

/-- A code from a table or a list. -/
def Code.ofTree? (t : Tree) : Option Code := do
  match ← t.fields? ["namespace", "code"] true false with
  | [space, name] =>
    return ⟨← Tree.required Tree.text? space, ← Tree.required Tree.text? name⟩
  | _ => none

/-- A fault as an object; an empty context is left out. -/
def toJson (f : Fault) : Json :=
  .obj <|
    [("kind", .str f.kind.word), ("class", .str f.retry.tag), ("code", f.code.toJson),
      ("message", .str f.message)] ++
    if f.context.isEmpty then []
    else [("metadata", .obj (f.context.toList.map fun e => (e.1, .str e.2)))]

/-- A context from a table; of two entries for a key the later one counts. -/
def contextOfTree? (t : Tree) : Option (Dict String) := do
  let members ← t.members?
  let bindings ← members.mapM fun m => m.2.text?.map fun s => (m.1, s)
  return Dict.ofList bindings

/-- A fault from a table or a list, either of which may leave out the context. -/
def ofTree? (t : Tree) : Option Fault := do
  match ← t.fields? ["kind", "class", "code", "message", "metadata"] true false with
  | [kind, retry, code, message, context] =>
    return ⟨← Tree.required Kind.ofTree? kind, ← Tree.required Retry.ofTree? retry,
      ← Tree.required Code.ofTree? code, ← Tree.required Tree.text? message,
      ← match context with
        | none => some Dict.empty
        | some t => contextOfTree? t⟩
  | _ => none

end Fault

end CycleWatch
