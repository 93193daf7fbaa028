import CycleWatch.Tree
/-!
# The tables of a TOML document

A document is a sequence of statements: headers, which open a table or add one to an array of tables,
and assignments into the table opened last. Carrying them out one after the other builds the tree, or
fails where a statement would define something twice.
-/
namespace CycleWatch.Toml

/-- How a table came to be. -/
inductive Origin where
  /-- By a header of its own, or as the root. -/
  | explicit
  /-- On the way to the table of a header. -/
  | implicit
  /-- On the way along a dotted key, which may have found it implicit. -/
  | dotted
deriving DecidableEq, Repr

/-- What is bound to a key while the document is built. -/
inductive Node where
  /-- A value that nothing can be added to. -/
  | value (tree : Tree)
  /-- A table. -/
  | table (origin : Origin) (members : List (String × Node))
  /-- An array of tables, each opened by a header. -/
  | tables (items : List (List (String × Node)))

/-- The bindings of a table while the document is built. -/
abbrev Members := List (String × Node)

/-- A statement of a document. -/
inductive Statement where
  /-- A header of the table at `path` and `key`. -/
  | header (path : List String) (key : String)
  /-- A header of one more table in the array at `path` and `key`. -/
  | arrayHeader (path : List String) (key : String)
  /-- An assignment to `key` of the table at `path` below the one opened last. -/
  | assign (path : List String) (key : String) (value : Tree)

namespace Members

/-- Changes what is bound to `key`, where the change may be refused. -/
def alter (key : String) (change : Option Node → Option Node) : Members → Option Members
  | [] => (change none).map fun node => [(key, node)]
  | (k, node) :: rest =>
    if k = key then (change (some node)).map fun node => (k, node) :: rest
    else (alter key change rest).map ((k, node) :: ·)

/-- Changes the table at the end of a path. Tables that are missing on the way are created; the way
goes through the last table of an array, but through no value. A dotted key goes through no table that
has a header of its own, and the tables that it goes through count as made by dots from then on. -/
def descend (alongDots : Bool) (change : Origin → Members → Option Members) :
    List String → Origin → Members → Option Members
  | [], origin, members => change origin members
  | key :: path, _, members =>
    alter key
      (fun
        | none =>
          let origin : Origin := if alongDots then .dotted else .implicit
          (descend alongDots change path origin []).map (.table origin)
        | some (.table origin inner) =>
          if alongDots && origin = .explicit then none
          else
            let origin : Origin := if alongDots then .dotted else origin
            (descend alongDots change path origin inner).map (.table origin)
        | some (.tables items) =>
          (descend alongDots change path .explicit (items.getLast?.getD [])).map fun last =>
            .tables (items.dropLast ++ [last])
        | some (.value _) => none)
      members

/-- Binds a key for the first time. A dotted key binds only in a table made by dots, and a key without
dots in no such table. -/
def bind (isDotted : Bool) (key : String) (value : Tree) (origin : Origin) (members : Members) :
    Option Members :=
  if isDotted = decide (origin = .dotted) then
    alter key
      (fun
        | none => some (.value value)
        | some _ => none)
      members
  else none

/-- Assigns a value below a table. -/
def assign (path : List String) (key : String) (value : Tree) (origin : Origin)
    (members : Members) : Option Members :=
  descend true (bind (!path.isEmpty) key value) path origin members

/-- Opens a table by its header. -/
def openTable (key : String) : Members → Option Members :=
  alter key fun
    | none => some (.table .explicit [])
    | some (.table .implicit inner) => some (.table .explicit inner)
    | some _ => none

/-- Adds a table to an array of tables. -/
def addTable (key : String) : Members → Option Members :=
  alter key fun
    | none => some (.tables [[]])
    | some (.tables items) => some (.tables (items ++ [[]]))
    | some _ => none

end Members

mutual

/-- The tree of a node. -/
def Node.toTree : Node → Tree
  | .value tree => tree
  | .table _ members => .table (membersToTrees members)
  | .tables items => .list (tablesToTrees items)

/-- The trees of the bindings of a table. -/
def membersToTrees : List (String × Node) → List (Option String × Tree)
  | [] => []
  | (key, node) :: rest => (some key, node.toTree) :: membersToTrees rest

/-- The trees of an array of tables. -/
def tablesToTrees : List (List (String × Node)) → List Tree
  | [] => []
  | members :: rest => .table (membersToTrees members) :: tablesToTrees rest

end

/-- A document while it is built. -/
structure Draft where
  /-- The bindings of the root. -/
  root : Members
  /-- The path of the table opened last. -/
  opened : List String

namespace Draft

/-- Nothing has been stated; the root is open. -/
def empty : Draft := ⟨[], []⟩

/-- Carries out a statement. -/
def state (d : Draft) : Statement → Option Draft
  | .header path key =>
    (Members.descend false (fun _ => Members.openTable key) path .explicit d.root).map fun root =>
      ⟨root, path ++ [key]⟩
  | .arrayHeader path key =>
    (Members.descend false (fun _ => Members.addTable key) path .explicit d.root).map fun root =>
      ⟨root, path ++ [key]⟩
  | .assign path key value =>
    (Members.descend false (Members.assign path key value) d.opened .explicit d.root).map fun root =>
      ⟨root, d.opened⟩

end Draft

/-- The tree of a document, unless one of its statements is refused. -/
def treeOf? (statements : List Statement) : Option Tree :=
  (statements.foldlM Draft.state Draft.empty).map fun d => .table (membersToTrees d.root)

end CycleWatch.Toml
