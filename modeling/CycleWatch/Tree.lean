/-!
# Data as a text format yields it

Reading a text of structured data yields a `Tree`: scalars, lists, and tables whose members keep their
order and may repeat a key. Decoders take the values of the program from trees, whatever the format
they were read from.
-/
namespace CycleWatch

/-- Structured data. -/
inductive Tree where
  /-- The absence of a value. -/
  | null
  /-- A truth value. -/
  | bool (b : Bool)
  /-- A whole number. -/
  | int (n : Int)
  /-- A scalar of another kind, such as a number with a fraction or a date. -/
  | other
  /-- A text, or `none` where the writing stands for no text. -/
  | text (s : Option String)
  /-- A list. -/
  | list (items : List Tree)
  /-- Named values in their order; a key may occur more than once. -/
  | table (members : List (Option String × Tree))
deriving Inhabited

namespace Tree

/-- The text, if it is one. -/
def text? : Tree → Option String
  | .text s => s
  | _ => none

/-- The truth value, if it is one. -/
def bool? : Tree → Option Bool
  | .bool b => some b
  | _ => none

/-- The whole number, if it is one. -/
def int? : Tree → Option Int
  | .int n => some n
  | _ => none

/-- The items, if it is a list. -/
def list? : Tree → Option (List Tree)
  | .list items => some items
  | _ => none

/-- The members, if it is a table with a text for every key. -/
def members? : Tree → Option (List (String × Tree))
  | .table members => members.mapM fun m => m.1.map fun k => (k, m.2)
  | _ => none

/-- The list of texts, if it is one. -/
def texts? (t : Tree) : Option (List String) :=
  t.list?.bind fun items => items.mapM text?

/-- What stands for the fields `names` of a record, in their order. A table gives them by name, a
list by place; a field may be missing, but not given twice. Keys and items beyond the fields are
passed over or refused. -/
def fields? (names : List String) (passesKeys passesItems : Bool) :
    Tree → Option (List (Option Tree))
  | .table members =>
    match (Tree.table members).members? with
    | none => none
    | some members =>
      if members.any (fun m => !names.contains m.1) && !passesKeys then none
      else if names.any (fun name => 1 < (members.filter (·.1 == name)).length) then none
      else some (names.map fun name => List.lookup name members)
  | .list items =>
    if names.length < items.length && !passesItems then none
    else some <|
      (items.take names.length).map some ++ List.replicate (names.length - items.length) none
  | _ => none

/-- How a format gives names with a payload and records. -/
structure Dialect where
  /-- Whether a tree is no payload. -/
  isEmptyPayload : Tree → Bool
  /-- Whether the items of a list beyond the fields of a record are passed over. -/
  passesItems : Bool

/-- The name out of `names` that the tree stands for: the name itself, or a table with that name as
its only key and an empty payload. -/
def name? (isEmptyPayload : Tree → Bool) (names : List String) : Tree → Option String
  | .text (some s) => if names.contains s then some s else none
  | .table [(some s, payload)] =>
    if names.contains s && isEmptyPayload payload then some s else none
  | _ => none

end Tree

end CycleWatch
