import CycleWatch.Toml.Document
import Mathlib.Data.List.Nodup

/-!
# Tables built by their statements

Assignments under distinct keys add one binding each to the table opened last (`state_assignments`), and
headers with distinct names one table each to the root. So a document of assignments and of tables of
assignments gives the tree of all of them, in their order (`treeOf?_statements`).
-/

namespace CycleWatch.Toml

/-- Bindings to values, in their order. -/
abbrev Bindings := List (String × Tree)

/-- The tree of a table of values. -/
def Bindings.toTree (bs : Bindings) : Tree :=
  .table (bs.map fun b => (some b.1, b.2))

/-- The bindings as members of a table. -/
def Bindings.toMembers (bs : Bindings) : Members :=
  bs.map fun b => (b.1, .value b.2)

theorem fst_toMembers (bs : Bindings) : bs.toMembers.map Prod.fst = bs.map Prod.fst := by
  rw [Bindings.toMembers, List.map_map]
  rfl

variable {bs : Bindings} {key : String} {node : Node} {value : Tree} {members front : Members}
  {change : Option Node → Option Node} {opened : List String} {plug : Members → Members}

namespace Members

theorem alter_new (h : key ∉ members.map Prod.fst) :
    alter key change members = (change none).map fun node => members ++ [(key, node)] := by
  induction members with
  | nil => rfl
  | cons m members ih =>
      obtain ⟨k, node⟩ := m
      simp only [List.map_cons, List.mem_cons, not_or] at h
      rw [alter, if_neg (Ne.symm h.1), ih h.2, Option.map_map]
      rfl

theorem alter_last (h : key ∉ front.map Prod.fst) :
    alter key change (front ++ [(key, node)]) =
      (change (some node)).map fun node => front ++ [(key, node)] := by
  induction front with
  | nil => simp [alter]
  | cons m front ih =>
      obtain ⟨k, node⟩ := m
      simp only [List.map_cons, List.mem_cons, not_or] at h
      rw [List.cons_append, alter, if_neg (Ne.symm h.1), ih h.2, Option.map_map]
      rfl

theorem assign_new (h : key ∉ members.map Prod.fst) :
    assign [] key value .explicit members = some (members ++ [(key, .value value)]) := by
  simp [assign, descend, bind, alter_new h]

theorem openTable_new (h : key ∉ members.map Prod.fst) :
    openTable key members = some (members ++ [(key, .table .explicit [])]) := by
  simp [openTable, alter_new h]

end Members

/-! ## The table opened last -/

/-- The members of the table opened last are those that `plug` puts into the root. -/
def Opens (opened : List String) (plug : Members → Members) : Prop :=
  ∀ change members, Members.descend false change opened .explicit (plug members) =
    (change .explicit members).map plug

theorem opens_root : Opens [] id := by
  intro change members
  simp [Members.descend]

theorem opens_last (h : key ∉ front.map Prod.fst) :
    Opens [key] fun members => front ++ [(key, .table .explicit members)] := by
  intro change members
  simp [Members.descend, Members.alter_last h]
  rfl

theorem state_assign (hopens : Opens opened plug) (h : key ∉ members.map Prod.fst) :
    Draft.state ⟨plug members, opened⟩ (.assign [] key value) =
      some ⟨plug (members ++ [(key, .value value)]), opened⟩ := by
  rw [Draft.state, hopens, Members.assign_new h]
  rfl

/-- The assignments that bind the values. -/
def assignments (bs : Bindings) : List Statement :=
  bs.map fun b => .assign [] b.1 b.2

/-- Each binding is added to the table that is open, whichever it is. -/
theorem state_assignments (members : Members) (hopens : Opens opened plug)
    (h : (members.map Prod.fst ++ bs.map Prod.fst).Nodup) :
    (assignments bs).foldlM Draft.state ⟨plug members, opened⟩ =
      some ⟨plug (members ++ bs.toMembers), opened⟩ := by
  induction bs generalizing members with
  | nil => simp [assignments, Bindings.toMembers]
  | cons b bs ih =>
      obtain ⟨key, value⟩ := b
      have hkey : key ∉ members.map Prod.fst := fun hmem =>
        List.disjoint_of_nodup_append h hmem List.mem_cons_self
      have hrest : ((members ++ [(key, Node.value value)]).map Prod.fst ++ bs.map Prod.fst).Nodup := by
        simpa using h
      have hothers := ih (members ++ [(key, .value value)]) hrest
      rw [List.append_assoc] at hothers
      calc
        (assignments ((key, value) :: bs)).foldlM Draft.state ⟨plug members, opened⟩
        _ = (assignments bs).foldlM Draft.state
              ⟨plug (members ++ [(key, .value value)]), opened⟩ := by
            rw [assignments, List.map_cons, List.foldlM_cons, state_assign hopens hkey]
            rfl
        _ = some ⟨plug (members ++ Bindings.toMembers ((key, value) :: bs)), opened⟩ := hothers

theorem state_header (h : key ∉ front.map Prod.fst) :
    Draft.state ⟨front, opened⟩ (.header [] key) =
      some ⟨front ++ [(key, .table .explicit [])], [key]⟩ := by
  simp [Draft.state, Members.descend, Members.openTable_new h]

/-! ## Documents -/

variable {tables : List (String × Bindings)}

/-- The statements of a table: its header and what it binds. -/
def tableStatements (t : String × Bindings) : List Statement :=
  .header [] t.1 :: assignments t.2

/-- The tables as members of the root. -/
def tableMembers (tables : List (String × Bindings)) : Members :=
  tables.map fun t => (t.1, .table .explicit t.2.toMembers)

theorem state_table (h : key ∉ front.map Prod.fst) (hbs : (bs.map Prod.fst).Nodup) :
    (tableStatements (key, bs)).foldlM Draft.state ⟨front, opened⟩ =
      some ⟨front ++ [(key, .table .explicit bs.toMembers)], [key]⟩ := by
  rw [tableStatements, List.foldlM_cons, state_header h]
  exact state_assignments [] (opens_last h) hbs

theorem state_tables (opened : List String)
    (h : (front.map Prod.fst ++ tables.map Prod.fst).Nodup)
    (htables : ∀ t ∈ tables, (t.2.map Prod.fst).Nodup) :
    ∃ opened', (tables.flatMap tableStatements).foldlM Draft.state ⟨front, opened⟩ =
      some ⟨front ++ tableMembers tables, opened'⟩ := by
  induction tables generalizing front opened with
  | nil => exact ⟨opened, by simp [tableMembers]⟩
  | cons t tables ih =>
      obtain ⟨key, bs⟩ := t
      obtain ⟨hbs, hothers⟩ := List.forall_mem_cons.mp htables
      have hkey : key ∉ front.map Prod.fst := fun hmem =>
        List.disjoint_of_nodup_append h hmem List.mem_cons_self
      have hrest : ((front ++ [(key, Node.table .explicit bs.toMembers)]).map Prod.fst ++
          tables.map Prod.fst).Nodup := by
        simpa using h
      obtain ⟨opened', hstates⟩ := ih [key] hrest hothers
      rw [List.append_assoc] at hstates
      refine ⟨opened', ?_⟩
      rw [List.flatMap_cons, List.foldlM_append, state_table hkey hbs]
      exact hstates

theorem membersToTrees_append (ms ms' : Members) :
    membersToTrees (ms ++ ms') = membersToTrees ms ++ membersToTrees ms' := by
  induction ms with
  | nil => rfl
  | cons m ms ih => simp [membersToTrees, ih]

theorem membersToTrees_toMembers (bs : Bindings) :
    membersToTrees bs.toMembers = bs.map fun b => (some b.1, b.2) := by
  induction bs with
  | nil => rfl
  | cons b bs ih =>
      rw [Bindings.toMembers, List.map_cons, membersToTrees, List.map_cons]
      exact congrArg _ ih

theorem membersToTrees_tableMembers (tables : List (String × Bindings)) :
    membersToTrees (tableMembers tables) = tables.map fun t => (some t.1, t.2.toTree) := by
  induction tables with
  | nil => rfl
  | cons t tables ih =>
      rw [tableMembers, List.map_cons, membersToTrees, Node.toTree, membersToTrees_toMembers]
      exact congrArg _ ih

/-- The tree of a document of one level of tables. -/
def documentTree (root : Bindings) (tables : List (String × Bindings)) : Tree :=
  (root ++ tables.map fun t => (t.1, t.2.toTree) : Bindings).toTree

/-- Statements that bind every key once are all carried out. -/
theorem treeOf?_statements {root : Bindings}
    (h : (root.map Prod.fst ++ tables.map Prod.fst).Nodup)
    (htables : ∀ t ∈ tables, (t.2.map Prod.fst).Nodup) :
    treeOf? (assignments root ++ tables.flatMap tableStatements) = some (documentTree root tables) := by
  have hroot : (root.map Prod.fst).Nodup := h.of_append_left
  have hfront : (root.toMembers.map Prod.fst ++ tables.map Prod.fst).Nodup := by
    rwa [fst_toMembers]
  have hassigned := state_assignments [] opens_root hroot
  obtain ⟨opened', hstates⟩ := state_tables [] hfront htables
  have hfold : (assignments root ++ tables.flatMap tableStatements).foldlM Draft.state Draft.empty =
      some ⟨root.toMembers ++ tableMembers tables, opened'⟩ := by
    rw [List.foldlM_append]
    exact (congrArg (· >>= _) hassigned).trans hstates
  rw [treeOf?, hfold, Option.map_some, membersToTrees_append, membersToTrees_toMembers,
    membersToTrees_tableMembers]
  simp [documentTree, Bindings.toTree]

end CycleWatch.Toml
