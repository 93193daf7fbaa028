import CycleWatch.Proofs.Json.Spelling
import CycleWatch.Word
import Mathlib.Data.List.Nodup
/-!
# What was written, as its decoders see it

The tree of a JSON value gives the members, items and fields that the value was written with
(`members?_toTree`, `texts?_toTree`, `fields?_of_known`). A record may have been written without some of
its fields.
-/
namespace CycleWatch

theorem lookup_of_mem_of_nodup {α : Type} {entries : List (String × α)}
    (h : (entries.map Prod.fst).Nodup) {k : String} {v : α} (hmem : (k, v) ∈ entries) :
    entries.lookup k = some v := by
  induction entries with
  | nil => cases hmem
  | cons entry rest ih =>
    obtain ⟨j, w⟩ := entry
    obtain ⟨hj, hrest⟩ := List.nodup_cons.mp h
    rcases List.mem_cons.mp hmem with hfirst | hmem
    · cases hfirst
      exact List.lookup_cons_self
    · have hne : k ≠ j := fun hk => hj (List.mem_map.mpr ⟨(k, v), hmem, hk⟩)
      rw [List.lookup_cons, beq_false_of_ne hne]
      exact ih hrest hmem

theorem lookup_mapSnd {α β : Type} (f : α → β) (entries : List (String × α)) (k : String) :
    (entries.map fun e => (e.1, f e.2)).lookup k = (entries.lookup k).map f := by
  induction entries with
  | nil => rfl
  | cons entry rest ih =>
    rw [List.map_cons, List.lookup_cons, List.lookup_cons, ih]
    cases k == entry.1 <;> rfl

/-- Items that are each made so that they are taken as one value are taken as the values. -/
theorem mapM_made {α β γ : Type} {make : α → β} {take : β → Option γ} (value : α → γ)
    (h : ∀ x, take (make x) = some (value x)) (xs : List α) :
    (xs.map make).mapM take = some (xs.map value) := by
  induction xs with
  | nil => rfl
  | cons x rest ih =>
    rw [List.map_cons, List.mapM_cons, h, ih]
    rfl

namespace Json

theorem memberTrees_eq_map (members : List (String × Json)) :
    memberTrees members = members.map fun m => (some m.1, m.2.toTree) := by
  induction members with
  | nil => rfl
  | cons m rest ih => rw [memberTrees, ih, List.map_cons]

theorem members?_toTree (members : List (String × Json)) :
    (Tree.table (memberTrees members)).members? = some (members.map fun m => (m.1, m.2.toTree)) := by
  rw [Tree.members?, memberTrees_eq_map]
  exact mapM_made _ (fun _ => by rfl) members

theorem texts?_toTree (texts : List String) :
    (Json.arr (texts.map .str)).toTree.texts? = some texts := by
  rw [toTree, itemTrees_eq_map, Tree.texts?, Tree.list?, Option.bind_some, List.map_map,
    mapM_made id fun _ => by rfl, List.map_id]

theorem uint64?_toTree (n : UInt64) : (Json.int n.toNat).toTree.int?.bind Word.uint64? = some n := by
  rw [toTree_int, Tree.int?, Option.bind_some, Word.uint64?_toNat]

/-- An object with values for some of the fields, once each, gives these values. -/
theorem fields?_of_known {members : List (String × Json)} {names : List String}
    (hknown : ∀ m ∈ members, m.1 ∈ names) (hdistinct : (members.map Prod.fst).Nodup)
    {passesKeys passesItems : Bool} :
    (Json.obj members).toTree.fields? names passesKeys passesItems =
      some (names.map fun name => (members.lookup name).map toTree) := by
  have hnames : (members.map fun m => (m.1, m.2.toTree)).map Prod.fst = members.map Prod.fst := by
    rw [List.map_map]
    rfl
  have hpassed : ((members.map fun m => (m.1, m.2.toTree)).any
      fun m => !names.contains m.1) = false := by
    simp only [List.any_eq_false, List.mem_map]
    rintro _ ⟨m, hm, rfl⟩
    simpa using hknown m hm
  have honce : (names.any fun name =>
      1 < ((members.map fun m => (m.1, m.2.toTree)).filter (·.1 == name)).length) = false := by
    simp only [List.any_eq_false, decide_eq_true_eq, Nat.not_lt]
    intro name _
    have hcount := List.nodup_iff_count_le_one.mp (hnames ▸ hdistinct) name
    rwa [List.count, List.countP_map, List.countP_eq_length_filter] at hcount
  simp only [toTree, Tree.fields?, members?_toTree, hpassed, honce, Bool.false_and,
    Bool.false_eq_true, if_false, lookup_mapSnd]

/-- An object with a value for every field, once each, gives these values. -/
theorem fields?_toTree {members : List (String × Json)} {names : List String}
    (hfields : members.map Prod.fst = names) (hdistinct : names.Nodup)
    {passesKeys passesItems : Bool} :
    (Json.obj members).toTree.fields? names passesKeys passesItems =
      some (members.map fun m => some m.2.toTree) := by
  subst hfields
  rw [fields?_of_known (fun m hm => List.mem_map_of_mem hm) hdistinct, List.map_map,
    Option.some.injEq]
  apply List.map_congr_left
  intro m hm
  rw [Function.comp_apply, lookup_of_mem_of_nodup hdistinct hm, Option.map_some]

end Json

end CycleWatch
