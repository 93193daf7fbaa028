/-!
# Finite maps from texts, in key order

A `Dict` holds at most one value for each key and lists its keys in ascending order of their code
points, so two dicts with the same bindings are equal. Main statements: looking up after an
insertion or a merge (`get?_insert`, `get?_merge`), and equality from equal look-ups (`ext_get?`).
-/
namespace CycleWatch

/-- A finite map from texts to `α`; the keys are strictly ascending. -/
structure Dict (α : Type) where
  /-- The bindings, by ascending key. -/
  entries : List (String × α)
  /-- No key occurs twice, and the order is that of the keys. -/
  ascending : entries.Pairwise (fun a b => a.1 < b.1)
deriving DecidableEq

namespace Dict

variable {α β : Type}

/-- The bindings with the one of `k` replaced, or put in at its place. -/
def insertEntry (k : String) (v : α) : List (String × α) → List (String × α)
  | [] => [(k, v)]
  | (k', v') :: rest =>
    if k < k' then (k, v) :: (k', v') :: rest
    else if k = k' then (k, v) :: rest
    else (k', v') :: insertEntry k v rest

theorem fst_mem_insertEntry {k : String} {v : α} {es : List (String × α)} {e : String × α}
    (h : e ∈ insertEntry k v es) : e.1 = k ∨ e ∈ es := by
  induction es with
  | nil => simp_all [insertEntry]
  | cons e' rest ih =>
    obtain ⟨k', v'⟩ := e'
    simp only [insertEntry] at h
    split at h
    · rcases List.mem_cons.mp h with rfl | h
      · exact .inl rfl
      · exact .inr h
    · split at h
      · rcases List.mem_cons.mp h with rfl | h
        · exact .inl rfl
        · exact .inr (List.mem_cons_of_mem _ h)
      · rcases List.mem_cons.mp h with rfl | h
        · exact .inr List.mem_cons_self
        · rcases ih h with hk | hm
          · exact .inl hk
          · exact .inr (List.mem_cons_of_mem _ hm)

theorem lt_of_not_lt_of_ne {a b : String} (h : ¬a < b) (hne : a ≠ b) : b < a := by
  rcases Decidable.em (b < a) with hlt | hlt
  · exact hlt
  · exact absurd (String.le_antisymm (String.not_lt.mp hlt) (String.not_lt.mp h)) hne

theorem ascending_insertEntry (k : String) (v : α) {es : List (String × α)}
    (h : es.Pairwise (fun a b => a.1 < b.1)) :
    (insertEntry k v es).Pairwise (fun a b => a.1 < b.1) := by
  induction es with
  | nil => simp [insertEntry]
  | cons e rest ih =>
    obtain ⟨k', v'⟩ := e
    have hhead := (List.pairwise_cons.mp h).1
    have hrest := (List.pairwise_cons.mp h).2
    simp only [insertEntry]
    split
    case isTrue hlt =>
      refine List.pairwise_cons.mpr ⟨?_, h⟩
      intro e he
      rcases List.mem_cons.mp he with rfl | he
      · exact hlt
      · exact String.lt_trans hlt (hhead e he)
    case isFalse hlt =>
      split
      case isTrue heq => exact List.pairwise_cons.mpr ⟨fun e he => heq ▸ hhead e he, hrest⟩
      case isFalse hne =>
        refine List.pairwise_cons.mpr ⟨?_, ih hrest⟩
        intro e he
        rcases fst_mem_insertEntry he with hk | hm
        · rw [hk]
          exact lt_of_not_lt_of_ne hlt hne
        · exact hhead e hm

/-- The value that the bindings give to `j`. -/
def lookupEntry (j : String) : List (String × α) → Option α
  | [] => none
  | (k, v) :: rest => if j = k then some v else lookupEntry j rest

/-- The dict without bindings. -/
def empty : Dict α := ⟨[], .nil⟩

instance : EmptyCollection (Dict α) := ⟨empty⟩

instance : Inhabited (Dict α) := ⟨empty⟩

/-- The dict with `k` bound to `v`, whatever it was bound to before. -/
def insert (d : Dict α) (k : String) (v : α) : Dict α :=
  ⟨insertEntry k v d.entries, ascending_insertEntry k v d.ascending⟩

/-- The dict with every binding but that of `k`. -/
def erase (d : Dict α) (k : String) : Dict α :=
  ⟨d.entries.filter (·.1 ≠ k), d.ascending.sublist List.filter_sublist⟩

/-- The value bound to `k`. -/
def get? (d : Dict α) (k : String) : Option α :=
  lookupEntry k d.entries

/-- Whether `k` is bound. -/
def contains (d : Dict α) (k : String) : Bool :=
  (d.get? k).isSome

/-- The number of bindings. -/
def size (d : Dict α) : Nat :=
  d.entries.length

/-- Whether there is no binding. -/
def isEmpty (d : Dict α) : Bool :=
  d.entries.isEmpty

/-- The keys, ascending. -/
def keys (d : Dict α) : List String :=
  d.entries.map Prod.fst

/-- The bindings, by ascending key. -/
def toList (d : Dict α) : List (String × α) :=
  d.entries

/-- The bindings of `d` with those listed put in one after the other. -/
def insertAll (d : Dict α) (bindings : List (String × α)) : Dict α :=
  bindings.foldl (fun d b => d.insert b.1 b.2) d

/-- The dict of the listed bindings; of two for one key the later one counts. -/
def ofList (bindings : List (String × α)) : Dict α :=
  empty.insertAll bindings

/-- The bindings of both dicts; where both bind a key, that of `later` counts. -/
def merge (d later : Dict α) : Dict α :=
  d.insertAll later.entries

/-- The same keys, with `f` applied to each binding. -/
def mapValues (f : String → α → β) (d : Dict α) : Dict β :=
  ⟨d.entries.map fun e => (e.1, f e.1 e.2), by
    rw [List.pairwise_map]
    exact d.ascending⟩

theorem lookupEntry_insertEntry (k : String) (v : α) (es : List (String × α)) (j : String) :
    lookupEntry j (insertEntry k v es) = if j = k then some v else lookupEntry j es := by
  induction es with
  | nil => simp [insertEntry, lookupEntry]
  | cons e rest ih =>
    obtain ⟨k', v'⟩ := e
    simp only [insertEntry]
    split
    case isTrue => simp [lookupEntry]
    case isFalse =>
      split
      case isTrue heq => by_cases hj : j = k <;> simp [lookupEntry, ← heq, hj]
      case isFalse hne =>
        by_cases hj : j = k'
        · simp [lookupEntry, hj, Ne.symm hne]
        · simp [lookupEntry, hj, ih]

theorem lookupEntry_eq_none_of_lt {j : String} {es : List (String × α)}
    (h : ∀ e ∈ es, j < e.1) : lookupEntry j es = none := by
  induction es with
  | nil => rfl
  | cons e rest ih =>
    have hne : j ≠ e.1 := by
      intro heq
      exact String.lt_irrefl e.1 (by simpa [heq] using h e List.mem_cons_self)
    simp only [lookupEntry, hne, if_false]
    exact ih fun e he => h e (List.mem_cons_of_mem _ he)

theorem lookupEntry_append (j : String) (es fs : List (String × α)) :
    lookupEntry j (es ++ fs) = (lookupEntry j es).or (lookupEntry j fs) := by
  induction es with
  | nil => rfl
  | cons e rest ih =>
    rw [List.cons_append, lookupEntry, lookupEntry, ih]
    split <;> rfl

theorem lookupEntry_filter_ne (k j : String) (es : List (String × α)) :
    lookupEntry j (es.filter (·.1 ≠ k)) = if j = k then none else lookupEntry j es := by
  induction es with
  | nil => simp [lookupEntry]
  | cons e rest ih =>
    rw [List.filter_cons]
    by_cases he : e.1 = k
    · by_cases hj : j = k <;> simp_all [lookupEntry]
    · by_cases hj : j = e.1 <;> simp_all [lookupEntry]

theorem eq_of_lookupEntry {es fs : List (String × α)}
    (hes : es.Pairwise (fun a b => a.1 < b.1)) (hfs : fs.Pairwise (fun a b => a.1 < b.1))
    (h : ∀ k, lookupEntry k es = lookupEntry k fs) : es = fs := by
  induction es generalizing fs with
  | nil =>
    cases fs with
    | nil => rfl
    | cons f rest => simpa [lookupEntry] using h f.1
  | cons e rest ih =>
    cases fs with
    | nil => simpa [lookupEntry] using h e.1
    | cons f rest' =>
      obtain ⟨k, v⟩ := e
      obtain ⟨k', v'⟩ := f
      have hes' := List.pairwise_cons.mp hes
      have hfs' := List.pairwise_cons.mp hfs
      have hkey : k = k' := by
        rcases Decidable.em (k = k') with heq | hne
        · exact heq
        · rcases Decidable.em (k < k') with hlt | hlt
          · have hk := h k
            have hnone : lookupEntry k rest' = none :=
              lookupEntry_eq_none_of_lt fun e he => String.lt_trans hlt (hfs'.1 e he)
            simp [lookupEntry, hne, hnone] at hk
          · have hlt' := lt_of_not_lt_of_ne hlt hne
            have hk := h k'
            have hnone : lookupEntry k' rest = none :=
              lookupEntry_eq_none_of_lt fun e he => String.lt_trans hlt' (hes'.1 e he)
            simp [lookupEntry, Ne.symm hne, hnone] at hk
      subst hkey
      have hval : v = v' := by simpa [lookupEntry] using h k
      subst hval
      congr 1
      refine ih hes'.2 hfs'.2 fun j => ?_
      rcases Decidable.em (j = k) with heq | hne
      · rw [heq, lookupEntry_eq_none_of_lt hes'.1, lookupEntry_eq_none_of_lt hfs'.1]
      · simpa [lookupEntry, hne] using h j

@[simp] theorem get?_empty (k : String) : (empty : Dict α).get? k = none := rfl

theorem get?_insert (d : Dict α) (k j : String) (v : α) :
    (d.insert k v).get? j = if j = k then some v else d.get? j :=
  lookupEntry_insertEntry k v d.entries j

theorem contains_insert {d : Dict α} {k j : String} {v : α} :
    (d.insert k v).contains j = true ↔ j = k ∨ d.contains j = true := by
  rw [contains, get?_insert]
  split <;> simp_all [contains]

theorem get?_erase (d : Dict α) (k j : String) :
    (d.erase k).get? j = if j = k then none else d.get? j :=
  lookupEntry_filter_ne k j d.entries

theorem contains_erase {d : Dict α} {k j : String} :
    (d.erase k).contains j = true ↔ j ≠ k ∧ d.contains j = true := by
  rw [contains, get?_erase]
  split <;> simp_all [contains]

theorem contains_insertAll {d : Dict α} {bindings : List (String × α)} {j : String} :
    (d.insertAll bindings).contains j = true ↔
      (∃ b ∈ bindings, b.1 = j) ∨ d.contains j = true := by
  induction bindings generalizing d with
  | nil => simp [insertAll]
  | cons b rest ih =>
    have hstep : d.insertAll (b :: rest) = (d.insert b.1 b.2).insertAll rest := rfl
    rw [hstep, ih, contains_insert]
    simp only [List.mem_cons, exists_eq_or_imp]
    grind

theorem get?_ofList_eq_none {bindings : List (String × α)} {k : String}
    (h : ∀ b ∈ bindings, b.1 ≠ k) : (ofList bindings).get? k = none := by
  rw [← Option.not_isSome_iff_eq_none]
  intro hbound
  rcases contains_insertAll.mp hbound with ⟨b, hb, hk⟩ | hempty
  · exact h b hb hk
  · cases hempty

theorem ext_get? {d e : Dict α} (h : ∀ k, d.get? k = e.get? k) : d = e := by
  obtain ⟨es, hes⟩ := d
  obtain ⟨fs, hfs⟩ := e
  have heq : es = fs := eq_of_lookupEntry hes hfs h
  subst heq
  rfl

theorem get?_insertAll (d : Dict α) {bindings : List (String × α)}
    (h : bindings.Pairwise (fun a b => a.1 < b.1)) (k : String) :
    (d.insertAll bindings).get? k = (lookupEntry k bindings).or (d.get? k) := by
  induction bindings generalizing d with
  | nil => rfl
  | cons b rest ih =>
    have hb := List.pairwise_cons.mp h
    have hstep : d.insertAll (b :: rest) = (d.insert b.1 b.2).insertAll rest := rfl
    rw [hstep, ih _ hb.2, get?_insert, lookupEntry]
    by_cases hk : k = b.1
    · rw [lookupEntry_eq_none_of_lt (j := k) (hk ▸ hb.1), if_pos hk, if_pos hk]
      rfl
    · rw [if_neg hk, if_neg hk]

/-- Of the bindings put in for one key, the last one counts. -/
theorem get?_insertAll_eq_reverse (d : Dict α) (bindings : List (String × α)) (k : String) :
    (d.insertAll bindings).get? k = (lookupEntry k bindings.reverse).or (d.get? k) := by
  induction bindings generalizing d with
  | nil => rfl
  | cons b rest ih =>
    have hstep : d.insertAll (b :: rest) = (d.insert b.1 b.2).insertAll rest := rfl
    have hfirst : (d.insert b.1 b.2).get? k = (lookupEntry k [b]).or (d.get? k) := by
      rw [get?_insert, lookupEntry, lookupEntry]
      split <;> rfl
    rw [hstep, ih, hfirst, List.reverse_cons, lookupEntry_append, Option.or_assoc]

/-- Ascending bindings are the bindings of their dict. -/
theorem toList_ofList {bindings : List (String × α)}
    (h : bindings.Pairwise (fun a b => a.1 < b.1)) : (ofList bindings).toList = bindings := by
  have heq : ofList bindings = ⟨bindings, h⟩ := by
    apply ext_get?
    intro k
    rw [ofList, get?_insertAll _ h, get?_empty, Option.or_none, get?]
  rw [heq, toList]

/-- Where both dicts bind a key, the later one counts. -/
theorem get?_merge (d later : Dict α) (k : String) :
    (d.merge later).get? k = (later.get? k).or (d.get? k) :=
  get?_insertAll d later.ascending k

theorem merge_insert (d later : Dict α) (k : String) (v : α) :
    d.merge (later.insert k v) = (d.merge later).insert k v := by
  apply ext_get?
  intro j
  rw [get?_merge, get?_insert, get?_insert, get?_merge]
  split <;> rfl

/-- Dicts without a common key may be put over another one in either order. -/
theorem merge_merge_comm {first second : Dict α}
    (h : ∀ k, first.contains k = true → second.contains k = false) (d : Dict α) :
    (d.merge first).merge second = (d.merge second).merge first := by
  apply ext_get?
  intro k
  simp only [get?_merge]
  cases hfirst : first.get? k with
  | none => cases second.get? k <;> rfl
  | some v =>
    have hsecond : second.get? k = none := by
      simpa [contains] using h k (by simp [contains, hfirst])
    rw [hsecond]
    rfl

theorem map_insertEntry (f : String → α → β) (k : String) (v : α) (es : List (String × α)) :
    (insertEntry k v es).map (fun e => (e.1, f e.1 e.2)) =
      insertEntry k (f k v) (es.map fun e => (e.1, f e.1 e.2)) := by
  induction es with
  | nil => rfl
  | cons e rest ih =>
    simp only [insertEntry, List.map_cons]
    split
    · rfl
    · split
      · rfl
      · rw [List.map_cons, ih]

theorem mapValues_insert (f : String → α → β) (d : Dict α) (k : String) (v : α) :
    (d.insert k v).mapValues f = (d.mapValues f).insert k (f k v) := by
  simp only [mapValues, insert, map_insertEntry]

theorem mapValues_insertAll (f : String → α → β) (d : Dict α) (bindings : List (String × α)) :
    (d.insertAll bindings).mapValues f =
      (d.mapValues f).insertAll (bindings.map fun e => (e.1, f e.1 e.2)) := by
  induction bindings generalizing d with
  | nil => rfl
  | cons b rest ih =>
    have hstep : d.insertAll (b :: rest) = (d.insert b.1 b.2).insertAll rest := rfl
    rw [hstep, ih, mapValues_insert]
    rfl

theorem mapValues_merge (f : String → α → β) (d later : Dict α) :
    (d.merge later).mapValues f = (d.mapValues f).merge (later.mapValues f) :=
  mapValues_insertAll f d later.entries

theorem get?_mapValues (f : String → α → β) (d : Dict α) (k : String) :
    (d.mapValues f).get? k = (d.get? k).map (f k) := by
  obtain ⟨es, hes⟩ := d
  simp only [get?, mapValues]
  clear hes
  induction es with
  | nil => rfl
  | cons e rest ih =>
    rw [List.map_cons, lookupEntry, lookupEntry, ih]
    split
    case isTrue heq => rw [Option.map_some, heq]
    case isFalse => rfl

@[simp] theorem toList_mapValues (f : String → α → β) (d : Dict α) :
    (d.mapValues f).toList = d.toList.map fun e => (e.1, f e.1 e.2) := rfl

@[simp] theorem isEmpty_mapValues (f : String → α → β) (d : Dict α) :
    (d.mapValues f).isEmpty = d.isEmpty :=
  List.isEmpty_map

theorem ext_toList {d e : Dict α} (h : d.toList = e.toList) : d = e := by
  obtain ⟨es, hes⟩ := d
  obtain ⟨fs, hfs⟩ := e
  obtain rfl : es = fs := h
  rfl

theorem isEmpty_of_get? {d : Dict α} {k : String} {v : α} (h : d.get? k = some v) :
    d.isEmpty = false := by
  rw [← Bool.not_eq_true]
  intro hempty
  have hnone : d = empty := ext_toList (List.isEmpty_iff.mp hempty)
  rw [hnone, get?_empty] at h
  cases h

end Dict

end CycleWatch
