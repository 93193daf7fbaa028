import CycleWatch.Proofs.Cancellation.Propagation
import Mathlib.Data.List.Induction

/-!
# Histories of calling off

Cells are made, derived, referred to, dropped, waited for and called off in any order. After every such
history a running cell lists all cells derived from it that are alive, and a cell that is alive is called
off if the one it was derived from is (`kept_ofHistory`).
-/

namespace CycleWatch.Cancellation

/-- Something done to cells through their handles. -/
inductive Operation where
  /-- A new cell is made, with the id of a run or without. -/
  | new (id : Option CorrelationId)
  | derive (h : Nat)
  | copy (h : Nat)
  /-- A handle is copied without the id. -/
  | bare (h : Nat)
  | drop (h : Nat)
  | wait (h : Nat)
  | cancel (h : Nat)

/-- The cells after an operation. -/
def perform (f : Cancellation) : Operation → Cancellation
  | .new id => f.add (.running []) id
  | .derive h => f.derive h
  | .copy h => f.copy h
  | .bare h => f.bare h
  | .drop h => f.drop h
  | .wait h => f.wait h
  | .cancel h => f.cancel h

/-- The cells after a history that starts with none. -/
def ofHistory (ops : List Operation) : Cancellation :=
  ops.foldl perform empty

/-- In the course of a history the second cell was derived from the first one. -/
def Derived (ops : List Operation) (parent child : Nat) : Prop :=
  ∃ before h handle, before ++ [.derive h] <+: ops ∧ (ofHistory before).handle? h = some handle ∧
    handle.cell = parent ∧ (ofHistory before).cells.length = child

variable {f g : Cancellation} {derived : Nat → Nat → Prop} {ops : List Operation} {op : Operation}
  {c p h : Nat} {handle : Handle} {listeners : List Nat}

@[simp] theorem ofHistory_snoc : ofHistory (ops ++ [op]) = (ofHistory ops).perform op := by
  simp [ofHistory]

theorem not_derived_nil : ¬ Derived [] p c := by
  rintro ⟨before, h, handle, hprefix, -⟩
  simpa using hprefix.length_le

theorem derived_snoc_iff :
    Derived (ops ++ [op]) p c ↔ Derived ops p c ∨
      ∃ h handle, op = .derive h ∧ (ofHistory ops).handle? h = some handle ∧ handle.cell = p ∧
        (ofHistory ops).cells.length = c := by
  constructor
  · rintro ⟨before, h, handle, hprefix, hhandle⟩
    rcases List.prefix_concat_iff.mp hprefix with heq | hshort
    · obtain ⟨rfl, hop⟩ := List.append_inj' heq rfl
      cases hop
      exact .inr ⟨h, handle, rfl, hhandle⟩
    · exact .inl ⟨before, h, handle, hshort, hhandle⟩
  · rintro (⟨before, h, handle, hprefix, hhandle⟩ | ⟨h, handle, rfl, hhandle⟩)
    · exact ⟨before, h, handle, hprefix.trans (List.prefix_append _ _), hhandle⟩
    · exact ⟨ops, h, handle, List.prefix_refl _, hhandle⟩

/-! ## What is alive -/

theorem isAlive_iff :
    f.isAlive c = true ↔
      (∃ handle, some handle ∈ f.handles ∧ handle.cell = c) ∨ ∃ w ∈ f.waiters, w.cell = c := by
  have hhandle : ∀ o : Option Handle,
      (o.any fun handle => handle.cell == c) = true ↔ ∃ handle, o = some handle ∧ handle.cell = c := by
    intro o
    cases o <;> simp
  simp only [isAlive, Bool.or_eq_true, List.any_eq_true, hhandle, beq_iff_eq]
  constructor
  · rintro (⟨_, hmem, handle, rfl, rfl⟩ | hwaiter)
    · exact .inl ⟨handle, hmem, rfl⟩
    · exact .inr hwaiter
  · rintro (⟨handle, hmem, rfl⟩ | hwaiter)
    · exact .inl ⟨some handle, hmem, handle, rfl, rfl⟩
    · exact .inr hwaiter

theorem isAlive_of_handle? (hhandle : f.handle? h = some handle) :
    f.isAlive handle.cell = true := by
  refine isAlive_iff.mpr (.inl ⟨handle, ?_, rfl⟩)
  exact List.mem_of_getElem? (Option.join_eq_some_iff.mp hhandle)

theorem isAlive_add_iff {cell : Cell} {id : Option CorrelationId} :
    (f.add cell id).isAlive c = true ↔ c = f.cells.length ∨ f.isAlive c = true := by
  simp only [isAlive_iff, add, List.mem_append, List.mem_singleton, Option.some.injEq]
  constructor
  · rintro (⟨handle, hmem | rfl, rfl⟩ | hwaiter)
    · exact .inr (.inl ⟨handle, hmem, rfl⟩)
    · exact .inl rfl
    · exact .inr (.inr hwaiter)
  · rintro (rfl | ⟨handle, hmem, rfl⟩ | hwaiter)
    · exact .inl ⟨_, .inr rfl, rfl⟩
    · exact .inl ⟨handle, .inl hmem, rfl⟩
    · exact .inr hwaiter

theorem isAlive_of_one_more {o : Option Handle}
    (ho : ∀ handle, o = some handle → f.isAlive handle.cell = true)
    (halive : { f with handles := f.handles ++ [o] }.isAlive c = true) : f.isAlive c = true := by
  rcases isAlive_iff.mp halive with ⟨handle, hmem, rfl⟩ | hwaiter
  · rcases List.mem_append.mp hmem with hold | hnew
    · exact isAlive_iff.mpr (.inl ⟨handle, hold, rfl⟩)
    · exact ho handle (List.mem_singleton.mp hnew).symm
  · exact isAlive_iff.mpr (.inr hwaiter)

theorem isAlive_of_copy (halive : (f.copy h).isAlive c = true) : f.isAlive c = true :=
  isAlive_of_one_more (fun _ => isAlive_of_handle?) halive

theorem isAlive_of_bare (halive : (f.bare h).isAlive c = true) : f.isAlive c = true := by
  refine isAlive_of_one_more (fun handle hbare => ?_) halive
  obtain ⟨original, horiginal, rfl⟩ := Option.map_eq_some_iff.mp hbare
  show f.isAlive original.cell = true
  exact isAlive_of_handle? horiginal

theorem isAlive_of_drop (halive : (f.drop h).isAlive c = true) : f.isAlive c = true := by
  rcases isAlive_iff.mp halive with ⟨handle, hmem, rfl⟩ | hwaiter
  · rcases List.mem_or_eq_of_mem_set hmem with hold | hnone
    · exact isAlive_iff.mpr (.inl ⟨handle, hold, rfl⟩)
    · cases hnone
  · exact isAlive_iff.mpr (.inr hwaiter)

theorem isAlive_of_wait (halive : (f.wait h).isAlive c = true) : f.isAlive c = true := by
  unfold wait at halive
  split at halive
  case h_1 handle hhandle =>
    rcases isAlive_iff.mp halive with hold | ⟨w, hmem, rfl⟩
    · exact isAlive_iff.mpr (.inl hold)
    · rcases List.mem_append.mp hmem with hold | hnew
      · exact isAlive_iff.mpr (.inr ⟨w, hold, rfl⟩)
      · obtain rfl := List.mem_singleton.mp hnew
        exact isAlive_of_handle? hhandle
  case h_2 => exact halive

/-! ## The invariant of a history -/

/-- What holds after every history, for the relation between a cell and those derived from it. -/
structure Kept (derived : Nat → Nat → Prop) (f : Cancellation) : Prop where
  alive_lt : ∀ {c}, f.isAlive c = true → c < f.cells.length
  derived_lt : ∀ {p c}, derived p c → p < c ∧ c < f.cells.length
  parent_unique : ∀ {p q c}, derived p c → derived q c → p = q
  listens : ∀ {p c listeners}, derived p c → f.isAlive c = true →
    f.cells[p]? = some (.running listeners) → c ∈ listeners
  of_listens : ∀ {p c listeners}, f.cells[p]? = some (.running listeners) → c ∈ listeners → derived p c
  hears : ∀ {p c}, derived p c → f.isAlive c = true → f.isCancelled p = true → f.isCancelled c = true
  waits : ∀ w ∈ f.waiters, w.finished = f.isCancelled w.cell

theorem kept_empty : Kept (Derived []) empty where
  alive_lt := by simp [isAlive, empty]
  derived_lt hderived := absurd hderived not_derived_nil
  parent_unique hderived := absurd hderived not_derived_nil
  listens hderived := absurd hderived not_derived_nil
  of_listens := by simp [empty]
  hears hderived := absurd hderived not_derived_nil
  waits := by simp [empty]

/-- Nothing is lost when references come and go, as long as they are to cells that are alive. -/
theorem Kept.of_cells_eq (hf : Kept derived f) (hcells : g.cells = f.cells)
    (halive : ∀ {c}, g.isAlive c = true → f.isAlive c = true)
    (hwaits : ∀ w ∈ g.waiters, w.finished = f.isCancelled w.cell) : Kept derived g where
  alive_lt hc := by rw [hcells]; exact hf.alive_lt (halive hc)
  derived_lt hderived := by rw [hcells]; exact hf.derived_lt hderived
  parent_unique := hf.parent_unique
  listens hderived hc hp := hf.listens hderived (halive hc) (by rwa [hcells] at hp)
  of_listens hp := hf.of_listens (by rwa [hcells] at hp)
  hears hderived hc hp := by
    simp only [isCancelled, hcells] at hp ⊢
    simpa [isCancelled] using hf.hears hderived (halive hc) (by simpa [isCancelled] using hp)
  waits w hw := by simpa [isCancelled, hcells] using hwaits w hw

/-! ### A new cell -/

/-- There is one more cell, derived from the parent, if there is one: a running parent lists it beside
those of its listeners that are alive, and it is called off if the parent is. -/
structure Grown (f g : Cancellation) (parent : Option Nat) : Prop where
  length : g.cells.length = f.cells.length + 1
  waiters : g.waiters = f.waiters
  alive : ∀ {c}, g.isAlive c = true → c = f.cells.length ∨ f.isAlive c = true
  running : ∀ {p listeners}, g.cells[p]? = some (.running listeners) →
    p = f.cells.length ∧ listeners = [] ∨
      ∃ before, f.cells[p]? = some (.running before) ∧
        listeners = if parent = some p then f.audience before ++ [f.cells.length] else before
  cancelled : ∀ {c}, g.isCancelled c = true ↔ f.isCancelled c = true ∨
    c = f.cells.length ∧ ∃ p, parent = some p ∧ f.isCancelled p = true

theorem getElem?_concat_iff {cells : List Cell} {cell x : Cell} :
    (cells ++ [cell])[c]? = some x ↔ cells[c]? = some x ∨ c = cells.length ∧ cell = x := by
  rcases Nat.lt_trichotomy c cells.length with hlt | rfl | hgt
  · simp [List.getElem?_append_left hlt, Nat.ne_of_lt hlt]
  · simp
  · have hbefore : cells[c]? = none := List.getElem?_eq_none (Nat.le_of_lt hgt)
    have hafter : (cells ++ [cell])[c]? = none := List.getElem?_eq_none (by
      rw [List.length_append]
      exact hgt)
    simp [hbefore, hafter, Nat.ne_of_gt hgt]

theorem grown_new {id : Option CorrelationId} : Grown f (f.add (.running []) id) none where
  length := by simp [add]
  waiters := rfl
  alive := isAlive_add_iff.mp
  running hp := by
    rcases getElem?_concat_iff.mp hp with hp | ⟨rfl, heq⟩
    · exact .inr ⟨_, hp, rfl⟩
    · cases heq
      exact .inl ⟨rfl, rfl⟩
  cancelled := by simp [isCancelled_iff, add, getElem?_concat_iff]

theorem grown_derive_running {before : List Nat} (hhandle : f.handle? h = some handle)
    (hcell : f.cells[handle.cell]? = some (.running before)) :
    Grown f (f.derive h) (some handle.cell) where
  length := by simp [derive, hhandle, hcell, add]
  waiters := by simp [derive, hhandle, hcell, add]
  alive hc := by
    simp only [derive, hhandle, hcell] at hc
    rcases isAlive_add_iff.mp hc with rfl | hold
    · exact .inl List.length_set
    · exact .inr hold
  running {p listeners} hp := by
    obtain ⟨hlt, -⟩ := List.getElem?_eq_some_iff.mp hcell
    simp only [derive, hhandle, hcell, add, getElem?_concat_iff, List.length_set] at hp
    rcases hp with hp | ⟨rfl, heq⟩
    · by_cases hsame : handle.cell = p
      · subst hsame
        simp only [List.getElem?_set_self hlt, Option.some.injEq, Cell.running.injEq] at hp
        exact .inr ⟨before, hcell, by rw [if_pos rfl, hp]⟩
      · rw [List.getElem?_set_ne hsame] at hp
        exact .inr ⟨listeners, hp, by simp [hsame]⟩
    · cases heq
      exact .inl ⟨rfl, rfl⟩
  cancelled {c} := by
    obtain ⟨hlt, -⟩ := List.getElem?_eq_some_iff.mp hcell
    simp only [isCancelled_iff, derive, hhandle, hcell, add, getElem?_concat_iff]
    by_cases hsame : handle.cell = c
    · subst hsame
      simp [List.getElem?_set_self hlt, hcell]
    · simp [List.getElem?_set_ne hsame, hcell]

theorem grown_derive_calledOff (hhandle : f.handle? h = some handle)
    (hcell : f.cells[handle.cell]? = some .calledOff) :
    Grown f (f.derive h) (some handle.cell) where
  length := by simp [derive, hhandle, hcell, add]
  waiters := by simp [derive, hhandle, hcell, add]
  alive hc := by
    simp only [derive, hhandle, hcell] at hc
    exact isAlive_add_iff.mp hc
  running {p listeners} hp := by
    simp only [derive, hhandle, hcell, add, getElem?_concat_iff, reduceCtorEq, and_false,
      or_false] at hp
    refine .inr ⟨listeners, hp, ?_⟩
    rw [if_neg]
    rintro heq
    cases heq
    rw [hcell] at hp
    cases hp
  cancelled := by
    simp [isCancelled_iff, derive, hhandle, hcell, add, getElem?_concat_iff]

theorem grown_derive (hhandle : f.handle? h = some handle) (hlt : handle.cell < f.cells.length) :
    Grown f (f.derive h) (some handle.cell) := by
  cases hcell : f.cells[handle.cell] with
  | running before =>
      exact grown_derive_running hhandle (by rw [List.getElem?_eq_getElem hlt, hcell])
  | calledOff => exact grown_derive_calledOff hhandle (by rw [List.getElem?_eq_getElem hlt, hcell])

theorem Kept.grow {parent : Option Nat} (hf : Kept derived f) (hg : Grown f g parent)
    (hparent : ∀ p, parent = some p → p < f.cells.length) :
    Kept (fun p c => derived p c ∨ parent = some p ∧ c = f.cells.length) g where
  alive_lt hc := by
    rw [hg.length]
    rcases hg.alive hc with rfl | hold
    · exact Nat.lt_succ_self _
    · exact Nat.lt_succ_of_lt (hf.alive_lt hold)
  derived_lt hderived := by
    rw [hg.length]
    rcases hderived with hold | ⟨hp, rfl⟩
    · exact ⟨(hf.derived_lt hold).1, Nat.lt_succ_of_lt (hf.derived_lt hold).2⟩
    · exact ⟨hparent _ hp, Nat.lt_succ_self _⟩
  parent_unique hp hq := by
    rcases hp with hp | ⟨hp, rfl⟩
    · rcases hq with hq | ⟨_, rfl⟩
      · exact hf.parent_unique hp hq
      · exact absurd (hf.derived_lt hp).2 (Nat.lt_irrefl _)
    · rcases hq with hq | ⟨hq, _⟩
      · exact absurd (hf.derived_lt hq).2 (Nat.lt_irrefl _)
      · rw [hp] at hq
        exact Option.some.inj hq
  listens {p c listeners} hderived hc hp := by
    have hlt : p < f.cells.length := by
      rcases hderived with hold | ⟨hp, -⟩
      · exact Nat.lt_trans (hf.derived_lt hold).1 (hf.derived_lt hold).2
      · exact hparent p hp
    rcases hg.running hp with ⟨rfl, -⟩ | ⟨before, hbefore, rfl⟩
    · exact absurd hlt (Nat.lt_irrefl _)
    · rcases hderived with hold | ⟨hparent, rfl⟩
      · have halive : f.isAlive c = true :=
          (hg.alive hc).resolve_left (Nat.ne_of_lt (hf.derived_lt hold).2)
        have hmem := hf.listens hold halive hbefore
        split
        · exact List.mem_append_left _ (mem_audience.mpr ⟨hmem, halive⟩)
        · exact hmem
      · simp [hparent]
  of_listens {p c listeners} hp hmem := by
    rcases hg.running hp with ⟨-, rfl⟩ | ⟨before, hbefore, rfl⟩
    · cases hmem
    · split at hmem
      case isTrue hparent =>
        rcases List.mem_append.mp hmem with hold | hnew
        · exact .inl (hf.of_listens hbefore (mem_audience.mp hold).1)
        · exact .inr ⟨hparent, List.mem_singleton.mp hnew⟩
      case isFalse => exact .inl (hf.of_listens hbefore hmem)
  hears {p c} hderived hc hp := by
    rw [hg.cancelled] at hp ⊢
    rcases hderived with hold | ⟨hparent', rfl⟩
    · obtain ⟨hpc, hlt⟩ := hf.derived_lt hold
      have halive : f.isAlive c = true := (hg.alive hc).resolve_left (Nat.ne_of_lt hlt)
      rcases hp with hp | ⟨rfl, -⟩
      · exact .inl (hf.hears hold halive hp)
      · exact absurd (Nat.lt_trans hpc hlt) (Nat.lt_irrefl _)
    · rcases hp with hp | ⟨rfl, -⟩
      · exact .inr ⟨rfl, p, hparent', hp⟩
      · exact absurd (hparent _ hparent') (Nat.lt_irrefl _)
  waits w hw := by
    rw [hg.waiters] at hw
    have hlt : w.cell < f.cells.length := hf.alive_lt (isAlive_iff.mpr (.inr ⟨w, hw, rfl⟩))
    rw [hf.waits w hw, Bool.eq_iff_iff, hg.cancelled]
    exact ⟨.inl, fun hc => hc.resolve_right fun hnew => Nat.ne_of_lt hlt hnew.1⟩

/-! ### Calling off -/

theorem waits_callOff {cell : Nat} (hcell : f.cells[cell]? = some (.running listeners))
    (hf : ∀ w ∈ f.waiters, w.finished = f.isCancelled w.cell) :
    ∀ w ∈ (f.callOff cell).waiters, w.finished = (f.callOff cell).isCancelled w.cell := by
  intro w hw
  obtain ⟨before, hbefore, rfl⟩ := List.mem_map.mp hw
  rw [Bool.eq_iff_iff, isCancelled_callOff_iff hcell]
  by_cases heq : before.cell = cell
  · simp [heq]
  · simp [heq, hf before hbefore]

theorem waits_spread {pending : List Nat}
    (hf : ∀ w ∈ f.waiters, w.finished = f.isCancelled w.cell) :
    ∀ w ∈ (f.spread pending).waiters, w.finished = (f.spread pending).isCancelled w.cell := by
  induction f, pending using spread.induct with
  | case1 f => simpa using hf
  | case2 f cell rest listeners hcell ih =>
      rw [spread_running hcell]
      exact ih (waits_callOff hcell hf)
  | case3 f cell rest hcell ih =>
      rw [spread_passed hcell]
      exact ih hf

theorem Kept.running_of_not_cancelled (hf : Kept derived f) (hc : f.isAlive c = true)
    (hcancelled : f.isCancelled c = false) : ∃ listeners, f.cells[c]? = some (.running listeners) := by
  have hlt := hf.alive_lt hc
  have hlookup : f.cells[c]? = some f.cells[c] := List.getElem?_eq_getElem hlt
  cases hcell : f.cells[c] with
  | running listeners => exact ⟨listeners, by rw [hlookup, hcell]⟩
  | calledOff => simp [isCancelled, hlookup, hcell] at hcancelled

/-- What is derived from a cell that hears of a calling off hears of it too. -/
theorem Kept.hears_next (hf : Kept derived f) {first : Nat} (hderived : derived p c)
    (hc : f.isAlive c = true) (hcancelled : f.isCancelled c = false) (hp : Hears f first p) :
    Hears f first c := by
  obtain ⟨listeners, hlisteners⟩ := hp.running
  obtain ⟨others, hothers⟩ := hf.running_of_not_cancelled hc hcancelled
  have hmem := mem_audience.mpr ⟨hf.listens hderived hc hlisteners, hc⟩
  exact .next hp hlisteners hmem hothers

theorem Kept.spread {pending : List Nat} (hf : Kept derived f) : Kept derived (f.spread pending) where
  alive_lt hc := by
    rw [length_cells_spread]
    exact hf.alive_lt (by rwa [isAlive_spread] at hc)
  derived_lt hderived := by
    rw [length_cells_spread]
    exact hf.derived_lt hderived
  parent_unique := hf.parent_unique
  listens hderived hc hp := by
    rw [isAlive_spread] at hc
    exact hf.listens hderived hc (running_of_spread hp)
  of_listens hp hmem := hf.of_listens (running_of_spread hp) hmem
  hears {p c} hderived hc hp := by
    rw [isAlive_spread] at hc
    rw [isCancelled_spread_iff] at hp ⊢
    rcases hp with hp | ⟨first, hfirst, hp⟩
    · exact .inl (hf.hears hderived hc hp)
    · cases hcancelled : f.isCancelled c with
      | true => exact .inl rfl
      | false =>
          -- The parent is called off only now, and what listens to it in the same go.
          exact .inr ⟨first, hfirst, hf.hears_next hderived hc hcancelled hp⟩
  waits := waits_spread hf.waits

/-! ### Every history -/

theorem Kept.wait (hf : Kept derived f) : Kept derived (f.wait h) := by
  refine hf.of_cells_eq ?_ isAlive_of_wait ?_
  · unfold Cancellation.wait
    split <;> rfl
  · intro w hw
    unfold Cancellation.wait at hw
    split at hw
    case h_1 =>
      rcases List.mem_append.mp hw with hold | hnew
      · exact hf.waits w hold
      · rw [List.mem_singleton.mp hnew]
    case h_2 => exact hf.waits w hw

theorem derived_snoc_eq
    (hop : ∀ h handle, op = .derive h → (ofHistory ops).handle? h ≠ some handle) :
    Derived (ops ++ [op]) = Derived ops := by
  funext p c
  refine propext (derived_snoc_iff.trans ?_)
  constructor
  · rintro (hderived | ⟨h, handle, heq, hhandle, -⟩)
    · exact hderived
    · exact absurd hhandle (hop h handle heq)
  · exact .inl

theorem derived_derive_eq (hhandle : (ofHistory ops).handle? h = some handle) :
    Derived (ops ++ [.derive h]) = fun p c =>
      Derived ops p c ∨ some handle.cell = some p ∧ c = (ofHistory ops).cells.length := by
  funext p c
  refine propext (derived_snoc_iff.trans ?_)
  constructor
  · rintro (hderived | ⟨_, _, heq, hfound, rfl, rfl⟩)
    · exact .inl hderived
    · cases heq
      rw [hhandle] at hfound
      cases hfound
      exact .inr ⟨rfl, rfl⟩
  · rintro (hderived | ⟨heq, rfl⟩)
    · exact .inl hderived
    · exact .inr ⟨h, handle, rfl, hhandle, Option.some.inj heq, rfl⟩

/-- After every history the cells know what hears from them. -/
theorem kept_ofHistory (ops : List Operation) : Kept (Derived ops) (ofHistory ops) := by
  induction ops using List.reverseRecOn with
  | nil => exact kept_empty
  | append_singleton ops op ih =>
      rw [ofHistory_snoc]
      cases op with
      | new id =>
          rw [derived_snoc_eq (by simp)]
          simpa [perform] using ih.grow grown_new (by simp)
      | derive h =>
          cases hhandle : (ofHistory ops).handle? h with
          | none =>
              have hdropped : Derived (ops ++ [.derive h]) = Derived ops := by
                refine derived_snoc_eq fun _ _ heq => ?_
                cases heq
                simp [hhandle]
              rw [hdropped]
              simpa [perform, Cancellation.derive, hhandle] using ih
          | some handle =>
              have hlt : handle.cell < (ofHistory ops).cells.length :=
                ih.alive_lt (isAlive_of_handle? hhandle)
              rw [derived_derive_eq hhandle]
              refine ih.grow (grown_derive hhandle hlt) ?_
              rintro p heq
              cases heq
              exact hlt
      | copy h =>
          rw [derived_snoc_eq (by simp)]
          exact ih.of_cells_eq rfl isAlive_of_copy ih.waits
      | bare h =>
          rw [derived_snoc_eq (by simp)]
          exact ih.of_cells_eq rfl isAlive_of_bare ih.waits
      | drop h =>
          rw [derived_snoc_eq (by simp)]
          exact ih.of_cells_eq rfl isAlive_of_drop ih.waits
      | wait h =>
          rw [derived_snoc_eq (by simp)]
          exact ih.wait
      | cancel h =>
          rw [derived_snoc_eq (by simp)]
          cases hhandle : (ofHistory ops).handle? h with
          | none => simpa [perform, Cancellation.cancel, hhandle] using ih
          | some handle => simpa [perform, Cancellation.cancel, hhandle] using ih.spread

end CycleWatch.Cancellation
