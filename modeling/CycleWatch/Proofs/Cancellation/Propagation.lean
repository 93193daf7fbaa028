import CycleWatch.Cancellation

/-!
# How calling off goes on

Calling off a cell calls off its listeners, each of them with all that it brings about before the next
one (`Propagates`). This comes to an end whatever lists whom, and always in the same way
(`propagates_iff`). Called off in the end are the cells that were so before, and those that hear from
one of the cells to be called off (`isCancelled_spread_iff`).
-/

namespace CycleWatch.Cancellation

/-- What calling off cells brings about, with the cells taken one after the other. -/
inductive Propagates : Cancellation → (pending : List Nat) → Cancellation → Prop
  /-- There is nothing left to do. -/
  | done (f : Cancellation) : Propagates f [] f
  /-- A cell that is called off already is passed over. -/
  | passed {f g : Cancellation} {cell : Nat} {rest : List Nat} :
      (∀ listeners, f.cells[cell]? ≠ some (.running listeners)) → Propagates f rest g →
      Propagates f (cell :: rest) g
  /-- A running cell is called off, and its listeners that are alive after it. -/
  | calledOff {f m g : Cancellation} {cell : Nat} {listeners rest : List Nat} :
      f.cells[cell]? = some (.running listeners) →
      Propagates (f.callOff cell) (f.audience listeners) m → Propagates m rest g →
      Propagates f (cell :: rest) g

/-- A running cell hears from another one that is called off: each cell on the way listens to the one
before it, runs and, the first one apart, is alive. -/
inductive Hears (f : Cancellation) : (first : Nat) → (cell : Nat) → Prop
  | itself {cell : Nat} {listeners : List Nat} :
      f.cells[cell]? = some (.running listeners) → Hears f cell cell
  | next {first cell listener : Nat} {listeners others : List Nat} :
      Hears f first cell → f.cells[cell]? = some (.running listeners) →
      listener ∈ f.audience listeners → f.cells[listener]? = some (.running others) →
      Hears f first listener

variable {f g : Cancellation} {cell other first : Nat} {listeners others pending rest : List Nat}

theorem isCancelled_iff : f.isCancelled cell = true ↔ f.cells[cell]? = some .calledOff := by
  simp [isCancelled]

theorem mem_audience : cell ∈ f.audience listeners ↔ cell ∈ listeners ∧ f.isAlive cell = true := by
  simp [audience]

/-! ## A single cell -/

@[simp] theorem length_cells_callOff : (f.callOff cell).cells.length = f.cells.length := by
  simp [callOff]

@[simp] theorem isAlive_callOff : (f.callOff cell).isAlive other = f.isAlive other := by
  have hwaiter : ∀ w : Waiter,
      ((if w.cell = cell then { w with finished := true } else w : Waiter).cell == other) =
        (w.cell == other) := by
    intro w
    split <;> rfl
  simp only [isAlive, callOff, List.any_map, Function.comp_def, hwaiter]

@[simp] theorem audience_callOff : (f.callOff cell).audience listeners = f.audience listeners := by
  have hsame : (f.callOff cell).isAlive = f.isAlive := funext fun _ => isAlive_callOff
  rw [audience, audience, hsame]

theorem running_callOff_iff :
    (f.callOff cell).cells[other]? = some (.running listeners) ↔
      other ≠ cell ∧ f.cells[other]? = some (.running listeners) := by
  by_cases heq : cell = other
  · subst heq
    by_cases hlt : cell < f.cells.length <;> simp [callOff, hlt]
  · simp [callOff, heq, Ne.symm heq]

theorem isCancelled_callOff_iff (h : f.cells[cell]? = some (.running listeners)) :
    (f.callOff cell).isCancelled other = true ↔ other = cell ∨ f.isCancelled other = true := by
  obtain ⟨hlt, -⟩ := List.getElem?_eq_some_iff.mp h
  rw [isCancelled_iff, isCancelled_iff]
  by_cases heq : cell = other
  · subst heq
    simp [callOff, hlt]
  · simp [callOff, heq, Ne.symm heq]

/-! ## Cells one after the other -/

@[simp] theorem spread_nil : f.spread [] = f := by
  rw [spread]

theorem spread_running (h : f.cells[cell]? = some (.running listeners)) :
    f.spread (cell :: rest) = (f.callOff cell).spread (f.audience listeners ++ rest) := by
  rw [spread]
  split
  case h_1 _ heq =>
    rw [h] at heq
    cases heq
    rfl
  case h_2 hne => exact absurd h (hne listeners)

theorem spread_passed (h : ∀ listeners, f.cells[cell]? ≠ some (.running listeners)) :
    f.spread (cell :: rest) = f.spread rest := by
  rw [spread]
  split
  case h_1 listeners heq => exact absurd heq (h listeners)
  case h_2 => rfl

theorem spread_append : f.spread (pending ++ rest) = (f.spread pending).spread rest := by
  induction f, pending using spread.induct with
  | case1 f => simp
  | case2 f cell rest' listeners h ih =>
      rw [List.cons_append, spread_running h, spread_running h, ← List.append_assoc, ih]
  | case3 f cell rest' h ih =>
      rw [List.cons_append, spread_passed h, spread_passed h, ih]

theorem Propagates.append (h : Propagates f (pending ++ rest) g) :
    ∃ m, Propagates f pending m ∧ Propagates m rest g := by
  induction pending generalizing f with
  | nil => exact ⟨f, .done f, h⟩
  | cons cell pending ih =>
      cases h with
      | passed hcell h =>
          obtain ⟨m, hm, hg⟩ := ih h
          exact ⟨m, .passed hcell hm, hg⟩
      | calledOff hcell hlisteners h =>
          obtain ⟨m, hm, hg⟩ := ih h
          exact ⟨m, .calledOff hcell hlisteners hm, hg⟩

/-- Calling off comes to an end, and what it brings about is what `spread` computes. -/
theorem propagates_iff : Propagates f pending g ↔ g = f.spread pending := by
  constructor
  · intro h
    induction h with
    | done f => exact spread_nil.symm
    | passed hcell _ ih => rw [spread_passed hcell, ih]
    | calledOff hcell _ _ ihlisteners ihrest =>
        rw [spread_running hcell, spread_append, ← ihlisteners, ihrest]
  · rintro rfl
    induction f, pending using spread.induct with
    | case1 f => rw [spread_nil]; exact .done f
    | case2 f cell rest listeners hcell ih =>
        -- The stack holds the listeners before the rest, so its derivation falls into the two.
        obtain ⟨m, hm, hg⟩ := ih.append
        rw [spread_running hcell]
        exact .calledOff hcell hm hg
    | case3 f cell rest hcell ih =>
        rw [spread_passed hcell]
        exact .passed hcell ih

/-! ## What stays as it is -/

/-- What calling off a single cell leaves as it is, stays so. -/
theorem spread_unchanged {α : Type} (q : Cancellation → α)
    (hq : ∀ f cell, q (callOff f cell) = q f) : q (f.spread pending) = q f := by
  induction f, pending using spread.induct with
  | case1 f => rw [spread_nil]
  | case2 f cell rest listeners h ih => rw [spread_running h, ih, hq]
  | case3 f cell rest h ih => rw [spread_passed h, ih]

@[simp] theorem length_cells_spread : (f.spread pending).cells.length = f.cells.length :=
  spread_unchanged (·.cells.length) fun _ _ => length_cells_callOff

@[simp] theorem isAlive_spread : (f.spread pending).isAlive cell = f.isAlive cell :=
  spread_unchanged (·.isAlive cell) fun _ _ => isAlive_callOff

theorem running_of_spread (h : (f.spread pending).cells[cell]? = some (.running listeners)) :
    f.cells[cell]? = some (.running listeners) := by
  induction f, pending using spread.induct with
  | case1 f => rwa [spread_nil] at h
  | case2 f first rest others hfirst ih =>
      rw [spread_running hfirst] at h
      exact (running_callOff_iff.mp (ih h)).2
  | case3 f first rest hfirst ih =>
      rw [spread_passed hfirst] at h
      exact ih h

/-! ## Who hears -/

theorem Hears.first_running (h : Hears f first cell) :
    ∃ listeners, f.cells[first]? = some (.running listeners) := by
  induction h with
  | itself hcell => exact ⟨_, hcell⟩
  | next _ _ _ _ ih => exact ih

theorem Hears.running (h : Hears f first cell) :
    ∃ listeners, f.cells[cell]? = some (.running listeners) := by
  cases h with
  | itself hcell => exact ⟨_, hcell⟩
  | next _ _ _ hcell => exact ⟨_, hcell⟩

theorem Hears.of_callOff (h : Hears (f.callOff other) first cell) : Hears f first cell := by
  induction h with
  | itself hcell => exact .itself (running_callOff_iff.mp hcell).2
  | next _ hcell hmem hlistener ih =>
      rw [audience_callOff] at hmem
      exact .next ih (running_callOff_iff.mp hcell).2 hmem (running_callOff_iff.mp hlistener).2

theorem Hears.cons {listener : Nat} (hfirst : f.cells[first]? = some (.running listeners))
    (hlistener : listener ∈ f.audience listeners) (h : Hears f listener cell) :
    Hears f first cell := by
  induction h with
  | itself hcell => exact .next (.itself hfirst) hfirst hlistener hcell
  | next _ hcell hmem hnext ih => exact .next ih hcell hmem hnext

/-- A way through the cells either ends in a given cell, or avoids it, or avoids it from one of its
listeners on. -/
theorem Hears.split (hcell : f.cells[cell]? = some (.running listeners)) (h : Hears f first other) :
    other = cell ∨ Hears (f.callOff cell) first other ∨
      ∃ listener ∈ f.audience listeners, Hears (f.callOff cell) listener other := by
  induction h with
  | itself hother =>
      by_cases heq : first = cell
      · exact .inl heq
      · exact .inr (.inl (.itself (running_callOff_iff.mpr ⟨heq, hother⟩)))
  | @next middle last middleListeners lastListeners _ hmiddle hmem hlast ih =>
      by_cases heq : last = cell
      · exact .inl heq
      · have hlast' := running_callOff_iff.mpr ⟨heq, hlast⟩
        by_cases hat : middle = cell
        · subst hat
          rw [hcell] at hmiddle
          cases hmiddle
          exact .inr (.inr ⟨last, hmem, .itself hlast'⟩)
        · have hmiddle' := running_callOff_iff.mpr ⟨hat, hmiddle⟩
          have hmem' : last ∈ (f.callOff cell).audience middleListeners := by rwa [audience_callOff]
          rcases ih with heq | havoids | ⟨listener, hlistener, hfrom⟩
          · exact absurd heq hat
          · exact .inr (.inl (.next havoids hmiddle' hmem' hlast'))
          · exact .inr (.inr ⟨listener, hlistener, .next hfrom hmiddle' hmem' hlast'⟩)

/-- Calling off the listeners of a cell and the rest once the cell is called off reaches as far as
calling off the cell and the rest. -/
theorem hears_callOff_iff (hcell : f.cells[cell]? = some (.running listeners)) :
    ((f.callOff cell).isCancelled other = true ∨
        ∃ first ∈ f.audience listeners ++ rest, Hears (f.callOff cell) first other) ↔
      f.isCancelled other = true ∨ ∃ first ∈ cell :: rest, Hears f first other := by
  rw [isCancelled_callOff_iff hcell]
  constructor
  · rintro ((rfl | hbefore) | ⟨first, hfirst, hhears⟩)
    · exact .inr ⟨other, List.mem_cons_self, .itself hcell⟩
    · exact .inl hbefore
    · rcases List.mem_append.mp hfirst with hlistener | hrest
      · exact .inr ⟨cell, List.mem_cons_self, hhears.of_callOff.cons hcell hlistener⟩
      · exact .inr ⟨first, List.mem_cons_of_mem cell hrest, hhears.of_callOff⟩
  · rintro (hbefore | ⟨first, hfirst, hhears⟩)
    · exact .inl (.inr hbefore)
    · rcases hhears.split hcell with heq | havoids | ⟨listener, hlistener, hfrom⟩
      · exact .inl (.inl heq)
      · rcases List.mem_cons.mp hfirst with rfl | hrest
        · -- A way that starts in the cell does not avoid it.
          obtain ⟨_, hrunning⟩ := havoids.first_running
          exact absurd rfl (running_callOff_iff.mp hrunning).1
        · exact .inr ⟨first, List.mem_append_right _ hrest, havoids⟩
      · exact .inr ⟨listener, List.mem_append_left _ hlistener, hfrom⟩

/-- Called off in the end are the cells that were so before and those that hear from a pending one. -/
theorem isCancelled_spread_iff :
    (f.spread pending).isCancelled cell = true ↔
      f.isCancelled cell = true ∨ ∃ first ∈ pending, Hears f first cell := by
  induction f, pending using spread.induct with
  | case1 f => simp
  | case2 f first rest listeners hfirst ih => rw [spread_running hfirst, ih, hears_callOff_iff hfirst]
  | case3 f first rest hfirst ih =>
      have hsilent : ¬ Hears f first cell := by
        intro hhears
        obtain ⟨listeners, hrunning⟩ := hhears.first_running
        exact hfirst listeners hrunning
      rw [spread_passed hfirst, ih]
      simp [hsilent]

end CycleWatch.Cancellation
