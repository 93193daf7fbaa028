import CycleWatch.Proofs.Cancellation.History
import Mathlib.Logic.Relation

/-!
# How far calling off reaches

After every history, calling off a cell calls off exactly the cells that are reached from it through
cells that are alive, each derived from the one before (`cancel_reaches_exactly`). A cell further down
therefore hears from it if and only if all cells between them are alive (`cancel_reaches_below_iff`);
once one of these has been dropped it does not (`cancel_misses_below_dropped`). Who waits for a cell is
told so, whatever happens in between (`waiter_of_wait`).
-/

namespace CycleWatch.Cancellation

open Relation (ReflTransGen TransGen)

/-- A cell is derived from another one in one or more steps. -/
def Descends (ops : List Operation) : (above : Nat) → (below : Nat) → Prop :=
  TransGen (Derived ops)

/-- A cell is the given one, or derived from it in steps that lead through cells that are alive and end
in such a cell. -/
def Reached (ops : List Operation) : (first : Nat) → (cell : Nat) → Prop :=
  ReflTransGen fun parent child => Derived ops parent child ∧ (ofHistory ops).isAlive child = true

variable {ops : List Operation} {op : Operation} {f : Cancellation} {handle : Handle}
  {above below cell first h parent : Nat}

/-! ## Who hears is who is reached -/

theorem Descends.lt (h : Descends ops above below) : above < below := by
  induction h with
  | single hderived => exact ((kept_ofHistory ops).derived_lt hderived).1
  | tail _ hderived ih => exact Nat.lt_trans ih ((kept_ofHistory ops).derived_lt hderived).1

/-- The way down to a cell leads through its one parent. -/
theorem Descends.to_parent (h : Descends ops above cell) (hparent : Derived ops parent cell) :
    above = parent ∨ Descends ops above parent := by
  obtain ⟨last, hpath, hlast⟩ := TransGen.tail'_iff.mp h
  obtain rfl := (kept_ofHistory ops).parent_unique hparent hlast
  exact (Relation.reflTransGen_iff_eq_or_transGen.mp hpath).imp Eq.symm id

theorem Reached.eq_or_descends (h : Reached ops first cell) :
    cell = first ∨ Descends ops first cell := by
  rcases Relation.reflTransGen_iff_eq_or_transGen.mp h with heq | hpath
  · exact .inl heq
  · exact .inr (hpath.lift id fun _ _ hstep => hstep.1)

theorem Reached.eq_or_alive (h : Reached ops first cell) :
    cell = first ∨ (ofHistory ops).isAlive cell = true := by
  cases h with
  | refl => exact .inl rfl
  | tail _ hstep => exact .inr hstep.2

theorem Reached.hears (hfirst : (ofHistory ops).isAlive first = true) (h : Reached ops first cell)
    (hcell : (ofHistory ops).isCancelled cell = false) : Hears (ofHistory ops) first cell := by
  have hkept := kept_ofHistory ops
  induction h with
  | refl =>
      obtain ⟨listeners, hlisteners⟩ := hkept.running_of_not_cancelled hfirst hcell
      exact .itself hlisteners
  | @tail parent child _ hstep ih =>
      -- A cell that is alive and not called off has a parent that is not called off either.
      have hparent : (ofHistory ops).isCancelled parent = false := by
        cases hparent : (ofHistory ops).isCancelled parent with
        | false => rfl
        | true => rw [hkept.hears hstep.1 hstep.2 hparent] at hcell; cases hcell
      exact hkept.hears_next hstep.1 hstep.2 hcell (ih hparent)

theorem Hears.reached (h : Hears (ofHistory ops) first cell) : Reached ops first cell := by
  induction h with
  | itself => exact .refl
  | next _ hcell hmem _ ih =>
      obtain ⟨hlistens, halive⟩ := mem_audience.mp hmem
      exact .tail ih ⟨(kept_ofHistory ops).of_listens hcell hlistens, halive⟩

theorem isCancelled_cancel_iff (hhandle : (ofHistory ops).handle? h = some handle) :
    ((ofHistory ops).cancel h).isCancelled cell = true ↔
      (ofHistory ops).isCancelled cell = true ∨ Reached ops handle.cell cell := by
  simp only [cancel, hhandle, isCancelled_spread_iff, List.mem_singleton, exists_eq_left]
  constructor
  · rintro (hbefore | hhears)
    · exact .inl hbefore
    · exact .inr hhears.reached
  · rintro (hbefore | hreached)
    · exact .inl hbefore
    · cases hcell : (ofHistory ops).isCancelled cell with
      | true => exact .inl rfl
      | false => exact .inr (hreached.hears (isAlive_of_handle? hhandle) hcell)

/-! ## Once called off -/

theorem isCancelled_perform (hcell : f.isCancelled cell = true) :
    (f.perform op).isCancelled cell = true := by
  cases op with
  | new id => exact grown_new.cancelled.mpr (.inl hcell)
  | derive h =>
      cases hhandle : f.handle? h with
      | none => simpa [perform, derive, hhandle] using hcell
      | some handle =>
          rcases hparent : f.cells[handle.cell]? with _ | ⟨listeners⟩ | _
          · simpa [perform, derive, hhandle, hparent] using hcell
          · exact (grown_derive_running hhandle hparent).cancelled.mpr (.inl hcell)
          · exact (grown_derive_calledOff hhandle hparent).cancelled.mpr (.inl hcell)
  | copy h => exact hcell
  | bare h => exact hcell
  | drop h => exact hcell
  | wait h =>
      cases hhandle : f.handle? h with
      | none => simpa [perform, wait, hhandle] using hcell
      | some handle =>
          simp only [perform, wait, hhandle]
          exact hcell
  | cancel h =>
      cases hhandle : f.handle? h with
      | none => simpa [perform, cancel, hhandle] using hcell
      | some handle =>
          simp only [perform, cancel, hhandle]
          exact isCancelled_spread_iff.mpr (.inl hcell)

/-- What is called off stays so. -/
theorem isCancelled_ofHistory_append (later : List Operation)
    (hcell : (ofHistory ops).isCancelled cell = true) :
    (ofHistory (ops ++ later)).isCancelled cell = true := by
  induction later using List.reverseRecOn with
  | nil => simpa using hcell
  | append_singleton later op ih =>
      rw [← List.append_assoc, ofHistory_snoc]
      exact isCancelled_perform ih

theorem cancel_of_isCancelled (hhandle : f.handle? h = some handle)
    (hcell : f.isCancelled handle.cell = true) : f.cancel h = f := by
  have hpassed : ∀ listeners, f.cells[handle.cell]? ≠ some (.running listeners) := by
    intro listeners hrunning
    rw [isCancelled_iff, hrunning] at hcell
    cases hcell
  simp only [cancel, hhandle]
  rw [spread_passed hpassed, spread_nil]

/-- A cell that is reached is neither above the first one nor beside it. -/
theorem Reached.not_above_nor_beside (hreached : Reached ops first cell) :
    ¬ Descends ops cell first ∧
      ∀ parent, Derived ops parent first → Derived ops parent cell → cell = first := by
  have hkept := kept_ofHistory ops
  rcases hreached.eq_or_descends with rfl | hbelow
  · exact ⟨fun hself => Nat.lt_irrefl _ hself.lt, fun _ _ _ => rfl⟩
  · refine ⟨fun habove => Nat.lt_asymm hbelow.lt habove.lt, fun parent hfirst hcell => ?_⟩
    -- The parent of the first cell comes before it, so that no way down from that leads to the parent.
    have hlt : parent < first := (hkept.derived_lt hfirst).1
    rcases hbelow.to_parent hcell with rfl | hdown
    · exact absurd hlt (Nat.lt_irrefl _)
    · exact absurd hdown.lt (Nat.lt_asymm hlt)

/-- After every history of operations: what is called off stays so; a cell that is alive is called off
when the one it was derived from is; a call changes exactly the cells that it reaches through cells that
are alive, none above or beside its own one, and nothing if its own one is called off already; it comes
to an end, in one way; and a waiter has come to an end exactly when its cell is called off. -/
theorem cancel_reaches_exactly (ops : List Operation) :
    let f := ofHistory ops
    (∀ later cell, f.isCancelled cell = true →
      (ofHistory (ops ++ later)).isCancelled cell = true) ∧
    (∀ parent child, Derived ops parent child → f.isAlive child = true →
      f.isCancelled parent = true → f.isCancelled child = true) ∧
    (∀ h handle, f.handle? h = some handle →
      (∀ cell, (f.cancel h).isCancelled cell = true ↔
        f.isCancelled cell = true ∨ Reached ops handle.cell cell) ∧
      (∀ cell, (f.cancel h).isCancelled cell ≠ f.isCancelled cell →
        ¬ Descends ops cell handle.cell ∧
          ∀ parent, Derived ops parent handle.cell → Derived ops parent cell → cell = handle.cell) ∧
      (f.isCancelled handle.cell = true → f.cancel h = f) ∧
      ∀ g, Propagates f [handle.cell] g ↔ g = f.cancel h) ∧
    ∀ w ∈ f.waiters, w.finished = true ↔ f.isCancelled w.cell = true := by
  intro f
  have hkept := kept_ofHistory ops
  refine ⟨fun later cell => isCancelled_ofHistory_append later,
    fun parent child hderived => hkept.hears hderived, ?_, ?_⟩
  · intro h handle hhandle
    refine ⟨fun cell => isCancelled_cancel_iff hhandle, ?_, cancel_of_isCancelled hhandle, ?_⟩
    · intro cell hchanged
      cases hbefore : f.isCancelled cell with
      | true =>
          refine absurd ?_ hchanged
          rw [hbefore]
          exact (isCancelled_cancel_iff hhandle).mpr (.inl hbefore)
      | false =>
          rw [hbefore] at hchanged
          rcases (isCancelled_cancel_iff hhandle).mp (eq_true_of_ne_false hchanged) with
            hold | hreached
          · rw [hbefore] at hold
            cases hold
          · exact hreached.not_above_nor_beside
    · intro g
      rw [propagates_iff, cancel, hhandle]
  · intro w hw
    rw [hkept.waits w hw]

/-! ## Who waits -/

/-- Calling off tells waiters that their cell is called off, but gives none of them another one. -/
theorem map_cell_waiters_spread {pending : List Nat} :
    (f.spread pending).waiters.map Waiter.cell = f.waiters.map Waiter.cell := by
  refine spread_unchanged (·.waiters.map Waiter.cell) fun f cell => ?_
  rw [callOff, List.map_map]
  refine List.map_congr_left fun w _ => ?_
  rw [Function.comp_apply]
  split <;> rfl

theorem waiters_derive : (f.derive h).waiters = f.waiters := by
  unfold derive
  split
  · split <;> rfl
  · rfl

/-- No waiter is sent away, and none gets another cell to wait for. -/
theorem waiters_perform_prefix :
    f.waiters.map Waiter.cell <+: (f.perform op).waiters.map Waiter.cell := by
  cases op with
  | new id => exact List.prefix_refl _
  | derive h => simp [perform, waiters_derive]
  | copy h => exact List.prefix_refl _
  | bare h => exact List.prefix_refl _
  | drop h => exact List.prefix_refl _
  | wait h =>
      cases hhandle : f.handle? h with
      | none => simp [perform, wait, hhandle]
      | some handle =>
          simp only [perform, wait, hhandle, List.map_append]
          exact List.prefix_append _ _
  | cancel h =>
      cases hhandle : f.handle? h with
      | none => simp [perform, cancel, hhandle]
      | some handle =>
          simp [perform, cancel, hhandle, map_cell_waiters_spread]

theorem waiters_ofHistory_prefix (later : List Operation) :
    (ofHistory ops).waiters.map Waiter.cell <+:
      (ofHistory (ops ++ later)).waiters.map Waiter.cell := by
  induction later using List.reverseRecOn with
  | nil => simp
  | append_singleton later op ih =>
      rw [← List.append_assoc, ofHistory_snoc]
      exact ih.trans waiters_perform_prefix

/-- Who begins to wait for the cell of a handle keeps its place in all that follows, and has come to an
end from the moment on when that cell is called off, at once if it is so already. -/
theorem waiter_of_wait (hhandle : (ofHistory ops).handle? h = some handle)
    (later : List Operation) :
    (ofHistory (ops ++ .wait h :: later)).waiters[(ofHistory ops).waiters.length]? =
      some ⟨handle.cell, (ofHistory (ops ++ .wait h :: later)).isCancelled handle.cell⟩ := by
  have hbegun : (ofHistory (ops ++ [.wait h])).waiters.map Waiter.cell =
      (ofHistory ops).waiters.map Waiter.cell ++ [handle.cell] := by
    simp [perform, wait, hhandle]
  have hkept : (ofHistory (ops ++ [.wait h])).waiters.map Waiter.cell <+:
      (ofHistory (ops ++ [.wait h] ++ later)).waiters.map Waiter.cell :=
    waiters_ofHistory_prefix later
  obtain ⟨others, hothers⟩ := hkept
  rw [hbegun, List.append_assoc, List.append_assoc, List.singleton_append,
    List.singleton_append] at hothers
  have hcell : ((ofHistory (ops ++ .wait h :: later)).waiters.map
      Waiter.cell)[(ofHistory ops).waiters.length]? = some handle.cell := by
    rw [← hothers, List.getElem?_append_right (by simp)]
    simp
  rw [List.getElem?_map] at hcell
  obtain ⟨w, hw, hsame⟩ := Option.map_eq_some_iff.mp hcell
  rw [hw, ← hsame, ← (kept_ofHistory _).waits w (List.mem_of_getElem? hw)]

example :
    (ofHistory [.new none, .derive 0, .wait 0, .wait 1, .cancel 1, .wait 1]).finished =
      [false, true, true] := by
  decide +kernel

/-! ## Cells further down -/

theorem Reached.alive_between {middle : Nat} (h : Reached ops above below)
    (hmiddle : Descends ops above middle) (hbelow : Descends ops middle below) :
    (ofHistory ops).isAlive middle = true := by
  induction h with
  | refl => exact absurd hbelow.lt (Nat.lt_asymm hmiddle.lt)
  | tail hpath hstep ih =>
      rcases hbelow.to_parent hstep.1 with rfl | hdown
      · rcases Reached.eq_or_alive hpath with rfl | halive
        · exact absurd hmiddle.lt (Nat.lt_irrefl _)
        · exact halive
      · exact ih hdown

theorem Descends.reached (h : Descends ops above below)
    (halive : (ofHistory ops).isAlive below = true)
    (hbetween : ∀ middle, Descends ops above middle → Descends ops middle below →
      (ofHistory ops).isAlive middle = true) : Reached ops above below := by
  induction h with
  | single hderived => exact .single ⟨hderived, halive⟩
  | @tail parent child hpath hderived ih =>
      have hparent : (ofHistory ops).isAlive parent = true :=
        hbetween parent hpath (.single hderived)
      refine .tail (ih hparent fun middle hmiddle hdown => ?_) ⟨hderived, halive⟩
      exact hbetween middle hmiddle (hdown.tail hderived)

/-- When a cell is called off, one that is alive further down is called off with it exactly when all
cells between the two are alive, or when it was called off before. -/
theorem cancel_reaches_below_iff (hhandle : (ofHistory ops).handle? h = some handle)
    (hbelow : Descends ops handle.cell below) (halive : (ofHistory ops).isAlive below = true) :
    (ofHistory (ops ++ [.cancel h])).isCancelled below = true ↔
      (ofHistory ops).isCancelled below = true ∨
        ∀ middle, Descends ops handle.cell middle → Descends ops middle below →
          (ofHistory ops).isAlive middle = true := by
  rw [ofHistory_snoc, perform, isCancelled_cancel_iff hhandle]
  constructor
  · rintro (hbefore | hreached)
    · exact .inl hbefore
    · exact .inr fun middle hmiddle hdown => hreached.alive_between hmiddle hdown
  · rintro (hbefore | hbetween)
    · exact .inl hbefore
    · exact .inr (hbelow.reached halive hbetween)

/-- A cell is derived from that of a run, and from it another one, which has two handles: that one is
called off with the run as long as the one between has its handle. -/
theorem cancel_reaches_below_while_held :
    let ops : List Operation := [.new (some ⟨"run"⟩), .derive 0, .derive 1, .copy 2]
    (ofHistory ops).handle? 0 = some ⟨0, some ⟨"run"⟩⟩ ∧ Descends ops 0 2 ∧
      (ofHistory ops).isAlive 2 = true ∧
      (ofHistory (ops ++ [.cancel 0])).isCancelled 2 = true := by
  intro ops
  have hfirst : Derived ops 0 1 := ⟨[.new (some ⟨"run"⟩)], 0, _, ⟨[.derive 1, .copy 2], rfl⟩, rfl, rfl, rfl⟩
  have hsecond : Derived ops 1 2 :=
    ⟨[.new (some ⟨"run"⟩), .derive 0], 1, _, ⟨[.copy 2], rfl⟩, rfl, rfl, rfl⟩
  have hhandle : (ofHistory ops).handle? 0 = some ⟨0, some ⟨"run"⟩⟩ := by decide
  have hbelow : Descends ops 0 2 := .tail (.single hfirst) hsecond
  have halive : (ofHistory ops).isAlive 2 = true := by decide
  refine ⟨hhandle, hbelow, halive, (cancel_reaches_below_iff hhandle hbelow halive).mpr (.inr ?_)⟩
  intro middle hmiddle hdown
  have hlow := hmiddle.lt
  have hhigh := hdown.lt
  obtain rfl : middle = 1 := by omega
  decide

/-- When the one between is dropped first, the other one is not called off with the run. -/
theorem cancel_misses_below_dropped :
    let ops : List Operation := [.new (some ⟨"run"⟩), .derive 0, .derive 1, .copy 2, .drop 1]
    (ofHistory ops).handle? 0 = some ⟨0, some ⟨"run"⟩⟩ ∧ Descends ops 0 2 ∧
      (ofHistory ops).isAlive 2 = true ∧
      (ofHistory (ops ++ [.cancel 0])).isCancelled 0 = true ∧
      (ofHistory (ops ++ [.cancel 0])).isCancelled 2 = false := by
  intro ops
  have hfirst : Derived ops 0 1 :=
    ⟨[.new (some ⟨"run"⟩)], 0, _, ⟨[.derive 1, .copy 2, .drop 1], rfl⟩, rfl, rfl, rfl⟩
  have hsecond : Derived ops 1 2 :=
    ⟨[.new (some ⟨"run"⟩), .derive 0], 1, _, ⟨[.copy 2, .drop 1], rfl⟩, rfl, rfl, rfl⟩
  exact ⟨by decide, .tail (.single hfirst) hsecond, by decide, by decide +kernel, by decide +kernel⟩

end CycleWatch.Cancellation
