import CycleWatch.Proofs.Cancellation.Reach

/-!
# What one operation leaves to the others

A handle keeps referring to its cell until it is dropped (`handle?_perform`), whatever else is done. Only
calling off changes whether a cell that is there is called off (`isCancelled_perform_eq`), and it never
changes a cell that was made before the one it is about (`isCancelled_cancel_of_lt`).
-/

namespace CycleWatch.Cancellation

variable {f g : Cancellation} {ops : List Operation} {op : Operation} {handle : Handle}
  {cell h n : Nat}

theorem handle?_lt (h : f.handle? n = some handle) : n < f.handles.length := by
  have hfound : f.handles[n]? = some (some handle) := Option.join_eq_some_iff.mp h
  exact (List.getElem?_eq_some_iff.mp hfound).1

theorem handle?_of_prefix (hbegins : f.handles <+: g.handles) (h : f.handle? n = some handle) :
    g.handle? n = some handle := by
  obtain ⟨more, hmore⟩ := hbegins
  rw [handle?, ← hmore, List.getElem?_append_left (handle?_lt h)]
  exact h

theorem handles_spread (pending : List Nat) : (f.spread pending).handles = f.handles :=
  spread_unchanged handles (fun _ _ => rfl)

theorem handles_prefix_perform (hop : ∀ h, op ≠ .drop h) : f.handles <+: (f.perform op).handles := by
  cases op with
  | new id => exact List.prefix_append _ _
  | derive h =>
    simp only [perform, derive]
    split
    · split
      · exact List.prefix_append _ _
      · exact List.prefix_append _ _
      · exact List.prefix_refl _
    · exact List.prefix_refl _
  | copy h => exact List.prefix_append _ _
  | bare h => exact List.prefix_append _ _
  | drop h => exact absurd rfl (hop h)
  | wait h =>
    simp only [perform, wait]
    split <;> exact List.prefix_refl _
  | cancel h =>
    simp only [perform, cancel]
    split
    · exact (handles_spread _).symm ▸ List.prefix_refl _
    · exact List.prefix_refl _

/-- A handle is there until it is dropped. -/
theorem handle?_perform (h : f.handle? n = some handle) (hop : op ≠ .drop n) :
    (f.perform op).handle? n = some handle := by
  by_cases hdrop : ∃ m, op = .drop m
  · obtain ⟨m, rfl⟩ := hdrop
    have hne : m ≠ n := fun heq => hop (heq ▸ rfl)
    rwa [perform, drop, handle?, List.getElem?_set_ne hne]
  · exact handle?_of_prefix (handles_prefix_perform fun m hm => hdrop ⟨m, hm⟩) h

theorem handles_derive (hhandle : f.handle? h = some handle) (hlt : handle.cell < f.cells.length) :
    (f.derive h).handles = f.handles ++ [some ⟨f.cells.length, handle.id⟩] := by
  cases hcell : f.cells[handle.cell] with
  | running listeners =>
    have hfound : f.cells[handle.cell]? = some (.running listeners) := by
      rw [List.getElem?_eq_getElem hlt, hcell]
    simp [derive, hhandle, hfound, add]
  | calledOff =>
    have hfound : f.cells[handle.cell]? = some .calledOff := by
      rw [List.getElem?_eq_getElem hlt, hcell]
    simp [derive, hhandle, hfound, add]

theorem handle?_of_handles_eq {before : List (Option Handle)} {o : Option Handle}
    (h : f.handles = before ++ [o]) : f.handle? before.length = o := by
  rw [handle?, h, List.getElem?_concat_length]
  rfl

theorem handle?_snoc (h : (ofHistory ops).handle? n = some handle) (hop : op ≠ .drop n) :
    (ofHistory (ops ++ [op])).handle? n = some handle := by
  rw [ofHistory_snoc]
  exact handle?_perform h hop

/-- What is called off changes by calling off only. -/
theorem isCancelled_perform_eq (hlt : cell < f.cells.length) (hop : ∀ h, op ≠ .cancel h) :
    (f.perform op).isCancelled cell = f.isCancelled cell := by
  have hgrown {g : Cancellation} {parent : Option Nat} (hg : Grown f g parent) :
      g.isCancelled cell = f.isCancelled cell := by
    rw [Bool.eq_iff_iff, hg.cancelled]
    exact ⟨fun hc => hc.resolve_right fun hnew => Nat.ne_of_lt hlt hnew.1, .inl⟩
  cases op with
  | new id => exact hgrown grown_new
  | derive h =>
    cases hhandle : f.handle? h with
    | none => simp [perform, derive, hhandle]
    | some handle =>
      rcases hparent : f.cells[handle.cell]? with _ | ⟨listeners⟩ | _
      · simp [perform, derive, hhandle, hparent]
      · exact hgrown (grown_derive_running hhandle hparent)
      · exact hgrown (grown_derive_calledOff hhandle hparent)
  | copy h => rfl
  | bare h => rfl
  | drop h => rfl
  | wait h =>
    simp only [perform, wait]
    split <;> rfl
  | cancel h => exact absurd rfl (hop h)

/-- Calling off does not reach what was made before. -/
theorem isCancelled_cancel_of_lt (hhandle : (ofHistory ops).handle? h = some handle)
    (hlt : cell < handle.cell) :
    ((ofHistory ops).cancel h).isCancelled cell = (ofHistory ops).isCancelled cell := by
  rw [Bool.eq_iff_iff, isCancelled_cancel_iff hhandle]
  constructor
  · rintro (hbefore | hreached)
    · exact hbefore
    · rcases hreached.eq_or_descends with rfl | hdown
      · exact absurd hlt (Nat.lt_irrefl _)
      · exact absurd hdown.lt (Nat.lt_asymm hlt)
  · exact .inl

/-- The cell of the handle itself is called off. -/
theorem isCancelled_cancel_self (hhandle : (ofHistory ops).handle? h = some handle) :
    ((ofHistory ops).cancel h).isCancelled handle.cell = true :=
  (isCancelled_cancel_iff hhandle).mpr (.inr .refl)

theorem cell_lt_of_handle? (hhandle : (ofHistory ops).handle? h = some handle) :
    handle.cell < (ofHistory ops).cells.length :=
  (kept_ofHistory ops).alive_lt (isAlive_of_handle? hhandle)

end CycleWatch.Cancellation
