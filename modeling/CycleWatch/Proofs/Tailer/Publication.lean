import CycleWatch.Tailer.Machine

/-!
# What a tailer publishes

A signal changes the published snapshot only when it answers a reading with contents whose last line is
another one than before (`step_published`). The publications of a run are these changes, in their order;
the snapshot at the end of a run is the last of them (`run_published`), and its version never
falls behind (`version_le_run`).
-/

namespace CycleWatch

theorem Version.le_next (v : Version) : v.number ≤ v.next.number := by
  rw [UInt64.le_iff_toNat_le, Version.next, Word.toNat_succ64]
  have := UInt64.toNat_lt v.number
  unfold UInt64.size
  omega

namespace Tailer

/-- A change of the published snapshot. -/
structure Publication where
  /-- The signal that brought it about. -/
  signal : Signal
  /-- The new snapshot. -/
  snapshot : Snapshot

/-- The publications of a run, in their order. -/
def publications (t : Tailer) : List Signal → List Publication
  | [] => []
  | signal :: rest =>
    let next := (t.step signal).1
    if next.published = t.published then next.publications rest
    else ⟨signal, next.published⟩ :: next.publications rest

/-! ## One signal -/

@[simp] theorem stop_published (t : Tailer) : t.stop.1.published = t.published := rfl

@[simp] theorem turn_published (t : Tailer) (cancelled : Bool) :
    (t.turn cancelled).1.published = t.published := by
  cases cancelled <;> rfl

@[simp] theorem start_published (o : Options) (cancelled : Bool) :
    (start o cancelled).1.published = .empty := by
  cases cancelled <;> rfl

theorem publish_published (t : Tailer) (line : String) (nowMs : UInt64) :
    (t.publish line nowMs).1.published =
      if t.published.line = some line then t.published
      else ⟨t.published.version.next, some line, nowMs⟩ := by
  unfold publish
  split <;> rfl

theorem absorb_published (t : Tailer) (nowMs : UInt64) (contents : String) :
    (t.absorb nowMs (.ok (some contents))).1.published =
      match lastLine contents with
      | some line => (t.publish line nowMs).1.published
      | none => t.published := by
  simp only [absorb]
  cases lastLine contents <;> rfl

theorem absorb_published_of_no_contents (t : Tailer) (nowMs : UInt64) {reading : Reading}
    (h : ∀ contents, reading ≠ .ok (some contents)) :
    (t.absorb nowMs reading).1.published = t.published := by
  match reading with
  | .ok (some contents) => exact absurd rfl (h contents)
  | .ok none => rfl
  | .error fault =>
      simp only [absorb]
      split <;> rfl

/-- The reading that a tailer waits for brings it the last line of the contents, if there is one. -/
theorem step_answered_line {t : Tailer} (h : t.phase = .reading) (contents : String)
    (nowMs : UInt64) :
    (t.step (.answered (.ok (some contents)) nowMs)).1.published.line =
      (lastLine contents).or t.published.line := by
  simp only [step, h, absorb_published]
  cases lastLine contents with
  | none => rfl
  | some line =>
      simp only [publish_published, Option.some_or]
      split
      case isTrue hsame => exact hsame
      case isFalse => rfl

/-- Only the answer to a reading with contents changes what is published, and only when their last line
is another one than before. -/
theorem step_published (t : Tailer) (signal : Signal) :
    (t.step signal).1.published = t.published ∨
      ∃ contents nowMs line, signal = .answered (.ok (some contents)) nowMs ∧
        t.phase = .reading ∧ lastLine contents = some line ∧ t.published.line ≠ some line ∧
        (t.step signal).1.published = ⟨t.published.version.next, some line, nowMs⟩ := by
  cases signal with
  | woken slept cancelled =>
      left
      cases hphase : t.phase <;> cases slept <;> simp [step, hphase]
  | answered reading nowMs =>
      cases hphase : t.phase with
      | sleeping => left; simp [step, hphase]
      | stopped => left; simp [step, hphase]
      | reading =>
          match reading with
          | .error fault =>
              left
              simpa [step, hphase] using absorb_published_of_no_contents t nowMs (by simp)
          | .ok none =>
              left
              simpa [step, hphase] using absorb_published_of_no_contents t nowMs (by simp)
          | .ok (some contents) =>
              simp only [step, hphase, absorb_published]
              cases hline : lastLine contents with
              | none => exact Or.inl rfl
              | some line =>
                  simp only [publish_published]
                  split
                  case isTrue => exact Or.inl rfl
                  case isFalse hne =>
                      exact Or.inr ⟨contents, nowMs, line, rfl, trivial, hline, hne, rfl⟩

/-! ## Runs -/

@[simp] theorem run_nil (t : Tailer) : (t.run []).1 = t := rfl

@[simp] theorem run_cons (t : Tailer) (signal : Signal) (rest : List Signal) :
    (t.run (signal :: rest)).1 = ((t.step signal).1.run rest).1 := rfl

theorem run_append (t : Tailer) (first second : List Signal) :
    (t.run (first ++ second)).1 = ((t.run first).1.run second).1 := by
  induction first generalizing t with
  | nil => rfl
  | cons signal rest ih => simp [ih]

theorem publications_append (t : Tailer) (first second : List Signal) :
    t.publications (first ++ second) =
      t.publications first ++ (t.run first).1.publications second := by
  induction first generalizing t with
  | nil => rfl
  | cons signal rest ih =>
      simp only [List.cons_append, publications, ih, run_cons]
      split <;> simp

theorem publications_singleton (t : Tailer) (signal : Signal) :
    t.publications [signal] =
      if (t.step signal).1.published = t.published then []
      else [⟨signal, (t.step signal).1.published⟩] := rfl

/-! ## Versions -/

theorem version_le_step (t : Tailer) (signal : Signal) :
    t.published.version.number ≤ (t.step signal).1.published.version.number := by
  rcases step_published t signal with hsame | ⟨_, _, _, _, _, _, _, hnew⟩
  · rw [hsame]; exact UInt64.le_refl _
  · rw [hnew]; exact Version.le_next _

/-- The version of the published snapshot never falls. -/
theorem version_le_run (t : Tailer) (signals : List Signal) :
    t.published.version.number ≤ (t.run signals).1.published.version.number := by
  induction signals generalizing t with
  | nil => exact UInt64.le_refl _
  | cons signal rest ih => exact UInt64.le_trans (version_le_step t signal) (ih _)

theorem version_le_of_prefix {t : Tailer} {moment later : List Signal} (h : moment <+: later) :
    (t.run moment).1.published.version.number ≤ (t.run later).1.published.version.number := by
  obtain ⟨rest, rfl⟩ := h
  rw [run_append]
  exact version_le_run _ rest

/-! ## Where a published snapshot comes from -/

/-- A publication takes the last line of the contents that were read, and the time of the reading. -/
theorem publications_origin {t : Tailer} {signals : List Signal} {p : Publication}
    (h : p ∈ t.publications signals) :
    ∃ contents line, p.signal = .answered (.ok (some contents)) p.snapshot.observedAtMs ∧
      lastLine contents = some line ∧ p.snapshot.line = some line := by
  induction signals generalizing t with
  | nil => simp [publications] at h
  | cons signal rest ih =>
      simp only [publications] at h
      split at h
      case isTrue => exact ih h
      case isFalse hchanged =>
        rcases List.mem_cons.mp h with rfl | hrest
        · rcases step_published t signal with hsame | ⟨contents, _, line, rfl, _, hline, _, hnew⟩
          · exact absurd hsame hchanged
          · exact ⟨contents, line, by rw [hnew], hline, by rw [hnew]⟩
        · exact ih hrest

/-- The snapshot at the end of a run was there at its start or is one of its publications. -/
theorem run_published (t : Tailer) (signals : List Signal) :
    (t.run signals).1.published = t.published ∨
      ∃ p ∈ t.publications signals, p.snapshot = (t.run signals).1.published := by
  induction signals generalizing t with
  | nil => exact Or.inl rfl
  | cons signal rest ih =>
      simp only [run_cons, publications]
      rcases ih (t.step signal).1 with hsame | ⟨p, hp, heq⟩
      · rw [hsame]
        split
        case isTrue hstep => exact Or.inl hstep
        case isFalse => exact Or.inr ⟨_, List.mem_cons_self, rfl⟩
      · refine Or.inr ⟨p, ?_, heq⟩
        split
        · exact hp
        · exact List.mem_cons_of_mem _ hp

end Tailer

end CycleWatch
