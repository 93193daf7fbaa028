import CycleWatch.Metric.Violation

/-!
# The times of a sample

The times of a sample are compared as whole numbers, though they are signed and the start of the test is
not (`reaches_iff`). So the check passes exactly the samples whose two passes are in order, reports the
first pass that is not with what is wrong with it, and looks at nothing else in the sample
(`checkTimes_decides`).
-/

namespace CycleWatch.Metric

/-- The sample has neither time of the pass, or it has both and they are in order. -/
inductive Pass.Sound (sample : Sample) (testStart : UInt64) (pass : Pass) : Prop
  | absent : sample.get? pass.started = none → sample.get? pass.finished = none →
      Sound sample testStart pass
  | ordered {s f : Int64} : sample.get? pass.started = some s → sample.get? pass.finished = some f →
      (testStart.toNat : Int) ≤ s.toInt → s.toInt ≤ f.toInt → Sound sample testStart pass

/-- What is wrong with the times of the pass. -/
inductive Pass.Unsound (sample : Sample) (testStart : UInt64) (pass : Pass) : Violation → Prop
  | startMissing {f : Int64} : sample.get? pass.started = none →
      sample.get? pass.finished = some f → Unsound sample testStart pass (.missingCounter pass.started)
  | finishMissing {s : Int64} : sample.get? pass.started = some s →
      sample.get? pass.finished = none → Unsound sample testStart pass (.missingCounter pass.finished)
  | early {s f : Int64} : sample.get? pass.started = some s → sample.get? pass.finished = some f →
      s.toInt < (testStart.toNat : Int) →
      Unsound sample testStart pass (.startedBeforeTest pass.name s testStart)
  | backwards {s f : Int64} : sample.get? pass.started = some s →
      sample.get? pass.finished = some f → (testStart.toNat : Int) ≤ s.toInt → f.toInt < s.toInt →
      Unsound sample testStart pass (.finishedBeforeStarted pass.name s f)

variable {sample : Sample} {testStart : UInt64} {pass : Pass} {v : Violation}

/-! ## One pass -/

theorem reaches_iff (testStart : UInt64) (s : Int64) :
    (Word.uint64? s.toInt).any (testStart ≤ ·) = true ↔ (testStart.toNat : Int) ≤ s.toInt := by
  have hlt : s.toInt < UInt64.size := by
    have hhi := Int64.toInt_lt s
    unfold UInt64.size
    omega
  by_cases hneg : s.toInt < 0
  · have hnone : Word.uint64? s.toInt = none := by
      rw [Word.uint64?, if_neg (by omega)]
    simp only [hnone, Option.any_none, Bool.false_eq_true, false_iff]
    omega
  · obtain ⟨n, hn⟩ : ∃ n : Nat, s.toInt = n := ⟨s.toInt.toNat, by omega⟩
    have hsize : n < UInt64.size := by omega
    simp only [Word.uint64?, hn, Int.natCast_nonneg, Int.ofNat_lt, hsize, and_self, ↓reduceIte,
      Int.toNat_natCast, Option.any_some, decide_eq_true_eq, UInt64.le_iff_toNat_le,
      UInt64.toNat_ofNat_of_lt' hsize, Int.ofNat_le]

theorem checkPass_of_sound (h : pass.Sound sample testStart) :
    checkPass sample testStart pass = .ok () := by
  cases h with
  | absent hs hf => simp only [checkPass, hs, hf]
  | ordered hs hf hstart hend =>
      have hreach := (reaches_iff testStart _).mpr hstart
      have hnot := (not_congr Int64.lt_iff_toInt_lt).mpr (Int.not_lt.mpr hend)
      simp only [checkPass, hs, hf, hreach, Bool.not_true, Bool.false_eq_true, ↓reduceIte, hnot]

theorem checkPass_of_unsound (h : pass.Unsound sample testStart v) :
    checkPass sample testStart pass = .error v := by
  cases h with
  | startMissing hs hf => simp only [checkPass, hs, hf]
  | finishMissing hs hf => simp only [checkPass, hs, hf]
  | early hs hf hearly =>
      have hreach := (not_congr (reaches_iff testStart _)).mpr (Int.not_le.mpr hearly)
      rw [Bool.not_eq_true] at hreach
      simp only [checkPass, hs, hf, hreach, Bool.not_false, ↓reduceIte]
  | backwards hs hf hstart hback =>
      have hreach := (reaches_iff testStart _).mpr hstart
      have hlt := Int64.lt_iff_toInt_lt.mpr hback
      simp only [checkPass, hs, hf, hreach, Bool.not_true, Bool.false_eq_true, ↓reduceIte, hlt]

theorem sound_or_unsound (sample : Sample) (testStart : UInt64) (pass : Pass) :
    pass.Sound sample testStart ∨ ∃ v, pass.Unsound sample testStart v := by
  cases hs : sample.get? pass.started with
  | none =>
      cases hf : sample.get? pass.finished with
      | none => exact .inl (.absent hs hf)
      | some f => exact .inr ⟨_, .startMissing hs hf⟩
  | some s =>
      cases hf : sample.get? pass.finished with
      | none => exact .inr ⟨_, .finishMissing hs hf⟩
      | some f =>
          rcases Int.lt_or_le s.toInt testStart.toNat with hearly | hstart
          · exact .inr ⟨_, .early hs hf hearly⟩
          · rcases Int.lt_or_le f.toInt s.toInt with hback | hend
            · exact .inr ⟨_, .backwards hs hf hstart hback⟩
            · exact .inl (.ordered hs hf hstart hend)

theorem checkPass_eq_ok_iff :
    checkPass sample testStart pass = .ok () ↔ pass.Sound sample testStart := by
  refine ⟨fun h => ?_, checkPass_of_sound⟩
  rcases sound_or_unsound sample testStart pass with hsound | ⟨v, hv⟩
  · exact hsound
  · simp [checkPass_of_unsound hv] at h

theorem checkPass_eq_error_iff :
    checkPass sample testStart pass = .error v ↔ pass.Unsound sample testStart v := by
  refine ⟨fun h => ?_, checkPass_of_unsound⟩
  rcases sound_or_unsound sample testStart pass with hsound | ⟨w, hw⟩
  · simp [checkPass_of_sound hsound] at h
  · simp only [checkPass_of_unsound hw, Except.error.injEq] at h
    exact h ▸ hw

/-! ## Both passes -/

theorem checkTimes_eq (sample : Sample) (testStart : UInt64) :
    checkTimes sample testStart =
      (checkPass sample testStart .primary).bind fun _ => checkPass sample testStart .wal := by
  cases hwal : checkPass sample testStart .wal <;>
    simp [checkTimes, Pass.all, hwal, bind, pure, Except.bind, Except.pure]

theorem checkTimes_eq_ok_iff :
    checkTimes sample testStart = .ok () ↔
      Pass.primary.Sound sample testStart ∧ Pass.wal.Sound sample testStart := by
  rw [checkTimes_eq, ← checkPass_eq_ok_iff, ← checkPass_eq_ok_iff]
  cases checkPass sample testStart .primary <;> simp [Except.bind]

theorem checkTimes_eq_error_iff :
    checkTimes sample testStart = .error v ↔
      Pass.primary.Unsound sample testStart v ∨
        Pass.primary.Sound sample testStart ∧ Pass.wal.Unsound sample testStart v := by
  rw [checkTimes_eq, ← checkPass_eq_ok_iff, ← checkPass_eq_error_iff, ← checkPass_eq_error_iff]
  cases checkPass sample testStart .primary <;> simp [Except.bind]

theorem checkPass_congr {sample' : Sample}
    (hstarted : sample'.get? pass.started = sample.get? pass.started)
    (hfinished : sample'.get? pass.finished = sample.get? pass.finished) :
    checkPass sample' testStart pass = checkPass sample testStart pass := by
  rw [checkPass, hstarted, hfinished, checkPass]

/-- Neither a negative start nor one of a test that starts beyond the signed numbers is sound. -/
theorem not_sound_of_beyond {s : Int64} (hs : sample.get? pass.started = some s)
    (h : s.toInt < 0 ∨ Int64.maxValue.toInt < (testStart.toNat : Int)) :
    ¬ pass.Sound sample testStart := by
  have hhi := Int64.toInt_lt s
  rw [Word.maxValue_toInt] at h
  intro hsound
  cases hsound with
  | absent hnone => simp [hs] at hnone
  | ordered hs' _ hstart =>
      simp only [hs, Option.some.injEq] at hs'
      subst hs'
      omega

/-- The times of a sample pass exactly if, as whole numbers, each of the two passes starts no sooner
than the test and finishes no sooner than it starts, or is not reported at all. Otherwise what is wrong
with the first pass that is not sound is reported. No negative start passes, nor any start of a test
beyond the signed numbers. Nothing but the four times matters. -/
theorem checkTimes_decides (sample : Sample) (testStart : UInt64) :
    (checkTimes sample testStart = .ok () ↔
      Pass.primary.Sound sample testStart ∧ Pass.wal.Sound sample testStart) ∧
    (∀ v, checkTimes sample testStart = .error v ↔
      Pass.primary.Unsound sample testStart v ∨
        Pass.primary.Sound sample testStart ∧ Pass.wal.Unsound sample testStart v) ∧
    (∀ pass ∈ Pass.all, ∀ s, sample.get? pass.started = some s →
      (s.toInt < 0 ∨ Int64.maxValue.toInt < (testStart.toNat : Int)) →
      ∃ v, checkTimes sample testStart = .error v) ∧
    ∀ sample' : Sample,
      (∀ k ∈ [started, finished, walStarted, walFinished], sample'.get? k = sample.get? k) →
      checkTimes sample' testStart = checkTimes sample testStart := by
  refine ⟨checkTimes_eq_ok_iff, fun v => checkTimes_eq_error_iff, ?_, ?_⟩
  · intro pass hpass s hs hbeyond
    have hunsound := not_sound_of_beyond hs hbeyond
    cases hcheck : checkTimes sample testStart with
    | error v => exact ⟨v, rfl⟩
    | ok =>
        obtain ⟨hprimary, hwal⟩ := checkTimes_eq_ok_iff.mp hcheck
        simp only [Pass.all, List.mem_cons, List.not_mem_nil, or_false] at hpass
        rcases hpass with rfl | rfl
        · exact absurd hprimary hunsound
        · exact absurd hwal hunsound
  · intro sample' h
    simp only [List.forall_mem_cons] at h
    obtain ⟨hstarted, hfinished, hwalStarted, hwalFinished, -⟩ := h
    have hprimary : checkPass sample' testStart .primary = checkPass sample testStart .primary :=
      checkPass_congr hstarted hfinished
    have hwal : checkPass sample' testStart .wal = checkPass sample testStart .wal :=
      checkPass_congr hwalStarted hwalFinished
    rw [checkTimes_eq, checkTimes_eq, hprimary, hwal]

/-- A start of −1 is before the test, even if the test starts at the last moment that there is, and
another counter beside the times does not change that. -/
theorem checkTimes_decides_negative :
    (∃ v, checkTimes (.ofList [(started, -1), (finished, 5)]) 18446744073709551615 = .error v) ∧
      checkTimes (.ofList [(started, -1), (finished, 5), ("uptime", 7)]) 18446744073709551615 =
        checkTimes (.ofList [(started, -1), (finished, 5)]) 18446744073709551615 := by
  obtain ⟨-, -, hbeyond, hothers⟩ :=
    checkTimes_decides (.ofList [(started, -1), (finished, 5)]) 18446744073709551615
  exact ⟨hbeyond .primary (by decide) (-1) (by decide) (.inl (by decide)), hothers _ (by decide)⟩

end CycleWatch.Metric
