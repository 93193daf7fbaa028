import CycleWatch.Proofs.Cycle.Stages
import Mathlib.Data.Nat.Find

/-!
# The verdict of a check

When nobody calls the check off and every sleep goes through, its result depends on the clock and on the
stream of snapshots alone. `Verdict` says which result belongs to which stream, stage by stage: a stage
takes up the stream where the stage before it stopped. A check has exactly the result of its verdict,
and takes exactly that many snapshots (`check_verdict`).
-/

namespace CycleWatch

/-- Nobody calls the task off, and every sleep goes through. -/
def Script.calm (times : Nat → UInt64) (stream : Nat → Snapshot) : Script :=
  ⟨times, fun _ => false, stream, fun _ => .ok ()⟩

/-- So many readings of the clock and snapshots have been asked for. -/
structure Script.Played.At (p : Script.Played) (tick place : Nat) : Prop where
  times : p.times = tick
  taken : p.taken = place

theorem Script.Played.Advanced.at_of_at {p q : Script.Played} {tick place times taken : Nat}
    {slept : List Duration} (h : p.Advanced q times taken slept) (hp : p.At tick place) :
    q.At (tick + times) (place + taken) :=
  ⟨by rw [h.times, hp.times], by rw [h.taken, hp.taken]⟩

namespace Cycle

open Script (Played calm)

/-! ## The specification -/

/-- A snapshot with a line, and with another version than the report of the stage before. -/
def Fresh (previous : Option Snapshot) (s : Snapshot) : Prop :=
  s.line.isSome ∧ ∀ p ∈ previous, s.version ≠ p.version

/-- Of the `n` snapshots from `start` on, the first fresh one is that at place `i`. -/
structure Finds (stream : Nat → Snapshot) (n : Nat) (previous : Option Snapshot) (start i : Nat) :
    Prop where
  start_le : start ≤ i
  lt : i < start + n
  fresh : Fresh previous (stream i)
  first : ∀ j, start ≤ j → j < i → ¬ Fresh previous (stream j)

/-- None of the `n` snapshots from `start` on is fresh. -/
def Misses (stream : Nat → Snapshot) (n : Nat) (previous : Option Snapshot) (start : Nat) : Prop :=
  ∀ j, start ≤ j → j < start + n → ¬ Fresh previous (stream j)

/-- The fault of a stage without a fresh snapshot, whose wait starts at one reading of the clock and
ends at the next one. -/
def lateFault (settings : Settings) (times : Nat → UInt64) (stage : Stage)
    (previous : Option Snapshot) (tick : Nat) : Fault :=
  (Wait.timeoutFault (settings.request previous) settings.policy.maxAttempts
    (Word.elapsed (times tick) (times (tick + 1)))).withContext "cycle" stage.word

/-- What a stage makes of the stream from `place` on: its observation or its fault, and the place at
which the next stage goes on. -/
inductive Observed (settings : Settings) (times : Nat → UInt64) (stream : Nat → Snapshot)
    (stage : Stage) (previous : Option Snapshot) (tick place : Nat) :
    Except Fault Observation → Nat → Prop
  | late : Misses stream settings.policy.maxAttempts.toNat previous place →
      Observed settings times stream stage previous tick place
        (.error (lateFault settings times stage previous tick))
        (place + settings.policy.maxAttempts.toNat)
  | unfit {i : Nat} {fault : Fault} :
      Finds stream settings.policy.maxAttempts.toNat previous place i →
      Unfit settings (times 0) (stream i) fault →
      Observed settings times stream stage previous tick place
        (.error ((fault.withContext "cycle" stage.word).withContext "version"
          (stream i).version.text))
        (i + 1)
  | fit {i : Nat} {sample : Sample} :
      Finds stream settings.policy.maxAttempts.toNat previous place i →
      Fit settings (times 0) (stream i) sample →
      Observed settings times stream stage previous tick place (.ok ⟨stream i, sample⟩) (i + 1)

/-- What is passed over as stale, and at which reading of the clock and which place of the stream the
first cycle starts. -/
inductive Opened (settings : Settings) (stream : Nat → Snapshot) : Option Snapshot → Nat → Nat → Prop
  | nothing : settings.skipStaleFirst = false → Opened settings stream none 1 0
  | stale {i : Nat} : settings.skipStaleFirst = true →
      Finds stream settings.policy.maxAttempts.toNat none 0 i →
      Opened settings stream (some (stream i)) 3 (i + 1)

/-- The result that a check has to have, and the number of snapshots it has to take. -/
inductive Verdict (settings : Settings) (times : Nat → UInt64) (stream : Nat → Snapshot) :
    Except Fault Report → Nat → Prop
  | staleLate : settings.skipStaleFirst = true →
      Misses stream settings.policy.maxAttempts.toNat none 0 →
      Verdict settings times stream (.error (lateFault settings times .stale none 1))
        settings.policy.maxAttempts.toNat
  | firstFails {skipped : Option Snapshot} {tick place taken : Nat} {fault : Fault} :
      Opened settings stream skipped tick place →
      Observed settings times stream .first skipped tick place (.error fault) taken →
      Verdict settings times stream (.error fault) taken
  | nextFails {skipped : Option Snapshot} {tick place place' taken : Nat} {first : Observation}
      {fault : Fault} : Opened settings stream skipped tick place →
      Observed settings times stream .first skipped tick place (.ok first) place' →
      Observed settings times stream .next (some first.snapshot) (tick + 2) place' (.error fault)
        taken →
      Verdict settings times stream (.error fault) taken
  | stalled {skipped : Option Snapshot} {tick place place' taken : Nat} {first next : Observation}
      {v : Violation} : Opened settings stream skipped tick place →
      Observed settings times stream .first skipped tick place (.ok first) place' →
      Observed settings times stream .next (some first.snapshot) (tick + 2) place' (.ok next) taken →
      Metric.checkGrowth first.sample next.sample = .error v →
      Verdict settings times stream (.error (v.toFault.withContext "cycle" Stage.next.word)) taken
  | passed {skipped : Option Snapshot} {tick place place' taken : Nat} {first next : Observation} :
      Opened settings stream skipped tick place →
      Observed settings times stream .first skipped tick place (.ok first) place' →
      Observed settings times stream .next (some first.snapshot) (tick + 2) place' (.ok next) taken →
      Metric.checkGrowth first.sample next.sample = .ok () →
      Verdict settings times stream (.ok ⟨times 0, skipped, first, next⟩) taken

variable {settings : Settings} {times : Nat → UInt64} {stream : Nat → Snapshot} {stage : Stage}
  {previous : Option Snapshot} {testStartMs : UInt64} {s : Snapshot} {p : Played} {tick place : Nat}

/-! ## Waiting on a stream -/

theorem isNews_iff_fresh :
    Wait.State.isNews (openingBaseline previous) s = true ↔ Fresh previous s := by
  cases previous <;>
    simp [Wait.State.isNews, openingBaseline, Baseline.after, Baseline.accepts, Snapshot.hasLine, Fresh]

theorem isNews_eq_false_iff :
    Wait.State.isNews (openingBaseline previous) s = false ↔ ¬ Fresh previous s := by
  rw [← isNews_iff_fresh, Bool.not_eq_true]

/-- On a stream an attempt is idle exactly when its snapshot is not fresh. -/
theorem idle_iff {i : Nat} :
    Wait.Idle (settings.request previous) ((calm times stream).after p) i ↔
      ¬ Fresh previous (stream (p.taken + i)) :=
  ⟨fun h => isNews_eq_false_iff.mp h.snapshot, fun h => ⟨rfl, isNews_eq_false_iff.mpr h, rfl⟩⟩

theorem finds_or_misses (stream : Nat → Snapshot) (n : Nat) (previous : Option Snapshot)
    (start : Nat) :
    (∃ i, Finds stream n previous start i) ∨ Misses stream n previous start := by
  classical
  by_cases hmiss : Misses stream n previous start
  · exact Or.inr hmiss
  · obtain ⟨j, hstart, hj, hfresh⟩ : ∃ j, start ≤ j ∧ j < start + n ∧ Fresh previous (stream j) := by
      simpa [Misses] using hmiss
    have hex : ∃ j, start ≤ j ∧ Fresh previous (stream j) := ⟨j, hstart, hfresh⟩
    obtain ⟨hle, hfound⟩ := Nat.find_spec hex
    have hleast : Nat.find hex ≤ j := Nat.find_min' hex ⟨hstart, hfresh⟩
    exact Or.inl ⟨Nat.find hex, hle, by omega, hfound,
      fun k hk hlt hf => Nat.find_min hex hlt ⟨hk, hf⟩⟩

theorem await_of_finds {i : Nat}
    (h : Finds stream settings.policy.maxAttempts.toNat previous place i) (hp : p.At tick place) :
    ∃ q, (Wait.await (settings.request previous)).run (calm times stream).surroundings p =
        (.ok (stream i), q) ∧ q.At (tick + 2) (i + 1) := by
  obtain ⟨k, rfl⟩ := Nat.exists_eq_add_of_le h.start_le
  obtain rfl := hp.taken
  have hk : k < settings.policy.maxAttempts.toNat := Nat.lt_of_add_lt_add_left h.lt
  have hidle : ∀ j < k, Wait.Idle (settings.request previous) ((calm times stream).after p) j :=
    fun j hj => idle_iff.mpr (h.first _ (Nat.le_add_right _ j) (Nat.add_lt_add_left hj _))
  obtain ⟨q, hrun, hq⟩ := Wait.await_news hk hidle rfl (isNews_iff_fresh.mpr h.fresh)
  exact ⟨q, hrun, hq.at_of_at hp⟩

theorem await_of_misses
    (h : Misses stream settings.policy.maxAttempts.toNat previous place) (hp : p.At tick place) :
    ∃ q, (Wait.await (settings.request previous)).run (calm times stream).surroundings p =
        (.error (Wait.timeoutFault (settings.request previous) settings.policy.maxAttempts
          (Word.elapsed (times tick) (times (tick + 1)))), q) ∧
      q.At (tick + 2) (place + settings.policy.maxAttempts.toNat) := by
  obtain rfl := hp.taken
  obtain rfl := hp.times
  have hidle : ∀ j < (settings.request previous).policy.maxAttempts.toNat,
      Wait.Idle (settings.request previous) ((calm times stream).after p) j :=
    fun j hj => idle_iff.mpr (h _ (Nat.le_add_right _ j) (Nat.add_lt_add_left hj _))
  obtain ⟨q, hrun, hq⟩ := Wait.await_timeout hidle
  exact ⟨q, hrun, hq.at_of_at hp⟩

/-! ## The stages -/

theorem stageEnds_of_ok {observation : Observation} {taken : Nat} (hp : p.At tick place)
    (h : Observed settings times stream stage previous tick place (.ok observation) taken) :
    ∃ q, StageEnds settings (times 0) (calm times stream).surroundings previous p (.ok observation)
        q ∧ q.At (tick + 2) taken := by
  cases h with
  | fit hfind hfit =>
      obtain ⟨q, hrun, hq⟩ := await_of_finds hfind hp
      exact ⟨q, .fit hrun hfit, hq⟩

theorem stageEnds_of_error {fault : Fault} {taken : Nat} (hp : p.At tick place)
    (h : Observed settings times stream stage previous tick place (.error fault) taken) :
    ∃ own offending q, StageEnds settings (times 0) (calm times stream).surroundings previous p
        (.error (own, offending)) q ∧ fault = tag stage own offending ∧ q.At (tick + 2) taken := by
  cases h with
  | late hmiss =>
      obtain ⟨q, hrun, hq⟩ := await_of_misses hmiss hp
      exact ⟨_, _, q, .late hrun, rfl, hq⟩
  | unfit hfind hunfit =>
      obtain ⟨q, hrun, hq⟩ := await_of_finds hfind hp
      exact ⟨_, _, q, .unfit hrun hunfit, rfl, hq⟩

theorem observed_exists (settings : Settings) (times : Nat → UInt64) (stream : Nat → Snapshot)
    (stage : Stage) (previous : Option Snapshot) (tick place : Nat) :
    ∃ result taken, Observed settings times stream stage previous tick place result taken := by
  rcases finds_or_misses stream settings.policy.maxAttempts.toNat previous place with
    ⟨i, hfind⟩ | hmiss
  · rcases fit_or_unfit settings (times 0) (stream i) with ⟨sample, hfit⟩ | ⟨fault, hunfit⟩
    · exact ⟨_, _, .fit hfind hfit⟩
    · exact ⟨_, _, .unfit hfind hunfit⟩
  · exact ⟨_, _, .late hmiss⟩

theorem opens_of_opened {skipped : Option Snapshot} (hp : p.At 1 0)
    (h : Opened settings stream skipped tick place) :
    ∃ q, Opens settings (calm times stream).surroundings p skipped q ∧ q.At tick place := by
  cases h with
  | nothing hskip => exact ⟨p, .nothing hskip, hp⟩
  | stale hskip hfind =>
      obtain ⟨q, hrun, hq⟩ := await_of_finds hfind hp
      exact ⟨q, .stale hskip hrun, hq⟩

/-- The stages pass or fail as the verdict says. -/
theorem runStages_run {result : Except Fault Report} {taken : Nat} (hp : p.At 1 0)
    (h : Verdict settings times stream result taken) :
    ∃ q, (runStages settings (times 0)).run (calm times stream).surroundings p = (result, q) ∧
      q.taken = taken := by
  cases h with
  | staleLate hskip hmiss =>
      obtain ⟨q, hrun, hq⟩ := await_of_misses hmiss hp
      exact ⟨q, runStages_of_fails (.stale hskip hrun), hq.taken.trans (Nat.zero_add _)⟩
  | firstFails hopen hfirst =>
      obtain ⟨opened, hopen, hopened⟩ := opens_of_opened hp hopen
      obtain ⟨own, offending, q, hends, rfl, hq⟩ := stageEnds_of_error hopened hfirst
      exact ⟨q, runStages_of_fails (.first hopen hends), hq.taken⟩
  | nextFails hopen hfirst hnext =>
      obtain ⟨opened, hopen, hopened⟩ := opens_of_opened hp hopen
      obtain ⟨middle, hfirst, hmiddle⟩ := stageEnds_of_ok hopened hfirst
      obtain ⟨own, offending, q, hends, rfl, hq⟩ := stageEnds_of_error hmiddle hnext
      exact ⟨q, runStages_of_fails (.next hopen hfirst hends), hq.taken⟩
  | stalled hopen hfirst hnext hgrowth =>
      obtain ⟨opened, hopen, hopened⟩ := opens_of_opened hp hopen
      obtain ⟨middle, hfirst, hmiddle⟩ := stageEnds_of_ok hopened hfirst
      obtain ⟨q, hnext, hq⟩ := stageEnds_of_ok hmiddle hnext
      exact ⟨q, runStages_of_fails (.stalled hopen hfirst hnext hgrowth), hq.taken⟩
  | passed hopen hfirst hnext hgrowth =>
      obtain ⟨opened, hopen, hopened⟩ := opens_of_opened hp hopen
      obtain ⟨middle, hfirst, hmiddle⟩ := stageEnds_of_ok hopened hfirst
      obtain ⟨q, hnext, hq⟩ := stageEnds_of_ok hmiddle hnext
      exact ⟨q, runStages_of_passes (.passed hopen hfirst hnext hgrowth), hq.taken⟩

/-! ## The check as a whole -/

/-- Every stream has a verdict. -/
theorem verdict_exists (settings : Settings) (times : Nat → UInt64) (stream : Nat → Snapshot) :
    ∃ result taken, Verdict settings times stream result taken := by
  have hopened : ∀ {skipped tick place}, Opened settings stream skipped tick place →
      ∃ result taken, Verdict settings times stream result taken := by
    intro skipped tick place hopen
    obtain ⟨result, place', hfirst⟩ :=
      observed_exists settings times stream .first skipped tick place
    -- The next cycle is looked for only when the first one is in order.
    cases result with
    | error fault => exact ⟨_, _, .firstFails hopen hfirst⟩
    | ok first =>
        obtain ⟨result, taken, hnext⟩ :=
          observed_exists settings times stream .next (some first.snapshot) (tick + 2) place'
        cases result with
        | error fault => exact ⟨_, _, .nextFails hopen hfirst hnext⟩
        | ok next =>
            cases hgrowth : Metric.checkGrowth first.sample next.sample with
            | error v => exact ⟨_, _, .stalled hopen hfirst hnext hgrowth⟩
            | ok _ => exact ⟨_, _, .passed hopen hfirst hnext hgrowth⟩
  cases hskip : settings.skipStaleFirst with
  | false => exact hopened (.nothing hskip)
  | true =>
      rcases finds_or_misses stream settings.policy.maxAttempts.toNat none 0 with ⟨i, hfind⟩ | hmiss
      · exact hopened (.stale hskip hfind)
      · exact ⟨_, _, .staleLate hskip hmiss⟩

theorem check_run {result : Except Fault Report} {taken : Nat}
    (h : Verdict settings times stream result taken) :
    ∃ q, (check settings).run (calm times stream).surroundings .start = (result, q) ∧
      q.taken = taken := by
  have hp : (begun settings (calm times stream)).At 1 0 := ⟨rfl, rfl⟩
  obtain ⟨q, hrun, rfl⟩ := runStages_run hp h
  exact ⟨_, check_run_eq settings (calm times stream) hrun, rfl⟩

/-- Over any stream of snapshots and any clock, a check that nobody calls off has a result, with so many
snapshots taken, exactly when that is the verdict on the stream. -/
theorem check_verdict (settings : Settings) (times : Nat → UInt64) (stream : Nat → Snapshot)
    (result : Except Fault Report) (taken : Nat) :
    (∃ q, (check settings).run (calm times stream).surroundings .start = (result, q) ∧
      q.taken = taken) ↔ Verdict settings times stream result taken := by
  refine ⟨?_, check_run⟩
  -- Some verdict is there, and a run has the result of that one and no other.
  rintro ⟨q, hrun, rfl⟩
  obtain ⟨result', taken', h⟩ := verdict_exists settings times stream
  obtain ⟨q', hrun', rfl⟩ := check_run h
  obtain ⟨rfl, rfl⟩ := Prod.mk.inj (hrun.symm.trans hrun')
  exact h

end Cycle

end CycleWatch
