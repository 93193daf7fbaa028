import CycleWatch.Cycle.Check
import CycleWatch.Proofs.Wait.Attempts
/-!
# What the stages of a check come to

A stage waits for its report and examines it (`StageEnds`), each stage from the state in which the one
before it ended. Either all reports are in order and the later cycle has grown (`Passes`), or there is
one stage at which the check fails, with a fault of that stage (`Fails`). The stages have exactly the
result of the one or the other (`runStages_of_passes`, `runStages_of_fails`).
-/
namespace CycleWatch.Cycle

open Script (Played)

variable {σ : Type}

/-! ## The specification -/

/-- The line of a snapshot is readable, the sample on it complete and its times sound. -/
structure Fit (settings : Settings) (testStartMs : UInt64) (s : Snapshot) (sample : Sample) : Prop where
  readable : Metric.readLine settings.family s.line = .ok sample
  complete : ∀ k ∈ settings.expectedKeys.keys, sample.contains k = true
  sound : Metric.checkTimes sample testStartMs = .ok ()

/-- The earliest of the three that a snapshot lacks, with the fault that stands for it. -/
inductive Unfit (settings : Settings) (testStartMs : UInt64) (s : Snapshot) : Fault → Prop
  | unreadable {e : LineFault} : Metric.readLine settings.family s.line = .error e →
      Unfit settings testStartMs s e.toFault
  | incomplete {sample : Sample} {k : String} : Metric.readLine settings.family s.line = .ok sample →
      k ∈ settings.expectedKeys.keys → sample.contains k = false →
      Unfit settings testStartMs s
        (Violation.missingKeys (Metric.missingKeys sample settings.expectedKeys)).toFault
  | unsound {sample : Sample} {v : Violation} : Metric.readLine settings.family s.line = .ok sample →
      (∀ k ∈ settings.expectedKeys.keys, sample.contains k = true) →
      Metric.checkTimes sample testStartMs = .error v → Unfit settings testStartMs s v.toFault

/-- What a stage waits for after the report of the stage before. -/
def Settings.request (settings : Settings) (previous : Option Snapshot) : Wait.Request :=
  ⟨openingBaseline previous, settings.policy⟩

/-- What a stage comes to from a state on: the report that was in order, or the fault of the stage and
the report at fault, if it is one. -/
inductive StageEnds (settings : Settings) (testStartMs : UInt64) (w : Surroundings σ)
    (previous : Option Snapshot) (s : σ) : Except (Fault × Option Snapshot) Observation → σ → Prop
  | late {own : Fault} {s' : σ} :
      (Wait.await (settings.request previous)).run w s = (.error own, s') →
      StageEnds settings testStartMs w previous s (.error (own, none)) s'
  | unfit {snapshot : Snapshot} {own : Fault} {s' : σ} :
      (Wait.await (settings.request previous)).run w s = (.ok snapshot, s') →
      Unfit settings testStartMs snapshot own →
      StageEnds settings testStartMs w previous s (.error (own, some snapshot)) s'
  | fit {snapshot : Snapshot} {sample : Sample} {s' : σ} :
      (Wait.await (settings.request previous)).run w s = (.ok snapshot, s') →
      Fit settings testStartMs snapshot sample →
      StageEnds settings testStartMs w previous s (.ok ⟨snapshot, sample⟩) s'

/-- What is passed over as stale, and the state in which the first cycle starts. -/
inductive Opens (settings : Settings) (w : Surroundings σ) (s : σ) : Option Snapshot → σ → Prop
  | nothing : settings.skipStaleFirst = false → Opens settings w s none s
  | stale {snapshot : Snapshot} {s' : σ} : settings.skipStaleFirst = true →
      (Wait.await (settings.request none)).run w s = (.ok snapshot, s') →
      Opens settings w s (some snapshot) s'

/-- Both cycles are in order, and the later one has grown. -/
inductive Passes (settings : Settings) (testStartMs : UInt64) (w : Surroundings σ) (s : σ) :
    Report → σ → Prop
  | passed {skipped : Option Snapshot} {first next : Observation} {opened middle s' : σ} :
      Opens settings w s skipped opened →
      StageEnds settings testStartMs w skipped opened (.ok first) middle →
      StageEnds settings testStartMs w (some first.snapshot) middle (.ok next) s' →
      Metric.checkGrowth first.sample next.sample = .ok () →
      Passes settings testStartMs w s ⟨testStartMs, skipped, first, next⟩ s'

/-- The stage at which the check fails, the fault of that stage, the report at fault, if it is one, and
the state in which the stage ended. -/
inductive Fails (settings : Settings) (testStartMs : UInt64) (w : Surroundings σ) (s : σ) :
    Stage → Fault → Option Snapshot → σ → Prop
  | stale {own : Fault} {s' : σ} : settings.skipStaleFirst = true →
      (Wait.await (settings.request none)).run w s = (.error own, s') →
      Fails settings testStartMs w s .stale own none s'
  | first {skipped offending : Option Snapshot} {own : Fault} {opened s' : σ} :
      Opens settings w s skipped opened →
      StageEnds settings testStartMs w skipped opened (.error (own, offending)) s' →
      Fails settings testStartMs w s .first own offending s'
  | next {skipped offending : Option Snapshot} {first : Observation} {own : Fault}
      {opened middle s' : σ} : Opens settings w s skipped opened →
      StageEnds settings testStartMs w skipped opened (.ok first) middle →
      StageEnds settings testStartMs w (some first.snapshot) middle (.error (own, offending)) s' →
      Fails settings testStartMs w s .next own offending s'
  | stalled {skipped : Option Snapshot} {first next : Observation} {v : Violation}
      {opened middle s' : σ} : Opens settings w s skipped opened →
      StageEnds settings testStartMs w skipped opened (.ok first) middle →
      StageEnds settings testStartMs w (some first.snapshot) middle (.ok next) s' →
      Metric.checkGrowth first.sample next.sample = .error v →
      Fails settings testStartMs w s .next v.toFault none s'

/-- The state in which the stages start: the clock was read once and the start was logged. -/
def begun (settings : Settings) (sc : Script) : Played :=
  { Played.start with times := 1, events := [startEvent settings (sc.time 0)] }

/-- The fault of a stage with its tags. -/
def tag (stage : Stage) (own : Fault) : Option Snapshot → Fault
  | none => own.withContext "cycle" stage.word
  | some snapshot =>
    (own.withContext "cycle" stage.word).withContext "version" snapshot.version.text

variable {settings : Settings} {testStartMs : UInt64} {w : Surroundings σ} {s s' : σ}
  {stage : Stage} {previous skipped offending : Option Snapshot} {own : Fault}

/-! ## Examining a snapshot -/

theorem requireKeys_of_missing {sample : Sample} {expected : KeySet} {k : String}
    (hk : k ∈ expected.keys) (h : sample.contains k = false) :
    Metric.requireKeys sample expected =
      .error (.missingKeys (Metric.missingKeys sample expected)) := by
  have hmem : k ∈ Metric.missingKeys sample expected := List.mem_filter.mpr ⟨hk, by simp [h]⟩
  exact Metric.requireKeys_eq_error_iff.mpr ⟨List.ne_nil_of_mem hmem, rfl⟩

/-- A snapshot is read, then the sample is checked for its keys, and then for its times. -/
theorem examine_eq (settings : Settings) (testStartMs : UInt64) (snapshot : Snapshot) :
    examine settings testStartMs snapshot =
      match Metric.readLine settings.family snapshot.line with
      | .error e => .error e.toFault
      | .ok sample =>
        match Metric.requireKeys sample settings.expectedKeys with
        | .error v => .error v.toFault
        | .ok () =>
          match Metric.checkTimes sample testStartMs with
          | .error v => .error v.toFault
          | .ok () => .ok sample := by
  cases hline : Metric.readLine settings.family snapshot.line with
  | error e => simp [examine, hline, bind, Except.bind]
  | ok sample =>
      cases hkeys : Metric.requireKeys sample settings.expectedKeys with
      | error v => simp [examine, hline, hkeys, bind, Except.bind]
      | ok _ =>
          cases htimes : Metric.checkTimes sample testStartMs <;>
            simp [examine, hline, hkeys, htimes, bind, Except.bind, pure, Except.pure]

theorem examine_of_fit {snapshot : Snapshot} {sample : Sample}
    (h : Fit settings testStartMs snapshot sample) :
    examine settings testStartMs snapshot = .ok sample := by
  simp only [examine_eq, h.readable, Metric.requireKeys_eq_ok_iff.mpr h.complete, h.sound]

theorem examine_of_unfit {snapshot : Snapshot} {fault : Fault}
    (h : Unfit settings testStartMs snapshot fault) :
    examine settings testStartMs snapshot = .error fault := by
  cases h with
  | unreadable hline => simp only [examine_eq, hline]
  | incomplete hline hk hmissing =>
      simp only [examine_eq, hline, requireKeys_of_missing hk hmissing]
  | unsound hline hcomplete htimes =>
      simp only [examine_eq, hline, Metric.requireKeys_eq_ok_iff.mpr hcomplete, htimes]

theorem fit_or_unfit (settings : Settings) (testStartMs : UInt64) (snapshot : Snapshot) :
    (∃ sample, Fit settings testStartMs snapshot sample) ∨
      ∃ fault, Unfit settings testStartMs snapshot fault := by
  cases hline : Metric.readLine settings.family snapshot.line with
  | error e => exact Or.inr ⟨_, .unreadable hline⟩
  | ok sample =>
      by_cases hcomplete : ∀ k ∈ settings.expectedKeys.keys, sample.contains k = true
      · cases htimes : Metric.checkTimes sample testStartMs with
        | error v => exact Or.inr ⟨_, .unsound hline hcomplete htimes⟩
        | ok _ => exact Or.inl ⟨sample, hline, hcomplete, htimes⟩
      · obtain ⟨k, hk, hmissing⟩ : ∃ k ∈ settings.expectedKeys.keys, sample.contains k = false := by
          simpa using hcomplete
        exact Or.inr ⟨_, .incomplete hline hk hmissing⟩

/-! ## The stages -/

theorem awaitReport_run (stage : Stage) {outcome : Except Fault Snapshot}
    (h : (Wait.await (settings.request previous)).run w s = (outcome, s')) :
    (awaitReport settings stage (openingBaseline previous)).run w s =
      (Fault.annotate "cycle" stage.word outcome, s') := by
  show ((Wait.await (settings.request previous)).bind _).run w s = _
  rw [Routine.run_bind, h]
  rfl

theorem observe_of_stageEnds (stage : Stage)
    {ending : Except (Fault × Option Snapshot) Observation}
    (h : StageEnds settings testStartMs w previous s ending s') :
    (observe settings testStartMs stage (openingBaseline previous)).run w s =
      (ending.mapError fun e => tag stage e.1 e.2, s') := by
  rw [observe, Routine.run_bind]
  cases h with
  | late hrun =>
    rw [awaitReport_run stage hrun]
    rfl
  | unfit hrun hunfit =>
    simp only [awaitReport_run stage hrun, Fault.annotate_ok, examine_of_unfit hunfit,
      Fault.annotate_error]
    rfl
  | fit hrun hfit =>
    simp only [awaitReport_run stage hrun, Fault.annotate_ok, examine_of_fit hfit]
    rfl

theorem skipStale_of_opens (h : Opens settings w s skipped s') :
    (skipStale settings).run w s = (.ok skipped, s') := by
  cases h with
  | nothing hskip => simp only [skipStale, hskip, Bool.false_eq_true, ↓reduceIte, Routine.run]
  | stale hskip hrun =>
    have hstale := awaitReport_run .stale hrun
    rw [openingBaseline] at hstale
    rw [skipStale, if_pos hskip, Routine.run_bind, hstale]
    rfl

theorem skipStale_of_late (hskip : settings.skipStaleFirst = true)
    (hrun : (Wait.await (settings.request none)).run w s = (.error own, s')) :
    (skipStale settings).run w s = (.error (tag .stale own none), s') := by
  have hstale := awaitReport_run .stale hrun
  rw [openingBaseline] at hstale
  rw [skipStale, if_pos hskip, Routine.run_bind, hstale]
  rfl

/-- What the stages come to once the first cycle is in order. -/
theorem runStages_of_first_fit {first : Observation} {opened middle : σ}
    {ending : Except (Fault × Option Snapshot) Observation}
    (hopen : Opens settings w s skipped opened)
    (hfirst : StageEnds settings testStartMs w skipped opened (.ok first) middle)
    (hnext : StageEnds settings testStartMs w (some first.snapshot) middle ending s') :
    (runStages settings testStartMs).run w s =
      ((ending.mapError fun e => tag .next e.1 e.2).bind fun next =>
        ((Metric.checkGrowth first.sample next.sample).mapError fun v =>
          tag .next v.toFault none).map fun _ => ⟨testStartMs, skipped, first, next⟩, s') := by
  have hrun := observe_of_stageEnds .next hnext
  simp only [openingBaseline] at hrun
  rw [runStages, Routine.run_bind, skipStale_of_opens hopen]
  dsimp only
  rw [Routine.run_bind, observe_of_stageEnds .first hfirst]
  dsimp only [mapError_ok]
  rw [Routine.run_bind, hrun]
  cases ending with
  | error e => rfl
  | ok next =>
    cases hgrowth : Metric.checkGrowth first.sample next.sample <;>
      simp only [hgrowth, mapError_ok, mapError_error, Fault.annotate_ok, Fault.annotate_error,
        Except.bind, Except.map, Routine.run, tag]

theorem runStages_of_passes {report : Report} (h : Passes settings testStartMs w s report s') :
    (runStages settings testStartMs).run w s = (.ok report, s') := by
  cases h with
  | passed hopen hfirst hnext hgrowth =>
    rw [runStages_of_first_fit hopen hfirst hnext, mapError_ok, Except.bind, hgrowth]
    rfl

theorem runStages_of_fails (h : Fails settings testStartMs w s stage own offending s') :
    (runStages settings testStartMs).run w s = (.error (tag stage own offending), s') := by
  cases h with
  | stale hskip hrun =>
    rw [runStages, Routine.run_bind, skipStale_of_late hskip hrun, Routine.run]
  | first hopen hfirst =>
    rw [runStages, Routine.run_bind, skipStale_of_opens hopen]
    dsimp only
    rw [Routine.run_bind, observe_of_stageEnds .first hfirst, mapError_error, Routine.run]
  | next hopen hfirst hnext => exact runStages_of_first_fit hopen hfirst hnext
  | stalled hopen hfirst hnext hgrowth =>
    rw [runStages_of_first_fit hopen hfirst hnext, mapError_ok, Except.bind, hgrowth]
    rfl

/-! ## Every check passes or fails -/

theorem stageEnds_exists (settings : Settings) (testStartMs : UInt64) (w : Surroundings σ)
    (previous : Option Snapshot) (s : σ) :
    ∃ ending s', StageEnds settings testStartMs w previous s ending s' := by
  rcases hrun : (Wait.await (settings.request previous)).run w s with ⟨_ | snapshot, s'⟩
  · exact ⟨_, _, .late hrun⟩
  · rcases fit_or_unfit settings testStartMs snapshot with ⟨sample, hfit⟩ | ⟨own, hunfit⟩
    · exact ⟨_, _, .fit hrun hfit⟩
    · exact ⟨_, _, .unfit hrun hunfit⟩

theorem passes_or_fails (settings : Settings) (testStartMs : UInt64) (w : Surroundings σ) (s : σ) :
    (∃ report s', Passes settings testStartMs w s report s') ∨
      ∃ stage own offending s', Fails settings testStartMs w s stage own offending s' := by
  have hopened : ∀ {skipped opened}, Opens settings w s skipped opened →
      (∃ report s', Passes settings testStartMs w s report s') ∨
        ∃ stage own offending s', Fails settings testStartMs w s stage own offending s' := by
    intro skipped opened hopen
    obtain ⟨_ | first, middle, hfirst⟩ := stageEnds_exists settings testStartMs w skipped opened
    · exact .inr ⟨_, _, _, _, .first hopen hfirst⟩
    · obtain ⟨_ | next, s', hnext⟩ :=
        stageEnds_exists settings testStartMs w (some first.snapshot) middle
      · exact .inr ⟨_, _, _, _, .next hopen hfirst hnext⟩
      · cases hgrowth : Metric.checkGrowth first.sample next.sample with
        | error v => exact .inr ⟨_, _, _, _, .stalled hopen hfirst hnext hgrowth⟩
        | ok _ => exact .inl ⟨_, _, .passed hopen hfirst hnext hgrowth⟩
  cases hskip : settings.skipStaleFirst with
  | false => exact hopened (.nothing hskip)
  | true =>
    rcases hrun : (Wait.await (settings.request none)).run w s with ⟨_ | snapshot, s'⟩
    · exact .inr ⟨_, _, _, _, .stale hskip hrun⟩
    · exact hopened (.stale hskip hrun)

theorem passes_of_runStages {report : Report}
    (h : (runStages settings testStartMs).run w s = (.ok report, s')) :
    Passes settings testStartMs w s report s' := by
  rcases passes_or_fails settings testStartMs w s with ⟨_, _, hpass⟩ | ⟨_, _, _, _, hfail⟩
  · rw [runStages_of_passes hpass] at h
    cases h
    exact hpass
  · rw [runStages_of_fails hfail] at h
    cases h

/-! ## The check around the stages -/

/-- A check plays its stages between the start and the end, and ends in what they come to. -/
theorem check_run_eq (settings : Settings) (sc : Script) {result : Except Fault Report} {p : Played}
    (h : (runStages settings (sc.time 0)).run sc.surroundings (begun settings sc) = (result, p)) :
    (check settings).run sc.surroundings .start =
      (result, { p with
        times := p.times + 1
        events := p.events ++ [endEvent (Word.elapsed (sc.time 0) (sc.time p.times)) result] }) := by
  show ((runStages settings (sc.time 0)).bind _).run sc.surroundings (begun settings sc) = _
  rw [Routine.run_bind, h]
  rfl

end CycleWatch.Cycle
