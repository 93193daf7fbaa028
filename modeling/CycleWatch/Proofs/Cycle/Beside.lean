import CycleWatch.Proofs.Cycle.Stages
import CycleWatch.Proofs.Tailer.Publication

/-!
# A check beside the tailer

Beside a task the tailer takes in signals of its own, any number of them before each request of the
task; a look at the snapshot published last is answered from what the tailer has taken in so far. The
three reports of a check that passes were therefore published at moments of one and the same history,
one after the other, and in each wait a version other than the one before is a later one
(`check_observes_in_order`).
-/

namespace CycleWatch

/-- The state of what surrounds a task beside a tailer. -/
structure Beside (σ : Type) where
  /-- The state of everything else. -/
  world : σ
  /-- The signals that the tailer has taken in, in their order. -/
  signals : List Tailer.Signal

variable {σ α : Type}

/-- The tailer takes in the signals that are due. -/
def Beside.proceed (due : σ → List Tailer.Signal × σ) (b : Beside σ) : Beside σ :=
  ⟨(due b.world).2, b.signals ++ (due b.world).1⟩

/-- The surroundings of a task beside a tailer that has taken in nothing yet. Before each request the
tailer takes in the signals that are due by then; it answers for the published snapshot, and everything
else for the rest. -/
def Surroundings.beside (w : Surroundings σ) (t : Tailer) (due : σ → List Tailer.Signal × σ) :
    Surroundings (Beside σ) where
  clock b :=
    let b := b.proceed due
    ((w.clock b.world).1, { b with world := (w.clock b.world).2 })
  cancelled b :=
    let b := b.proceed due
    ((w.cancelled b.world).1, { b with world := (w.cancelled b.world).2 })
  snapshot b :=
    let b := b.proceed due
    ((t.run b.signals).1.published, b)
  sleep duration b :=
    let b := b.proceed due
    ((w.sleep duration b.world).1, { b with world := (w.sleep duration b.world).2 })
  emit event b :=
    let b := b.proceed due
    { b with world := w.emit event b.world }

variable {w : Surroundings σ} {t : Tailer} {due : σ → List Tailer.Signal × σ} {b b' : Beside σ}

/-! ## The history only grows -/

theorem Beside.signals_proceed (due : σ → List Tailer.Signal × σ) (b : Beside σ) :
    b.signals <+: (b.proceed due).signals :=
  List.prefix_append _ _

theorem Routine.signals_le_run (w : Surroundings σ) (t : Tailer)
    (due : σ → List Tailer.Signal × σ) (r : Routine α) (b : Beside σ) :
    b.signals <+: (r.run (w.beside t due) b).2.signals := by
  induction r generalizing b with
  | done => exact List.prefix_refl _
  | readClock next ih =>
      exact (b.signals_proceed due).trans (ih _ ((w.beside t due).clock b).2)
  | askCancelled next ih =>
      exact (b.signals_proceed due).trans (ih _ ((w.beside t due).cancelled b).2)
  | takeSnapshot next ih =>
      exact (b.signals_proceed due).trans (ih _ ((w.beside t due).snapshot b).2)
  | sleep duration next ih =>
      exact (b.signals_proceed due).trans (ih _ ((w.beside t due).sleep duration b).2)
  | emit event next ih =>
      exact (b.signals_proceed due).trans (ih ((w.beside t due).emit event b))

theorem Routine.signals_of_run {r : Routine α} {a : α} (h : r.run (w.beside t due) b = (a, b')) :
    b.signals <+: b'.signals := by
  have hgrow := r.signals_le_run w t due b
  rwa [h] at hgrow

/-! ## What the tailer has published at a moment -/

/-- The snapshot is the whole of what was published at a moment, and its line is the last one of the
contents that were read when it was published. -/
structure TakenAt (t : Tailer) (moment : List Tailer.Signal) (s : Snapshot) : Prop where
  published : (t.run moment).1.published = s
  origin : ∃ contents line,
    ⟨.answered (.ok (some contents)) s.observedAtMs, s⟩ ∈ t.publications moment ∧
      Tailer.lastLine contents = some line ∧ s.line = some line

theorem takenAt_of_hasLine {moment : List Tailer.Signal} (hempty : t.published = .empty)
    (hline : (t.run moment).1.published.hasLine = true) :
    TakenAt t moment (t.run moment).1.published := by
  rcases t.run_published moment with hsame | ⟨p, hp, heq⟩
  · rw [hsame, hempty] at hline
    simp [Snapshot.hasLine, Snapshot.empty] at hline
  · obtain ⟨contents, line, hsignal, hlast, hsnapshot⟩ := Tailer.publications_origin hp
    rw [← heq]
    refine ⟨heq.symm, contents, line, ?_, hlast, hsnapshot⟩
    rwa [← hsignal]

/-- Of two snapshots taken one after the other, one that is new after the other is a later one. -/
theorem TakenAt.version_lt {moment later : List Tailer.Signal} {s s' : Snapshot}
    (h : TakenAt t moment s) (h' : TakenAt t later s') (hle : moment <+: later)
    (hnew : (Baseline.after s).accepts s'.version = true) :
    s.version.number < s'.version.number := by
  have hnumber := Tailer.version_le_of_prefix (t := t) hle
  rw [h.published, h'.published] at hnumber
  refine UInt64.lt_of_le_of_ne hnumber fun heq => ?_
  have hne : s'.version ≠ s.version := by simpa [Baseline.after, Baseline.accepts] using hnew
  exact hne (congrArg Version.mk heq.symm)

/-! ## What a wait sees -/

/-- A snapshot that is news to the baseline was the published one at a moment between two others. -/
def Looked (t : Tailer) (baseline : Baseline) (before after : List Tailer.Signal) (s : Snapshot) :
    Prop :=
  ∃ moment, before <+: moment ∧ moment <+: after ∧ (t.run moment).1.published = s ∧
    Wait.State.isNews baseline s = true

theorem Looked.mono {baseline : Baseline} {before before' after after' : List Tailer.Signal}
    {s : Snapshot} (h : Looked t baseline before after s) (hbefore : before' <+: before)
    (hafter : after <+: after') : Looked t baseline before' after' s := by
  obtain ⟨moment, hb, ha, hs, hnews⟩ := h
  exact ⟨moment, hbefore.trans hb, ha.trans hafter, hs, hnews⟩

/-- A snapshot that a wait saw was published at a moment of that wait. -/
theorem Looked.takenAt {baseline : Baseline} {before after : List Tailer.Signal} {s : Snapshot}
    (hempty : t.published = .empty) (h : Looked t baseline before after s) :
    ∃ moment, before <+: moment ∧ moment <+: after ∧ TakenAt t moment s ∧
      baseline.accepts s.version = true := by
  obtain ⟨moment, hbefore, hafter, rfl, hnews⟩ := h
  rw [Wait.State.isNews, Bool.and_eq_true] at hnews
  exact ⟨moment, hbefore, hafter, takenAt_of_hasLine hempty hnews.1, hnews.2⟩

namespace Wait

variable {request : Request} {news : Snapshot}

/-- News that the polling ends with was seen on the way. -/
theorem poll_looked {fuel : Nat} {attempt : UInt32}
    (h : (poll request fuel (.polling attempt)).run (w.beside t due) b =
      (.ok (.succeeded news), b')) : Looked t request.baseline b.signals b'.signals news := by
  induction fuel generalizing attempt b with
  | zero => simp [poll, Routine.run] at h
  | succ fuel ih =>
      have hasked : b.signals <+: ((w.beside t due).cancelled b).2.signals := b.signals_proceed due
      rcases hcancelled : (w.beside t due).cancelled b with ⟨called, b₁⟩
      have htaken : b₁.signals <+: (b₁.proceed due).signals := b₁.signals_proceed due
      have hsnapshot : (w.beside t due).snapshot b₁ =
        ((t.run (b₁.proceed due).signals).1.published, b₁.proceed due) := rfl
      have hslept : (b₁.proceed due).signals <+:
          ((w.beside t due).sleep request.policy.delay (b₁.proceed due)).2.signals :=
        (b₁.proceed due).signals_proceed due
      rcases hsleep : (w.beside t due).sleep request.policy.delay (b₁.proceed due) with ⟨slept, b₂⟩
      rw [hcancelled] at hasked
      rw [hsleep] at hslept
      simp only [poll_succ_run, hcancelled, hsnapshot, hsleep] at h
      cases called with
      | true => simp at h
      | false =>
          cases hnews : State.isNews request.baseline
            (t.run (b₁.proceed due).signals).1.published with
          | true =>
              simp only [hnews, ↓reduceIte, Bool.false_eq_true, Prod.mk.injEq, Except.ok.injEq,
                State.succeeded.injEq] at h
              obtain ⟨rfl, rfl⟩ := h
              exact ⟨_, hasked.trans htaken, List.prefix_refl _, rfl, hnews⟩
          | false =>
              simp only [hnews, ↓reduceIte, Bool.false_eq_true] at h
              cases slept with
              | error fault => cases hfault : fault.isCancelled <;> simp [hfault] at h
              | ok _ =>
                  by_cases hlast : request.policy.maxAttempts ≤ attempt
                  · simp [hlast] at h
                  · rw [if_neg hlast] at h
                    exact (ih h).mono (hasked.trans (htaken.trans hslept)) (List.prefix_refl _)

/-- News that a wait yields was seen while it waited. -/
theorem await_looked (h : (await request).run (w.beside t due) b = (.ok news, b')) :
    Looked t request.baseline b.signals b'.signals news := by
  have hbegin : b.signals <+: ((w.beside t due).clock b).2.signals := b.signals_proceed due
  rcases hclock : (w.beside t due).clock b with ⟨startMs, b₁⟩
  rw [hclock] at hbegin
  simp only [await, Routine.run, hclock] at h
  obtain ⟨result, b₂, hpoll, h⟩ := Routine.run_bind_eq_iff.mp h
  cases result with
  | error fault => simp [Routine.run] at h
  | ok state =>
      have hend := Routine.signals_of_run h
      cases state with
      | succeeded snapshot =>
          simp only [Routine.run, conclude, Prod.mk.injEq, Except.ok.injEq] at h
          obtain ⟨rfl, -⟩ := h
          exact (poll_looked hpoll).mono hbegin hend
      | polling _ => simp [Routine.run, conclude] at h
      | timedOut _ => simp [Routine.run, conclude] at h
      | cancelled _ => simp [Routine.run, conclude] at h

end Wait

namespace Cycle

variable {settings : Settings} {testStartMs : UInt64}

theorem stageEnds_looked {previous : Option Snapshot} {observation : Observation}
    (h : StageEnds settings testStartMs (w.beside t due) previous b (.ok observation) b') :
    Looked t (openingBaseline previous) b.signals b'.signals observation.snapshot := by
  cases h with
  | fit hrun _ => exact Wait.await_looked hrun

/-- What is passed over is what a wait saw, and there is such a thing when the settings ask for it. -/
theorem opens_looked {skipped : Option Snapshot}
    (h : Opens settings (w.beside t due) b skipped b') :
    skipped.isSome = settings.skipStaleFirst ∧ b.signals <+: b'.signals ∧
      ∀ stale ∈ skipped, Looked t .none b.signals b'.signals stale := by
  cases h with
  | nothing hskip => exact ⟨hskip.symm, List.prefix_refl _, fun _ hs => by cases hs⟩
  | stale hskip hrun =>
      refine ⟨hskip.symm, Routine.signals_of_run hrun, ?_⟩
      rintro _ ⟨rfl⟩
      exact Wait.await_looked hrun

/-- The waits of a check saw what it reports, each wait after the one before it. -/
structure Sighted (t : Tailer) (settings : Settings) (before opened middle after : List Tailer.Signal)
    (report : Report) : Prop where
  skips : report.skipped.isSome = settings.skipStaleFirst
  before_opened : before <+: opened
  skipped : ∀ stale ∈ report.skipped, Looked t .none before opened stale
  first : Looked t (openingBaseline report.skipped) opened middle report.first.snapshot
  next : Looked t (.after report.first.snapshot) middle after report.next.snapshot

theorem runStages_sighted {report : Report}
    (h : (runStages settings testStartMs).run (w.beside t due) b = (.ok report, b')) :
    ∃ opened middle, Sighted t settings b.signals opened middle b'.signals report := by
  cases passes_of_runStages h with
  | passed hopen hfirst hnext _ =>
      obtain ⟨hsome, hopened, hstale⟩ := opens_looked hopen
      exact ⟨_, _, hsome, hopened, hstale, stageEnds_looked hfirst, stageEnds_looked hnext⟩

theorem check_sighted {report : Report}
    (h : (check settings).run (w.beside t due) b = (.ok report, b')) :
    ∃ opened middle, Sighted t settings b.signals opened middle b'.signals report := by
  simp only [check, Routine.run] at h
  obtain ⟨result, b₁, hrun, h⟩ := Routine.run_bind_eq_iff.mp h
  have hend := Routine.signals_of_run h
  simp only [Routine.run, Prod.mk.injEq] at h
  obtain ⟨rfl, -⟩ := h
  obtain ⟨opened, middle, hseen⟩ := runStages_sighted hrun
  have hclock : b.signals <+: ((w.beside t due).clock b).2.signals := b.signals_proceed due
  have hbegin := hclock.trans (Beside.signals_proceed due ((w.beside t due).clock b).2)
  exact ⟨opened, middle, hseen.skips, hbegin.trans hseen.before_opened,
    fun stale hs => (hseen.skipped stale hs).mono hbegin (List.prefix_refl _), hseen.first,
    hseen.next.mono (List.prefix_refl _) hend⟩

/-- When a check beside a tailer passes, its reports were published at moments of the check, one after
the other and with ascending versions, whatever the tailer read in the meantime and whenever it did. -/
theorem check_observes_in_order (o : Tailer.Options) (called : Bool)
    (due : σ → List Tailer.Signal × σ) (w : Surroundings σ) (settings : Settings)
    {b b' : Beside σ} {report : Report}
    (h : (check settings).run (w.beside (Tailer.start o called).1 due) b = (.ok report, b')) :
    report.skipped.isSome = settings.skipStaleFirst ∧
    ∃ firstAt nextAt, b.signals <+: firstAt ∧ firstAt <+: nextAt ∧ nextAt <+: b'.signals ∧
      TakenAt (Tailer.start o called).1 firstAt report.first.snapshot ∧
      TakenAt (Tailer.start o called).1 nextAt report.next.snapshot ∧
      report.first.snapshot.version.number < report.next.snapshot.version.number ∧
      ∀ stale ∈ report.skipped, ∃ staleAt, b.signals <+: staleAt ∧ staleAt <+: firstAt ∧
        TakenAt (Tailer.start o called).1 staleAt stale ∧
        stale.version.number < report.first.snapshot.version.number := by
  have hempty := Tailer.start_published o called
  obtain ⟨opened, middle, hseen⟩ := check_sighted h
  obtain ⟨firstAt, hopened, hmiddle, hfirstAt, hnewFirst⟩ := hseen.first.takenAt hempty
  obtain ⟨nextAt, hmiddle', hend, hnextAt, hnewNext⟩ := hseen.next.takenAt hempty
  have hle := hmiddle.trans hmiddle'
  refine ⟨hseen.skips, firstAt, nextAt, hseen.before_opened.trans hopened, hle, hend, hfirstAt,
    hnextAt, hfirstAt.version_lt hnextAt hle hnewNext, ?_⟩
  intro stale hs
  obtain ⟨staleAt, hbegin, hopened', hstaleAt, -⟩ := (hseen.skipped stale hs).takenAt hempty
  have hle' := hopened'.trans hopened
  -- The baseline of the first cycle is the stale report, so that it cannot be seen twice.
  rw [hs, openingBaseline] at hnewFirst
  exact ⟨staleAt, hbegin, hle', hstaleAt, hstaleAt.version_lt hfirstAt hle' hnewFirst⟩

/-- A line of an earlier run is passed over, and two cycles follow while the check waits. -/
theorem check_observes_in_order_after_stale :
    let w : Surroundings (List (List Tailer.Signal)) :=
      ⟨fun s => (7, s), fun s => (false, s), fun s => (.empty, s), fun _ s => (.ok (), s), fun _ s => s⟩
    let due : List (List Tailer.Signal) → List Tailer.Signal × List (List Tailer.Signal) :=
      fun rounds => (rounds.headD [], rounds.tail)
    let rounds : List (List Tailer.Signal) :=
      [[], [], [], [], [.answered (.ok (some "old\n")) 3], [], [], [], [],
        [.woken (.ok ()) false,
          .answered (.ok (some "AccGcStarted=7,AccGcFinished=8,AccGcRunCycleCount=1\n")) 8],
        [], [], [], [],
        [.woken (.ok ()) false,
          .answered (.ok (some "AccGcStarted=9,AccGcFinished=9,AccGcRunCycleCount=2\n")) 9]]
    let out := (check ⟨.of 1 (.ofMillis 0), "Acc", ⟨[]⟩, true⟩).run
      (w.beside (Tailer.start ⟨"sink", .ofMillis 10⟩ false).1 due) ⟨rounds, []⟩
    ∃ report, out.1 = .ok report ∧ report.skipped.isSome = true ∧
      report.first.snapshot.version.number < report.next.snapshot.version.number := by
  intro w due rounds out
  have hok : out.1.isOk = true := by decide +kernel
  rcases hout : out with ⟨_ | report, b'⟩
  · rw [hout] at hok
    cases hok
  · obtain ⟨hsome, _, _, _, _, _, _, _, hlt, _⟩ :=
      check_observes_in_order ⟨"sink", .ofMillis 10⟩ false due w
        ⟨.of 1 (.ofMillis 0), "Acc", ⟨[]⟩, true⟩ hout
    exact ⟨report, rfl, hsome, hlt⟩

end Cycle

end CycleWatch
