import CycleWatch.Proofs.Cycle.Stages
import CycleWatch.Proofs.Wait.Events
/-!
# What a failed check tells

A check fails at one of its stages, with a fault of that stage: its wait, the report that it took, or the
growth between the two cycles (`Fails`). The check ends in exactly that fault, with the word of the stage
put into its context, and the version of the report where the report was at fault (`Tagged`). Of its own
events the check logs the start and one that tells how it ended (`failure_keeps_diagnostics`).
-/
namespace CycleWatch.Cycle

open Script (Played)

/-! ## The specification -/

/-- The fault is that of the stage, with the word of the stage put into its context and, if a report was
at fault, the version of the report. -/
structure Tagged (stage : Stage) (offending : Option Snapshot) (own fault : Fault) : Prop where
  kind : fault.kind = own.kind
  retry : fault.retry = own.retry
  code : fault.code = own.code
  message : fault.message = own.message
  kept : ∀ key value, own.context.get? key = some value → fault.context.get? key = some value
  cycle : fault.context.get? "cycle" = some stage.word
  version : fault.context.get? "version" = offending.map (·.version.text)
  nothingElse : ∀ key, key ≠ "cycle" → key ≠ "version" →
    fault.context.get? key = own.context.get? key

/-- The event is one of the check itself. -/
def ofScenario (e : Log.Event) : Bool :=
  Text.startsWith e.name "scenario.gcCycles."

/-- The event tells the result: that the check passed, that it was called off, or else at which cycle it
failed. -/
structure Tells (e : Log.Event) (result : Except Fault Report) : Prop where
  completed : e.name = "scenario.gcCycles.completed" ↔ ∃ report, result = .ok report
  aborted : e.name = "scenario.gcCycles.aborted" ↔
    ∃ fault, result = .error fault ∧ fault.code = .cancelled
  failed : e.name = "scenario.gcCycles.failed" ↔
    ∃ fault, result = .error fault ∧ fault.code ≠ .cancelled
  level_aborted : e.name = "scenario.gcCycles.aborted" → e.level = .info
  level_failed : e.name = "scenario.gcCycles.failed" → e.level = .error
  cycle : ∀ fault, result = .error fault → fault.code ≠ .cancelled →
    ∃ fields, e.fields = some fields ∧
      fields.get? "cycle" = (fault.context.get? "cycle").map .str

variable {settings : Settings} {testStartMs : UInt64} {stage : Stage}
  {previous offending : Option Snapshot} {own : Fault}

/-! ## The faults of a stage -/

/-- The fault has neither of the tags. -/
def Untagged (fault : Fault) : Prop :=
  fault.context.get? "cycle" = none ∧ fault.context.get? "version" = none

theorem tagged_tag (h : Untagged own) (stage : Stage) (offending : Option Snapshot) :
    Tagged stage offending own (tag stage own offending) := by
  have hcycle : ∀ key value, own.context.get? key = some value → key ≠ "cycle" ∧ key ≠ "version" := by
    rintro key value hkey
    constructor
    · rintro rfl
      rw [h.1] at hkey
      cases hkey
    · rintro rfl
      rw [h.2] at hkey
      cases hkey
  have hother : ∀ key, key ≠ "cycle" → key ≠ "version" →
      (tag stage own offending).context.get? key = own.context.get? key := by
    intro key hkey hkey'
    cases offending <;> simp [tag, Fault.withContext, Dict.get?_insert, hkey, hkey']
  constructor
  case kept =>
    intro key value hkey
    rw [hother key (hcycle key value hkey).1 (hcycle key value hkey).2, hkey]
  case nothingElse => exact hother
  all_goals cases offending <;> simp [tag, Fault.withContext, Dict.get?_insert, h.2]

theorem untagged_of_lineFault (e : LineFault) : Untagged e.toFault := by
  cases e <;>
    simp [Untagged, LineFault.toFault, Fault.withContext, Fault.expected, Dict.get?_insert]

theorem untagged_of_violation (v : Violation) : Untagged v.toFault := by
  cases v <;>
    simp [Untagged, Violation.toFault, Fault.withContext, Fault.invariant, Dict.get?_insert]

theorem untagged_of_unfit {snapshot : Snapshot} (h : Unfit settings testStartMs snapshot own) :
    Untagged own := by
  cases h with
  | unreadable _ => exact untagged_of_lineFault _
  | incomplete _ _ _ => exact untagged_of_violation _
  | unsound _ _ _ => exact untagged_of_violation _

section

variable {sc : Script} {request : Wait.Request} {p q : Played}
  (hsleep : ∀ i fault, sc.sleep i = .error fault → fault.isCancelled = true)
include hsleep

/-- A wait whose sleeps fail by a cancellation only ends in a fault of its own. -/
theorem untagged_of_await (h : (Wait.await request).run sc.surroundings p = (.error own, q)) :
    Untagged own := by
  obtain ⟨result, taken, slept, houtcome⟩ := Wait.outcome_exists request (sc.after p)
  obtain ⟨q', times, hrun, -⟩ := Wait.await_outcome houtcome
  obtain ⟨rfl, rfl⟩ := Prod.mk.inj (h.symm.trans hrun)
  cases houtcome with
  | timeout _ =>
    simp [Untagged, Wait.timeoutFault, Fault.withContext, Fault.timedOut, Fault.expected,
      Dict.get?_insert]
  | calledOff _ _ _ _ =>
    simp [Untagged, Wait.cancelledFault, Fault.withContext, Fault.cancelled, Fault.expected,
      Dict.get?_insert]
  | calledOffAsleep _ _ _ _ _ _ _ =>
    simp [Untagged, Wait.cancelledFault, Fault.withContext, Fault.cancelled, Fault.expected,
      Dict.get?_insert]
  | failedAsleep _ _ _ _ hfails hfault =>
    rw [hsleep _ _ hfails] at hfault
    cases hfault

theorem untagged_of_stageEnds
    (h : StageEnds settings testStartMs sc.surroundings previous p (.error (own, offending)) q) :
    Untagged own := by
  cases h with
  | late hrun => exact untagged_of_await hsleep hrun
  | unfit _ hunfit => exact untagged_of_unfit hunfit

theorem untagged_of_fails
    (h : Fails settings testStartMs sc.surroundings p stage own offending q) : Untagged own := by
  cases h with
  | stale _ hrun => exact untagged_of_await hsleep hrun
  | first _ hfirst => exact untagged_of_stageEnds hsleep hfirst
  | next _ _ hnext => exact untagged_of_stageEnds hsleep hnext
  | stalled _ _ _ _ => exact untagged_of_violation _

end

/-! ## The events of a check -/

theorem awaitReport_emits (settings : Settings) (stage : Stage) (baseline : Baseline) :
    (awaitReport settings stage baseline).Emits Wait.Ending :=
  (Wait.await_emits _).bind fun _ => trivial

theorem observe_emits (settings : Settings) (testStartMs : UInt64) (stage : Stage)
    (baseline : Baseline) :
    (observe settings testStartMs stage baseline).Emits Wait.Ending := by
  refine (awaitReport_emits settings stage baseline).bind fun outcome => ?_
  cases outcome with
  | error fault => exact trivial
  | ok snapshot =>
    dsimp only
    split <;> exact trivial

theorem skipStale_emits (settings : Settings) : (skipStale settings).Emits Wait.Ending := by
  rw [skipStale]
  split
  · exact (awaitReport_emits settings .stale .none).bind fun _ => trivial
  · exact trivial

theorem runStages_emits (settings : Settings) (testStartMs : UInt64) :
    (runStages settings testStartMs).Emits Wait.Ending := by
  refine (skipStale_emits settings).bind fun outcome => ?_
  cases outcome with
  | error fault => exact trivial
  | ok skipped =>
    refine (observe_emits settings testStartMs .first _).bind fun outcome => ?_
    cases outcome with
    | error fault => exact trivial
    | ok first =>
      refine (observe_emits settings testStartMs .next _).bind fun outcome => ?_
      cases outcome with
      | error fault => exact trivial
      | ok next =>
        dsimp only
        split <;> exact trivial

theorem not_ofScenario_of_isEnding {e : Log.Event} (h : Wait.IsEnding e) : ofScenario e = false := by
  have hnames : ∀ name ∈ ["waiter.update_received", "waiter.timed_out", "waiter.cancelled"],
      Text.startsWith name "scenario.gcCycles." = false := by
    decide
  exact hnames _ h

theorem ofScenario_startEvent (settings : Settings) (testStartMs : UInt64) :
    ofScenario (startEvent settings testStartMs) = true := by
  have hname : Text.startsWith "scenario.gcCycles.start" "scenario.gcCycles." = true := by decide
  exact hname

theorem ofScenario_endEvent (durationMs : UInt64) (result : Except Fault Report) :
    ofScenario (endEvent durationMs result) = true := by
  have hnames : ∀ name ∈ ["scenario.gcCycles.completed", "scenario.gcCycles.aborted",
      "scenario.gcCycles.failed"], Text.startsWith name "scenario.gcCycles." = true := by
    decide
  apply hnames
  cases result with
  | ok report => exact .head _
  | error fault =>
    rw [endEvent]
    split
    · exact .tail _ (.head _)
    · exact .tail _ (.tail _ (.head _))

theorem get?_cycle_failedEvent (durationMs : UInt64) (fault : Fault) :
    ∃ fields, (failedEvent durationMs fault).fields = some fields ∧
      fields.get? "cycle" = (fault.context.get? "cycle").map .str := by
  refine ⟨_, rfl, ?_⟩
  cases fault.context.get? "cycle" with
  | none => simp [Dict.ofList, Dict.insertAll, Dict.get?_insert]
  | some cycle => simp [Dict.get?_insert]

theorem tells_endEvent (durationMs : UInt64) (result : Except Fault Report) :
    Tells (endEvent durationMs result) result := by
  cases result with
  | ok report => constructor <;> simp [endEvent, completedEvent, Log.Event.plain]
  | error fault =>
    by_cases hcancelled : fault.code = .cancelled
    · have hevent : endEvent durationMs (.error fault) = abortedEvent durationMs := by
        simp [endEvent, Fault.isCancelled, hcancelled]
      rw [hevent]
      constructor
      case cycle =>
        rintro _ ⟨rfl⟩ hne
        exact absurd hcancelled hne
      all_goals simp [abortedEvent, Log.Event.plain, hcancelled]
    · have hevent : endEvent durationMs (.error fault) = failedEvent durationMs fault := by
        simp [endEvent, Fault.isCancelled, hcancelled]
      rw [hevent]
      constructor
      case cycle =>
        rintro _ ⟨rfl⟩ -
        exact get?_cycle_failedEvent durationMs fault
      all_goals simp [failedEvent, Log.Event.plain, hcancelled]

/-! ## The check as a whole -/

/-- A check logs its start, then how the waits of its stages ended, and then its own end. -/
theorem check_events (settings : Settings) (sc : Script) {result : Except Fault Report} {q : Played}
    (h : (check settings).run sc.surroundings .start = (result, q)) :
    ∃ waits durationMs, (∀ e ∈ waits, Wait.IsEnding e) ∧
      q.events =
        startEvent settings (sc.time 0) :: (waits ++ [endEvent durationMs result]) := by
  rcases hstages : (runStages settings (sc.time 0)).run sc.surroundings (begun settings sc)
    with ⟨result', p⟩
  obtain ⟨rfl, rfl⟩ := Prod.mk.inj (h.symm.trans (check_run_eq settings sc hstages))
  obtain ⟨waits, hwaits, hending⟩ :=
    Routine.events_of_emits (runStages_emits settings (sc.time 0)) sc (begun settings sc)
  rw [hstages] at hwaits
  refine ⟨waits, Word.elapsed (sc.time 0) (sc.time p.times), fun e he => (hending e he).isEnding, ?_⟩
  dsimp only at hwaits ⊢
  rw [hwaits]
  rfl

/-- Between the start and the end no event of the check itself is logged. -/
theorem filter_events {settings : Settings} {testStartMs durationMs : UInt64}
    {result : Except Fault Report} {waits : List Log.Event} (h : ∀ e ∈ waits, Wait.IsEnding e) :
    (startEvent settings testStartMs :: (waits ++ [endEvent durationMs result])).filter ofScenario =
      [startEvent settings testStartMs, endEvent durationMs result] := by
  have hnone : waits.filter ofScenario = [] := by
    rw [List.filter_eq_nil_iff]
    intro e he
    rw [not_ofScenario_of_isEnding (h e he)]
    decide
  rw [List.filter_cons_of_pos (ofScenario_startEvent _ _), List.filter_append, hnone,
    List.nil_append, List.filter_cons_of_pos (ofScenario_endEvent _ _), List.filter_nil]

/-- A check that fails at a stage ends in the fault of that stage with its tags. -/
theorem check_of_fails {sc : Script}
    (hsleep : ∀ i fault, sc.sleep i = .error fault → fault.isCancelled = true)
    {result : Except Fault Report} {p q : Played}
    (hrun : (check settings).run sc.surroundings .start = (result, q))
    (h : Fails settings (sc.time 0) sc.surroundings (begun settings sc) stage own offending p) :
    ∃ fault, result = .error fault ∧ Tagged stage offending own fault := by
  rw [check_run_eq settings sc (runStages_of_fails h)] at hrun
  exact ⟨_, (Prod.mk.inj hrun).1.symm, tagged_tag (untagged_of_fails hsleep h) stage offending⟩

/-- A check that ends in a fault failed at a stage. -/
theorem fails_of_check {sc : Script} {fault : Fault} {q : Played}
    (hrun : (check settings).run sc.surroundings .start = (.error fault, q)) :
    ∃ stage own offending p,
      Fails settings (sc.time 0) sc.surroundings (begun settings sc) stage own offending p := by
  rcases passes_or_fails settings (sc.time 0) sc.surroundings (begun settings sc) with
    ⟨report, p, hpass⟩ | hfails
  · rw [check_run_eq settings sc (runStages_of_passes hpass)] at hrun
    cases hrun
  · exact hfails

/-- When sleeps fail by a cancellation only, a check ends in a fault exactly when it fails at a stage,
and then in the fault of that stage with its tags and nothing else changed. Of the events of the check
the start is the first one logged, and the only other one is the last one logged and tells the result. -/
theorem failure_keeps_diagnostics (settings : Settings) (sc : Script)
    (hsleep : ∀ i fault, sc.sleep i = .error fault → fault.isCancelled = true)
    {result : Except Fault Report} {q : Played}
    (hrun : (check settings).run sc.surroundings .start = (result, q)) :
    (∀ fault, result = .error fault → ∃ stage own offending p,
      Fails settings (sc.time 0) sc.surroundings (begun settings sc) stage own offending p ∧
      Tagged stage offending own fault) ∧
    (∀ stage own offending p,
      Fails settings (sc.time 0) sc.surroundings (begun settings sc) stage own offending p →
      ∃ fault, result = .error fault ∧ Tagged stage offending own fault) ∧
    ∃ start final, q.events.filter ofScenario = [start, final] ∧
      q.events.head? = some start ∧ start.name = "scenario.gcCycles.start" ∧
      q.events.getLast? = some final ∧ Tells final result := by
  refine ⟨?_, fun stage own offending p => check_of_fails hsleep hrun, ?_⟩
  · rintro fault rfl
    obtain ⟨stage, own, offending, p, h⟩ := fails_of_check hrun
    obtain ⟨_, hfault, htagged⟩ := check_of_fails hsleep hrun h
    cases hfault
    exact ⟨stage, own, offending, p, h, htagged⟩
  · obtain ⟨waits, durationMs, hwaits, hevents⟩ := check_events settings sc hrun
    refine ⟨_, _, hevents ▸ filter_events hwaits, hevents ▸ rfl, rfl, ?_,
      tells_endEvent durationMs result⟩
    rw [hevents, ← List.cons_append, List.getLast?_concat]

/-- A first report without the metric that it has to contain. -/
theorem failure_keeps_diagnostics_incomplete :
    let settings : Settings := ⟨.of 1 (.ofMillis 0), Metric.collectorFamily, ⟨[Metric.started]⟩, false⟩
    let snapshot : Snapshot := ⟨⟨1⟩, some "Other=1", 7⟩
    let sc : Script := ⟨fun _ => 7, fun _ => false, fun _ => snapshot, fun _ => .ok ()⟩
    ∃ fault q, (check settings).run sc.surroundings .start = (.error fault, q) ∧
      fault.code = .invariantViolation ∧ fault.context.get? "keys" = some Metric.started ∧
      fault.context.get? "cycle" = some "first" ∧
      fault.context.get? "version" = some snapshot.version.text ∧
      ∃ start final, q.events.filter ofScenario = [start, final] ∧
        final.name = "scenario.gcCycles.failed" := by
  intro settings snapshot sc
  obtain ⟨p, hawait⟩ : ∃ p,
      (Wait.await (settings.request none)).run sc.surroundings (begun settings sc) =
        (.ok snapshot, p) := ⟨_, rfl⟩
  have hread : Metric.readLine Metric.collectorFamily (some "Other=1") = .ok .empty := by rfl
  have hunfit : Unfit settings (sc.time 0) snapshot
      (Violation.missingKeys (Metric.missingKeys .empty settings.expectedKeys)).toFault :=
    .incomplete (k := Metric.started) hread (.head _) rfl
  have hsleep : ∀ i fault, sc.sleep i = .error fault → fault.isCancelled = true :=
    fun _ _ h => by cases h
  rcases hrun : (check settings).run sc.surroundings .start with ⟨result, q⟩
  obtain ⟨-, hfails, start, final, hevents, -, -, -, htells⟩ :=
    failure_keeps_diagnostics settings sc hsleep hrun
  obtain ⟨fault, rfl, htagged⟩ :=
    hfails .first _ _ _ (.first (.nothing rfl) (.unfit hawait hunfit))
  have hcode : fault.code = .invariantViolation := htagged.code
  refine ⟨fault, q, rfl, hcode, htagged.kept _ _ rfl, htagged.cycle, htagged.version, start, final,
    hevents, htells.failed.mpr ⟨fault, rfl, ?_⟩⟩
  rw [hcode]
  decide

end CycleWatch.Cycle
