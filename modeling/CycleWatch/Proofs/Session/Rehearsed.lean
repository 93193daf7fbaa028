import CycleWatch.Proofs.Session.Supervision
import CycleWatch.Rehearsal.Session
/-!
# A rehearsal is a course

In simulated time the check and the tailer take turns as their sleeps end. Every step of that world is
made of moves of a session (`leads_passTime`, `Checks.run`), so that a rehearsal ends with the result and
the events of a course (`perform_is_course`). So what is certain of every course is certain of every
rehearsal (`session_leaves_no_tailer`).
-/
namespace CycleWatch.Session

open Cancellation (ofHistory)
open Config (Admitted)
open Rehearsal (Play SinkAccess Cue)

/-- What a session has to do with of the world of a rehearsal. -/
structure Seen where
  /-- The events logged so far, latest first. -/
  events : List Log.Event
  /-- The tailer. -/
  tailer : Tailer
  /-- Whether the tailer has started. -/
  started : Bool
  /-- Whether the check is called off. -/
  cancelled : Bool

/-- The part of the world that a session has to do with. -/
def seen {σ : Type} (p : Play σ) : Seen :=
  ⟨p.events, p.tailer, p.started, p.cancelled⟩

/-- How far the task of the tailer is. -/
def Seen.task (q : Seen) : Task :=
  if q.started then
    match q.tailer.phase with
    | .stopped => .ended q.tailer.published (.ok ())
    | _ => .going q.tailer
  else .waiting

variable {s : Setup} {id : CorrelationId} {cell tail : Nat} {c : Course} {q q' q'' : Seen}

/-- The session is at the moment that is seen. -/
structure Tracks (s : Setup) (id : CorrelationId) (cell tail : Nat) (q : Seen) (c : Course) :
    Prop where
  held : Held s id cell tail c
  events : c.events = q.events.reverse
  task : c.task = q.task
  fresh : q.started = false → q.tailer = ⟨tailerOptions s.admitted, .empty, .sleeping⟩
  tailed : c.Running → c.called s.task = q.cancelled

/-- Moves that are not the owner's lead from any session at the first moment to one at the second, and if
it could be told by the context of the caller whether the check is called off, it still can. -/
def Simulated (s : Setup) (id : CorrelationId) (cell tail : Nat) (q q' : Seen) : Prop :=
  ∀ c, Tracks s id cell tail q c →
    ∃ moves, Tracks s id cell tail q' (c.run s moves) ∧ (c.run s moves).owner = c.owner ∧
      (c.called s.caller = q.cancelled → (c.run s moves).called s.caller = q'.cancelled)

theorem Simulated.refl (q : Seen) : Simulated s id cell tail q q :=
  fun _ h => ⟨[], h, rfl, fun hcalled => hcalled⟩

theorem Simulated.trans (h : Simulated s id cell tail q q')
    (h' : Simulated s id cell tail q' q'') : Simulated s id cell tail q q'' := by
  intro c htracks
  obtain ⟨moves, hmid, howner, hcalled⟩ := h c htracks
  obtain ⟨moves', hend, howner', hcalled'⟩ := h' _ hmid
  refine ⟨moves ++ moves', ?_⟩
  rw [Course.run_append]
  exact ⟨hend, howner'.trans howner, fun hbefore => hcalled' (hcalled hbefore)⟩

/-! ## The tailer -/

theorem Tracks.published (h : Tracks s id cell tail q c) :
    c.task.published = q.tailer.published := by
  rw [h.task, Seen.task]
  split
  · split <;> rfl
  case isFalse hstarted => rw [h.fresh (by simpa using hstarted)]; rfl

theorem called_follow (h : Held s id cell tail c) (hcaller : s.caller < s.own) (hrunning : c.Running)
    (t : Tailer) (events : List Log.Event) :
    (c.follow s t events).called s.caller = c.called s.caller := by
  rw [called_eq h.caller, called_eq (h.follow hcaller hrunning t events).caller,
    h.isCancelled_follow]

/-- The task goes on as the tailer does that is seen. -/
theorem Tracks.follow (h : Tracks s id cell tail q c) (hcaller : s.caller < s.own)
    (hrunning : c.Running) (t : Tailer) (events : List Log.Event) :
    Tracks s id cell tail ⟨events.reverse ++ q.events, t, true, q.cancelled⟩
      (c.follow s t events) where
  held := h.held.follow hcaller hrunning t events
  events := by
    rw [Course.events_append_through (Course.log_follow t events), h.events, List.reverse_append,
      List.reverse_reverse]
  task := by
    rw [Course.task_follow]
    rfl
  fresh hstarted := by cases hstarted
  tailed hneeded := by
    have htailed := h.tailed hrunning
    revert hneeded
    unfold Course.follow
    split
    · exact fun _ => htailed
    · exact fun _ => htailed
    · exact fun hneeded => absurd rfl (hneeded _ _)

/-- What is seen once the tailer has moved on. -/
def Seen.moved (q : Seen) (next : Tailer × List Log.Event) : Seen :=
  ⟨next.2.reverse ++ q.events, next.1, true, q.cancelled⟩

theorem task_of_started (h : Tracks s id cell tail q c) (hstarted : q.started = true)
    (hphase : q.tailer.phase ≠ .stopped) : c.task = .going q.tailer := by
  rw [h.task, Seen.task, if_pos hstarted]
  split
  case h_1 hstopped => exact absurd hstopped hphase
  case h_2 => rfl

/-- A move of the task that leads to what is seen next. -/
theorem Tracks.simulated (h : Tracks s id cell tail q c) (hcaller : s.caller < s.own)
    (hrunning : c.Running) {m : Move} {next : Tailer × List Log.Event}
    (hmove : c.move s m = c.follow s next.1 next.2) :
    ∃ moves, Tracks s id cell tail (q.moved next) (c.run s moves) ∧
      (c.run s moves).owner = c.owner ∧
      (c.called s.caller = q.cancelled → (c.run s moves).called s.caller = (q.moved next).cancelled) := by
  refine ⟨[m], ?_⟩
  rw [Course.run_cons, Course.run_nil, hmove]
  refine ⟨h.follow hcaller hrunning next.1 next.2, Course.owner_follow _ _, fun hcalled => ?_⟩
  rwa [called_follow h.held hcaller hrunning]

theorem simulated_start (hcaller : s.caller < s.own) (hstarted : q.started = false) :
    Simulated s id cell tail q
      (q.moved (Tailer.start (tailerOptions s.admitted) q.cancelled)) := by
  intro c h
  have htask : c.task = .waiting := by
    rw [h.task, Seen.task, hstarted, if_neg Bool.false_ne_true]
  have hrunning : c.Running := by simp [Course.Running, htask]
  refine h.simulated hcaller hrunning (m := .task (.ok none) 0 (.ok ())) ?_
  simp only [Course.move, Course.moveTask, htask, h.tailed hrunning]

theorem simulated_answered (hcaller : s.caller < s.own) (hstarted : q.started = true)
    (hphase : q.tailer.phase = .reading) (reading : Tailer.Reading) (nowMs : UInt64) :
    Simulated s id cell tail q (q.moved (q.tailer.step (.answered reading nowMs))) := by
  intro c h
  have htask := task_of_started h hstarted (by simp [hphase])
  refine h.simulated hcaller (by simp [Course.Running, htask]) (m := .task reading nowMs (.ok ())) ?_
  simp only [Course.move, Course.moveTask, htask, hphase]

theorem simulated_woken (hcaller : s.caller < s.own) (hstarted : q.started = true)
    (slept : Except Fault Unit) :
    Simulated s id cell tail q (q.moved (q.tailer.step (.woken slept q.cancelled))) := by
  have hpassed (hstep : q.tailer.step (.woken slept q.cancelled) = (q.tailer, [])) :
      Simulated s id cell tail q (q.moved (q.tailer.step (.woken slept q.cancelled))) := by
    obtain ⟨events, tailer, started, cancelled⟩ := q
    obtain rfl : started = true := hstarted
    rw [hstep]
    exact .refl _
  cases hphase : q.tailer.phase with
  | reading => exact hpassed (by simp [Tailer.step, hphase])
  | stopped => exact hpassed (by simp [Tailer.step, hphase])
  | sleeping =>
    intro c h
    have htask := task_of_started h hstarted (by simp [hphase])
    have hrunning : c.Running := by simp [Course.Running, htask]
    refine h.simulated hcaller hrunning (m := .task (.ok none) 0 slept) ?_
    simp only [Course.move, Course.moveTask, htask, hphase, h.tailed hrunning]

section

variable {σ : Type} {access : SinkAccess σ} {p : Play σ}

theorem started_answer (h : p.started = true) : (p.answer access).started = true := by
  unfold Play.answer
  split <;> exact h

theorem phase_answer (p : Play σ) : (p.answer access).tailer.phase ≠ .reading := by
  unfold Play.answer
  split
  case h_1 hphase => exact Tailer.step_answered_phase hphase _ _
  case h_2 hphase => exact hphase

theorem simulated_answer (hcaller : s.caller < s.own) (hstarted : p.started = true) :
    Simulated s id cell tail (seen p) (seen (p.answer access)) := by
  unfold Play.answer
  split
  case h_1 hphase =>
    have h : Simulated s id cell tail (seen p) _ :=
      simulated_answered hcaller hstarted hphase (access.read p.sink).1 p.clock
    simpa [seen, Seen.moved, Play.beginTailerSleep, Play.note, hstarted] using h
  case h_2 => exact .refl _

theorem simulated_wakeTailer (hcaller : s.caller < s.own) (hstarted : p.started = true)
    (slept : Except Fault Unit) :
    Simulated s id cell tail (seen p) (seen (p.wakeTailer access slept)) := by
  have h : Simulated s id cell tail (seen p) _ := simulated_woken hcaller hstarted slept
  obtain ⟨⟨tailer, events⟩, hnext⟩ :
    ∃ next, p.tailer.step (.woken slept p.cancelled) = next := ⟨_, rfl⟩
  simp only [Play.wakeTailer, hnext]
  refine .trans ?_ (simulated_answer hcaller hstarted)
  simpa [seen, Seen.moved, Play.note, hstarted, hnext] using h

/-- What is seen of a world whose tailer has not started is where a tailer begins. -/
def Fresh (s : Setup) (p : Play σ) : Prop :=
  p.started = false → p.tailer = ⟨tailerOptions s.admitted, .empty, .sleeping⟩

theorem simulated_startTailer (hcaller : s.caller < s.own) (hfresh : Fresh s p) :
    Simulated s id cell tail (seen p) (seen (p.startTailer access)) := by
  unfold Play.startTailer
  split
  case isTrue => exact .refl _
  case isFalse hstarted =>
    have hstarted : p.started = false := by simpa using hstarted
    have h : Simulated s id cell tail (seen p) _ := simulated_start hcaller hstarted
    obtain ⟨⟨tailer, events⟩, hnext⟩ :
      ∃ next, Tailer.start (tailerOptions s.admitted) p.cancelled = next := ⟨_, rfl⟩
    simp only [hfresh hstarted, hnext]
    refine .trans ?_ (simulated_answer hcaller rfl)
    simpa [seen, Seen.moved, Play.note, hnext] using h

theorem started_startTailer (p : Play σ) : (p.startTailer access).started = true := by
  unfold Play.startTailer
  split
  case isTrue hstarted => exact hstarted
  case isFalse => exact started_answer rfl

theorem started_wakeTailer (h : p.started = true) (slept : Except Fault Unit) :
    (p.wakeTailer access slept).started = true :=
  started_answer h

theorem phase_startTailer (h : p.started = true → p.tailer.phase ≠ .reading) :
    (p.startTailer access).tailer.phase ≠ .reading := by
  unfold Play.startTailer
  split
  case isTrue hstarted => exact h hstarted
  case isFalse => exact phase_answer _

theorem phase_wakeTailer (p : Play σ) (slept : Except Fault Unit) :
    (p.wakeTailer access slept).tailer.phase ≠ .reading :=
  phase_answer _

/-! ## The world while the check sleeps -/

/-- Others call off the context of the caller, and that of the tailer, derived from it, hears of it. -/
theorem simulated_cancel (hcaller : s.caller < s.own) (q : Seen) :
    Simulated s id cell tail q { q with cancelled := true } := by
  intro c h
  have hadmits : s.admits (.cancel s.caller) = true := by
    have hown : s.caller ≠ s.own := by omega
    have htask : s.caller ≠ s.task := by rw [Setup.task]; omega
    simp [Setup.admits, hown, htask]
  have hmove : c.move s (.outside (.cancel s.caller)) =
      { c with history := c.history ++ [.cancel s.caller] } := by
    rw [Course.move, if_pos hadmits]
  have hheld := h.held.move hcaller (.outside (.cancel s.caller))
  have hcell : (ofHistory (c.history ++ [.cancel s.caller])).isCancelled cell = true := by
    rw [Cancellation.ofHistory_snoc]
    exact Cancellation.isCancelled_cancel_self h.held.caller
  refine ⟨[.outside (.cancel s.caller)], ?_⟩
  rw [Course.run_cons, Course.run_nil]
  rw [hmove] at hheld ⊢
  refine ⟨⟨hheld, h.events, h.task, h.fresh, fun hrunning => ?_⟩, rfl, fun _ => ?_⟩
  · have htask := hheld.task hrunning
    rw [called_eq htask]
    exact (Cancellation.kept_ofHistory _).hears hheld.derived
      (Cancellation.isAlive_of_handle? htask) hcell
  · rw [called_eq hheld.caller]
    exact hcell

/-- From one world to another: the session can follow, and there the tailer has started and waits for no
reading. -/
structure Leads (s : Setup) (id : CorrelationId) (cell tail : Nat) (p p' : Play σ) : Prop where
  simulated : Simulated s id cell tail (seen p) (seen p')
  started : p'.started = true
  rested : p'.tailer.phase ≠ .reading

theorem leads_passTime (hcaller : s.caller < s.own) (deadlineMs order fuel : Nat)
    (hstarted : p.started = true) (hrested : p.tailer.phase ≠ .reading) :
    Leads s id cell tail p (p.passTime access deadlineMs order fuel).2 := by
  induction fuel generalizing p with
  | zero =>
    rw [Play.passTime]
    exact ⟨.refl _, hstarted, hrested⟩
  | succ fuel ih =>
    have hsleep : Leads s id cell tail p
        (Play.passTime.passSleep access deadlineMs order fuel p).2 := by
      rw [Play.passTime.passSleep]
      split
      case isTrue =>
        have hwake : Simulated s id cell tail (seen p)
            (seen (Play.wakeTailer access (.ok ()) { p with timeMs := p.wakeMs })) :=
          simulated_wakeTailer (p := { p with timeMs := p.wakeMs }) hcaller hstarted (.ok ())
        have hnext := ih (p := Play.wakeTailer access (.ok ()) { p with timeMs := p.wakeMs })
          (started_wakeTailer (p := { p with timeMs := p.wakeMs }) hstarted _) (phase_wakeTailer _ _)
        exact ⟨hwake.trans hnext.simulated, hnext.started, hnext.rested⟩
      case isFalse => exact ⟨.refl _, hstarted, hrested⟩
    rw [Play.passTime]
    split
    case h_1 dueMs cue rest _ =>
      split
      case isTrue =>
        cases cue with
        | sink act =>
          have hnext := ih
            (p := { p with timeMs := dueMs, timeline := rest, sink := access.apply act p.sink })
            hstarted hrested
          exact ⟨hnext.simulated, hnext.started, hnext.rested⟩
        | cancel => exact ⟨simulated_cancel hcaller _, hstarted, hrested⟩
      case isFalse => exact hsleep
    case h_2 => exact hsleep

/-- Between the requests of the check the tailer waits for no reading, and one that has not started is
where a tailer begins. -/
structure AtRest (s : Setup) (p : Play σ) : Prop where
  fresh : Fresh s p
  rested : p.started = true → p.tailer.phase ≠ .reading

theorem AtRest.of_started {p : Play σ} (hstarted : p.started = true)
    (hrested : p.tailer.phase ≠ .reading) : AtRest s p where
  fresh hnot := by
    rw [hstarted] at hnot
    cases hnot
  rested _ := hrested

theorem simulated_sleep (access : SinkAccess σ) (hcaller : s.caller < s.own) (h : AtRest s p)
    (duration : Duration) :
    Simulated s id cell tail (seen p) (seen (p.sleep access duration).2) ∧
      AtRest s (p.sleep access duration).2 := by
  unfold Play.sleep
  split
  case isTrue => exact ⟨.refl _, h⟩
  case isFalse =>
    generalize hp : ({ p with sleepsBegun := p.sleepsBegun + 1 } : Play σ) = p'
    have hrest : AtRest s p' := hp ▸ ⟨h.fresh, h.rested⟩
    have hstart : Simulated s id cell tail (seen p') (seen (p'.startTailer access)) :=
      simulated_startTailer hcaller hrest.fresh
    have hpass (deadlineMs order fuel : Nat) : Leads s id cell tail (p'.startTailer access)
        ((p'.startTailer access).passTime access deadlineMs order fuel).2 :=
      leads_passTime hcaller deadlineMs order fuel (started_startTailer _)
        (phase_startTailer hrest.rested)
    have hseen : seen p = seen p' := hp ▸ rfl
    rw [hseen]
    have hleads := hpass (p.timeMs + duration.millis.toNat) p.sleepsBegun
      ((p'.startTailer access).thingsUntil (p.timeMs + duration.millis.toNat))
    exact ⟨hstart.trans hleads.simulated, .of_started hleads.started hleads.rested⟩

/-! ## The check -/

/-- The session is at the moment of the world, and this much of its check is left. -/
structure Checks (s : Setup) (id : CorrelationId) (cell tail : Nat) (p : Play σ)
    (rest : Routine (Except Fault Cycle.Report)) (c : Course) : Prop where
  tracks : Tracks s id cell tail (seen p) c
  resting : AtRest s p
  called : c.called s.caller = p.cancelled
  owner : c.owner = .checking rest

variable {rest rest' : Routine (Except Fault Cycle.Report)}

/-- The owner is answered, and nothing else changes but what it logs. -/
theorem Checks.move (h : Checks s id cell tail p rest c) (hcaller : s.caller < s.own)
    (nowMs : UInt64) (slept : Except Fault Unit) (events : List Log.Event)
    (hmove : c.moveOwner s nowMs slept =
      { c with owner := .checking rest', log := c.log ++ events.map s.through }) :
    Checks s id cell tail (p.note events) rest' (c.move s (.owner nowMs slept)) := by
  have hheld := h.tracks.held.move hcaller (.owner nowMs slept)
  rw [Course.move, hmove] at hheld ⊢
  have hevents : Course.events { c with owner := .checking rest', log := c.log ++ events.map s.through } =
      (events.reverse ++ p.events).reverse := by
    rw [Course.events_append_through rfl, h.tracks.events, List.reverse_append, List.reverse_reverse]
    rfl
  exact ⟨⟨hheld, hevents, h.tracks.task, h.tracks.fresh, h.tracks.tailed⟩,
    ⟨h.resting.fresh, h.resting.rested⟩, h.called, rfl⟩

/-- A sleep of the check: the session follows the world through it, and then the owner is answered. -/
theorem Checks.sleep (h : Checks s id cell tail p rest c) (access : SinkAccess σ)
    (hcaller : s.caller < s.own) (duration : Duration) :
    ∃ moves, Checks s id cell tail (p.sleep access duration).2 rest (c.run s moves) := by
  obtain ⟨hsimulated, hresting⟩ := simulated_sleep access hcaller h.resting duration
  obtain ⟨moves, htracks, howner, hcalled⟩ := hsimulated c h.tracks
  exact ⟨moves, htracks, hresting, hcalled h.called, howner.trans h.owner⟩

/-- The session follows the world through the whole check, whose answers are those of the world. -/
theorem Checks.run (h : Checks s id cell tail p rest c) (access : SinkAccess σ)
    (hcaller : s.caller < s.own) :
    ∃ moves, Checks s id cell tail (rest.run (Play.surroundings access) p).2
      (.done (rest.run (Play.surroundings access) p).1) (c.run s moves) := by
  induction rest generalizing p c with
  | done outcome => exact ⟨[], h⟩
  | readClock next ih =>
    have hmove : Checks s id cell tail p (next p.clock) _ :=
      h.move hcaller p.clock (.ok ()) [] (by simp [Course.moveOwner, h.owner])
    obtain ⟨moves, hrest⟩ := ih _ hmove
    exact ⟨.owner p.clock (.ok ()) :: moves, hrest⟩
  | askCancelled next ih =>
    have hmove : Checks s id cell tail p (next p.cancelled) _ :=
      h.move hcaller 0 (.ok ()) [] (by simp [Course.moveOwner, h.owner, h.called])
    obtain ⟨moves, hrest⟩ := ih _ hmove
    exact ⟨.owner 0 (.ok ()) :: moves, hrest⟩
  | takeSnapshot next ih =>
    have hmove : Checks s id cell tail p (next p.tailer.published) _ :=
      h.move hcaller 0 (.ok ()) [] (by simp [Course.moveOwner, h.owner, h.tracks.published, seen])
    obtain ⟨moves, hrest⟩ := ih _ hmove
    exact ⟨.owner 0 (.ok ()) :: moves, hrest⟩
  | sleep duration next ih =>
    obtain ⟨during, hslept⟩ := h.sleep access hcaller duration
    have hmove : Checks s id cell tail (p.sleep access duration).2 (next (p.sleep access duration).1) _ :=
      hslept.move hcaller 0 (p.sleep access duration).1 [] (by simp [Course.moveOwner, hslept.owner])
    obtain ⟨moves, hrest⟩ := ih _ hmove
    refine ⟨during ++ .owner 0 (p.sleep access duration).1 :: moves, ?_⟩
    rw [Course.run_append]
    exact hrest
  | emit event next ih =>
    have hmove : Checks s id cell tail (p.note [event]) next _ :=
      h.move hcaller 0 (.ok ()) [event] (by simp [Course.moveOwner, h.owner])
    obtain ⟨moves, hrest⟩ := ih hmove
    exact ⟨.owner 0 (.ok ()) :: moves, hrest⟩

/-! ## The end -/

/-- The check is over, and the owner calls the tailer off. -/
theorem Checks.stopping {outcome : Except Fault Cycle.Report}
    (h : Checks s id cell tail p (.done outcome) c) (hcaller : s.caller < s.own) :
    Tracks s id cell tail (seen { p with cancelled := true }) (c.move s (.owner 0 (.ok ()))) ∧
      (c.move s (.owner 0 (.ok ()))).owner = .stopping outcome := by
  have hheld := h.tracks.held.move hcaller (.owner 0 (.ok ()))
  have hmove : c.move s (.owner 0 (.ok ())) =
      { c with owner := .stopping outcome, history := c.history ++ [.cancel s.own] } := by
    simp only [Course.move, Course.moveOwner, h.owner]
  rw [hmove] at hheld ⊢
  refine ⟨⟨hheld, h.tracks.events, h.tracks.task, h.tracks.fresh, fun hrunning => ?_⟩, rfl⟩
  rw [called_eq (hheld.task hrunning)]
  exact hheld.calledOff (by simp [Course.Over])

/-- A tailer whose sleep is refused stops. -/
theorem phase_wakeTailer_refused (hrested : p.tailer.phase ≠ .reading) (fault : Fault) :
    (p.wakeTailer access (.error fault)).tailer.phase = .stopped := by
  have hstopped : (p.tailer.step (.woken (.error fault) p.cancelled)).1.phase = .stopped := by
    cases hphase : p.tailer.phase with
    | reading => exact absurd hphase hrested
    | sleeping => simp [Tailer.step, hphase, Tailer.stop_phase]
    | stopped => rw [Tailer.step_of_stopped hphase, hphase]
  simp only [Play.wakeTailer, Play.answer, Play.note, hstopped]

/-- Where the tailer is started if it has not yet and its sleep is refused, it has stopped. -/
theorem simulated_end (access : SinkAccess σ) (hcaller : s.caller < s.own) (h : AtRest s p) :
    let p' := (p.startTailer access).wakeTailer access (.error Clock.refused)
    Simulated s id cell tail (seen p) (seen p') ∧ p'.started = true ∧ p'.tailer.phase = .stopped := by
  intro p'
  have hstarted : (p.startTailer access).started = true := started_startTailer p
  have hrested : (p.startTailer access).tailer.phase ≠ .reading := phase_startTailer h.rested
  have hstart : Simulated s id cell tail (seen p) (seen (p.startTailer access)) :=
    simulated_startTailer hcaller h.fresh
  exact ⟨hstart.trans (simulated_wakeTailer hcaller hstarted _), started_wakeTailer hstarted _,
    phase_wakeTailer_refused hrested _⟩

/-- The owner waits for a tailer that has stopped: the session returns what the check came to. -/
theorem Tracks.returns {outcome : Except Fault Cycle.Report} (h : Tracks s id cell tail q c)
    (howner : c.owner = .stopping outcome) (hstarted : q.started = true)
    (hphase : q.tailer.phase = .stopped) :
    (c.move s (.owner 0 (.ok ()))).owner = .returned outcome ∧
      (c.move s (.owner 0 (.ok ()))).events = q.events.reverse := by
  have htask : c.task = .ended q.tailer.published (.ok ()) := by
    rw [h.task, Seen.task, if_pos hstarted, hphase]
  simp only [Course.move, Course.moveOwner, howner, htask, settle_of_ended_well]
  exact ⟨trivial, h.events⟩

/-- Once the session has followed the world to the end of the check, the tailer stops in both, and the
session returns what the check came to. -/
theorem Checks.returns {outcome : Except Fault Cycle.Report}
    (h : Checks s id cell tail p (.done outcome) c) (access : SinkAccess σ)
    (hcaller : s.caller < s.own) :
    ∃ moves, (c.run s moves).owner = .returned outcome ∧
      (c.run s moves).events = (p.stopTailer access).events.reverse := by
  obtain ⟨hstopping, howner⟩ := h.stopping hcaller
  have hrest : AtRest s { p with cancelled := true } := ⟨h.resting.fresh, h.resting.rested⟩
  obtain ⟨hsimulated, hstarted, hphase⟩ := simulated_end access hcaller hrest
  obtain ⟨moves, hended, howner', -⟩ := hsimulated _ hstopping
  have hreturned := hended.returns (howner'.trans howner) hstarted hphase
  refine ⟨.owner 0 (.ok ()) :: (moves ++ [.owner 0 (.ok ())]), ?_⟩
  rw [Course.run_cons, Course.run_concat]
  exact hreturned

/-! ## The whole rehearsal -/

/-- A tailer that has not started, before anything was logged. -/
def Seen.opening (o : Tailer.Options) (cancelled : Bool) : Seen :=
  ⟨[], ⟨o, .empty, .sleeping⟩, false, cancelled⟩

/-- What is done to the world before it opens can call the check off, and nothing else is seen of it. -/
theorem seen_opening (access : SinkAccess σ) (sink : σ) (o : Tailer.Options) (startMs : Nat)
    (timeline : List (Nat × Cue)) (cancelled : Bool) :
    ∃ called, seen (Play.opening access sink o startMs timeline cancelled) = .opening o called := by
  unfold Play.opening
  refine List.foldlRecOn (motive := fun p : Play σ => ∃ called, seen p = .opening o called)
    _ _ ⟨cancelled, rfl⟩ fun p h entry _ => ?_
  obtain ⟨called, h⟩ := h
  cases hcue : entry.2 with
  | sink act => exact ⟨called, h⟩
  | cancel =>
    obtain ⟨hevents, htailer, hstarted, -⟩ := Seen.mk.injEq .. ▸ h
    exact ⟨true, by simp [seen, Seen.opening, hevents, htailer, hstarted]⟩

theorem atRest_of_opening {called : Bool} (h : seen p = .opening (tailerOptions s.admitted) called) :
    AtRest s p := by
  obtain ⟨-, htailer, hstarted, -⟩ := Seen.mk.injEq .. ▸ h
  refine ⟨fun _ => htailer, fun hnot => ?_⟩
  rw [hstarted] at hnot
  cases hnot

/-- The session of a caller with a context of its own, on a runtime with a logger of its own. -/
def Setup.alone (a : Admitted) (id : CorrelationId) : Setup :=
  .after [.new (some id)] a 0 1 (some 0)

/-- The course that the moves make of that session. -/
def Course.alone (a : Admitted) (id : CorrelationId) (moves : List Move) : Course :=
  (opening (.alone a id) [.new (some id)]).run (.alone a id) moves

/-- That session before anything was logged. -/
theorem tracks_opening (a : Admitted) (id : CorrelationId) :
    let s := Setup.alone a id
    let c := Course.opening s [.new (some id)]
    Tracks s id 0 1 (.opening (tailerOptions a) false) c ∧ c.called s.caller = false := by
  intro s c
  have hheld : Held s id 0 1 c := held_opening a 1 (some 0) rfl
  exact ⟨⟨hheld, rfl, rfl, fun _ => rfl, fun _ => rfl⟩, rfl⟩

theorem unmarked_alone (a : Admitted) (id : CorrelationId) (moves : List Move) :
    ∀ e ∈ (Course.alone a id moves).events, Unmarked e :=
  ((orderly_opening (.alone a id) _).run moves).unmarked

/-- Every rehearsal is a course, with the same result and the same events. -/
theorem perform_is_course (a : Admitted) (id : CorrelationId) (access : SinkAccess σ) (sink : σ)
    (startMs : Nat) (timeline : List (Nat × Cue)) (cancelled : Bool) :
    let world := Play.opening access sink (tailerOptions a) startMs timeline cancelled
    let performed := world.perform access a.checkSettings
    ∃ moves, (Course.alone a id moves).owner = .returned performed.1 ∧
      (Course.alone a id moves).events = performed.2.events.reverse := by
  intro world performed
  have hcaller : (Setup.alone a id).caller < (Setup.alone a id).own := Nat.zero_lt_one
  obtain ⟨called, hworld⟩ : ∃ called, seen world = .opening (tailerOptions a) called :=
    seen_opening access sink _ startMs timeline cancelled
  obtain ⟨htracks, hcalled⟩ := tracks_opening a id
  have hbefore : Simulated (Setup.alone a id) id 0 1 (.opening (tailerOptions a) false)
      (.opening (tailerOptions a) called) := by
    cases called with
    | false => exact .refl _
    | true => exact simulated_cancel hcaller _
  obtain ⟨before, htracks', howner, hcalled'⟩ := hbefore _ htracks
  have hchecks : Checks _ id 0 1 world (Cycle.check a.checkSettings) _ :=
    ⟨hworld ▸ htracks', atRest_of_opening hworld,
      (hcalled' hcalled).trans (congrArg Seen.cancelled hworld).symm, howner⟩
  obtain ⟨during, hover⟩ := hchecks.run access hcaller
  obtain ⟨after, hreturned⟩ := hover.returns access hcaller
  refine ⟨before ++ (during ++ after), ?_⟩
  simp only [Course.alone, Course.run_append]
  exact hreturned

end

/-! ## A session leaves no tailer behind -/

/-- Whatever the sink, the clock and all others do, and however the moves of the owner and the task
interleave: when a session returns its tailer has ended, and all else that is certain of a session holds
at every moment, whatever loggers the runtime has. The sessions that are rehearsed are among them, on a
sink that changes as a timeline has it and on files; the lines of the journal are for entries that all
have the id of the run and the path of the sink. -/
theorem session_leaves_no_tailer (a : Admitted) {past : List Cancellation.Operation} {caller : Nat}
    (hcaller : (ofHistory past).handle? caller = some ⟨cell, some id⟩) :
    (∀ loggers runtime moves, let s := Setup.after past a caller loggers runtime
      Supervised s id (Course.opening s past) moves) ∧
      (∀ startMs timeline, let r := Rehearsal.rehearse a startMs timeline
        (∃ moves, (Course.alone a id moves).owner = .returned r.result ∧
          (Course.alone a id moves).events = r.events) ∧
        ∀ timed, timed.map Prod.snd = r.events → ∃ xs, Marked a id r.events xs ∧
          journalLines a id timed = Log.Journal.linesFor a.config.logging.level xs) ∧
      ∀ files startMs cancelled, ∃ moves,
        (Course.alone a id moves).owner =
          .returned (Rehearsal.rehearseOnFiles a files startMs cancelled) := by
  refine ⟨fun loggers runtime moves => supervised a loggers runtime hcaller moves,
    fun startMs timeline => ?_, fun files startMs cancelled => ?_⟩
  · obtain ⟨moves, howner, hevents⟩ :=
      perform_is_course a id Rehearsal.Sink.access _ startMs.toNat timeline false
    refine ⟨⟨moves, howner, hevents⟩, fun timed htimed => ?_⟩
    rw [← htimed]
    refine marked_journalLines fun x hx => unmarked_alone a id moves x.2 ?_
    have hall : timed.map Prod.snd = (Course.alone a id moves).events := htimed.trans hevents.symm
    exact hall ▸ List.mem_map_of_mem hx
  · obtain ⟨moves, howner, -⟩ := perform_is_course a id
      (Rehearsal.filesAccess (tailerOptions a).path) files startMs.toNat [] cancelled
    exact ⟨moves, howner⟩

/-- A session with the settings that hold by default, called by one who has a context of its own, on a
runtime whose logger is a child in a family of two. -/
theorem session_leaves_no_tailer_default :
    ∃ a, Config.toAdmitted default = .ok a ∧
      (∀ moves, let s := Setup.after [.new (some ⟨"run"⟩)] a 0 2 (some 1)
        Supervised s ⟨"run"⟩ (Course.opening s [.new (some ⟨"run"⟩)]) moves) ∧
      let r := Rehearsal.rehearse a 0 [(2, .cancel)]
      (∃ moves, (Course.alone a ⟨"run"⟩ moves).owner = .returned r.result) ∧
        ∃ xs, Marked a ⟨"run"⟩ r.events xs ∧
          journalLines a ⟨"run"⟩ (r.events.map fun e => (0, e)) =
            Log.Journal.linesFor a.config.logging.level xs := by
  obtain ⟨a, ha⟩ : ∃ a, Config.toAdmitted default = .ok a := ⟨_, rfl⟩
  have hcaller : (ofHistory [.new (some ⟨"run"⟩)]).handle? 0 = some ⟨0, some ⟨"run"⟩⟩ := rfl
  obtain ⟨hsupervised, hrehearsed, -⟩ := session_leaves_no_tailer a hcaller
  obtain ⟨⟨moves, hreturned, -⟩, hlines⟩ := hrehearsed 0 [(2, .cancel)]
  exact ⟨a, ha, hsupervised 2 (some 1), ⟨moves, hreturned⟩, hlines _ (by simp [Function.comp_def])⟩

end CycleWatch.Session
