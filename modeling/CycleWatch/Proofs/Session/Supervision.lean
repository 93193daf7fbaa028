import CycleWatch.Proofs.Session.Course
/-!
# A session leaves no tailer behind

Through every course of a session its handles stay what they are (`Held`), the log keeps its shape
(`Orderly`), and once the check is over the task ends after at most two moves of its own (`movesLeft`).
So when a session returns its tailer has ended and nothing is read or logged any more, the result is that
of the check unless the task failed, and nobody but the others has called off the context of the caller.
All that was logged went through the logger of the run, so every entry has the fields of that logger
(`supervised`).
-/
namespace CycleWatch.Session

open Cancellation (Operation ofHistory Derived)
open Config (Admitted)

variable {s : Setup} {c : Course} {m : Move} {moves later : List Move} {past : List Operation}
  {op : Operation} {id : CorrelationId} {cell tail : Nat}

/-! ## The contexts -/

/-- The handles of a session as long as they are needed: that of the caller, and those of the context of
the tailer, which is derived from it and called off once the check is over. -/
structure Held (s : Setup) (id : CorrelationId) (cell tail : Nat) (c : Course) : Prop where
  caller : (ofHistory c.history).handle? s.caller = some ⟨cell, some id⟩
  derived : Derived c.history cell tail
  own : c.Underway → (ofHistory c.history).handle? s.own = some ⟨tail, some id⟩
  task : c.Running → (ofHistory c.history).handle? s.task = some ⟨tail, some id⟩
  calledOff : c.Over → (ofHistory c.history).isCancelled tail = true

theorem Held.caller_lt (h : Held s id cell tail c) : cell < tail :=
  ((Cancellation.kept_ofHistory c.history).derived_lt h.derived).1

theorem called_eq {h : Nat} {handle : Cancellation.Handle}
    (hhandle : (ofHistory c.history).handle? h = some handle) :
    c.called h = (ofHistory c.history).isCancelled handle.cell := by
  rw [Course.called, Cancellation.state?, hhandle, Option.map_some, Option.getD_some]

theorem derived_append {p q : Nat} (h : Derived past p q) (more : List Operation) :
    Derived (past ++ more) p q := by
  obtain ⟨before, n, handle, hprefix, hrest⟩ := h
  exact ⟨before, n, handle, hprefix.trans (List.prefix_append _ _), hrest⟩

/-- The handles after one operation more: what is still needed was needed before and is not dropped. -/
theorem Held.perform {c' : Course} (h : Held s id cell tail c)
    (hhistory : c'.history = c.history ++ [op]) (hcaller : op ≠ .drop s.caller)
    (hown : c'.Underway → c.Underway ∧ op ≠ .drop s.own)
    (htask : c'.Running → c.Running ∧ op ≠ .drop s.task)
    (hcalledOff : c'.Over → c.Over ∨ op = .cancel s.own ∧ c.Underway) :
    Held s id cell tail c' where
  caller := by
    rw [hhistory]
    exact Cancellation.handle?_snoc h.caller hcaller
  derived := by
    rw [hhistory]
    exact derived_append h.derived _
  own hneeded := by
    rw [hhistory]
    exact Cancellation.handle?_snoc (h.own (hown hneeded).1) (hown hneeded).2
  task hneeded := by
    rw [hhistory]
    exact Cancellation.handle?_snoc (h.task (htask hneeded).1) (htask hneeded).2
  calledOff hover := by
    rw [hhistory, Cancellation.ofHistory_snoc]
    rcases hcalledOff hover with hbefore | ⟨rfl, hneeded⟩
    · exact Cancellation.isCancelled_perform (h.calledOff hbefore)
    · exact Cancellation.isCancelled_cancel_self (h.own hneeded)

/-- The handles when only the log and the task go on. -/
theorem Held.of_history_eq {c' : Course} (h : Held s id cell tail c)
    (hhistory : c'.history = c.history)
    (hown : c'.Underway → c.Underway) (htask : c'.Running → c.Running)
    (hcalledOff : c'.Over → c.Over) :
    Held s id cell tail c' where
  caller := hhistory ▸ h.caller
  derived := hhistory ▸ h.derived
  own hneeded := hhistory ▸ h.own (hown hneeded)
  task hneeded := hhistory ▸ h.task (htask hneeded)
  calledOff hover := hhistory ▸ h.calledOff (hcalledOff hover)

theorem Held.follow (h : Held s id cell tail c) (hcaller : s.caller < s.own)
    (hrunning : c.Running) (t : Tailer)
    (events : List Log.Event) : Held s id cell tail (c.follow s t events) := by
  unfold Course.follow
  cases t.phase with
  | reading => exact h.of_history_eq rfl (fun hn => hn) (fun _ => hrunning) (fun hn => hn)
  | sleeping => exact h.of_history_eq rfl (fun hn => hn) (fun _ => hrunning) (fun hn => hn)
  | stopped =>
    refine h.perform rfl ?_ (fun hn => ⟨hn, ?_⟩) (fun hn => absurd rfl (hn _ _)) .inl
    · simp [Setup.task]; omega
    · simp [Setup.task]

/-- The owner calls the tailer off. -/
theorem Held.cancelOwn (h : Held s id cell tail c) :
    Held s id cell tail { c with history := c.history ++ [.cancel s.own] } :=
  h.perform rfl (by simp) (fun hn => ⟨hn, by simp⟩) (fun hn => ⟨hn, by simp⟩) .inl

theorem Held.move (h : Held s id cell tail c) (hcaller : s.caller < s.own) (m : Move) :
    Held s id cell tail (c.move s m) := by
  have hmoved := moved_move s c m
  generalize c.move s m = c' at hmoved
  cases hmoved with
  | stays => exact h
  | asks nowMs slept howner hrest =>
    exact h.of_history_eq rfl (fun _ => by simp [Course.Underway, howner]) (fun hn => hn)
      (fun hn => absurd rfl (hn _))
  | checked nowMs slept howner =>
    have hneeded : c.Underway := by simp [Course.Underway, howner]
    exact h.perform rfl (by simp) (fun _ => ⟨hneeded, by simp⟩) (fun hn => ⟨hn, by simp⟩)
      (fun _ => .inr ⟨rfl, hneeded⟩)
  | returns nowMs slept howner htask =>
    have hover : c.Over := by simp [Course.Over, howner]
    refine h.cancelOwn.perform (List.append_cons ..) ?_ (fun hn => absurd rfl (hn _))
      (fun hn => absurd htask (hn _ _)) fun _ => .inl hover
    simp only [ne_eq, Operation.drop.injEq]
    omega
  | starts reading nowMs slept called htask =>
    exact h.follow hcaller (by simp [Course.Running, htask]) _ _
  | turns reading nowMs slept signal htask =>
    exact h.follow hcaller (by simp [Course.Running, htask]) _ _
  | crashes message hrunning =>
    refine h.perform rfl ?_ (fun hn => ⟨hn, ?_⟩) (fun hn => absurd rfl (hn _ _)) .inl
    · simp [Setup.task]; omega
    · simp [Setup.task]
  | outside hadmits =>
    refine h.perform rfl ?_ (fun hn => ⟨hn, ?_⟩) (fun hn => ⟨hn, ?_⟩) .inl <;>
    · rintro rfl
      simp [Setup.admits] at hadmits

theorem Held.run (h : Held s id cell tail c) (hcaller : s.caller < s.own) (moves : List Move) :
    Held s id cell tail (c.run s moves) := by
  induction moves generalizing c with
  | nil => exact h
  | cons m moves ih => exact ih (h.move hcaller m)

/-- A session begins with its handles in place. -/
theorem held_opening {caller : Nat} (a : Admitted) (loggers : Nat) (runtime : Option Nat)
    (hcaller : (ofHistory past).handle? caller = some ⟨cell, some id⟩) :
    let s := Setup.after past a caller loggers runtime
    Held s id cell (ofHistory past).cells.length (Course.opening s past) := by
  intro s
  have hderived : (ofHistory (past ++ [.derive caller])).handles =
      (ofHistory past).handles ++ [some ⟨(ofHistory past).cells.length, some id⟩] := by
    rw [Cancellation.ofHistory_snoc]
    exact Cancellation.handles_derive hcaller (Cancellation.cell_lt_of_handle? hcaller)
  have hown := Cancellation.handle?_of_handles_eq hderived
  have hcopied : (ofHistory (past ++ [.derive caller, .copy s.own])).handles =
      (ofHistory (past ++ [.derive caller])).handles ++
        [some ⟨(ofHistory past).cells.length, some id⟩] := by
    rw [List.append_cons, Cancellation.ofHistory_snoc, ← hown]
    rfl
  have htask := Cancellation.handle?_of_handles_eq hcopied
  have hlength : (ofHistory (past ++ [.derive caller])).handles.length = s.task := by
    rw [hderived, List.length_append]
    rfl
  rw [hlength] at htask
  constructor
  case caller =>
    rw [Course.opening, List.append_cons]
    exact Cancellation.handle?_snoc (Cancellation.handle?_snoc hcaller (by simp)) (by simp)
  case derived =>
    exact ⟨past, caller, _, ⟨[.copy s.own], by simp [Course.opening, s, Setup.after]⟩, hcaller, rfl, rfl⟩
  case own =>
    intro _
    rw [Course.opening, List.append_cons]
    exact Cancellation.handle?_snoc hown (by simp)
  case task => exact fun _ => htask
  case calledOff => exact fun hover => absurd rfl (hover _)

/-- What the session itself does with contexts leaves that of the caller as it is. -/
theorem Held.isCancelled_caller (h : Held s id cell tail c)
    (hop : (∀ n, op ≠ .cancel n) ∨ op = .cancel s.own ∧ c.Underway) :
    (ofHistory (c.history ++ [op])).isCancelled cell = (ofHistory c.history).isCancelled cell := by
  rw [Cancellation.ofHistory_snoc]
  rcases hop with hop | ⟨rfl, hneeded⟩
  · exact Cancellation.isCancelled_perform_eq (Cancellation.cell_lt_of_handle? h.caller) hop
  · exact Cancellation.isCancelled_cancel_of_lt (h.own hneeded) h.caller_lt

theorem Held.isCancelled_follow (h : Held s id cell tail c) (t : Tailer) (events : List Log.Event) :
    (ofHistory (c.follow s t events).history).isCancelled cell =
      (ofHistory c.history).isCancelled cell := by
  unfold Course.follow
  cases t.phase with
  | reading => rfl
  | sleeping => rfl
  | stopped => exact h.isCancelled_caller (.inl (by simp))

/-- The context of the caller is called off by a move of others only. -/
theorem Held.called_move (h : Held s id cell tail c) (hcaller : s.caller < s.own)
    (hbefore : c.called s.caller = false) (hafter : (c.move s m).called s.caller = true) :
    ∃ n, m = .outside (.cancel n) := by
  rw [called_eq h.caller] at hbefore
  rw [called_eq (h.move hcaller m).caller] at hafter
  have hmoved := moved_move s c m
  generalize c.move s m = c' at hmoved hafter
  by_contra hother
  suffices heq : (ofHistory c'.history).isCancelled cell = (ofHistory c.history).isCancelled cell by
    rw [heq, hbefore] at hafter
    cases hafter
  cases hmoved with
  | stays => rfl
  | asks => rfl
  | checked nowMs slept howner =>
    exact h.isCancelled_caller (.inr ⟨rfl, by simp [Course.Underway, howner]⟩)
  | returns nowMs slept howner htask =>
    have hneeded : c.Underway := by simp [Course.Underway, howner]
    have hcancel := h.isCancelled_caller (.inr ⟨rfl, hneeded⟩)
    have hdrop : (ofHistory ((c.history ++ [.cancel s.own]) ++ [.drop s.own])).isCancelled cell =
        (ofHistory (c.history ++ [.cancel s.own])).isCancelled cell :=
      h.cancelOwn.isCancelled_caller (.inl (by simp))
    rwa [hcancel, ← List.append_cons] at hdrop
  | starts => exact h.isCancelled_follow _ _
  | turns => exact h.isCancelled_follow _ _
  | crashes => exact h.isCancelled_caller (.inl (by simp))
  | @outside op hadmits =>
    exact h.isCancelled_caller (.inl fun n heq => hother ⟨n, by rw [heq]⟩)

/-! ## The log -/

/-- The events of the tailer, as far as its task has come: its start is the first one and its end the last
one, each of them once, and only reports of publications and failed readings stand between. -/
inductive TailerLog (o : Tailer.Options) : Task → List Log.Event → Prop
  | waiting : TailerLog o .waiting []
  | going {t : Tailer} {reports : List Log.Event} :
    t.options = o → t.phase ≠ .stopped → (∀ e ∈ reports, Tailer.Reports o e) →
      TailerLog o (.going t) (Tailer.startedEvent o :: reports)
  | ended {t : Tailer} {reports : List Log.Event} :
    t.options = o → (∀ e ∈ reports, Tailer.Reports o e) →
      TailerLog o (.ended t.published (.ok ())) (Tailer.startedEvent o :: reports ++ [t.stoppedEvent])
  | failedAtOnce {published : Snapshot} {fault : Fault} : TailerLog o (.ended published (.error fault)) []
  | failed {published : Snapshot} {fault : Fault} {reports : List Log.Event} :
    (∀ e ∈ reports, Tailer.Reports o e) →
      TailerLog o (.ended published (.error fault)) (Tailer.startedEvent o :: reports)

/-- The log of a session: all of it went through the logger of the run, the check logs events of a check
only, and what the tailer logs is in order. -/
structure Orderly (s : Setup) (c : Course) : Prop where
  check : ∀ rest, c.owner = .checking rest → rest.Emits (Cycle.Logs s.admitted.checkSettings)
  through : c.log = c.events.map s.through
  logged : ∀ e ∈ c.events,
    Cycle.Logs s.admitted.checkSettings e ∨ Tailer.Logs (tailerOptions s.admitted) e
  tailer : TailerLog (tailerOptions s.admitted) c.task (c.events.filter ofTailer)

theorem Orderly.through_append (h : Orderly s c) {c' : Course} {more : List Log.Event}
    (hlog : c'.log = c.log ++ more.map s.through) : c'.log = c'.events.map s.through := by
  rw [Course.events_append_through hlog, List.map_append, ← h.through, hlog]

theorem orderly_opening (s : Setup) (past : List Operation) :
    Orderly s (Course.opening s past) where
  check rest howner := by
    cases howner
    exact Cycle.check_emits _
  through := rfl
  logged := by simp [Course.opening, Course.events]
  tailer := .waiting

/-- The task goes on after its start and reports: what it logs for that comes after them. -/
theorem Orderly.follow (h : Orderly s c) {t : Tailer} (first : List Log.Event)
    {events reports : List Log.Event}
    (hfirst : ∀ e ∈ first, Tailer.Logs (tailerOptions s.admitted) e)
    (hbefore : c.events.filter ofTailer ++ first =
      Tailer.startedEvent (tailerOptions s.admitted) :: reports)
    (hreports : ∀ e ∈ reports, Tailer.Reports (tailerOptions s.admitted) e)
    (hturned : Tailer.Turned (tailerOptions s.admitted) (t, events)) :
    Orderly s (c.follow s t (first ++ events)) := by
  have hlogs : ∀ e ∈ first ++ events, Tailer.Logs (tailerOptions s.admitted) e := by
    intro e he
    rcases List.mem_append.mp he with he | he
    · exact hfirst e he
    · exact hturned.logs e he
  have hlog : (c.follow s t (first ++ events)).log = c.log ++ (first ++ events).map s.through :=
    Course.log_follow t _
  have hevents := Course.events_append_through hlog
  have htailer : (c.follow s t (first ++ events)).events.filter ofTailer =
      Tailer.startedEvent (tailerOptions s.admitted) :: reports ++ events := by
    rw [hevents, List.filter_append, filter_ofTailer_of_tailerLogs hlogs, ← List.append_assoc,
      hbefore]
  have hlogged : ∀ e ∈ (c.follow s t (first ++ events)).events,
      Cycle.Logs s.admitted.checkSettings e ∨ Tailer.Logs (tailerOptions s.admitted) e := by
    intro e he
    rw [hevents] at he
    rcases List.mem_append.mp he with he | he
    · exact h.logged e he
    · exact .inr (hlogs e he)
  have hgoing (hphase : t.phase ≠ .stopped) :
      TailerLog (tailerOptions s.admitted) (.going t)
        ((c.follow s t (first ++ events)).events.filter ofTailer) := by
    rw [htailer]
    refine .going hturned.options hphase fun e he => ?_
    rcases List.mem_append.mp he with he | he
    · exact hreports e he
    · exact hturned.reports hphase e he
  have hended (hphase : t.phase = .stopped) :
      TailerLog (tailerOptions s.admitted) (.ended t.published (.ok ()))
        ((c.follow s t (first ++ events)).events.filter ofTailer) := by
    have hends : events = [t.stoppedEvent] := hturned.ends hphase
    rw [htailer, hends]
    exact .ended hturned.options hreports
  refine ⟨fun rest howner => h.check rest (Course.owner_follow t _ ▸ howner), h.through_append hlog,
    hlogged, ?_⟩
  rw [Course.task_follow]
  split
  case h_1 hphase => exact hended hphase
  case h_2 hphase => exact hgoing hphase

theorem Orderly.move (h : Orderly s c) (m : Move) : Orderly s (c.move s m) := by
  have hmoved := moved_move s c m
  generalize c.move s m = c' at hmoved
  have htailer := h.tailer
  cases hmoved with
  | stays => exact h
  | @asks rest rest' events nowMs slept howner hcontinues =>
    obtain ⟨hrest', hevents⟩ := hcontinues _ (h.check rest howner)
    have hall : Course.events { c with owner := .checking rest', log := c.log ++ events.map s.through } =
        c.events ++ events := Course.events_append_through rfl
    refine ⟨fun _ heq => ?_, h.through_append rfl, fun e he => ?_, ?_⟩
    · cases heq
      exact hrest'
    · rw [hall] at he
      rcases List.mem_append.mp he with he | he
      · exact h.logged e he
      · exact .inl (hevents e he)
    · rw [hall, List.filter_append, filter_ofTailer_of_cycleLogs hevents, List.append_nil]
      exact htailer
  | checked => exact ⟨fun _ heq => (by cases heq), h.through, h.logged, htailer⟩
  | returns => exact ⟨fun _ heq => (by cases heq), h.through, h.logged, htailer⟩
  | starts reading nowMs slept called htask =>
    rw [htask] at htailer
    generalize hown : c.events.filter ofTailer = own at htailer
    cases htailer
    have hturned : Tailer.Turned (tailerOptions s.admitted)
        (Tailer.turn ⟨tailerOptions s.admitted, .empty, .sleeping⟩ called) :=
      Tailer.turned_turn ⟨tailerOptions s.admitted, .empty, .sleeping⟩ called
    refine h.follow [Tailer.startedEvent _] ?_ (by rw [hown]; rfl) (by simp) hturned
    intro e he
    rw [List.mem_singleton.mp he]
    exact .started
  | @turns t reading nowMs slept signal htask =>
    rw [htask] at htailer
    generalize hown : c.events.filter ofTailer = own at htailer
    cases htailer with
    | @going _ reports hoptions hphase hreports =>
      have hturned := Tailer.turned_step hphase signal
      rw [hoptions] at hturned
      exact h.follow [] (by simp) (by rw [hown, List.append_nil]) hreports hturned
  | crashes message hrunning =>
    refine ⟨h.check, h.through, h.logged, ?_⟩
    rw [Course.Running] at hrunning
    simp only [Course.events] at htailer ⊢
    generalize (c.log.map Logged.event).filter ofTailer = own at htailer
    generalize c.task = task at htailer hrunning
    cases htailer with
    | waiting => exact .failedAtOnce
    | going _ _ hreports => exact .failed hreports
    | ended => exact absurd rfl (hrunning _ _)
    | failedAtOnce => exact absurd rfl (hrunning _ _)
    | failed => exact absurd rfl (hrunning _ _)
  | outside => exact ⟨h.check, h.through, h.logged, htailer⟩

theorem Orderly.run (h : Orderly s c) (moves : List Move) : Orderly s (c.run s moves) := by
  induction moves generalizing c with
  | nil => exact h
  | cons m moves ih => exact ih (h.move m)

theorem Orderly.unmarked (h : Orderly s c) : ∀ e ∈ c.events, Unmarked e := by
  intro e he
  rcases h.logged e he with hlogs | hlogs
  · exact unmarked_of_cycleLogs hlogs
  · exact unmarked_of_tailerLogs hlogs

/-- What a session does with the loggers is what a run does that logs its events. -/
theorem Orderly.loggerCalls (h : Orderly s c) (hid : s.id = some id) (writtenMs : Nat → UInt64) :
    ∃ timed : List (UInt64 × Log.Event), timed.map Prod.snd = c.events ∧
      c.loggerCalls s writtenMs =
        Session.loggerCalls s.admitted id s.loggers s.runtime timed := by
  refine ⟨c.events.zipIdx.map fun x => (writtenMs x.2, x.1), ?_, ?_⟩
  · simp [Function.comp_def]
  · rw [Course.loggerCalls, Session.loggerCalls, hid, h.through, List.zipIdx_map]
    simp [List.flatMap_map, Setup.through, Setup.logger]

/-! ## The end -/

/-- Nothing that the session itself does has changed between two moments. -/
structure Still (c c' : Course) : Prop where
  owner : c'.owner = c.owner
  task : c'.task = c.task
  reads : c'.reads = c.reads
  log : c'.log = c.log

variable {result outcome : Except Fault Cycle.Report} {published : Snapshot} {how : Except Fault Unit}

theorem still_move (howner : c.owner = .returned result) (htask : c.task = .ended published how)
    (m : Move) : Still c (c.move s m) := by
  have hmoved := moved_move s c m
  generalize c.move s m = c' at hmoved
  cases hmoved with
  | stays => exact ⟨rfl, rfl, rfl, rfl⟩
  | asks _ _ hother => rw [howner] at hother; cases hother
  | checked _ _ hother => rw [howner] at hother; cases hother
  | returns _ _ hother => rw [howner] at hother; cases hother
  | starts _ _ _ _ hother => rw [htask] at hother; cases hother
  | turns _ _ _ _ hother => rw [htask] at hother; cases hother
  | crashes _ hrunning => exact absurd htask (hrunning _ _)
  | outside => exact ⟨rfl, rfl, rfl, rfl⟩

/-- Once a session has returned and its task has ended, both are over for good. -/
theorem still_run (howner : c.owner = .returned result) (htask : c.task = .ended published how)
    (later : List Move) : Still c (c.run s later) := by
  induction later generalizing c with
  | nil => exact ⟨rfl, rfl, rfl, rfl⟩
  | cons m later ih =>
    have hmove := still_move (s := s) howner htask m
    have hrest := ih (hmove.owner.trans howner) (hmove.task.trans htask)
    exact ⟨hrest.owner.trans hmove.owner, hrest.task.trans hmove.task,
      hrest.reads.trans hmove.reads, hrest.log.trans hmove.log⟩

/-- At some earlier moment of the course the check had come to this outcome. -/
def CheckedTo (s : Setup) (c : Course) (moves : List Move) (outcome : Except Fault Cycle.Report) :
    Prop :=
  ∃ earlier, earlier <+: moves ∧ (c.run s earlier).owner = .checking (.done outcome)

theorem CheckedTo.concat (h : CheckedTo s c moves outcome) (m : Move) :
    CheckedTo s c (moves ++ [m]) outcome := by
  obtain ⟨earlier, hprefix, howner⟩ := h
  exact ⟨earlier, hprefix.trans (List.prefix_append _ _), howner⟩

/-- What the state of a session after the moves tells of its past: what it stops with is an outcome of the
check, and what it returned is one, settled with the end of the task. -/
structure Accounted (s : Setup) (c : Course) (moves : List Move) (now : Course) : Prop where
  stopping : ∀ outcome, now.owner = .stopping outcome → CheckedTo s c moves outcome
  returned : ∀ result, now.owner = .returned result →
    ∃ outcome published how, CheckedTo s c moves outcome ∧ now.task = .ended published how ∧
      result = settle outcome how

theorem Accounted.move {now next : Course} (h : Accounted s c moves now)
    (hnow : c.run s moves = now) (hmoved : Moved s now m next) :
    Accounted s c (moves ++ [m]) next := by
  have hstopping (outcome : Except Fault Cycle.Report) (howner : now.owner = .stopping outcome) :
      CheckedTo s c (moves ++ [m]) outcome := (h.stopping outcome howner).concat m
  have hreturned (result : Except Fault Cycle.Report) (howner : now.owner = .returned result) :
      ∃ outcome published how, CheckedTo s c (moves ++ [m]) outcome ∧
        now.task = .ended published how ∧ result = settle outcome how := by
    obtain ⟨outcome, published, how, hchecked, hrest⟩ := h.returned result howner
    exact ⟨outcome, published, how, hchecked.concat m, hrest⟩
  -- A session that has returned has a task that has ended, which does not go on.
  have hover (hrunning : now.Running)
      (result : Except Fault Cycle.Report) : now.owner ≠ .returned result := fun howner => by
    obtain ⟨-, published, how, -, htask, -⟩ := h.returned result howner
    exact hrunning published how htask
  cases hmoved with
  | stays => exact ⟨hstopping, hreturned⟩
  | asks => exact ⟨fun _ heq => (by cases heq), fun _ heq => (by cases heq)⟩
  | checked nowMs slept howner =>
    refine ⟨fun outcome heq => ?_, fun _ heq => (by cases heq)⟩
    cases heq
    exact ⟨moves, List.prefix_append _ _, hnow ▸ howner⟩
  | @returns outcome published how nowMs slept howner htask =>
    refine ⟨fun _ heq => (by cases heq), fun result heq => ?_⟩
    cases heq
    exact ⟨outcome, published, how, hstopping outcome howner, htask, rfl⟩
  | starts reading nowMs slept called htask =>
    have hrunning : now.Running := by simp [Course.Running, htask]
    exact ⟨fun outcome heq => hstopping outcome (Course.owner_follow _ _ ▸ heq),
      fun result heq => absurd (Course.owner_follow _ _ ▸ heq) (hover hrunning result)⟩
  | turns reading nowMs slept signal htask =>
    have hrunning : now.Running := by simp [Course.Running, htask]
    exact ⟨fun outcome heq => hstopping outcome (Course.owner_follow _ _ ▸ heq),
      fun result heq => absurd (Course.owner_follow _ _ ▸ heq) (hover hrunning result)⟩
  | crashes message hrunning =>
    exact ⟨hstopping, fun result heq => absurd heq (hover hrunning result)⟩
  | outside => exact ⟨hstopping, hreturned⟩

theorem accounted_run {rest : Routine (Except Fault Cycle.Report)}
    (hopening : c.owner = .checking rest) (moves : List Move) :
    Accounted s c moves (c.run s moves) := by
  induction moves using List.reverseRecOn with
  | nil => constructor <;> (intro _ howner; rw [Course.run_nil, hopening] at howner; cases howner)
  | append_singleton moves m ih =>
    rw [Course.run_concat]
    exact ih.move rfl (moved_move s _ m)

/-! ## The way to the end -/

/-- How many moves the task of a tailer that is called off has still before it. -/
def Task.movesLeft : Task → Nat
  | .waiting => 1
  | .going t => if t.phase = .reading then 2 else 1
  | .ended .. => 0

/-- Whether a move is one of the task. -/
def Move.isTask : Move → Bool
  | .task .. => true
  | _ => false

theorem movesLeft_follow (s : Setup) (c : Course) (t : Tailer) (events : List Log.Event) :
    (c.follow s t events).task.movesLeft =
      match t.phase with
      | .reading => 2
      | .sleeping => 1
      | .stopped => 0 := by
  rw [Course.task_follow]
  cases hphase : t.phase <;> simp [Task.movesLeft, hphase]

/-- A move of the task of a tailer that is called off brings it nearer to its end. -/
theorem Held.movesLeft_moveTask (h : Held s id cell tail c) (hover : c.Over)
    (reading : Tailer.Reading) (nowMs : UInt64) (slept : Except Fault Unit) :
    (c.moveTask s reading nowMs slept).task.movesLeft ≤ c.task.movesLeft - 1 := by
  have hcalled (hrunning : c.Running) : c.called s.task = true := by
    rw [called_eq (h.task hrunning)]
    exact h.calledOff hover
  unfold Course.moveTask
  split
  case h_1 htask =>
    rw [hcalled (by simp [Course.Running, htask]), movesLeft_follow, htask]
    exact Nat.le_refl _
  case h_2 t htask =>
    rw [movesLeft_follow, htask, hcalled (by simp [Course.Running, htask])]
    cases hphase : t.phase with
    | reading =>
      have hnext := Tailer.step_answered_phase hphase reading nowMs
      simp only [Task.movesLeft, hphase, if_true]
      split <;> simp_all
    | sleeping => simp [Tailer.step_woken_cancelled hphase]
    | stopped => simp [Tailer.step_of_stopped hphase, hphase]
  case h_3 htask =>
    rw [htask]
    exact Nat.le_refl _

/-- No other move puts the end of the task further off. -/
theorem movesLeft_move (hm : m.isTask = false) :
    (c.move s m).task.movesLeft ≤ c.task.movesLeft := by
  have hmoved := moved_move s c m
  generalize c.move s m = c' at hmoved
  cases hmoved with
  | stays => exact Nat.le_refl _
  | asks => exact Nat.le_refl _
  | checked => exact Nat.le_refl _
  | returns => exact Nat.le_refl _
  | starts => cases hm
  | turns => cases hm
  | crashes => exact Nat.zero_le _
  | outside => exact Nat.le_refl _

theorem over_move (hover : c.Over) (m : Move) : (c.move s m).Over := by
  have hmoved := moved_move s c m
  generalize c.move s m = c' at hmoved
  cases hmoved with
  | stays => exact hover
  | asks _ _ howner => exact absurd howner (hover _)
  | checked _ _ howner => exact absurd howner (hover _)
  | returns => exact fun _ heq => by cases heq
  | starts => simpa [Course.Over] using hover
  | turns => simpa [Course.Over] using hover
  | crashes => exact hover
  | outside => exact hover

theorem over_run (hover : c.Over) (later : List Move) : (c.run s later).Over := by
  induction later generalizing c with
  | nil => exact hover
  | cons m later ih => exact ih (over_move hover m)

theorem Held.movesLeft_run (h : Held s id cell tail c) (hcaller : s.caller < s.own)
    (hover : c.Over) (later : List Move) :
    (c.run s later).task.movesLeft ≤ c.task.movesLeft - later.countP Move.isTask := by
  induction later generalizing c with
  | nil => exact Nat.le_refl _
  | cons m later ih =>
    have hrest := ih (h.move hcaller m) (over_move hover m)
    rw [Course.run_cons, List.countP_cons]
    cases hm : m.isTask with
    | false =>
      have hstep := movesLeft_move (s := s) (c := c) hm
      simp only [Bool.false_eq_true, if_false]
      omega
    | true =>
      cases m with
      | task reading nowMs slept =>
        have hstep : (c.move s (.task reading nowMs slept)).task.movesLeft ≤ c.task.movesLeft - 1 :=
          h.movesLeft_moveTask hover reading nowMs slept
        simp only [if_true]
        omega
      | owner | crash | outside => cases hm

theorem movesLeft_le (task : Task) : task.movesLeft ≤ 2 := by
  unfold Task.movesLeft
  split
  · omega
  · split <;> omega
  · omega

theorem ended_of_movesLeft {task : Task} (h : task.movesLeft = 0) :
    ∃ published how, task = .ended published how := by
  cases task with
  | waiting => cases h
  | going t =>
    simp only [Task.movesLeft] at h
    split at h <;> cases h
  | ended published how => exact ⟨published, how, rfl⟩

/-- Once the check is over, two moves of the task and one of the owner bring the session to its end,
whatever else happens between them. -/
theorem Held.returns (h : Held s id cell tail c) (hcaller : s.caller < s.own)
    (hover : c.Over) {later : List Move}
    (hlater : 2 ≤ later.countP Move.isTask) (nowMs : UInt64) (slept : Except Fault Unit) :
    ∃ result, ((c.run s later).move s (.owner nowMs slept)).owner = .returned result := by
  have hleft := h.movesLeft_run hcaller hover later
  have hmost := movesLeft_le c.task
  have hnone : (c.run s later).task.movesLeft = 0 := by omega
  obtain ⟨published, how, htask⟩ := ended_of_movesLeft hnone
  have hover' := over_run (s := s) hover later
  cases howner : (c.run s later).owner with
  | checking rest => exact absurd howner (hover' rest)
  | stopping outcome =>
    refine ⟨settle outcome how, ?_⟩
    simp only [Course.move, Course.moveOwner, howner, htask]
  | returned result =>
    refine ⟨result, ?_⟩
    simp only [Course.move, Course.moveOwner, howner]

/-! ## All of it -/

/-- When the context of the caller is called off, it was from the beginning, or there is a move of others
by which it was. -/
theorem Held.called_run (h : Held s id cell tail c) (hcaller : s.caller < s.own) (moves : List Move)
    (hcalled : (c.run s moves).called s.caller = true) :
    c.called s.caller = true ∨
      ∃ before n after, moves = before ++ .outside (.cancel n) :: after ∧
        (c.run s before).called s.caller = false ∧
        ((c.run s before).move s (.outside (.cancel n))).called s.caller = true := by
  induction moves using List.reverseRecOn with
  | nil => exact .inl hcalled
  | append_singleton moves m ih =>
    rw [Course.run_concat] at hcalled
    cases hbefore : (c.run s moves).called s.caller with
    | true =>
      refine (ih hbefore).imp_right ?_
      rintro ⟨before, n, after, rfl, hmove⟩
      exact ⟨before, n, after ++ [m], by simp, hmove⟩
    | false =>
      obtain ⟨n, rfl⟩ := (h.run hcaller moves).called_move hcaller hbefore hcalled
      exact .inr ⟨moves, n, [], rfl, hbefore, hcalled⟩

/-- What is certain of a session after any moves. -/
structure Supervised (s : Setup) (id : CorrelationId) (opening : Course) (moves : List Move) :
    Prop where
  /-- A session that has returned has a task that has ended; it returned what its check had come to,
  unless the check passed and the task failed. -/
  ended : ∀ result, (opening.run s moves).owner = .returned result →
    ∃ outcome published how, CheckedTo s opening moves outcome ∧
      (opening.run s moves).task = .ended published how ∧ result = settle outcome how ∧
      (how = .ok () → result = outcome)
  /-- From then on nothing is read and nothing is logged. -/
  still : ∀ result, (opening.run s moves).owner = .returned result →
    ∀ later, Still (opening.run s moves) ((opening.run s moves).run s later)
  /-- The events of the tailer are in order. -/
  tailer : TailerLog (tailerOptions s.admitted) (opening.run s moves).task
    ((opening.run s moves).events.filter ofTailer)
  /-- If the context of the caller is called off, others did that, before the session or by a move. -/
  called : (opening.run s moves).called s.caller = true →
    opening.called s.caller = true ∨
      ∃ before n after, moves = before ++ .outside (.cancel n) :: after ∧
        (opening.run s before).called s.caller = false ∧
        ((opening.run s before).move s (.outside (.cancel n))).called s.caller = true
  /-- Where the runtime has a logger, of whatever family, every event makes one entry there, in their
  order, and all of them have the id of the run and the path of the sink. -/
  marked : ∀ chains i writtenMs, s.runtime = some i → i < chains.length → chains.length = s.loggers →
    Marked s.admitted id (opening.run s moves).events
      (Log.entries chains ((opening.run s moves).loggerCalls s writtenMs))
  /-- A journal gets the lines for entries that have both. -/
  written : ∀ (j : Log.Journal) i writtenMs,
    s.runtime = some i → i < j.loggers.length → j.loggers.length = s.loggers →
    ∃ xs, Marked s.admitted id (opening.run s moves).events xs ∧
      (j.run ((opening.run s moves).loggerCalls s writtenMs)).2.lines =
        j.lines ++ Log.Journal.linesFor j.minLevel xs
  /-- Where it has none, nothing is done with any. -/
  unlogged : s.runtime = none → ∀ writtenMs, (opening.run s moves).loggerCalls s writtenMs = []
  /-- Once the check is over, two moves of the task and one of the owner make the session return. -/
  returns : (opening.run s moves).Over →
    ∀ later, 2 ≤ later.countP Move.isTask → ∀ nowMs slept,
      ∃ result, (((opening.run s moves).run s later).move s (.owner nowMs slept)).owner =
        .returned result

theorem settle_of_ended_well (outcome : Except Fault Cycle.Report) :
    settle outcome (.ok ()) = outcome := by
  cases outcome <;> rfl

theorem supervised (a : Admitted) {caller : Nat} (loggers : Nat) (runtime : Option Nat)
    (hcaller : (ofHistory past).handle? caller = some ⟨cell, some id⟩) (moves : List Move) :
    let s := Setup.after past a caller loggers runtime
    Supervised s id (Course.opening s past) moves := by
  intro s
  have hbefore : s.caller < s.own := Cancellation.handle?_lt hcaller
  have hopening := held_opening a loggers runtime hcaller
  have hheld := hopening.run hbefore moves
  have horderly := (orderly_opening s past).run moves
  have haccounted : Accounted s (Course.opening s past) moves ((Course.opening s past).run s moves) :=
    accounted_run rfl moves
  have hid : s.id = some id := by
    simp only [s, Setup.after, hcaller, Option.bind_some]
  have hunmarked {timed : List (UInt64 × Log.Event)}
      (hevents : timed.map Prod.snd = ((Course.opening s past).run s moves).events) :
      ∀ x ∈ timed, Unmarked x.2 := fun x hx =>
    horderly.unmarked x.2 (hevents ▸ List.mem_map_of_mem hx)
  constructor
  case ended =>
    intro result howner
    obtain ⟨outcome, published, how, hchecked, htask, rfl⟩ := haccounted.returned result howner
    refine ⟨outcome, published, how, hchecked, htask, rfl, ?_⟩
    rintro rfl
    exact settle_of_ended_well outcome
  case still =>
    intro result howner later
    obtain ⟨-, published, how, -, htask, -⟩ := haccounted.returned result howner
    exact still_run howner htask later
  case tailer => exact horderly.tailer
  case called => exact hopening.called_run hbefore moves
  case marked =>
    intro chains i writtenMs hruntime hi hmade
    obtain ⟨timed, hevents, hcalls⟩ := horderly.loggerCalls hid writtenMs
    rw [hcalls, ← hevents, hruntime]
    exact marked_loggerCalls (hunmarked hevents) hi hmade
  case written =>
    intro j i writtenMs hruntime hi hmade
    obtain ⟨timed, hevents, hcalls⟩ := horderly.loggerCalls hid writtenMs
    rw [hcalls, ← hevents, hruntime, ← hmade]
    exact lines_loggerCalls j (hunmarked hevents) hi
  case unlogged =>
    intro hruntime writtenMs
    obtain ⟨timed, -, hcalls⟩ := horderly.loggerCalls hid writtenMs
    rw [hcalls, hruntime, loggerCalls_none]
  case returns =>
    intro hover later hlater nowMs slept
    exact hheld.returns hbefore hover hlater nowMs slept

end CycleWatch.Session
