import CycleWatch.Fault.Io
import CycleWatch.Proofs.Tailer.Publication

/-!
# Which readings a tailer survives

While nobody calls it off and its sleeps end well, a tailer goes round: it asks for a reading, takes in
the answer, sleeps for its interval and asks again. A reading that fails is reported and changes nothing,
unless it fails with a cancellation: that one ends the tailer, and without a report
(`reads_on_until_cancelled`). A failure of input or output is a cancellation when it is an interruption
(`toFault_isCancelled_iff`).
-/

namespace CycleWatch

namespace Tailer

/-- What a tailer asks its surroundings for. -/
inductive Request where
  | read (path : String)
  | sleep (duration : Duration)
deriving DecidableEq, Repr

/-- What the tailer asks for at the moment; nothing, once it has ended. -/
def request? (t : Tailer) : Option Request :=
  match t.phase with
  | .reading => some (.read t.options.path)
  | .sleeping => some (.sleep t.options.pollInterval)
  | .stopped => none

/-- What a reading came to, and the time at which it was answered. -/
abbrev Answer := Reading × UInt64

/-- An answer, and then a sleep that ends well while the tailer is not called off. -/
def round (a : Answer) : List Signal :=
  [.answered a.1 a.2, .woken (.ok ()) false]

/-- Several rounds, one after the other. -/
def rounds (answers : List Answer) : List Signal :=
  answers.flatMap round

/-- Whether a reading fails with a cancellation. -/
def cancels : Reading → Bool
  | .ok _ => false
  | .error fault => fault.isCancelled

variable {t : Tailer} {reading : Reading} {answers : List Answer} {fault : Fault}
  {nowMs : UInt64}

/-! ## The end of a tailer -/

theorem stop_phase (t : Tailer) : t.stop.1.phase = .stopped := rfl

theorem step_of_stopped (hphase : t.phase = .stopped) (signal : Signal) : t.step signal = (t, []) := by
  cases signal <;> simp [step, hphase]

theorem run_of_stopped (hphase : t.phase = .stopped) (signals : List Signal) :
    t.run signals = (t, []) := by
  induction signals with
  | nil => rfl
  | cons signal rest ih => simp [run, step_of_stopped hphase, ih]

theorem step_woken_cancelled (hphase : t.phase = .sleeping) (slept : Except Fault Unit) :
    (t.step (.woken slept true)).1.phase = .stopped := by
  cases slept <;> simp [step, hphase, turn, stop]

/-! ## A single round -/

/-- The answer to a reading ends the tailer or lets it sleep, whatever it brings. -/
theorem step_answered_phase (hphase : t.phase = .reading) (reading : Reading) (nowMs : UInt64) :
    (t.step (.answered reading nowMs)).1.phase ≠ .reading := by
  match reading with
  | .ok none => simp [step, hphase, absorb]
  | .ok (some contents) =>
      simp only [step, hphase, absorb]
      cases lastLine contents <;> simp
  | .error fault =>
      simp only [step, hphase, absorb]
      split <;> simp [stop]

@[simp] theorem publish_options (t : Tailer) (line : String) (nowMs : UInt64) :
    (t.publish line nowMs).1.options = t.options := by
  unfold publish
  split <;> rfl

theorem step_answered_survived (hphase : t.phase = .reading) (h : cancels reading = false)
    (nowMs : UInt64) :
    (t.step (.answered reading nowMs)).1.phase = .sleeping ∧
      (t.step (.answered reading nowMs)).1.options = t.options := by
  match reading with
  | .ok none => simp [step, hphase, absorb]
  | .ok (some contents) =>
      simp only [step, hphase, absorb]
      cases lastLine contents <;> simp
  | .error fault =>
      have hfault : fault.isCancelled = false := h
      simp [step, hphase, absorb, hfault]

theorem step_answered_failed (hphase : t.phase = .reading) (hfault : fault.isCancelled = false) :
    t.step (.answered (.error fault) nowMs) =
      ({ t with phase := .sleeping }, [readFailedEvent t.options fault]) := by
  simp [step, hphase, absorb, hfault]

theorem step_answered_cancelled (hphase : t.phase = .reading) (hfault : fault.isCancelled = true) :
    t.step (.answered (.error fault) nowMs) = t.stop := by
  simp [step, hphase, absorb, hfault]

theorem run_answered_cancelled (hphase : t.phase = .reading) (hfault : fault.isCancelled = true)
    (rest : List Signal) : t.run (.answered (.error fault) nowMs :: rest) = t.stop := by
  rw [run, step_answered_cancelled hphase hfault]
  simp only [run_of_stopped (stop_phase t), List.append_nil]

theorem step_woken_well (hphase : t.phase = .sleeping) :
    t.step (.woken (.ok ()) false) = ({ t with phase := .reading }, []) := by
  simp [step, hphase, turn]

theorem round_survived (hphase : t.phase = .reading) {a : Answer} (h : cancels a.1 = false) :
    (t.run (round a)).1.phase = .reading ∧ (t.run (round a)).1.options = t.options := by
  obtain ⟨hsleeping, hoptions⟩ := step_answered_survived hphase h a.2
  rw [round, run_cons, run_cons, run_nil, step_woken_well hsleeping]
  exact ⟨rfl, hoptions⟩

theorem round_failed (hphase : t.phase = .reading) (hfault : fault.isCancelled = false) :
    t.run (round (.error fault, nowMs)) = (t, [readFailedEvent t.options fault]) := by
  cases t with
  | mk options published phase =>
      cases hphase
      simp [round, run, step_answered_failed, hfault, step_woken_well]

/-! ## Several rounds -/

theorem run_append_eq (t : Tailer) (first second : List Signal) :
    t.run (first ++ second) =
      (((t.run first).1.run second).1, (t.run first).2 ++ ((t.run first).1.run second).2) := by
  induction first generalizing t with
  | nil => rfl
  | cons signal rest ih => simp [run, ih]

@[simp] theorem rounds_nil : rounds [] = [] := rfl

@[simp] theorem rounds_cons (a : Answer) (rest : List Answer) :
    rounds (a :: rest) = round a ++ rounds rest := rfl

@[simp] theorem rounds_append (first second : List Answer) :
    rounds (first ++ second) = rounds first ++ rounds second :=
  List.flatMap_append

theorem rounds_survived (hphase : t.phase = .reading) (h : ∀ a ∈ answers, cancels a.1 = false) :
    (t.run (rounds answers)).1.phase = .reading ∧
      (t.run (rounds answers)).1.options = t.options := by
  induction answers generalizing t with
  | nil => exact ⟨hphase, rfl⟩
  | cons a rest ih =>
      obtain ⟨hreading, hoptions⟩ := round_survived hphase (h a List.mem_cons_self)
      rw [rounds_cons, run_append, ← hoptions]
      exact ih hreading fun b hb => h b (List.mem_cons_of_mem _ hb)

theorem rounds_cancelled {before : List Answer} (hphase : t.phase = .reading)
    (h : ∀ a ∈ before, cancels a.1 = false) (hfault : fault.isCancelled = true)
    (after : List Answer) :
    t.run (rounds (before ++ (.error fault, nowMs) :: after)) =
      ((t.run (rounds before)).1.stop.1,
        (t.run (rounds before)).2 ++ [(t.run (rounds before)).1.stoppedEvent]) := by
  have hreading := (rounds_survived hphase h).1
  -- The sleep of that round and the rounds after it find the tailer ended and pass it over.
  rw [rounds_append, run_append_eq, rounds_cons, round, List.cons_append,
    run_answered_cancelled hreading hfault]
  rfl

theorem exists_first_cancellation (h : answers.any (cancels ·.1) = true) :
    ∃ before fault nowMs after, answers = before ++ (.error fault, nowMs) :: after ∧
      (∀ a ∈ before, cancels a.1 = false) ∧ fault.isCancelled = true := by
  obtain ⟨⟨reading, nowMs⟩, hfirst⟩ :=
    Option.isSome_iff_exists.mp (List.find?_isSome.mpr (List.any_eq_true.mp h))
  obtain ⟨hcancels, before, after, rfl, hbefore⟩ := List.find?_eq_some_iff_append.mp hfirst
  cases reading with
  | ok contents => cases hcancels
  | error fault => exact ⟨before, fault, nowMs, after, rfl, by simpa using hbefore, hcancels⟩

/-! ## Failures of input and output -/

theorem code_eq_cancelled_iff (kind : IoKind) : kind.code = .cancelled ↔ kind = .interrupted := by
  cases kind <;> decide

/-- Of all failures of input and output only an interruption counts as a cancellation. -/
theorem toFault_isCancelled_iff (e : IoFailure) :
    e.toFault.isCancelled = true ↔ e.kind = .interrupted := by
  rw [← code_eq_cancelled_iff, IoFailure.toFault, Fault.isCancelled_withContext]
  exact decide_eq_true_iff

/-! ## Every run -/

/-- A tailer that nobody calls off and whose sleeps end well goes on asking for readings until one of
them fails with a cancellation. That one ends it, and the event of the end is the last one. A reading
that fails otherwise leaves the tailer as it was and adds one event, its report; the tailer sleeps for
its interval and then asks again. Among the failures of input and output it is the interruptions that
count as cancellations. -/
theorem reads_on_until_cancelled (o : Options) (answers : List Answer) :
    let t := (start o false).1
    (t.run (rounds answers)).1.request? =
        (if answers.any (cancels ·.1) then none else some (.read o.path)) ∧
    (∀ before fault nowMs after, answers = before ++ (.error fault, nowMs) :: after →
      before.any (cancels ·.1) = false →
      let m := t.run (rounds before)
      m.1.request? = some (.read o.path) ∧
      (fault.isCancelled = true →
        t.run (rounds answers) = (m.1.stop.1, m.2 ++ [m.1.stoppedEvent])) ∧
      (fault.isCancelled = false →
        (m.1.step (.answered (.error fault) nowMs)).1.request? = some (.sleep o.pollInterval) ∧
          t.run (rounds (before ++ [(.error fault, nowMs)])) =
            (m.1, m.2 ++ [readFailedEvent o fault]))) ∧
    ∀ (e : IoFailure) (path : String),
      cancels (.error (e.toFault.withContext "path" path)) = true ↔ e.kind = .interrupted := by
  intro t
  have hstart : t.phase = .reading := rfl
  have hoptions : t.options = o := rfl
  refine ⟨?_, ?_, fun e path => toFault_isCancelled_iff e⟩
  · cases hany : answers.any (cancels ·.1) with
    | false =>
        have hall : ∀ a ∈ answers, cancels a.1 = false := by simpa using hany
        obtain ⟨hphase, hsame⟩ := rounds_survived hstart hall
        simp [request?, hphase, hsame, hoptions]
    | true =>
        obtain ⟨before, fault, nowMs, after, rfl, hbefore, hfault⟩ := exists_first_cancellation hany
        rw [rounds_cancelled hstart hbefore hfault]
        rfl
  · rintro before fault nowMs after rfl hany m
    have hbefore : ∀ a ∈ before, cancels a.1 = false := by simpa using hany
    obtain ⟨hphase, hsame⟩ := rounds_survived hstart hbefore
    refine ⟨?_, fun hfault => rounds_cancelled hstart hbefore hfault after, fun hfault => ⟨?_, ?_⟩⟩
    · simp [m, request?, hphase, hsame, hoptions]
    · rw [step_answered_failed hphase hfault]
      simp [request?, hsame, hoptions]
    · rw [rounds_append, run_append_eq, rounds_cons, rounds_nil, List.append_nil,
        round_failed hphase hfault, hsame, hoptions]

/-- A failure of the disk is survived, and a line is published after it; the interruption that follows
ends the tailer before it could read the next line. -/
theorem reads_on_until_interrupted :
    let o : Options := ⟨"sink", .ofMillis 10⟩
    let broken := (IoFailure.ofNumber 5).toFault.withContext "path" o.path
    let interrupted := (IoFailure.ofNumber 4).toFault.withContext "path" o.path
    let before : List Answer := [(.error broken, 3), (.ok (some "a\n"), 8)]
    let answers : List Answer := before ++ [(.error interrupted, 12), (.ok (some "a\nb\n"), 15)]
    let ended : Tailer := ⟨o, ⟨⟨1⟩, some "a", 8⟩, .stopped⟩
    before.any (cancels ·.1) = false ∧ interrupted.isCancelled = true ∧
      (start o false).1.run (rounds answers) =
        (ended, [readFailedEvent o broken, publishedEvent ⟨1⟩ "a", ended.stoppedEvent]) := by
  intro o broken interrupted before answers ended
  have hbefore : before.any (cancels ·.1) = false := by decide +kernel
  have hfault : interrupted.isCancelled = true := by decide +kernel
  have hrun : (start o false).1.run (rounds before) =
      ({ ended with phase := .reading }, [readFailedEvent o broken, publishedEvent ⟨1⟩ "a"]) := by
    rfl
  have hend := ((reads_on_until_cancelled o answers).2.1 before interrupted 12
    [(.ok (some "a\nb\n"), 15)] rfl hbefore).2.1 hfault
  rw [hrun] at hend
  exact ⟨hbefore, hfault, hend⟩

/-- An interrupted reading ends a tailer that nobody has called off, and nothing reports it. -/
theorem ends_at_interrupted_reading :
    let t := (start ⟨"sink", .ofMillis 10⟩ false).1
    let interrupted := (IoFailure.ofNumber 4).toFault.withContext "path" "sink"
    let ended := t.run (rounds [(.error interrupted, 3)])
    ended.1.request? = none ∧ ended.2 = [t.stoppedEvent] :=
  ⟨rfl, rfl⟩

end Tailer

end CycleWatch
