import CycleWatch.Proofs.Cancellation.Holders
import CycleWatch.Proofs.Session.Events
import CycleWatch.Proofs.Tailer.Survival
/-!
# The course of a session

Two parties act in a session: its owner, who checks, then calls the tailer off and waits for its end, and
the task of the tailer. Beside them others may do what they like with the context of the caller and all
that was made before. A course is a sequence of moves of all of these, in any order, and what the owner's
requests, the readings and the sleeps come to is part of the moves: so a statement about all courses is
one about every sink, every clock and every interleaving. Each event is kept with the logger that it went
through, from which follows what was done with the loggers of the runtime (`Course.loggerCalls`). All
that a move can do is listed once (`Moved`, `moved_move`).
-/
namespace CycleWatch.Session

open Cancellation (Operation ofHistory)
open Config (Admitted)

/-- What a session works with. -/
structure Setup where
  /-- The configuration. -/
  admitted : Admitted
  /-- The handle through which the caller has its context. -/
  caller : Nat
  /-- The handle through which the owner has the context of the tailer. -/
  own : Nat
  /-- The id of the run, that of the context of the caller. -/
  id : Option CorrelationId
  /-- How many loggers there are in the family of that of the runtime. -/
  loggers : Nat
  /-- The logger of the runtime, if it has one. -/
  runtime : Option Nat

/-- An event and the logger that it went through, if there was one. -/
structure Logged where
  /-- The number of the logger. -/
  logger : Option Nat
  /-- What was logged. -/
  event : Log.Event

namespace Setup

/-- The handle through which the task has the context of the tailer. -/
def task (s : Setup) : Nat :=
  s.own + 1

/-- What others can do: neither handle of the tailer's context is theirs, and that of the caller is lent
to the session. -/
def admits (s : Setup) : Operation → Bool
  | .new _ => true
  | .derive h | .copy h | .bare h | .wait h | .cancel h => h ≠ s.own && h ≠ s.task
  | .drop h => h ≠ s.own && h ≠ s.task && h ≠ s.caller

/-- The setup of a session that a caller begins after these operations. -/
def after (past : List Operation) (a : Admitted) (caller loggers : Nat) (runtime : Option Nat) :
    Setup :=
  ⟨a, caller, (ofHistory past).handles.length, ((ofHistory past).handle? caller).bind (·.id), loggers,
    runtime⟩

/-- The logger that the tailer and the check get, if any. -/
def logger (s : Setup) : Option Nat :=
  runLogger s.loggers s.runtime

/-- The event, logged through that logger. -/
def through (s : Setup) (e : Log.Event) : Logged :=
  ⟨s.logger, e⟩

end Setup

/-- What the owner is about. -/
inductive Owner where
  /-- It checks, and this much of the check is left. -/
  | checking (rest : Routine (Except Fault Cycle.Report))
  /-- The check came to this, and the tailer is called off. -/
  | stopping (outcome : Except Fault Cycle.Report)
  /-- The session has returned. -/
  | returned (result : Except Fault Cycle.Report)

/-- How far the task of the tailer is. -/
inductive Task where
  /-- It has not begun. -/
  | waiting
  /-- It goes on. -/
  | going (t : Tailer)
  /-- It has ended, by itself or by a failure of the task. -/
  | ended (published : Snapshot) (how : Except Fault Unit)

/-- The snapshot published last. -/
def Task.published : Task → Snapshot
  | .waiting => .empty
  | .going t => t.published
  | .ended published _ => published

/-- The fault of a task that failed. -/
def crashFault (message : String) : Fault :=
  .unexpected .internal ("tailer task failed: " ++ message) .nonRetriable

/-- The result of a session: that of the check, but the fault of the task if the check passed and the
task failed. -/
def settle (outcome : Except Fault Cycle.Report) (how : Except Fault Unit) :
    Except Fault Cycle.Report := do
  let report ← outcome
  how
  return report

/-- A session at some moment. -/
structure Course where
  /-- What was done with contexts so far. -/
  history : List Operation
  /-- What the owner is about. -/
  owner : Owner
  /-- How far the task is. -/
  task : Task
  /-- How many readings of the sink have been asked for. -/
  reads : Nat
  /-- What was logged so far. -/
  log : List Logged

/-- Something that happens in a session. -/
inductive Move where
  /-- The owner goes on; what it asked for comes to this. -/
  | owner (nowMs : UInt64) (slept : Except Fault Unit)
  /-- The task goes on; what it asked for comes to this. -/
  | task (reading : Tailer.Reading) (nowMs : UInt64) (slept : Except Fault Unit)
  /-- The task fails. -/
  | crash (message : String)
  /-- Others do something with a context. -/
  | outside (op : Operation)

namespace Course

/-- Whether the context of a handle is called off. -/
def called (c : Course) (h : Nat) : Bool :=
  ((ofHistory c.history).state? h).getD false

/-- The task has not ended. -/
def Running (c : Course) : Prop :=
  ∀ published how, c.task ≠ .ended published how

/-- The check has come to its end. -/
def Over (c : Course) : Prop :=
  ∀ rest, c.owner ≠ .checking rest

/-- The session has not returned. -/
def Underway (c : Course) : Prop :=
  ∀ result, c.owner ≠ .returned result

/-- A session begins: the tailer gets a context of its own, derived from that of the caller, and a task
with a handle of it. -/
def opening (s : Setup) (past : List Operation) : Course :=
  ⟨past ++ [.derive s.caller, .copy s.own], .checking (Cycle.check s.admitted.checkSettings), .waiting,
    0, []⟩

/-- The events logged so far. -/
def events (c : Course) : List Log.Event :=
  c.log.map Logged.event

/-- What was done with the loggers so far. The run made its own first, and the event of the number `n` was
written at the time `writtenMs n`. -/
def loggerCalls (s : Setup) (c : Course) (writtenMs : Nat → UInt64) : List Log.Journal.Call :=
  (s.id.toList.flatMap fun id => makeLogger s.admitted id s.runtime) ++
    c.log.zipIdx.flatMap fun (x, n) => logThrough x.logger (writtenMs n) x.event

/-- The task goes on as this tailer, and drops its handle when that has stopped. -/
def follow (s : Setup) (c : Course) (t : Tailer) (events : List Log.Event) : Course :=
  let c := { c with log := c.log ++ events.map s.through }
  match t.phase with
  | .reading => { c with task := .going t, reads := c.reads + 1 }
  | .sleeping => { c with task := .going t }
  | .stopped =>
    { c with task := .ended t.published (.ok ()), history := c.history ++ [.drop s.task] }

/-- A move of the task. -/
def moveTask (s : Setup) (c : Course) (reading : Tailer.Reading) (nowMs : UInt64)
    (slept : Except Fault Unit) : Course :=
  match c.task with
  | .waiting =>
    let (t, events) := Tailer.start (tailerOptions s.admitted) (c.called s.task)
    c.follow s t events
  | .going t =>
    let signal := match t.phase with
      | .reading => .answered reading nowMs
      | _ => .woken slept (c.called s.task)
    let (t, events) := t.step signal
    c.follow s t events
  | .ended .. => c

/-- A move of the owner: the answer to its next request, or what comes after the check. -/
def moveOwner (s : Setup) (c : Course) (nowMs : UInt64) (slept : Except Fault Unit) : Course :=
  match c.owner with
  | .checking (.readClock next) => { c with owner := .checking (next nowMs) }
  | .checking (.askCancelled next) => { c with owner := .checking (next (c.called s.caller)) }
  | .checking (.takeSnapshot next) => { c with owner := .checking (next c.task.published) }
  | .checking (.sleep _ next) => { c with owner := .checking (next slept) }
  | .checking (.emit event next) => { c with owner := .checking next, log := c.log ++ [s.through event] }
  | .checking (.done outcome) =>
    { c with owner := .stopping outcome, history := c.history ++ [.cancel s.own] }
  | .stopping outcome =>
    match c.task with
    | .ended _ how =>
      { c with
        owner := .returned (settle outcome how)
        history := c.history ++ [.cancel s.own, .drop s.own] }
    | _ => c
  | .returned _ => c

/-- The task fails, if it has not ended. -/
def crash (s : Setup) (c : Course) (message : String) : Course :=
  match c.task with
  | .ended .. => c
  | task =>
    { c with
      task := .ended task.published (.error (crashFault message))
      history := c.history ++ [.drop s.task] }

/-- The session after a move. -/
def move (s : Setup) (c : Course) : Move → Course
  | .owner nowMs slept => c.moveOwner s nowMs slept
  | .task reading nowMs slept => c.moveTask s reading nowMs slept
  | .crash message => c.crash s message
  | .outside op => if s.admits op then { c with history := c.history ++ [op] } else c

/-- The session after several moves. -/
def run (s : Setup) (c : Course) (moves : List Move) : Course :=
  moves.foldl (move s) c

variable {s : Setup} {c : Course} {m : Move} {moves later : List Move}

@[simp] theorem run_nil : c.run s [] = c := rfl

@[simp] theorem run_cons : c.run s (m :: moves) = (c.move s m).run s moves := rfl

theorem run_append : c.run s (moves ++ later) = (c.run s moves).run s later :=
  List.foldl_append

theorem run_concat : c.run s (moves ++ [m]) = (c.run s moves).move s m :=
  List.foldl_concat ..

@[simp] theorem log_follow (t : Tailer) (events : List Log.Event) :
    (c.follow s t events).log = c.log ++ events.map s.through := by
  unfold follow
  split <;> rfl

/-- More is logged through the logger of the run. -/
theorem events_append_through {c' : Course} {more : List Log.Event}
    (h : c'.log = c.log ++ more.map s.through) : c'.events = c.events ++ more := by
  simp [events, h, Setup.through, Function.comp_def]

theorem task_follow (t : Tailer) (events : List Log.Event) :
    (c.follow s t events).task =
      match t.phase with
      | .stopped => .ended t.published (.ok ())
      | _ => .going t := by
  unfold follow
  split <;> simp_all

@[simp] theorem owner_follow (t : Tailer) (events : List Log.Event) :
    (c.follow s t events).owner = c.owner := by
  unfold follow
  split <;> rfl

end Course

/-! ## All that a move can do -/

/-- What is left of the routine after one answer, and the events it logged for it: all of them are of a
kind if those of the routine are. -/
def Continues {α : Type} (r r' : Routine α) (events : List Log.Event) : Prop :=
  ∀ kind, r.Emits kind → r'.Emits kind ∧ ∀ e ∈ events, kind e

/-- What a move makes of a session. -/
inductive Moved (s : Setup) (c : Course) : Move → Course → Prop
  | stays (m : Move) : Moved s c m c
  | asks {rest rest' : Routine (Except Fault Cycle.Report)} {events : List Log.Event}
    (nowMs : UInt64) (slept : Except Fault Unit) :
    c.owner = .checking rest → Continues rest rest' events →
      Moved s c (.owner nowMs slept)
        { c with owner := .checking rest', log := c.log ++ events.map s.through }
  | checked {outcome : Except Fault Cycle.Report} (nowMs : UInt64) (slept : Except Fault Unit) :
    c.owner = .checking (.done outcome) →
      Moved s c (.owner nowMs slept)
        { c with owner := .stopping outcome, history := c.history ++ [.cancel s.own] }
  | returns {outcome : Except Fault Cycle.Report} {published : Snapshot} {how : Except Fault Unit}
    (nowMs : UInt64) (slept : Except Fault Unit) :
    c.owner = .stopping outcome → c.task = .ended published how →
      Moved s c (.owner nowMs slept)
        { c with
          owner := .returned (settle outcome how)
          history := c.history ++ [.cancel s.own, .drop s.own] }
  | starts (reading : Tailer.Reading) (nowMs : UInt64) (slept : Except Fault Unit) (called : Bool) :
    c.task = .waiting →
      Moved s c (.task reading nowMs slept)
        (c.follow s (Tailer.start (tailerOptions s.admitted) called).1
          (Tailer.start (tailerOptions s.admitted) called).2)
  | turns {t : Tailer} (reading : Tailer.Reading) (nowMs : UInt64) (slept : Except Fault Unit)
    (signal : Tailer.Signal) :
    c.task = .going t →
      Moved s c (.task reading nowMs slept) (c.follow s (t.step signal).1 (t.step signal).2)
  | crashes (message : String) :
    c.Running →
      Moved s c (.crash message)
        { c with
          task := .ended c.task.published (.error (crashFault message))
          history := c.history ++ [.drop s.task] }
  | outside {op : Operation} :
    s.admits op = true → Moved s c (.outside op) { c with history := c.history ++ [op] }

variable {s : Setup} {c : Course}

theorem moved_moveOwner (nowMs : UInt64) (slept : Except Fault Unit) :
    Moved s c (.owner nowMs slept) (c.moveOwner s nowMs slept) := by
  have hsilent {rest rest' : Routine (Except Fault Cycle.Report)} (howner : c.owner = .checking rest)
      (h : ∀ kind, rest.Emits kind → rest'.Emits kind) :
      Moved s c (.owner nowMs slept) { c with owner := .checking rest' } := by
    have hcontinues : Continues rest rest' [] := fun kind hr => ⟨h kind hr, by simp⟩
    have hmoved := Moved.asks (s := s) nowMs slept howner hcontinues
    rwa [List.map_nil, List.append_nil] at hmoved
  unfold Course.moveOwner
  split
  case h_1 next howner => exact hsilent howner fun kind h => h _
  case h_2 next howner => exact hsilent howner fun kind h => h _
  case h_3 next howner => exact hsilent howner fun kind h => h _
  case h_4 next howner => exact hsilent howner fun kind h => h _
  case h_5 event next howner =>
    have hcontinues : Continues (.emit event next) next [event] := fun kind h => ⟨h.2, by simpa using h.1⟩
    exact .asks nowMs slept howner hcontinues
  case h_6 outcome howner => exact .checked nowMs slept howner
  case h_7 outcome howner =>
    split
    case h_1 published how htask => exact .returns nowMs slept howner htask
    case h_2 => exact .stays _
  case h_8 => exact .stays _

theorem moved_moveTask (reading : Tailer.Reading) (nowMs : UInt64) (slept : Except Fault Unit) :
    Moved s c (.task reading nowMs slept) (c.moveTask s reading nowMs slept) := by
  unfold Course.moveTask
  split
  case h_1 htask => exact .starts reading nowMs slept _ htask
  case h_2 t htask => exact .turns reading nowMs slept _ htask
  case h_3 => exact .stays _

theorem moved_crash (message : String) : Moved s c (.crash message) (c.crash s message) := by
  unfold Course.crash
  split
  case h_1 => exact .stays _
  case h_2 hended => exact .crashes message hended

theorem moved_move (s : Setup) (c : Course) (m : Move) : Moved s c m (c.move s m) := by
  cases m with
  | owner nowMs slept => exact moved_moveOwner nowMs slept
  | task reading nowMs slept => exact moved_moveTask reading nowMs slept
  | crash message => exact moved_crash message
  | outside op =>
    rw [Course.move]
    split
    case isTrue hadmits => exact .outside hadmits
    case isFalse => exact .stays _

end CycleWatch.Session
