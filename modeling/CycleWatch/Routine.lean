import CycleWatch.Duration
import CycleWatch.Fault
import CycleWatch.Log.Event
import CycleWatch.Snapshot
/-!
# Routines

A routine is a finite conversation of a task with its surroundings: it asks for the time, for the
snapshot published last, or whether it is called off, it sleeps, and it logs events, until it comes to
a result. What the answers are is up to the `Surroundings` in which it runs, so a statement about all
surroundings is one about every way in which the rest of the world may act between two requests.
-/
namespace CycleWatch

/-- A conversation that ends in a result. -/
inductive Routine (α : Type) where
  /-- The result is there. -/
  | done (result : α)
  /-- Asks for the time in milliseconds. -/
  | readClock (next : UInt64 → Routine α)
  /-- Asks whether the task is called off. -/
  | askCancelled (next : Bool → Routine α)
  /-- Asks for the snapshot published last. -/
  | takeSnapshot (next : Snapshot → Routine α)
  /-- Sleeps for that long; the sleep may fail. -/
  | sleep (duration : Duration) (next : Except Fault Unit → Routine α)
  /-- Logs an event. -/
  | emit (event : Log.Event) (next : Routine α)

/-- What answers the requests of a routine, keeping a state of its own. -/
structure Surroundings (σ : Type) where
  /-- The time in milliseconds. -/
  clock : σ → UInt64 × σ
  /-- Whether the task is called off. -/
  cancelled : σ → Bool × σ
  /-- The snapshot published last. -/
  snapshot : σ → Snapshot × σ
  /-- A sleep, and how it ends. -/
  sleep : Duration → σ → Except Fault Unit × σ
  /-- Takes note of an event. -/
  emit : Log.Event → σ → σ

namespace Routine

variable {α β σ : Type}

/-- Goes on with `f` from the result of a routine. -/
def bind (r : Routine α) (f : α → Routine β) : Routine β :=
  match r with
  | .done a => f a
  | .readClock next => .readClock fun t => (next t).bind f
  | .askCancelled next => .askCancelled fun b => (next b).bind f
  | .takeSnapshot next => .takeSnapshot fun s => (next s).bind f
  | .sleep duration next => .sleep duration fun e => (next e).bind f
  | .emit event next => .emit event (next.bind f)

/-- Runs a routine to its result. -/
def run (w : Surroundings σ) : Routine α → σ → α × σ
  | .done a, s => (a, s)
  | .readClock next, s =>
    let (t, s) := w.clock s
    run w (next t) s
  | .askCancelled next, s =>
    let (b, s) := w.cancelled s
    run w (next b) s
  | .takeSnapshot next, s =>
    let (snapshot, s) := w.snapshot s
    run w (next snapshot) s
  | .sleep duration next, s =>
    let (e, s) := w.sleep duration s
    run w (next e) s
  | .emit event next, s => run w next (w.emit event s)

theorem run_bind (w : Surroundings σ) (r : Routine α) (f : α → Routine β) (s : σ) :
    (r.bind f).run w s = (f (r.run w s).1).run w (r.run w s).2 := by
  induction r generalizing s with
  | done => rfl
  | readClock next ih => exact ih _ _
  | askCancelled next ih => exact ih _ _
  | takeSnapshot next ih => exact ih _ _
  | sleep duration next ih => exact ih _ _
  | emit event next ih => exact ih _

/-- A run of a routine that goes on with `f` is a run of the routine and then one of `f`. -/
theorem run_bind_eq_iff {w : Surroundings σ} {r : Routine α} {f : α → Routine β} {s s' : σ} {b : β} :
    (r.bind f).run w s = (b, s') ↔ ∃ a m, r.run w s = (a, m) ∧ (f a).run w m = (b, s') := by
  rw [run_bind]
  constructor
  · intro h
    exact ⟨_, _, rfl, h⟩
  · rintro ⟨a, m, hr, hf⟩
    rw [hr]
    exact hf

end Routine

end CycleWatch
