import CycleWatch.Clock
import CycleWatch.Cycle.Check
import CycleWatch.Rehearsal.Sink
/-!
# A rehearsal of the whole check in simulated time

The check and the tailer run side by side in a time that jumps from one event to the next: an entry
of the timeline that is due, or the end of a sleep. Of two sleeps that end at the same time the one
that began first ends first, and an entry that is due comes before both. While the check sleeps the
world goes on: that is what its sleep consists of.
-/
namespace CycleWatch.Rehearsal

/-- Something that happens at its time. -/
inductive Cue where
  /-- Something is done to the sink. -/
  | sink (act : Sink.Act)
  /-- The check is called off. -/
  | cancel
deriving DecidableEq, Repr

/-- The world around the check between two of its requests. The sink is of any kind `σ`. -/
structure Play (σ : Type) where
  /-- The time in milliseconds. -/
  timeMs : Nat
  /-- What is still to happen, with its time, soonest first. -/
  timeline : List (Nat × Cue)
  /-- The sink. -/
  sink : σ
  /-- The tailer. -/
  tailer : Tailer
  /-- Whether the tailer has started. -/
  started : Bool
  /-- When the tailer's sleep ends. -/
  wakeMs : Nat
  /-- The number of the tailer's sleep among all sleeps. -/
  wakeOrder : Nat
  /-- How many sleeps have begun. -/
  sleepsBegun : Nat
  /-- Whether the check is called off. -/
  cancelled : Bool
  /-- The events logged so far, latest first. -/
  events : List Log.Event

/-- What a sink is read and changed by. -/
structure SinkAccess (σ : Type) where
  /-- A reading. -/
  read : σ → Tailer.Reading × σ
  /-- The sink after an act. -/
  apply : Sink.Act → σ → σ

namespace Play

variable {σ : Type}

/-- The time as a clock shows it. -/
def clock (p : Play σ) : UInt64 :=
  UInt64.ofNat p.timeMs

/-- Takes note of events, the earliest first. -/
def note (p : Play σ) (events : List Log.Event) : Play σ :=
  { p with events := events.reverse ++ p.events }

/-- The tailer's sleep begins. -/
def beginTailerSleep (p : Play σ) : Play σ :=
  { p with
    wakeMs := p.timeMs + p.tailer.options.pollInterval.millis.toNat
    wakeOrder := p.sleepsBegun
    sleepsBegun := p.sleepsBegun + 1 }

/-- Answers the reading that the tailer has asked for, if it has, and lets it sleep again. -/
def answer (access : SinkAccess σ) (p : Play σ) : Play σ :=
  match p.tailer.phase with
  | .reading =>
    let (reading, sink) := access.read p.sink
    let (tailer, events) := p.tailer.step (.answered reading p.clock)
    beginTailerSleep (note { p with tailer, sink } events)
  | _ => p

/-- Starts the tailer, unless it has started. -/
def startTailer (access : SinkAccess σ) (p : Play σ) : Play σ :=
  if p.started then p
  else
    let (tailer, events) := Tailer.start p.tailer.options p.cancelled
    answer access (note { p with tailer, started := true } events)

/-- Ends the tailer's sleep, if it sleeps. -/
def wakeTailer (access : SinkAccess σ) (slept : Except Fault Unit) (p : Play σ) : Play σ :=
  let (tailer, events) := p.tailer.step (.woken slept p.cancelled)
  answer access (note { p with tailer } events)

/-- Whether the tailer's sleep ends before another one. -/
def tailerIsNext (p : Play σ) (deadlineMs order : Nat) : Bool :=
  p.tailer.phase = .sleeping &&
    (p.wakeMs < deadlineMs || p.wakeMs = deadlineMs && p.wakeOrder < order)

/-- The time at which the next sleep ends. -/
def nextWakeMs (p : Play σ) (deadlineMs order : Nat) : Nat :=
  if p.tailerIsNext deadlineMs order then p.wakeMs else deadlineMs

/-- Lets at most `fuel` things happen while the check sleeps until `deadlineMs`, and tells how its
sleep ends. -/
def passTime (access : SinkAccess σ) (deadlineMs order : Nat) :
    (fuel : Nat) → Play σ → Except Fault Unit × Play σ
  | 0, p => (.ok (), { p with timeMs := deadlineMs })
  | fuel + 1, p =>
    match p.timeline with
    | (dueMs, cue) :: rest =>
      if dueMs ≤ p.nextWakeMs deadlineMs order then
        let p := { p with timeMs := dueMs, timeline := rest }
        match cue with
        | .sink act => passTime access deadlineMs order fuel { p with sink := access.apply act p.sink }
        | .cancel => (.error Clock.refused, { p with cancelled := true })
      else passSleep fuel p
    | [] => passSleep fuel p
where
  /-- Lets the next sleep end. -/
  passSleep (fuel : Nat) (p : Play σ) : Except Fault Unit × Play σ :=
    if p.tailerIsNext deadlineMs order then
      passTime access deadlineMs order fuel (wakeTailer access (.ok ()) { p with timeMs := p.wakeMs })
    else (.ok (), { p with timeMs := deadlineMs })

/-- How many things can happen until `deadlineMs`: every entry of the timeline once, and the end of a
sleep of the tailer once in a millisecond. -/
def thingsUntil (p : Play σ) (deadlineMs : Nat) : Nat :=
  p.timeline.length + (deadlineMs - p.timeMs) + 2

/-- The check sleeps, and the world goes on. -/
def sleep (access : SinkAccess σ) (duration : Duration) (p : Play σ) : Except Fault Unit × Play σ :=
  if p.cancelled then (.error Clock.refused, p)
  else
    let order := p.sleepsBegun
    let deadlineMs := p.timeMs + duration.millis.toNat
    let p := startTailer access { p with sleepsBegun := p.sleepsBegun + 1 }
    passTime access deadlineMs order (p.thingsUntil deadlineMs) p

/-- The world as the surroundings of the check. -/
def surroundings (access : SinkAccess σ) : Surroundings (Play σ) where
  clock p := (p.clock, p)
  cancelled p := (p.cancelled, p)
  snapshot p := (p.tailer.published, p)
  sleep := sleep access
  emit event p := note p [event]

/-- The check has ended, and the tailer is stopped: it starts first if it has not yet, only to find
itself called off. -/
def stopTailer (access : SinkAccess σ) (p : Play σ) : Play σ :=
  let called := p.cancelled
  let p := { p with cancelled := true }
  let p := wakeTailer access (.error Clock.refused) (startTailer access p)
  { p with cancelled := called }

/-- The world at the start, with what the timeline has for that time done already. Entries for the
same time keep their order. -/
def opening (access : SinkAccess σ) (sink : σ) (options : Tailer.Options) (startMs : Nat)
    (timeline : List (Nat × Cue)) (cancelled : Bool) : Play σ :=
  let (now, later) :=
    (timeline.mergeSort fun a b => a.1 ≤ b.1).partition fun entry => entry.1 ≤ startMs
  let p : Play σ :=
    ⟨startMs, later, sink, ⟨options, .empty, .sleeping⟩, false, startMs, 0, 0, cancelled, []⟩
  now.foldl
    (fun p entry => match entry.2 with
      | .sink act => { p with sink := access.apply act p.sink }
      | .cancel => { p with cancelled := true })
    p

/-- The whole rehearsal: the result of the check and the world after it. -/
def perform (access : SinkAccess σ) (settings : Cycle.Settings) (p : Play σ) :
    Except Fault Cycle.Report × Play σ :=
  let (result, p) := (Cycle.check settings).run (surroundings access) p
  (result, stopTailer access p)

end Play

end CycleWatch.Rehearsal
