import CycleWatch.Routine
import CycleWatch.Wait.State
/-!
# Waiting for news

The wait looks at the snapshot published last, sleeps when there is no news in it, and looks again,
until it has news, has used up its attempts, or is called off. It also sleeps after its last attempt,
and a cancellation during that sleep counts as one.
-/
namespace CycleWatch.Wait

/-- What counts as news, and how long to wait for it. -/
structure Request where
  /-- What has been seen already. -/
  baseline : Baseline
  /-- How long to wait. -/
  policy : Policy
deriving DecidableEq, Repr

/-- The name of the operation in the context of its faults. -/
def operation : String := "wait_for_update"

/-- Looks at snapshots from a state on, at most `fuel` of them, and yields the state in which the
looking ended; a sleep that fails for another reason than a cancellation ends it with that fault. -/
def poll (request : Request) : (fuel : Nat) → State → Routine (Except Fault State)
  | fuel + 1, .polling attempt =>
    .askCancelled fun
    | true => .done (.ok (State.cancel attempt (.polling attempt)))
    | false =>
      .takeSnapshot fun snapshot =>
        match State.observe request.baseline request.policy snapshot (.polling attempt) with
        | .succeeded news => .done (.ok (.succeeded news))
        | state =>
          .sleep request.policy.delay fun
          | .error fault =>
            if fault.isCancelled then .done (.ok (state.cancel attempt)) else .done (.error fault)
          | .ok () =>
            match state with
            | .timedOut attempts => .done (.ok (.timedOut attempts))
            | state => poll request fuel state
  | _, state => .done (.ok state)

/-- What one attempt does. -/
theorem poll_succ_run {σ : Type} (w : Surroundings σ) (request : Request) (fuel : Nat)
    (attempt : UInt32) (s : σ) :
    (poll request (fuel + 1) (.polling attempt)).run w s =
      let (called, s) := w.cancelled s
      if called then (.ok (.cancelled attempt), s)
      else
        let (snapshot, s) := w.snapshot s
        if State.isNews request.baseline snapshot then (.ok (.succeeded snapshot), s)
        else
          let (slept, s) := w.sleep request.policy.delay s
          match slept with
          | .error fault => (if fault.isCancelled then .ok (.cancelled attempt) else .error fault, s)
          | .ok () =>
            if request.policy.maxAttempts ≤ attempt then (.ok (.timedOut attempt), s)
            else (poll request fuel (.polling (attempt + 1))).run w s := by
  rcases hcancelled : w.cancelled s with ⟨called, s₁⟩
  cases called with
  | true => simp [poll, Routine.run, hcancelled, State.cancel]
  | false =>
      rcases hsnapshot : w.snapshot s₁ with ⟨snapshot, s₂⟩
      cases hnews : State.isNews request.baseline snapshot with
      | true => simp [poll, Routine.run, hcancelled, hsnapshot, hnews, State.observe]
      | false =>
          rcases hsleep : w.sleep request.policy.delay s₂ with ⟨slept, s₃⟩
          cases slept with
          | error fault =>
              cases hfault : fault.isCancelled <;>
                by_cases hlast : request.policy.maxAttempts ≤ attempt <;>
                simp [poll, Routine.run, hcancelled, hsnapshot, hnews, State.observe, hlast, hsleep,
                  hfault, State.cancel]
          | ok _ =>
              by_cases hlast : request.policy.maxAttempts ≤ attempt <;>
                simp [poll, Routine.run, hcancelled, hsnapshot, hnews, State.observe, hlast, hsleep]

/-- The fault of a wait without news. -/
def timeoutFault (request : Request) (attempts : UInt32) (elapsedMs : UInt64) : Fault :=
  let message := "metrics file update not received after " ++ Text.natText attempts.toNat ++
    " tries in " ++ request.policy.budget.inSeconds.text ++ " sec"
  (((((Fault.timedOut message).withContext "operation" operation).withContext
    "attempts" (Text.natText attempts.toNat)).withContext
    "elapsedMs" (Text.natText elapsedMs.toNat)).withContext
    "baseline" request.baseline.text)

/-- The fault of a wait that was called off. -/
def cancelledFault (attempt : UInt32) : Fault :=
  ((Fault.cancelled "wait for metrics update cancelled").withContext
    "operation" operation).withContext "attempt" (Text.natText attempt.toNat)

/-- The event of news. -/
def receivedEvent (request : Request) (news : Snapshot) (elapsedMs : UInt64) : Log.Event :=
  .plain .debug "waiter.update_received" "Metrics update received" <| some <| Dict.ofList
    [("version", Log.number news.version.number), ("baseline", .str request.baseline.text),
      ("elapsedMs", Log.number elapsedMs)]

/-- The event of a wait without news. -/
def timedOutEvent (request : Request) (attempts : UInt32) (elapsedMs : UInt64) : Log.Event :=
  .plain .warn "waiter.timed_out" (timeoutFault request attempts elapsedMs).message <| some <|
    Dict.ofList
      [("attempts", .str (Text.natText attempts.toNat)),
        ("elapsedMs", .str (Text.natText elapsedMs.toNat)),
        ("baseline", .str request.baseline.text)]

/-- The event of a wait that was called off. -/
def cancelledEvent (request : Request) (attempt : UInt32) : Log.Event :=
  .plain .info "waiter.cancelled" "Wait for metrics update cancelled" <| some <| Dict.ofList
    [("attempt", .str (Text.natText attempt.toNat)), ("baseline", .str request.baseline.text)]

/-- Logs how a wait ended after so many milliseconds, and yields its result. -/
def conclude (request : Request) (elapsedMs : UInt64) : State → Routine (Except Fault Snapshot)
  | .succeeded news => .emit (receivedEvent request news elapsedMs) (.done (.ok news))
  | .timedOut attempts =>
    .emit (timedOutEvent request attempts elapsedMs)
      (.done (.error (timeoutFault request attempts elapsedMs)))
  | .cancelled attempt =>
    .emit (cancelledEvent request attempt) (.done (.error (cancelledFault attempt)))
  | .polling _ => .done (.error (Fault.invariant .internal "wait loop exited while polling"))

/-- Waits for news. -/
def await (request : Request) : Routine (Except Fault Snapshot) :=
  .readClock fun startMs =>
    (poll request request.policy.maxAttempts.toNat .start).bind fun
    | .error fault => .done (.error fault)
    | .ok state =>
      .readClock fun endMs => conclude request (Word.elapsed startMs endMs) state

/-- What the wait makes of the end of its polling. -/
theorem await_run {σ : Type} (w : Surroundings σ) (request : Request) (s : σ) :
    (await request).run w s =
      match (poll request request.policy.maxAttempts.toNat .start).run w (w.clock s).2 with
      | (.error fault, q) => (.error fault, q)
      | (.ok state, q) =>
        (conclude request (Word.elapsed (w.clock s).1 (w.clock q).1) state).run w (w.clock q).2 := by
  rcases hclock : w.clock s with ⟨startMs, s₁⟩
  rcases hpoll : (poll request request.policy.maxAttempts.toNat .start).run w s₁ with ⟨result, q⟩
  cases result with
  | error fault => simp only [await, Routine.run, Routine.run_bind, hclock, hpoll]
  | ok state => simp only [await, Routine.run, Routine.run_bind, hclock, hpoll]

end CycleWatch.Wait
